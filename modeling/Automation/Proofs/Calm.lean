import Mathlib.Data.List.Perm.Subperm
import Automation.Proofs.Roster
import Automation.Proofs.Solo
/-! Dispatchers that do with each task what a task runtime of its own would do. What one task's run
comes to is nothing to another's: where the others are, parked or in flight, and what they come to,
stays as it is. -/
namespace Automation

namespace Course

structure Bound (flight : Flight) (batch : Batch) (c : Core) (v : Except Stop Outcome)
    (course : Course) : Prop where
  kept : course.Kept Demand.Private flight batch
  meets : ∀ world, course.run.isActive world = true →
    (course.process flight batch world).Meets c v

end Course

inductive Landing.Of (c : Core) : Except Stop Outcome → Landing → Prop where
  | ended {run : Run} {outcome : Outcome} {occasion : Occasion}
      (same : c = ⟨run.task, run.origin, run.batch, run.slate, occasion⟩) :
      Of c (.ok outcome) (.back run (some outcome))
  | cancelled {run : Run} {occasion : Occasion}
      (same : c = ⟨run.task, run.origin, run.batch, run.slate, occasion⟩) :
      Of c (.error .cancelled) (.back run none)
  | crashed : Of c (.error .panicked) .crashed

namespace Dispatcher
variable {d d' : Dispatcher} {u : Solo} {batch : Batch} {key : TaskKey}

structure Spares (key : TaskKey) (d d' : Dispatcher) : Prop where
  parked : d'.parked.get? key = d.parked.get? key
  handles : ∀ h, d'.world.handles.isCancelled h = d.world.handles.isCancelled h

theorem sparesActive (spares : d.Spares key d') (run : Run) :
    run.isActive d'.world = run.isActive d.world := congrArg not (spares.handles run.handle)

def Rests (d : Dispatcher) (key : TaskKey) (u : Solo) : Prop :=
  (d.parked.get? key).map Run.anonymous = u.pending.map fun p => p.1.anonymous

structure Flies (d : Dispatcher) (u : Solo) (batch : Batch) (f : Flight × Course) : Prop where
  away : d.parked.get? f.1.key = none
  active : f.2.run.isActive d.world = true
  bound : ∃ c v, u.Tells batch f.1.resumed f.1.context c v ∧ f.2.Bound f.1 batch c v

structure Lands (d : Dispatcher) (u : Solo) (batch : Batch) (f : Flight × Landing) : Prop where
  away : d.parked.get? f.1.key = none
  active : ∀ run outcome, f.2 = .back run outcome → run.isActive d.world = true
  bound : ∃ c v, u.Tells batch f.1.resumed f.1.context c v ∧ Landing.Of c v f.2

structure Settles (d : Dispatcher) (u : Solo) (batch : Batch) (r : TaskRun) : Prop where
  told : (u.next batch).1 = some r.account
  rests : d.Rests r.key (u.next batch).2

theorem restsSpared (spares : d.Spares key d') (rests : d.Rests key u) : d'.Rests key u := by
  rw [Rests, spares.parked]
  exact rests

theorem fliesSpared {f : Flight × Course} (spares : d.Spares f.1.key d')
    (flies : d.Flies u batch f) : d'.Flies u batch f where
  away := spares.parked.trans flies.away
  active := (sparesActive spares f.2.run).trans flies.active
  bound := flies.bound

theorem landsSpared {f : Flight × Landing} (spares : d.Spares f.1.key d')
    (lands : d.Lands u batch f) : d'.Lands u batch f where
  away := spares.parked.trans lands.away
  active := fun run outcome same =>
    (sparesActive spares run).trans (lands.active run outcome same)
  bound := lands.bound

theorem settlesSpared {r : TaskRun} (spares : d.Spares r.key d') (settles : d.Settles u batch r) :
    d'.Settles u batch r :=
  ⟨settles.told, restsSpared spares settles.rests⟩

/- What stays as it is in a dispatch, with room for a run of every task. -/
structure Houses (d₀ d : Dispatcher) : Prop where
  tasks : d.tasks = d₀.tasks
  observer : d.observer = d₀.observer
  maxParked : d.maxParked = d₀.maxParked
  world : d.world.Sound
  room : d.tasks.size ≤ d.maxParked
  parkedTasks : ∀ key ∈ d.parked.keys, key ∈ d.tasks.keys
  parkedActive : ∀ key run, d.parked.get? key = some run → run.isActive d.world = true

end Dispatcher

structure Keyed (d₀ : Dispatcher) (souls : TaskKey → Solo) (batch : Batch) (d : Dispatcher)
    (keys : List TaskKey) : Prop where
  unique : keys.Nodup
  known : ∀ key ∈ keys, key ∈ d₀.tasks.keys
  resting : ∀ key task, d₀.tasks.get? key = some task → task.metadata.enabled = true →
    key ∉ keys → ((souls key).next batch).1 = none ∧ d.Rests key ((souls key).next batch).2

def keysOf (loose : List TaskKey) (todo : List (TaskKey × Task)) (flying : List (Flight × Course))
    (landed : List (Flight × Landing)) (runs : List TaskRun) : List TaskKey :=
  loose ++ todo.map Prod.fst ++ flying.map (fun f => f.1.key) ++ landed.map (fun f => f.1.key) ++
    runs.map TaskRun.key

structure Calm (d₀ : Dispatcher) (souls : TaskKey → Solo) (batch : Batch) (loose : List TaskKey)
    (d : Dispatcher) (todo : List (TaskKey × Task)) (flying : List (Flight × Course))
    (landed : List (Flight × Landing)) (runs : List TaskRun) : Prop where
  houses : Dispatcher.Houses d₀ d
  keyed : Keyed d₀ souls batch d (keysOf loose todo flying landed runs)
  todo : ∀ row ∈ todo, d₀.tasks.get? row.1 = some row.2 ∧
    (row.2.metadata.enabled = true → d.Rests row.1 (souls row.1))
  flying : ∀ f ∈ flying, d.Flies (souls f.1.key) batch f
  landed : ∀ f ∈ landed, d.Lands (souls f.1.key) batch f
  settled : ∀ r ∈ runs, d.Settles (souls r.key) batch r

section
variable {d₀ d d' : Dispatcher} {souls : TaskKey → Solo} {batch : Batch} {keys : List TaskKey}
  {todo : List (TaskKey × Task)} {flying : List (Flight × Course)}
  {landed : List (Flight × Landing)} {runs : List TaskRun}

theorem keyedPerm {keys' : List TaskKey} (keyed : Keyed d₀ souls batch d keys)
    (perm : keys.Perm keys') : Keyed d₀ souls batch d keys' where
  unique := perm.nodup_iff.mp keyed.unique
  known := fun key inside => keyed.known key (perm.mem_iff.mpr inside)
  resting := fun key task found on outside =>
    keyed.resting key task found on fun inside => outside (perm.mem_iff.mp inside)

theorem keysTodo (loose : List TaskKey) (row : TaskKey × Task)
    (before after : List (TaskKey × Task)) :
    (keysOf loose (before ++ row :: after) flying landed runs).Perm
      (keysOf (row.1 :: loose) (before ++ after) flying landed runs) := by
  refine List.perm_iff_count.mpr fun k => ?_
  simp only [keysOf, List.map_append, List.map_cons, List.count_append, List.count_cons]
  omega

theorem keysFlying (loose : List TaskKey) (f : Flight × Course)
    (before after : List (Flight × Course)) :
    (keysOf loose todo (before ++ f :: after) landed runs).Perm
      (keysOf (f.1.key :: loose) todo (before ++ after) landed runs) := by
  refine List.perm_iff_count.mpr fun k => ?_
  simp only [keysOf, List.map_append, List.map_cons, List.count_append, List.count_cons]
  omega

theorem keysLanded (loose : List TaskKey) (f : Flight × Landing)
    (before after : List (Flight × Landing)) :
    (keysOf loose todo flying (before ++ f :: after) runs).Perm
      (keysOf (f.1.key :: loose) todo flying (before ++ after) runs) := by
  refine List.perm_iff_count.mpr fun k => ?_
  simp only [keysOf, List.map_append, List.map_cons, List.count_append, List.count_cons]
  omega

theorem calmMoves {key : TaskKey} (calm : Calm d₀ souls batch [key] d todo flying landed runs)
    (houses : Dispatcher.Houses d₀ d') (spares : ∀ k, k ≠ key → d.Spares k d') :
    Calm d₀ souls batch [key] d' todo flying landed runs := by
  have others : ∀ k ∈ keysOf [] todo flying landed runs, d.Spares k d' := by
    intro k inside
    have absent := (List.nodup_cons.mp calm.keyed.unique).1
    exact spares k fun same => absent (same ▸ inside)
  refine ⟨houses, ⟨calm.keyed.unique, calm.keyed.known, ?_⟩, ?_, ?_, ?_, ?_⟩
  · intro k task found on outside
    have other : k ≠ key := fun same => outside (same ▸ List.mem_cons_self)
    obtain ⟨quiet, rests⟩ := calm.keyed.resting k task found on outside
    exact ⟨quiet, Dispatcher.restsSpared (spares k other) rests⟩
  · intro row inside
    have spared := others row.1 (by
      simp only [keysOf, List.mem_append, List.mem_map]
      exact .inl (.inl (.inl (.inr ⟨row, inside, rfl⟩))))
    obtain ⟨found, rests⟩ := calm.todo row inside
    exact ⟨found, fun on => Dispatcher.restsSpared spared (rests on)⟩
  · intro f inside
    have spared := others f.1.key (by
      simp only [keysOf, List.mem_append, List.mem_map]
      exact .inl (.inl (.inr ⟨f, inside, rfl⟩)))
    exact Dispatcher.fliesSpared spared (calm.flying f inside)
  · intro f inside
    have spared := others f.1.key (by
      simp only [keysOf, List.mem_append, List.mem_map]
      exact .inl (.inr ⟨f, inside, rfl⟩))
    exact Dispatcher.landsSpared spared (calm.landed f inside)
  · intro r inside
    have spared := others r.key (by
      simp only [keysOf, List.mem_append, List.mem_map]
      exact .inr ⟨r, inside, rfl⟩)
    exact Dispatcher.settlesSpared spared (calm.settled r inside)

theorem calmTakeTodo {row : TaskKey × Task} {before after : List (TaskKey × Task)}
    (calm : Calm d₀ souls batch [] d (before ++ row :: after) flying landed runs) :
    Calm d₀ souls batch [row.1] d (before ++ after) flying landed runs := by
  have keyed := keyedPerm calm.keyed (keysTodo [] row before after)
  exact ⟨calm.houses, keyed, fun x inside => calm.todo x (othersAmong rfl inside), calm.flying,
    calm.landed, calm.settled⟩

theorem calmTakeFlying {f : Flight × Course} {before after : List (Flight × Course)}
    (calm : Calm d₀ souls batch [] d todo (before ++ f :: after) landed runs) :
    Calm d₀ souls batch [f.1.key] d todo (before ++ after) landed runs := by
  have keyed := keyedPerm calm.keyed (keysFlying [] f before after)
  exact ⟨calm.houses, keyed, calm.todo, fun x inside => calm.flying x (othersAmong rfl inside),
    calm.landed, calm.settled⟩

theorem calmTakeLanded {f : Flight × Landing} {before after : List (Flight × Landing)}
    (calm : Calm d₀ souls batch [] d todo flying (before ++ f :: after) runs) :
    Calm d₀ souls batch [f.1.key] d todo flying (before ++ after) runs := by
  have keyed := keyedPerm calm.keyed (keysLanded [] f before after)
  exact ⟨calm.houses, keyed, calm.todo, calm.flying,
    fun x inside => calm.landed x (othersAmong rfl inside), calm.settled⟩

theorem calmFly {f : Flight × Course} {before after : List (Flight × Course)}
    (calm : Calm d₀ souls batch [f.1.key] d todo (before ++ after) landed runs)
    (flies : d.Flies (souls f.1.key) batch f) :
    Calm d₀ souls batch [] d todo (before ++ f :: after) landed runs := by
  have keyed := keyedPerm calm.keyed (keysFlying [] f before after).symm
  refine ⟨calm.houses, keyed, calm.todo, fun x inside => ?_, calm.landed, calm.settled⟩
  rcases List.mem_append.mp inside with old | here
  · exact calm.flying x (List.mem_append_left after old)
  · rcases List.mem_cons.mp here with rfl | old
    · exact flies
    · exact calm.flying x (List.mem_append_right before old)

theorem calmLand {f : Flight × Landing}
    (calm : Calm d₀ souls batch [f.1.key] d todo flying landed runs)
    (lands : d.Lands (souls f.1.key) batch f) :
    Calm d₀ souls batch [] d todo flying (landed ++ [f]) runs := by
  have keyed := calm.keyed
  rw [← List.append_nil landed] at keyed
  have keyed' := keyedPerm keyed (keysLanded [] f landed []).symm
  refine ⟨calm.houses, keyed', calm.todo, calm.flying, fun x inside => ?_,
    calm.settled⟩
  rcases List.mem_append.mp inside with old | here
  · exact calm.landed x old
  · cases List.mem_singleton.mp here
    exact lands

theorem calmSettle {r : TaskRun} (calm : Calm d₀ souls batch [r.key] d todo flying landed runs)
    (settles : d.Settles (souls r.key) batch r) :
    Calm d₀ souls batch [] d todo flying landed (Report.place r runs) := by
  refine ⟨calm.houses, keyedPerm calm.keyed ?_, calm.todo, calm.flying, calm.landed,
    fun x inside => ?_⟩
  · refine List.perm_iff_count.mpr fun k => ?_
    have placed := ((Sky.placeKeys r runs).map TaskRun.key).count_eq k
    rw [List.map_cons] at placed
    simp only [keysOf, List.count_append, placed, List.count_cons, List.count_nil]
    omega
  · rcases List.mem_cons.mp ((Sky.placeKeys r runs).mem_iff.mp inside) with rfl | old
    · exact settles
    · exact calm.settled x old

theorem calmRest {key : TaskKey} (calm : Calm d₀ souls batch [key] d todo flying landed runs)
    (rests : ∀ task, d₀.tasks.get? key = some task → task.metadata.enabled = true →
      ((souls key).next batch).1 = none ∧ d.Rests key ((souls key).next batch).2) :
    Calm d₀ souls batch [] d todo flying landed runs := by
  refine ⟨calm.houses, ⟨(List.nodup_cons.mp calm.keyed.unique).2, fun k inside =>
    calm.keyed.known k (List.mem_cons_of_mem key inside), ?_⟩, calm.todo, calm.flying, calm.landed,
    calm.settled⟩
  intro k task found on outside
  by_cases same : k = key
  · subst same
    exact rests task found on
  · refine calm.keyed.resting k task found on fun inside => ?_
    exact (List.mem_cons.mp inside).elim same outside

end

namespace Dispatcher
variable {d₀ d d' : Dispatcher}

theorem housesWorld {w : World} (houses : Houses d₀ d) (sound : w.Sound)
    (handles : ∀ h, w.handles.isCancelled h = d.world.handles.isCancelled h) :
    Houses d₀ { d with world := w } :=
  { houses with
    world := sound
    parkedActive := fun key run parked =>
      (congrArg not (handles run.handle)).trans (houses.parkedActive key run parked) }

theorem housesRoom {key : TaskKey} (houses : Houses d₀ d) (known : key ∈ d.tasks.keys)
    (away : d.parked.get? key = none) : d.parked.size < d.maxParked := by
  have absent : key ∉ d.parked.keys := by
    intro inside
    obtain ⟨run, found⟩ := Table.keyGet inside
    rw [found] at away
    cases away
  have each : (key :: d.parked.keys).Nodup := List.nodup_cons.mpr ⟨absent, d.parked.unique⟩
  have among : key :: d.parked.keys ⊆ d.tasks.keys :=
    List.cons_subset.mpr ⟨known, houses.parkedTasks⟩
  have fits := (each.subperm among).length_le
  simp only [Table.keys, List.length_cons, List.length_map] at fits
  exact Nat.lt_of_lt_of_le fits houses.room

theorem housesPark {key : TaskKey} {run : Run} (houses : Houses d₀ d) (known : key ∈ d.tasks.keys)
    (active : run.isActive d.world = true) :
    Houses d₀ { d with parked := d.parked.insert key run } :=
  { houses with
    parkedTasks := fun k inside => (Table.insertKey inside).elim (fun same => same ▸ known)
      (houses.parkedTasks k)
    parkedActive := fun k other found => by
      rcases Table.insertFound found with ⟨-, rfl⟩ | old
      · exact active
      · exact houses.parkedActive k other old }

theorem housesFree (houses : Houses d₀ d) (key : TaskKey) :
    Houses d₀ { d with parked := d.parked.erase key } :=
  { houses with
    parkedTasks := fun k inside => houses.parkedTasks k (Table.eraseKey inside)
    parkedActive := fun k run found => houses.parkedActive k run (Table.eraseFound found).2 }

theorem settleHouses {u : Solo} {batch : Batch} {flight : Flight} {landing : Landing}
    (houses : Houses d₀ d) (known : flight.key ∈ d.tasks.keys)
    (lands : d.Lands u batch (flight, landing)) :
    Houses d₀ (d.settle flight landing).2 ∧
      (d.settle flight landing).2.Settles u batch (d.settle flight landing).1 ∧
      ∀ k, k ≠ flight.key → d.Spares k (d.settle flight landing).2 := by
  obtain ⟨c, v, tells, of⟩ := lands.bound
  have gone : (d.parked.get? flight.key).map Run.anonymous = none := by
    rw [lands.away]
    rfl
  have recycled (run : Run) : Houses d₀ { d with world := d.world.recycle run } :=
    housesWorld houses (World.recycleSound houses.world run) fun h => rfl
  cases of with
  | @ended run outcome occasion same =>
    subst same
    cases outcome with
    | completed =>
      exact ⟨{ recycled run with }, ⟨tells.account, gone.trans tells.pending.symm⟩,
        fun k other => ⟨rfl, fun h => rfl⟩⟩
    | suspended =>
      have room := housesRoom houses known lands.away
      have parked := housesPark houses known (lands.active run _ rfl)
      simp only [settle, room, if_true]
      refine ⟨{ parked with }, ⟨tells.account, ?_⟩, fun k other => ⟨?_, fun h => rfl⟩⟩
      · rw [Rests, tells.pending, Table.getInsert, if_pos rfl]
        rfl
      · rw [Table.getInsert, if_neg (Ne.symm other)]
  | @cancelled run occasion same =>
    subst same
    exact ⟨{ recycled run with }, ⟨tells.account, gone.trans tells.pending.symm⟩,
      fun k other => ⟨rfl, fun h => rfl⟩⟩
  | crashed =>
    exact ⟨{ houses with }, ⟨tells.account, gone.trans tells.pending.symm⟩,
      fun k other => ⟨rfl, fun h => rfl⟩⟩

structure Souled (d : Dispatcher) (task : Task) (u : Solo) : Prop where
  task : u.task = task
  observer : u.observer = d.observer
  sound : u.Sound

variable {u : Solo} {batch : Batch} {key : TaskKey} {task : Task} {run : Run}

theorem restsPending (rests : d.Rests key u) (parked : d.parked.get? key = some run) :
    ∃ run' started, u.pending = some (run', started) ∧ run.anonymous = run'.anonymous := by
  rw [Rests, parked] at rests
  cases pending : u.pending with
  | none =>
    rw [pending] at rests
    cases rests
  | some p =>
    rw [pending] at rests
    exact ⟨p.1, p.2, rfl, Option.some.inj rests⟩

theorem restsIdle (rests : d.Rests key u) (absent : d.parked.get? key = none) :
    u.pending = none := by
  rw [Rests, absent] at rests
  exact Option.map_eq_none_iff.mp rests.symm

theorem waitsNext (rests : d.Rests key u) (parked : d.parked.get? key = some run)
    (refuse : run.qualifies batch.events = false) : u.next batch = (none, u) := by
  obtain ⟨run', started, pending, same⟩ := restsPending rests parked
  exact Solo.nextWaits pending ((Run.alikeQualifies same batch.events).symm.trans refuse)

theorem resumesFlies (souled : d.Souled task u) (rests : d.Rests key u)
    (parked : d.parked.get? key = some run) (active : run.isActive d.world = true)
    (accept : run.qualifies batch.events = true) (away : d'.parked.get? key = none)
    (handles : ∀ h, d'.world.handles.isCancelled h = d.world.handles.isCancelled h) :
    d'.Flies u batch (Dispatch.resumption batch key task run, .ready run) := by
  obtain ⟨run', started, pending, same⟩ := restsPending rests parked
  have accept' : run'.qualifies batch.events = true :=
    (Run.alikeQualifies same batch.events).symm.trans accept
  obtain ⟨c, v, tells, sound, meets⟩ := Solo.nextResumes souled.sound pending accept'
  obtain ⟨task', origin', active'⟩ := souled.sound.own run' started pending
  have origin : run.origin = started := (congrArg Run.origin same).trans origin'
  have only : run.task.tree.Only Demand.Private := by
    rw [show run.task = u.task from (congrArg Run.task same).trans task']
    exact souled.sound.only
  refine ⟨away, (congrArg not (handles run.handle)).trans active, c, v, ?_,
    Course.readyKept rfl only, fun world active => ?_⟩
  · rw [Dispatch.resumption, origin]
    exact tells
  · have called := meets ⟨run, .ofBatch run.task batch, world, []⟩ (Run.alikeCore same batch) active
    have flown := Walk.meetsMap called fun o => o.getD .suspended
    cases v <;> exact flown

theorem startsFlies (houses : Houses d₀ d) (souled : d.Souled task u) (rests : d.Rests key u)
    (absent : d.parked.get? key = none) (parked : d'.parked = d.parked)
    (world : d'.world = (Dispatch.firstRun d batch task).2.world) :
    d'.Flies u batch (Dispatch.firstFlight batch key task (Dispatch.firstRun d batch task).1.handle,
      .ready (Dispatch.firstRun d batch task).1) := by
  obtain ⟨c, v, tells, sound, meets⟩ :=
    Solo.nextStarts souled.sound (restsIdle rests absent) batch
  have core := Run.alikeCore (World.beginFirst houses.world task batch d.observer) batch
  have only : task.tree.Only Demand.Private := souled.task ▸ souled.sound.only
  refine ⟨(congrArg (Table.get? · key) parked).trans absent, ?_, c, v, tells,
    Course.readyKept rfl only, fun world active => ?_⟩
  · rw [world]
    exact (World.beginSound houses.world task batch).2
  · refine meets _ ?_ active
    rw [souled.task, souled.observer]
    exact core

end Dispatcher

end Automation
