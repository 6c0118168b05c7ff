import Automation.Proofs.Calm
/-! Dispatches of tasks that keep to themselves. Whatever the others do, and in whichever order,
the dispatcher does with the batches for each task what its own runtime would do. -/
namespace Automation

def idleTask (souls : TaskKey → Solo) (batch : Batch) (row : TaskKey × Task) : Bool :=
  row.2.metadata.enabled && ((souls row.1).next batch).1.isNone

namespace Sky

structure Serene (d₀ : Dispatcher) (souls : TaskKey → Solo) (batch : Batch) (s : Sky) : Prop where
  dispatched : s.batch = batch
  calm : Calm d₀ souls batch [] s.dispatch.dispatcher s.todo s.flying s.dispatch.landed
    s.dispatch.runs
  stranded : s.dispatch.stranded = []
  counted : s.dispatch.stillParked + s.todo.countP (idleTask souls batch) =
    d₀.tasks.rows.countP (idleTask souls batch)

variable {d₀ : Dispatcher} {souls : TaskKey → Solo} {batch : Batch} {s : Sky}

theorem turnSpares {course : Course} {t : Scene} (sound : s.world.Sound)
    (frame : t.frame = (course.scene s.batch s.world).frame) :
    t.world.Sound ∧ ∀ h, t.world.handles.isCancelled h = s.world.handles.isCancelled h := by
  have world := course.sceneWorld s.batch s.world
  refine ⟨World.frameSound frame (world.symm ▸ sound), fun h => ?_⟩
  have handles : t.world.handles = (course.scene s.batch s.world).world.handles :=
    congrArg Frame.handles frame
  rw [handles, world]

theorem turnSerene (serene : s.Serene d₀ souls batch) {flight : Flight} {course : Course}
    {before after : List (Flight × Course)}
    (here : s.flying = before ++ (flight, course) :: after) :
    (s.turn flight course before after).Serene d₀ souls batch := by
  have calm := serene.calm
  rw [here] at calm
  have flies := calm.flying (flight, course) (by simp)
  obtain ⟨c, v, tells, bound⟩ := flies.bound
  have taken := calmTakeFlying calm
  have meets := bound.meets s.world flies.active
  have turns := bound.kept.turns s.world
  have handle := bound.kept.handle
  rw [← serene.dispatched] at meets turns
  unfold turn
  generalize course.process flight s.batch s.world = p at meets turns
  -- Private executors neither wait for ever nor halt anything, which leaves two ways to end a turn.
  cases p with
  | done t r =>
    obtain ⟨core, rfl, active⟩ := meets
    obtain ⟨sound, handles⟩ := turnSpares calm.houses.world (Frame.reachesPrivate turns)
    have moved := calmMoves taken (Dispatcher.housesWorld calm.houses sound handles)
      fun k other => ⟨rfl, handles⟩
    rw [← List.append_nil before] at moved
    have back (outcome : Option Outcome) (of : Landing.Of c r (.back t.run outcome)) :=
      calmLand (f := (flight, .back t.run outcome)) moved
        ⟨flies.away, fun run outcome same => (by cases same; exact active), c, r, tells, of⟩
    rcases r with (_ | _) | outcome
    · exact ⟨serene.dispatched, back none (.cancelled core.symm), serene.stranded, serene.counted⟩
    · have recycled := World.recycleSound sound t.run
      have moved := calmMoves moved (Dispatcher.housesWorld moved.houses recycled fun h => rfl)
        fun k other => ⟨rfl, fun h => rfl⟩
      have crashed := calmLand (f := (flight, .crashed)) moved
        ⟨flies.away, fun run outcome absurd => (by cases absurd), c, _, tells, .crashed⟩
      exact ⟨serene.dispatched, crashed, serene.stranded, serene.counted⟩
    · exact ⟨serene.dispatched, back _ (.ended core.symm), serene.stranded, serene.counted⟩
  | yield t next =>
    obtain ⟨sound, handles⟩ := turnSpares calm.houses.world (Frame.reachesPrivate turns.1)
    have moved := calmMoves taken (Dispatcher.housesWorld calm.houses sound handles)
      fun k other => ⟨rfl, handles⟩
    have still : (course.scene s.batch s.world).run.handle = flight.handle := by
      rw [course.sceneRun]
      exact handle
    have kept : (Course.paused t next).Kept Demand.Private flight batch :=
      Course.advanceKept still turns s.dispatch rfl
    have active : t.isActive = true := Scene.frameActive (Frame.reachesPrivate turns.1) (by
      rw [Scene.isActive, course.sceneRun, course.sceneWorld]
      exact flies.active)
    have flown := calmFly (f := (flight, .paused t next)) moved
      ⟨flies.away, active, c, v, tells, kept, fun world active => meets _ rfl rfl active⟩
    refine ⟨serene.dispatched, ?_, serene.stranded, serene.counted⟩
    rw [List.append_cons] at flown
    exact flown
  | pend t => exact meets.elim
  | haltAll t next => exact meets.elim

theorem stopSerene (serene : s.Serene d₀ souls batch) {flight : Flight} {scene : Scene}
    {next : Scene → Process Scene (Except Stop Outcome)} {before after : List (Flight × Course)}
    (here : s.flying = before ++ (flight, .paused scene next) :: after) :
    s.world.handles.isCancelled flight.handle = false := by
  have flies := serene.calm.flying (flight, .paused scene next) (by rw [here]; simp)
  obtain ⟨c, v, tells, bound⟩ := flies.bound
  rw [← bound.kept.handle]
  exact Bool.not_eq_true' _ |>.mp flies.active

theorem settleSerene (serene : s.Serene d₀ souls batch) {flight : Flight} {landing : Landing}
    {before after : List (Flight × Landing)}
    (here : s.dispatch.landed = before ++ (flight, landing) :: after) :
    Serene d₀ souls batch { s with
      dispatch := { s.dispatch with landed := before ++ after }.settle flight landing } := by
  have calm := serene.calm
  rw [here] at calm
  have lands := calm.landed (flight, landing) (by simp)
  have known : flight.key ∈ s.dispatch.dispatcher.tasks.keys := by
    rw [calm.houses.tasks]
    exact calm.keyed.known flight.key (by simp [keysOf])
  obtain ⟨houses, settles, spares⟩ := Dispatcher.settleHouses calm.houses known lands
  have key := settleKey s.dispatch.dispatcher flight landing
  have moved := calmMoves (calmTakeLanded calm) houses spares
  rw [← key] at moved settles
  exact ⟨serene.dispatched, calmSettle moved settles, serene.stranded, serene.counted⟩

theorem boardSerene (serene : s.Serene d₀ souls batch) {row : TaskKey × Task}
    {before after : List (TaskKey × Task)} (here : s.todo = before ++ row :: after)
    {f : Flight × Course} (key : f.1.key = row.1) {d : Dispatcher}
    (houses : Dispatcher.Houses d₀ d)
    (spares : ∀ k, k ≠ row.1 → s.dispatch.dispatcher.Spares k d)
    (flies : d.Flies (souls row.1) batch f) :
    Serene d₀ souls batch { s with
      dispatch := { s.dispatch with dispatcher := d }, batch, todo := before ++ after
      flying := s.flying ++ [f] } := by
  have calm := serene.calm
  have counted := serene.counted
  rw [here] at calm counted
  have moved := calmMoves (calmTakeTodo calm) houses spares
  rw [← List.append_nil s.flying, ← key] at moved
  rw [← key] at flies
  obtain ⟨c, v, tells, bound⟩ := flies.bound
  have told : idleTask souls batch row = false := by
    rw [key] at tells
    simp [idleTask, tells.account]
  refine ⟨rfl, calmFly moved flies, serene.stranded, ?_⟩
  simpa [told, List.countP_append, List.countP_cons] using counted

theorem sendSerene (souled : ∀ key task, d₀.tasks.get? key = some task →
    task.metadata.enabled = true → d₀.Souled task (souls key)) (serene : s.Serene d₀ souls batch)
    {row : TaskKey × Task} {before after : List (TaskKey × Task)}
    (here : s.todo = before ++ row :: after) :
    (s.send row (before ++ after)).Serene d₀ souls batch := by
  have calm := serene.calm
  have counted := serene.counted
  rw [here] at calm counted
  rw [List.countP_append, List.countP_cons] at counted
  obtain ⟨found, rests⟩ := calm.todo row (by simp)
  have taken := calmTakeTodo calm
  have sends := Dispatch.sendSends s.batch s.dispatch row.1 row.2
  unfold send
  rw [serene.dispatched] at sends ⊢
  generalize Dispatch.send batch [] s.dispatch row.1 row.2 = sent at sends
  have own (on : row.2.metadata.enabled = true) :
      s.dispatch.dispatcher.Souled row.2 (souls row.1) := by
    have soul := souled row.1 row.2 found on
    exact ⟨soul.task, soul.observer.trans calm.houses.observer.symm, soul.sound⟩
  cases sends with
  | disabled off =>
    have rested := calmRest taken fun task found' on => by
      cases found.symm.trans found'
      simp [off] at on
    have told : idleTask souls batch row = false := by simp [idleTask, off]
    refine ⟨rfl, ?_, serene.stranded, ?_⟩
    · simpa using rested
    · simpa [told, List.countP_append] using counted
  | @waits run on parked refuse =>
    -- The batch ends no wait of the run, so the task's own runtime has nothing to tell either.
    have quiet := Dispatcher.waitsNext (rests on) parked refuse
    have rested := calmRest taken fun task found' _ => by
      rw [quiet]
      exact ⟨rfl, rests on⟩
    have told : idleTask souls batch row = true := by simp [idleTask, on, quiet]
    refine ⟨rfl, ?_, serene.stranded, ?_⟩
    · simpa using rested
    · simp only [told, if_true] at counted
      simp only [List.countP_append]
      omega
  | @resumes run on parked accept =>
    have houses := Dispatcher.housesFree calm.houses row.1
    have away : (s.dispatch.dispatcher.parked.erase row.1).get? row.1 = none := by
      rw [Table.getErase, if_pos rfl]
    have others (k : TaskKey) (other : k ≠ row.1) :
        (s.dispatch.dispatcher.parked.erase row.1).get? k = s.dispatch.dispatcher.parked.get? k := by
      rw [Table.getErase, if_neg (Ne.symm other)]
    have active := calm.houses.parkedActive row.1 run parked
    exact boardSerene serene here rfl { houses with } (fun k other => ⟨others k other, fun h => rfl⟩)
      (Dispatcher.resumesFlies (own on) (rests on) parked active accept away fun h => rfl)
  | starts on absent =>
    have world := (World.beginSound calm.houses.world row.2 batch).1
    have houses := Dispatcher.housesWorld calm.houses world fun h => rfl
    exact boardSerene serene here rfl { houses with } (fun k other => ⟨rfl, fun h => rfl⟩)
      (Dispatcher.startsFlies calm.houses (own on) (rests on) absent rfl rfl)

theorem stepSerene (souled : ∀ key task, d₀.tasks.get? key = some task →
    task.metadata.enabled = true → d₀.Souled task (souls key)) {t : Sky} (step : s.Step t)
    (serene : s.Serene d₀ souls batch) : t.Serene d₀ souls batch := by
  cases step with
  | send here => exact sendSerene souled serene here
  | turn here => exact turnSerene serene here
  | stop here cancelled =>
    rw [stopSerene serene here] at cancelled
    cases cancelled
  | ground here cancelled =>
    rw [serene.stranded] at here
    simp at here
  | settle here => exact settleSerene serene here

theorem stepsSerene (souled : ∀ key task, d₀.tasks.get? key = some task →
    task.metadata.enabled = true → d₀.Souled task (souls key)) {t : Sky} (steps : s.Steps t)
    (serene : s.Serene d₀ souls batch) : t.Serene d₀ souls batch := by
  induction steps with
  | refl => exact serene
  | tail earlier step ih => exact stepSerene souled step ih

end Sky

def Report.about (r : Report) (key : TaskKey) : List Account :=
  (r.runs.filter fun run => run.key == key).map TaskRun.account

theorem filterOnce {runs : List TaskRun} (unique : (runs.map TaskRun.key).Nodup) {r : TaskRun}
    (inside : r ∈ runs) : (runs.filter fun run => run.key == r.key) = [r] := by
  induction runs with
  | nil => cases inside
  | cons first rest ih =>
    obtain ⟨absent, later⟩ := List.nodup_cons.mp unique
    rcases List.mem_cons.mp inside with rfl | inRest
    · have none : (rest.filter fun run => run.key == r.key) = [] :=
        List.filter_eq_nil_iff.mpr fun run other same =>
          absent (List.mem_map.mpr ⟨run, other, beq_iff_eq.mp same⟩)
      simp only [List.filter_cons, beq_self_eq_true, if_true, none]
    · have other : ¬(first.key == r.key) = true := fun same =>
        absent (beq_iff_eq.mp same ▸ List.mem_map_of_mem inRest)
      simp only [List.filter_cons, if_neg other]
      exact ih later inRest

namespace Dispatcher
variable {d d' : Dispatcher} {souls : TaskKey → Solo} {batch : Batch} {report : Report}

structure Serves (d : Dispatcher) (souls : TaskKey → Solo) : Prop where
  houses : Houses d d
  souled : ∀ key task, d.tasks.get? key = some task → task.metadata.enabled = true →
    d.Souled task (souls key)
  rests : ∀ key task, d.tasks.get? key = some task → task.metadata.enabled = true →
    d.Rests key (souls key)

theorem startSerene (serves : d.Serves souls) (batch : Batch) :
    (Sky.start d batch).Serene d souls batch where
  dispatched := rfl
  calm := by
    have keys : keysOf [] d.tasks.rows [] [] [] = d.tasks.keys := by simp [keysOf, Table.keys]
    refine ⟨serves.houses, ⟨?_, ?_, ?_⟩, fun row inside => ?_, fun f none => absurd none ?_,
      fun f none => absurd none ?_, fun r none => absurd none ?_⟩
    · exact keys ▸ d.tasks.unique
    · exact fun key inside => keys ▸ inside
    · intro key task found on outside
      exact absurd (Table.getKey found) (keys ▸ outside)
    · have found := Table.rowGet inside
      exact ⟨found, serves.rests row.1 row.2 found⟩
    · exact List.not_mem_nil
    · exact List.not_mem_nil
    · exact List.not_mem_nil
  stranded := rfl
  counted := Nat.zero_add _

theorem overServes {s : Sky} (serves : d.Serves souls) (serene : s.Serene d souls batch)
    (finished : s.Over) :
    s.dispatch.dispatcher.Serves (fun key => ((souls key).next batch).2) ∧
      (∀ key task, d.tasks.get? key = some task → task.metadata.enabled = true →
        s.dispatch.report.about key = ((souls key).next batch).1.toList) ∧
      s.dispatch.report.stillParked = d.tasks.rows.countP (idleTask souls batch) := by
  have calm := serene.calm
  rw [finished.todo, finished.flying, finished.landed] at calm
  have told (key : TaskKey) (task : Task) (found : d.tasks.get? key = some task)
      (on : task.metadata.enabled = true) :
      s.dispatch.report.about key = ((souls key).next batch).1.toList ∧
        s.dispatch.dispatcher.Rests key ((souls key).next batch).2 := by
    have unique : (s.dispatch.runs.map TaskRun.key).Nodup := by
      simpa [keysOf] using calm.keyed.unique
    by_cases inside : key ∈ s.dispatch.runs.map TaskRun.key
    · obtain ⟨r, run, rfl⟩ := List.mem_map.mp inside
      have settles := calm.settled r run
      rw [settles.told]
      exact ⟨congrArg (List.map TaskRun.account) (filterOnce unique run), settles.rests⟩
    · have absent : key ∉ keysOf [] [] [] [] s.dispatch.runs := by simpa [keysOf] using inside
      obtain ⟨quiet, rests⟩ := calm.keyed.resting key task found on absent
      have none : (s.dispatch.runs.filter fun run => run.key == key) = [] :=
        List.filter_eq_nil_iff.mpr fun run other same =>
          inside (List.mem_map.mpr ⟨run, other, beq_iff_eq.mp same⟩)
      rw [quiet]
      exact ⟨congrArg (List.map TaskRun.account) none, rests⟩
  have tasks := calm.houses.tasks
  refine ⟨⟨?_, ?_, ?_⟩, fun key task found on => (told key task found on).1, ?_⟩
  · exact { calm.houses with tasks := rfl, observer := rfl, maxParked := rfl }
  · intro key task found on
    have soul := serves.souled key task (tasks ▸ found) on
    obtain ⟨task', observer'⟩ := Solo.nextSame (souls key) batch
    exact ⟨task'.trans soul.task, observer'.trans (soul.observer.trans calm.houses.observer.symm),
      Solo.nextSound soul.sound batch⟩
  · intro key task found on
    exact (told key task (tasks ▸ found) on).2
  · have counted := serene.counted
    rw [finished.todo, List.countP_nil, Nat.add_zero] at counted
    exact counted

end Dispatcher
end Automation
