import Automation.Proofs.Turn
/-! Which cancel handles are in use. No two runs, in flight or parked, have one handle, and whatever
is halted is halted by it: the ledger says whose cancellation came while its run was late. -/
namespace Automation

theorem Handles.issuedCancel (hs : Handles) (h : Handle) : (hs.cancel h).issued = hs.issued := by
  unfold cancel
  split <;> rfl

theorem Handles.cancelKeeps {hs : Handles} {h g : Handle} (cancelled : hs.isCancelled g = true) :
    (hs.cancel h).isCancelled g = true := by
  rw [isCancelledCancel, cancelled]
  rfl

theorem Handles.cancelSelf (hs : Handles) (h : Handle) : (hs.cancel h).isCancelled h = true := by
  simp [isCancelledCancel]

namespace Dispatcher

structure Cancels (before after : Handles) : Prop where
  issued : after.issued = before.issued
  keeps : ∀ h, before.isCancelled h = true → after.isCancelled h = true

theorem cancelAll (hs : List Handle) (w : World) :
    Cancels w.handles (hs.foldl World.cancel w).handles ∧
      ∀ h ∈ hs, (hs.foldl World.cancel w).handles.isCancelled h = true := by
  induction hs generalizing w with
  | nil => exact ⟨⟨rfl, fun h cancelled => cancelled⟩, fun h none => absurd none List.not_mem_nil⟩
  | cons first rest ih =>
    obtain ⟨later, all⟩ := ih (w.cancel first)
    refine ⟨⟨later.issued.trans (Handles.issuedCancel _ _), fun h cancelled =>
      later.keeps h (Handles.cancelKeeps cancelled)⟩, fun h inside => ?_⟩
    rcases List.mem_cons.mp inside with rfl | inRest
    · exact later.keeps h (Handles.cancelSelf _ _)
    · exact all h inRest

theorem abandonAll (runs : List Run) (d : Dispatcher) :
    Cancels d.world.handles (runs.foldl abandon d).world.handles ∧
      (∀ run ∈ runs, (runs.foldl abandon d).world.handles.isCancelled run.handle = true) ∧
      runs.foldl abandon d = { d with world := (runs.foldl abandon d).world } := by
  induction runs generalizing d with
  | nil =>
    exact ⟨⟨rfl, fun h cancelled => cancelled⟩, fun run none => absurd none List.not_mem_nil, rfl⟩
  | cons first rest ih =>
    obtain ⟨later, all, same⟩ := ih (d.abandon first)
    refine ⟨⟨later.issued.trans (Handles.issuedCancel _ _), fun h cancelled =>
      later.keeps h (Handles.cancelKeeps cancelled)⟩, fun run inside => ?_, ?_⟩
    · rcases List.mem_cons.mp inside with rfl | inRest
      · exact later.keeps _ (Handles.cancelSelf _ _)
      · exact all run inRest
    · rw [List.foldl_cons, same]
      rfl

def parkedHandles (d : Dispatcher) : List Handle := d.parked.values.map Run.handle

theorem memParked {d : Dispatcher} {h : Handle} :
    h ∈ d.parkedHandles ↔ ∃ row ∈ d.parked.rows, row.2.handle = h := by
  simp [parkedHandles, Table.values]

theorem haltAllCancels (d : Dispatcher) :
    Cancels d.world.handles d.haltAll.2.world.handles ∧
      (∀ h ∈ d.inFlight.values ++ d.parkedHandles,
        d.haltAll.2.world.handles.isCancelled h = true) ∧
      d.haltAll.2 = { d with parked := Table.empty, world := d.haltAll.2.world } := by
  obtain ⟨first, flying⟩ := cancelAll d.inFlight.values d.world
  obtain ⟨second, parked, same⟩ := abandonAll d.parked.values
    { d with parked := Table.empty, world := d.inFlight.values.foldl World.cancel d.world }
  refine ⟨⟨second.issued.trans first.issued, fun h cancelled =>
    second.keeps h (first.keeps h cancelled)⟩, fun h inside => ?_, same⟩
  rcases List.mem_append.mp inside with inAir | waiting
  · exact second.keeps h (flying h inAir)
  · obtain ⟨run, waits, rfl⟩ := List.mem_map.mp waiting
    exact parked run waits

end Dispatcher

/- What is on record of the flights in the air and of the parked runs. -/
structure Ledger (d : Dispatcher) (overtaken : List Handle) (todo : List TaskKey)
    (flights : List Flight) : Prop where
  keys : (todo ++ flights.map Flight.key).Nodup
  handles : (flights.map Flight.handle ++ d.parkedHandles).Nodup
  issued : ∀ h ∈ flights.map Flight.handle ++ d.parkedHandles, h.number < d.world.handles.issued
  aboard : ∀ f ∈ flights, d.inFlight.get? f.key = some f.handle ∧ d.parked.get? f.key = none
  taskTrees : ∀ row ∈ d.tasks.rows, row.2.tree.Only Demand.Handless
  parkedTrees : ∀ row ∈ d.parked.rows, row.2.task.tree.Only Demand.Handless
  parkedHalted : ∀ row ∈ d.parked.rows,
    d.world.handles.isCancelled row.2.handle = true → row.2.handle ∈ overtaken
  overtakenHalted : ∀ h ∈ overtaken, d.world.handles.isCancelled h = true

namespace Ledger
variable {d : Dispatcher} {overtaken : List Handle} {todo : List TaskKey} {flights : List Flight}

theorem perm (ledger : Ledger d overtaken todo flights) {flights' : List Flight}
    (perm : flights.Perm flights') : Ledger d overtaken todo flights' :=
  { ledger with
    keys := ((List.Perm.append_left todo (perm.map Flight.key)).nodup_iff).mp ledger.keys
    handles := ((perm.map Flight.handle).append_right d.parkedHandles).nodup_iff.mp ledger.handles
    issued := fun h inside => ledger.issued h
      (((perm.map Flight.handle).append_right d.parkedHandles).mem_iff.mpr inside)
    aboard := fun f inside => ledger.aboard f (perm.mem_iff.mpr inside) }

theorem world (ledger : Ledger d overtaken todo flights) {w : World}
    (issued : d.world.handles.issued ≤ w.handles.issued)
    (same : ∀ h, w.handles.isCancelled h = d.world.handles.isCancelled h) :
    Ledger { d with world := w } overtaken todo flights :=
  { ledger with
    issued := fun h inside => Nat.lt_of_lt_of_le (ledger.issued h inside) issued
    parkedHalted := fun row inside cancelled =>
      ledger.parkedHalted row inside ((same row.2.handle).symm.trans cancelled)
    overtakenHalted := fun h inside => (same h).trans (ledger.overtakenHalted h inside) }

theorem cancel (ledger : Ledger d overtaken todo flights) {h : Handle} {w : World}
    (other : h ∉ d.parkedHandles) (same : w.handles = d.world.handles.cancel h) :
    Ledger { d with world := w } overtaken todo flights :=
  { ledger with
    issued := fun g inside => by
      rw [same, Handles.issuedCancel]
      exact ledger.issued g inside
    parkedHalted := fun row inside cancelled => by
      rw [same, Handles.isCancelledCancel, Bool.or_eq_true] at cancelled
      rcases cancelled with before | now
      · exact ledger.parkedHalted row inside before
      · exact absurd (Dispatcher.memParked.mpr ⟨row, inside, of_decide_eq_true now⟩) other
    overtakenHalted := fun g inside => by
      rw [same]
      exact Handles.cancelKeeps (ledger.overtakenHalted g inside) }

theorem flown (ledger : Ledger d overtaken todo flights) {h : Handle}
    (inside : h ∈ flights.map Flight.handle) : h ∈ d.inFlight.values := by
  obtain ⟨f, flight, rfl⟩ := List.mem_map.mp inside
  exact List.mem_map.mpr ⟨_, Table.getRow (ledger.aboard f flight).1, rfl⟩

theorem halt (ledger : Ledger d overtaken todo flights) {late : List Handle}
    (inAir : ∀ h ∈ late, h ∈ flights.map Flight.handle) :
    Ledger d.haltAll.2 (overtaken ++ late) todo flights := by
  obtain ⟨cancels, all, same⟩ := d.haltAllCancels
  have none : d.haltAll.2.parkedHandles = [] := by
    rw [Dispatcher.parkedHandles, same]
    rfl
  have parked : d.haltAll.2.parked = Table.empty := by rw [same]
  have inFlight : d.haltAll.2.inFlight = d.inFlight := by rw [same]
  have tasks : d.haltAll.2.tasks = d.tasks := by rw [same]
  have handles : (flights.map Flight.handle).Nodup := (List.nodup_append.mp ledger.handles).1
  refine ⟨ledger.keys, ?_, ?_, fun f inside => ⟨?_, ?_⟩, tasks ▸ ledger.taskTrees,
    fun row inside => ?_, fun row inside => ?_, fun h inside => ?_⟩
  · rw [none, List.append_nil]
    exact handles
  · intro h inside
    rw [none, List.append_nil] at inside
    rw [cancels.issued]
    exact ledger.issued h (List.mem_append_left _ inside)
  · rw [inFlight]
    exact (ledger.aboard f inside).1
  · rw [parked]
    rfl
  · rw [parked] at inside
    exact absurd inside List.not_mem_nil
  · rw [parked] at inside
    exact absurd inside List.not_mem_nil
  · rcases List.mem_append.mp inside with before | now
    · exact cancels.keeps h (ledger.overtakenHalted h before)
    · exact all h (List.mem_append_left _ (ledger.flown (inAir h now)))

theorem leave {f : Flight} (ledger : Ledger d overtaken todo (f :: flights)) :
    Ledger { d with inFlight := d.inFlight.erase f.key } overtaken todo flights ∧
      f.handle ∉ flights.map Flight.handle ++ d.parkedHandles ∧
      f.handle.number < d.world.handles.issued ∧ d.parked.get? f.key = none ∧
      f.key ∉ todo ++ flights.map Flight.key := by
  obtain ⟨absent, handles⟩ := List.nodup_cons.mp ledger.handles
  obtain ⟨gone, keys⟩ := List.nodup_cons.mp (List.nodup_middle.mp ledger.keys)
  refine ⟨{ ledger with
    keys
    handles
    issued := fun h inside => ledger.issued h (List.mem_cons_of_mem f.handle inside)
    aboard := fun g inside => ?_ }, absent, ledger.issued f.handle List.mem_cons_self,
    (ledger.aboard f List.mem_cons_self).2, gone⟩
  have other : f.key ≠ g.key := fun same =>
    gone (List.mem_append_right todo (same ▸ List.mem_map_of_mem inside))
  obtain ⟨inFlight, away⟩ := ledger.aboard g (List.mem_cons_of_mem f inside)
  exact ⟨(Table.getErase _ _ _).trans ((if_neg other).trans inFlight), away⟩

theorem park (ledger : Ledger d overtaken todo flights) {key : TaskKey} {run : Run}
    (absent : d.parked.get? key = none) (landed : key ∉ flights.map Flight.key)
    (fresh : run.handle ∉ flights.map Flight.handle ++ d.parkedHandles)
    (issued : run.handle.number < d.world.handles.issued)
    (only : run.task.tree.Only Demand.Handless)
    (halted : d.world.handles.isCancelled run.handle = true → run.handle ∈ overtaken) :
    Ledger { d with parked := d.parked.insert key run } overtaken todo flights := by
  have handles : ({ d with parked := d.parked.insert key run } : Dispatcher).parkedHandles =
      d.parkedHandles ++ [run.handle] := by
    rw [Dispatcher.parkedHandles, Table.values, Table.insertAbsent absent]
    simp [Dispatcher.parkedHandles, Table.values]
  refine { ledger with
    handles := ?_
    issued := fun h inside => ?_
    aboard := fun f inside => ?_
    parkedTrees := fun row inside => ?_
    parkedHalted := fun row inside => ?_ }
  · rw [handles, ← List.append_assoc]
    refine List.nodup_append.mpr ⟨ledger.handles, List.nodup_singleton _, fun h old g new same => ?_⟩
    cases List.mem_singleton.mp new
    exact fresh (same ▸ old)
  · rw [handles, ← List.append_assoc] at inside
    rcases List.mem_append.mp inside with old | new
    · exact ledger.issued h old
    · cases List.mem_singleton.mp new
      exact issued
  · obtain ⟨inFlight, away⟩ := ledger.aboard f inside
    have other : key ≠ f.key := fun same => landed (same ▸ List.mem_map_of_mem inside)
    exact ⟨inFlight, (Table.getInsert _ _ _ _).trans ((if_neg other).trans away)⟩
  · rcases Table.insertRow inside with rfl | old
    · exact only
    · exact ledger.parkedTrees row old
  · rcases Table.insertRow inside with rfl | old
    · exact halted
    · exact ledger.parkedHalted row old

theorem release (ledger : Ledger d overtaken todo flights) {key : TaskKey} {run : Run}
    (parked : d.parked.get? key = some run) :
    Ledger { d with parked := d.parked.erase key } overtaken todo flights ∧
      run.handle ∉ flights.map Flight.handle ++
        ({ d with parked := d.parked.erase key } : Dispatcher).parkedHandles ∧
      run.handle.number < d.world.handles.issued ∧ run.task.tree.Only Demand.Handless := by
  obtain ⟨before, after, rows, erased⟩ := Table.eraseRow parked
  have all := ledger.handles
  have issued := ledger.issued
  have perm : (flights.map Flight.handle ++ d.parkedHandles).Perm (run.handle ::
      (flights.map Flight.handle ++
        ({ d with parked := d.parked.erase key } : Dispatcher).parkedHandles)) := by
    simp only [Dispatcher.parkedHandles, Table.values, rows, erased, List.map_append, List.map_cons]
    rw [← List.append_assoc, ← List.append_assoc]
    exact List.perm_middle
  obtain ⟨absent, handles⟩ := List.nodup_cons.mp (perm.nodup_iff.mp all)
  refine ⟨{ ledger with
    handles
    issued := fun h inside => issued h (perm.mem_iff.mpr (List.mem_cons_of_mem _ inside))
    aboard := fun f inside => ?_
    parkedTrees := fun row inside => ledger.parkedTrees row (Table.eraseRows inside)
    parkedHalted := fun row inside => ledger.parkedHalted row (Table.eraseRows inside) }, absent,
    issued run.handle (perm.mem_iff.mpr List.mem_cons_self),
    ledger.parkedTrees _ (Table.getRow parked)⟩
  obtain ⟨inFlight, away⟩ := ledger.aboard f inside
  refine ⟨inFlight, (Table.getErase _ _ _).trans ?_⟩
  rw [away]
  exact ite_self none

theorem board (ledger : Ledger d overtaken todo flights) {f : Flight}
    (fresh : f.handle ∉ flights.map Flight.handle ++ d.parkedHandles)
    (issued : f.handle.number < d.world.handles.issued)
    (key : f.key ∉ todo ++ flights.map Flight.key) (away : d.parked.get? f.key = none) :
    Ledger { d with inFlight := d.inFlight.insert f.key f.handle } overtaken todo
      (f :: flights) := by
  refine { ledger with
    keys := List.nodup_middle.mpr (List.nodup_cons.mpr ⟨key, ledger.keys⟩)
    handles := List.nodup_cons.mpr ⟨fresh, ledger.handles⟩
    issued := fun h inside => ?_
    aboard := fun g inside => ?_ }
  · rcases List.mem_cons.mp inside with rfl | old
    · exact issued
    · exact ledger.issued h old
  · rcases List.mem_cons.mp inside with rfl | old
    · exact ⟨(Table.getInsert _ _ _ _).trans (if_pos rfl), away⟩
    · obtain ⟨inFlight, away⟩ := ledger.aboard g old
      have other : f.key ≠ g.key := fun same =>
        key (List.mem_append_right todo (same ▸ List.mem_map_of_mem old))
      exact ⟨(Table.getInsert _ _ _ _).trans ((if_neg other).trans inFlight), away⟩

theorem take {key : TaskKey} {before after : List TaskKey}
    (ledger : Ledger d overtaken (before ++ key :: after) flights) :
    Ledger d overtaken (before ++ after) flights ∧
      key ∉ (before ++ after) ++ flights.map Flight.key := by
  have keys := ledger.keys
  rw [List.append_assoc, List.cons_append] at keys
  obtain ⟨absent, keys⟩ := List.nodup_cons.mp (List.nodup_middle.mp keys)
  rw [← List.append_assoc] at absent keys
  exact ⟨{ ledger with keys }, absent⟩

theorem start (ledger : Ledger d overtaken todo []) : Ledger d overtaken d.tasks.keys [] :=
  { ledger with keys := (List.append_nil d.tasks.keys).symm ▸ d.tasks.unique }

theorem register (ledger : Ledger d overtaken todo flights) {task : Task}
    (only : task.tree.Only Demand.Handless) :
    Ledger (d.register task).2 overtaken todo flights :=
  { ledger with
    taskTrees := fun row inside => by
      rcases Table.insertRow inside with rfl | old
      · exact only
      · exact ledger.taskTrees row old }

theorem unregister (ledger : Ledger d overtaken todo flights) {key : TaskKey} {d' : Dispatcher}
    (removed : d.unregister key = .ok d') : Ledger d' overtaken todo flights ∧
      ∀ h ∈ flights.map Flight.handle,
        d'.world.handles.isCancelled h = d.world.handles.isCancelled h := by
  have fewer {d : Dispatcher} (ledger : Ledger d overtaken todo flights) :
      Ledger { d with
        tasks := d.tasks.erase key
        fingerprints := d.fingerprints.erase key } overtaken todo flights :=
    { ledger with
      taskTrees := fun row inside => ledger.taskTrees row (Table.eraseRows inside) }
  rcases Dispatcher.unregistered removed with ⟨absent, rfl⟩ | ⟨run, parked, rfl⟩
  · exact ⟨fewer ledger, fun h inside => rfl⟩
  · obtain ⟨released, fresh, issued, only⟩ := ledger.release parked
    obtain ⟨grounded, unparked⟩ := not_or.mp (List.mem_append.not.mp fresh)
    refine ⟨fewer (released.cancel (w := (d.world.cancel run.handle).recycle run) unparked rfl),
      fun h inside => ?_⟩
    have other : h ≠ run.handle := fun same => grounded (same ▸ inside)
    exact (Handles.isCancelledCancel _ _ _).trans (by simp [other])

end Ledger
end Automation
