import Automation.Proofs.Ledger
/-! Halting everything, and parked runs. A run that is halted while its walk goes on comes to no
wait, but one whose walk has come to a wait is late until it is settled, and then it is parked
whether it has been halted or not. -/
namespace Automation

/- If the run is to be parked, it has its flight's handle, and was late if it is halted. -/
def Landing.Fair (flight : Flight) (handles : Handles) (overtaken : List Handle) : Landing → Prop
  | .back run (some .suspended) => run.handle = flight.handle ∧
      run.task.tree.Only Demand.Handless ∧
      (handles.isCancelled run.handle = true → run.handle ∈ overtaken)
  | _ => True

theorem Landing.fairKeeps {flight : Flight} {handles handles' : Handles} {overtaken : List Handle}
    {landing : Landing} (fair : landing.Fair flight handles overtaken)
    (same : handles'.isCancelled flight.handle = handles.isCancelled flight.handle) :
    landing.Fair flight handles' overtaken := by
  rcases landing with ⟨run, _ | _ | _⟩ | _
  · trivial
  · trivial
  · obtain ⟨handle, only, halted⟩ := fair
    refine ⟨handle, only, fun cancelled => halted ?_⟩
    rw [handle] at cancelled ⊢
    exact same.symm.trans cancelled
  · trivial

theorem Landing.awakeFair {flight : Flight} {handles : Handles} {overtaken : List Handle}
    {landing : Landing} (awake : landing.Awake flight handles) :
    landing.Fair flight handles overtaken := by
  rcases landing with ⟨run, _ | _ | _⟩ | _
  · trivial
  · trivial
  · obtain ⟨handle, only, active⟩ := awake
    exact ⟨handle, only, fun cancelled => absurd cancelled (ne_true_of_eq_false active)⟩
  · trivial

namespace Sky

def flights (s : Sky) : List Flight :=
  s.flying.map Prod.fst ++ s.dispatch.landed.map Prod.fst ++ s.dispatch.stranded.map Prod.fst

structure Sane (s : Sky) : Prop where
  ledger : Ledger s.dispatch.dispatcher s.overtaken (s.todo.map Prod.fst) s.flights
  todo : ∀ row ∈ s.todo, row.2.tree.Only Demand.Handless
  flying : ∀ f ∈ s.flying, f.2.Fit f.1 s.batch
  landed : ∀ f ∈ s.dispatch.landed, f.2.Fair f.1 s.world.handles s.overtaken

variable {s : Sky}

theorem lateFlight (sane : s.Sane) : ∀ h ∈ s.dispatch.late, h ∈ s.flights.map Flight.handle := by
  intro h inside
  obtain ⟨flight, run, landed, rfl⟩ := Dispatch.memLate.mp inside
  have fair := sane.landed (flight, .back run (some .suspended)) landed
  have flown : flight ∈ s.flights :=
    List.mem_append_left _ (List.mem_append_right _ (List.mem_map_of_mem landed))
  exact fair.1 ▸ List.mem_map_of_mem flown

theorem haltSane (sane : s.Sane) : s.halt.Sane := by
  refine ⟨sane.ledger.halt (lateFlight sane), sane.todo, sane.flying, fun f inside => ?_⟩
  have fair := sane.landed f inside
  obtain ⟨flight, landing⟩ := f
  rcases landing with ⟨run, _ | _ | _⟩ | _
  · trivial
  · trivial
  · refine ⟨fair.1, fair.2.1, fun _ => List.mem_append_right _ ?_⟩
    exact Dispatch.memLate.mpr ⟨flight, run, inside, rfl⟩
  · trivial

variable {flight : Flight} {course : Course} {before after : List (Flight × Course)} {w : World}

theorem turnLedger (sane : s.Sane) (handles : w.handles = s.world.handles) :
    Ledger { s.dispatch.dispatcher with world := w } s.overtaken (s.todo.map Prod.fst) s.flights :=
  sane.ledger.world (Nat.le_of_eq (congrArg Handles.issued handles.symm)) fun h => by
    rw [handles]
    rfl

theorem goOnSane (sane : s.Sane) (here : s.flying = before ++ (flight, course) :: after)
    (handles : w.handles = s.world.handles) {c : Course} (fit : c.Fit flight s.batch)
    (log : List (String × Entry)) :
    Sane { s with
      dispatch := { s.dispatch with dispatcher := { s.dispatch.dispatcher with world := w }, log }
      flying := before ++ (flight, c) :: after } := by
  refine ⟨?_, sane.todo, fun f inside => ?_, fun f inside => ?_⟩
  · refine (turnLedger sane handles).perm (List.Perm.of_eq ?_)
    simp [flights, here]
  · rcases List.mem_append.mp inside with old | new
    · exact sane.flying f (here ▸ List.mem_append_left _ old)
    · rcases List.mem_cons.mp new with rfl | old
      · exact fit
      · exact sane.flying f (here ▸ List.mem_append_right _ (List.mem_cons_of_mem _ old))
  · exact Landing.fairKeeps (sane.landed f inside) (congrArg (Handles.isCancelled · f.1.handle) handles)

theorem landSane (sane : s.Sane) (here : s.flying = before ++ (flight, course) :: after)
    (handles : w.handles = s.world.handles) {landing : Landing}
    (fair : landing.Fair flight s.world.handles s.overtaken) (log : List (String × Entry)) :
    Sane { s with
      dispatch := { s.dispatch with
        dispatcher := { s.dispatch.dispatcher with world := w }
        landed := s.dispatch.landed ++ [(flight, landing)]
        log }
      flying := before ++ after } := by
  refine ⟨?_, sane.todo, fun f inside => ?_, fun f inside => ?_⟩
  · refine (turnLedger sane handles).perm (List.perm_iff_count.mpr fun f => ?_)
    simp only [flights, here, List.map_append, List.map_cons, List.map_nil, List.count_append,
      List.count_cons, List.count_nil]
    omega
  · exact sane.flying f (othersAmong here inside)
  · rcases List.mem_append.mp inside with old | new
    · exact Landing.fairKeeps (sane.landed f old) (congrArg (Handles.isCancelled · f.1.handle) handles)
    · cases List.mem_singleton.mp new
      exact Landing.fairKeeps fair (congrArg (Handles.isCancelled · flight.handle) handles)

theorem strandSane (sane : s.Sane) (here : s.flying = before ++ (flight, course) :: after)
    (handles : w.handles = s.world.handles) (run : Run) (log : List (String × Entry)) :
    Sane { s with
      dispatch := { s.dispatch with
        dispatcher := { s.dispatch.dispatcher with world := w }
        stranded := s.dispatch.stranded ++ [(flight, run)]
        log }
      flying := before ++ after } := by
  refine ⟨?_, sane.todo, fun f inside => ?_, fun f inside => ?_⟩
  · refine (turnLedger sane handles).perm (List.perm_iff_count.mpr fun f => ?_)
    simp only [flights, here, List.map_append, List.map_cons, List.map_nil, List.count_append,
      List.count_cons, List.count_nil]
    omega
  · exact sane.flying f (othersAmong here inside)
  · exact Landing.fairKeeps (sane.landed f inside) (congrArg (Handles.isCancelled · f.1.handle) handles)

theorem turnedSane (sane : s.Sane) (here : s.flying = before ++ (flight, course) :: after)
    {t : Sky} (turned : s.Turned flight before after t) : t.Sane := by
  induction turned with
  | lands log handles awake => exact landSane sane here handles (Landing.awakeFair awake) log
  | strands log handles => exact strandSane sane here handles _ log
  | goesOn log handles fit => exact goOnSane sane here handles fit log
  | halts goesOn ih => exact haltSane ih

theorem groundSane (sane : s.Sane) {run : Run} {before after : List (Flight × Run)}
    (here : s.dispatch.stranded = before ++ (flight, run) :: after) :
    Sane { s with
      dispatch := { s.dispatch with stranded := before ++ after }.land flight (.back run none) } := by
  refine ⟨sane.ledger.perm (List.perm_iff_count.mpr fun f => ?_), sane.todo, sane.flying,
    fun f inside => ?_⟩
  · simp only [flights, here, Dispatch.land, List.map_append, List.map_cons, List.map_nil,
      List.count_append, List.count_cons, List.count_nil]
    omega
  · rcases List.mem_append.mp inside with old | new
    · exact sane.landed f old
    · cases List.mem_singleton.mp new
      trivial

theorem leaveSane (sane : s.Sane) {landing : Landing} {before after : List (Flight × Landing)}
    (here : s.dispatch.landed = before ++ (flight, landing) :: after) {d : Dispatcher}
    (ledger : Ledger d s.overtaken (s.todo.map Prod.fst)
      { s with dispatch := { s.dispatch with landed := before ++ after } }.flights)
    (fresh : flight.handle ∉
      { s with dispatch := { s.dispatch with landed := before ++ after } }.flights.map Flight.handle)
    (same : ∀ h, h ≠ flight.handle →
      d.world.handles.isCancelled h = s.world.handles.isCancelled h) (runs : List TaskRun) :
    Sane { s with
      dispatch := { s.dispatch with dispatcher := d, landed := before ++ after, runs } } := by
  refine ⟨ledger, sane.todo, sane.flying, fun f inside => ?_⟩
  refine Landing.fairKeeps (sane.landed f (othersAmong here inside)) (same f.1.handle fun absurd => ?_)
  have flown : f.1 ∈ { s with dispatch := { s.dispatch with landed := before ++ after } }.flights :=
    List.mem_append_left _ (List.mem_append_right _ (List.mem_map_of_mem inside))
  exact fresh (absurd ▸ List.mem_map_of_mem flown)

theorem settleSane (sane : s.Sane) {landing : Landing} {before after : List (Flight × Landing)}
    (here : s.dispatch.landed = before ++ (flight, landing) :: after) :
    Sane { s with
      dispatch := { s.dispatch with landed := before ++ after }.settle flight landing } := by
  let rest : Sky := { s with dispatch := { s.dispatch with landed := before ++ after } }
  have perm : s.flights.Perm (flight :: rest.flights) := by
    refine List.perm_iff_count.mpr fun f => ?_
    simp only [rest, flights, here, List.map_append, List.map_cons, List.count_append,
      List.count_cons]
    omega
  have fair : landing.Fair flight s.world.handles s.overtaken :=
    sane.landed (flight, landing) (by rw [here]; simp)
  obtain ⟨left, fresh, issued, away, key⟩ := (sane.ledger.perm perm).leave
  obtain ⟨grounded, unparked⟩ := not_or.mp (List.mem_append.not.mp fresh)
  have recycled (run : Run) := left.world (w := s.world.recycle run) (Nat.le_refl _) fun h => rfl
  rcases landing with ⟨run, _ | _ | _⟩ | _
  · exact leaveSane sane here (recycled run) grounded (fun h other => rfl) _
  -- That a fingerprint is stored is nothing to the ledger.
  · have noted (fingerprints : Table TaskKey UInt32) : Ledger
        { s.dispatch.dispatcher with
          inFlight := s.dispatch.dispatcher.inFlight.erase flight.key
          fingerprints
          world := s.world.recycle run } s.overtaken (s.todo.map Prod.fst) rest.flights :=
      { recycled run with }
    exact leaveSane sane here (noted _) grounded (fun h other => rfl) _
  · obtain ⟨handle, only, halted⟩ := fair
    rw [← handle] at fresh unparked issued
    -- The run is parked while there is room, though it may be halted; if not, it is halted and
    -- dropped.
    have landed : flight.key ∉ rest.flights.map Flight.key := fun inside =>
      key (List.mem_append_right _ inside)
    unfold Dispatch.settle Dispatcher.settle
    split
    rename_i run' dispatcher settled
    dsimp only at settled
    split at settled
    · cases settled
      exact leaveSane sane here (left.park away landed fresh issued only halted) grounded
        (fun h other => rfl) _
    · cases settled
      have dropped := left.cancel (w := (s.world.cancel run.handle).recycle run) unparked rfl
      refine leaveSane sane here dropped grounded (fun h other => ?_) _
      rw [← handle] at other
      exact (Handles.isCancelledCancel _ _ _).trans (by simp [other])
  · exact leaveSane sane here left grounded (fun h other => rfl) _

theorem stopSane (sane : s.Sane) {scene : Scene}
    {next : Scene → Process Scene (Except Stop Outcome)}
    (here : s.flying = before ++ (flight, .paused scene next) :: after) :
    Sane { s with
      dispatch := s.dispatch.land flight (.back scene.run none)
      flying := before ++ after } := by
  have fair : (Landing.back scene.run none).Fair flight s.world.handles s.overtaken := trivial
  exact landSane (w := s.world) sane here rfl fair s.dispatch.log

theorem boardSane (sane : s.Sane) {d : Dispatcher} {row : TaskKey × Task}
    {before after : List (TaskKey × Task)} (here : s.todo = before ++ row :: after)
    (ledger : Ledger d s.overtaken ((before ++ after).map Prod.fst) (flight :: s.flights))
    (same : ∀ h, d.world.handles.isCancelled h = s.world.handles.isCancelled h) {run : Run}
    (fit : (Course.ready run).Fit flight s.batch) :
    Sane { s with
      dispatch := { s.dispatch with dispatcher := d }
      todo := before ++ after
      flying := s.flying ++ [(flight, .ready run)] } := by
  refine ⟨ledger.perm (List.perm_iff_count.mpr fun f => ?_), fun other inside => ?_,
    fun f inside => ?_, fun f inside => Landing.fairKeeps (sane.landed f inside) (same f.1.handle)⟩
  · simp only [flights, List.map_append, List.map_cons, List.map_nil, List.count_append,
      List.count_cons, List.count_nil]
    omega
  · exact sane.todo other (othersAmong here inside)
  · rcases List.mem_append.mp inside with old | new
    · exact sane.flying f old
    · cases List.mem_singleton.mp new
      exact fit

theorem sendSane (sane : s.Sane) {row : TaskKey × Task} {before after : List (TaskKey × Task)}
    (here : s.todo = before ++ row :: after) : (s.send row (before ++ after)).Sane := by
  have ledger := sane.ledger
  rw [here, List.map_append, List.map_cons] at ledger
  obtain ⟨left, absent⟩ := ledger.take
  rw [← List.map_append] at left absent
  have only := sane.todo row (by rw [here]; simp)
  have rest : ∀ other ∈ before ++ after, other.2.tree.Only Demand.Handless := fun other inside =>
    sane.todo other (othersAmong here inside)
  have sends := Dispatch.sendSends s.batch s.dispatch row.1 row.2
  unfold send
  generalize Dispatch.send s.batch [] s.dispatch row.1 row.2 = sent at sends
  cases sends with
  | disabled off =>
    refine ⟨?_, rest, ?_, sane.landed⟩
    · simpa [flights] using left
    · simpa using sane.flying
  | waits on parked refuse =>
    refine ⟨?_, rest, ?_, sane.landed⟩
    · simpa [flights] using left
    · simpa using sane.flying
  | @resumes run on parked accept =>
    obtain ⟨released, fresh, issued, only'⟩ := left.release parked
    have away : (s.dispatch.dispatcher.parked.erase row.1).get? row.1 = none :=
      (Table.getErase _ _ _).trans (if_pos rfl)
    exact boardSane sane here
      (released.board (f := Dispatch.resumption s.batch row.1 row.2 run) fresh issued absent away)
      (fun h => rfl) (Course.readyFit rfl only' fun resumed => accept)
  | starts on away =>
    let handle : Handle := (Dispatch.firstRun s.dispatch.dispatcher s.batch row.2).1.handle
    have older : ∀ h ∈ s.flights.map Flight.handle ++ s.dispatch.dispatcher.parkedHandles,
        h ≠ handle := fun h inside same => by
      have issued := left.issued h inside
      rw [same] at issued
      exact Nat.lt_irrefl _ issued
    have made := left.world
      (w := (Dispatch.firstRun s.dispatch.dispatcher s.batch row.2).2.world)
      (Nat.le_succ _) (Handles.isCancelledIssue _)
    exact boardSane sane here
      (made.board (f := Dispatch.firstFlight s.batch row.1 row.2 handle)
        (fun inside => older _ inside rfl) (Nat.lt_succ_self _) absent away)
      (Handles.isCancelledIssue _) (Course.readyFit rfl only fun absurd => by cases absurd)

theorem stepSane {t : Sky} (step : s.Step t) (sane : s.Sane) : t.Sane := by
  cases step with
  | send here => exact sendSane sane here
  | @turn flight course before after here =>
    have fit := sane.flying (flight, course) (by rw [here]; simp)
    exact turnedSane sane here (turnTurned s before after fit)
  | stop here cancelled => exact stopSane sane here
  | ground here cancelled => exact groundSane sane here
  | settle here => exact settleSane sane here

end Sky
end Automation
