import Automation.Proofs.Halt
import Automation.Sample
/-! Whatever happens to a dispatcher, a parked run has been halted just if everything was halted
while it was late, and no other run is found parked once it has been halted. -/
namespace Automation

namespace Sky

/- What can happen to a dispatcher. Besides what its dispatch does next, tasks come and go,
everything is halted, and there is a further dispatch when this one is over. The tasks come by no
handle of a run. -/
inductive Happens (s : Sky) : Sky → Prop where
  | step {t : Sky} (step : s.Step t) : Happens s t
  | register (task : Task) (only : task.tree.Only Demand.Handless) : Happens s { s with
      dispatch := { s.dispatch with dispatcher := (s.dispatch.dispatcher.register task).2 } }
  | unregister {key : TaskKey} {d : Dispatcher}
      (removed : s.dispatch.dispatcher.unregister key = .ok d) :
      Happens s { s with dispatch := { s.dispatch with dispatcher := d } }
  | halt : Happens s s.halt
  | dispatch (finished : s.Over) (batch : Batch) :
      Happens s { Sky.start s.dispatch.dispatcher batch with overtaken := s.overtaken }

abbrev Follows : Sky → Sky → Prop := Relation.ReflTransGen Happens

def Reached (settings : Settings) (world : World) (observer : Option Observer) (s : Sky) : Prop :=
  ∃ batch, Follows (.start (.ofSettings settings world observer) batch) s

variable {s t : Sky}

theorem happensSane (happens : s.Happens t) (sane : s.Sane) : t.Sane := by
  cases happens with
  | step step => exact stepSane step sane
  | register task only => exact ⟨sane.ledger.register only, sane.todo, sane.flying, sane.landed⟩
  | unregister removed =>
    obtain ⟨ledger, same⟩ := sane.ledger.unregister removed
    refine ⟨ledger, sane.todo, sane.flying, fun f inside => ?_⟩
    have flown : f.1 ∈ s.flights :=
      List.mem_append_left _ (List.mem_append_right _ (List.mem_map_of_mem inside))
    exact Landing.fairKeeps (sane.landed f inside) (same _ (List.mem_map_of_mem flown))
  | halt => exact haltSane sane
  | dispatch finished batch =>
    have ledger := sane.ledger
    have landed : s.flights = [] := by simp [flights, finished.flying, finished.landed,
      finished.stranded]
    rw [landed] at ledger
    exact ⟨ledger.start, ledger.taskTrees, fun f none => absurd none List.not_mem_nil,
      fun f none => absurd none List.not_mem_nil⟩

theorem followsSane (follows : s.Follows t) (sane : s.Sane) : t.Sane := by
  induction follows with
  | refl => exact sane
  | tail earlier happens ih => exact happensSane happens ih

variable {settings : Settings} {world : World} {observer : Option Observer}

theorem newSane (batch : Batch) : (start (.ofSettings settings world observer) batch).Sane := by
  have none {α : Type} {p : α → Prop} : ∀ a ∈ ([] : List α), p a :=
    fun a absurd => by cases absurd
  exact ⟨⟨List.nodup_nil, List.nodup_nil, none, none, none, none, none, none⟩, none, none, none⟩

structure Gone (h : Handle) (s : Sky) : Prop where
  cancelled : s.world.handles.isCancelled h = true
  late : h ∉ s.dispatch.late
  parked : h ∉ s.dispatch.dispatcher.parkedHandles

variable {h : Handle}

theorem haltGone (gone : s.Gone h) : s.halt.Gone h := by
  obtain ⟨cancels, all, same⟩ := s.dispatch.dispatcher.haltAllCancels
  refine ⟨cancels.keeps h gone.cancelled, gone.late, ?_⟩
  rw [show s.halt.dispatch.dispatcher = _ from same]
  exact List.not_mem_nil

theorem turnedGone {flight : Flight} {before after : List (Flight × Course)} (gone : s.Gone h)
    (turned : s.Turned flight before after t) : t.Gone h := by
  induction turned with
  | @lands w landing log handles awake =>
    refine ⟨(congrArg (Handles.isCancelled · h) handles).trans gone.cancelled, fun inside => ?_,
      gone.parked⟩
    obtain ⟨other, run, landed, rfl⟩ := Dispatch.memLate.mp inside
    rcases List.mem_append.mp landed with old | new
    · exact gone.late (Dispatch.memLate.mpr ⟨other, run, old, rfl⟩)
    · cases List.mem_singleton.mp new
      -- A run that comes to a wait in its turn is not halted.
      exact ne_true_of_eq_false awake.2.2 gone.cancelled
  | strands log handles | goesOn log handles =>
    exact ⟨(congrArg (Handles.isCancelled · h) handles).trans gone.cancelled, gone.late, gone.parked⟩
  | halts goesOn ih => exact haltGone ih

theorem landGone {flight : Flight} {run : Run} (gone : s.Gone h) :
    h ∉ (s.dispatch.land flight (.back run none)).late := by
  intro inside
  obtain ⟨other, late, landed, rfl⟩ := Dispatch.memLate.mp inside
  rcases List.mem_append.mp landed with old | new
  · exact gone.late (Dispatch.memLate.mpr ⟨other, late, old, rfl⟩)
  · cases List.mem_singleton.mp new

theorem settleGone {flight : Flight} {landing : Landing} {before after : List (Flight × Landing)}
    (here : s.dispatch.landed = before ++ (flight, landing) :: after) (gone : s.Gone h) :
    Gone h { s with
      dispatch := { s.dispatch with landed := before ++ after }.settle flight landing } := by
  have late : h ∉ { s.dispatch with landed := before ++ after }.late := by
    intro inside
    obtain ⟨other, run, landed, rfl⟩ := Dispatch.memLate.mp inside
    exact gone.late (Dispatch.memLate.mpr ⟨other, run, othersAmong here landed, rfl⟩)
  rcases landing with ⟨run, _ | _ | _⟩ | _
  · exact ⟨gone.cancelled, late, gone.parked⟩
  · exact ⟨gone.cancelled, late, gone.parked⟩
  · have other : h ≠ run.handle := by
      rintro rfl
      exact gone.late (Dispatch.memLate.mpr ⟨flight, run, by rw [here]; simp, rfl⟩)
    unfold Dispatch.settle Dispatcher.settle
    split
    rename_i run' dispatcher settled
    dsimp only at settled
    split at settled
    · cases settled
      refine ⟨gone.cancelled, late, fun parked => ?_⟩
      obtain ⟨row, inside, rfl⟩ := Dispatcher.memParked.mp parked
      rcases Table.insertRow inside with rfl | old
      · exact other rfl
      · exact gone.parked (Dispatcher.memParked.mpr ⟨row, old, rfl⟩)
    · cases settled
      exact ⟨Handles.cancelKeeps gone.cancelled, late, gone.parked⟩
  · exact ⟨gone.cancelled, late, gone.parked⟩

theorem eraseParked {d : Dispatcher} {key : TaskKey} (absent : h ∉ d.parkedHandles) :
    h ∉ ({ d with parked := d.parked.erase key } : Dispatcher).parkedHandles := by
  intro parked
  obtain ⟨row, inside, rfl⟩ := Dispatcher.memParked.mp parked
  exact absent (Dispatcher.memParked.mpr ⟨row, Table.eraseRows inside, rfl⟩)

theorem sendGone {row : TaskKey × Task} {todo : List (TaskKey × Task)} (gone : s.Gone h) :
    (s.send row todo).Gone h := by
  have sends := Dispatch.sendSends s.batch s.dispatch row.1 row.2
  unfold send
  generalize Dispatch.send s.batch [] s.dispatch row.1 row.2 = sent at sends
  cases sends with
  | disabled | waits => exact ⟨gone.cancelled, gone.late, gone.parked⟩
  | resumes on parked accept => exact ⟨gone.cancelled, gone.late, eraseParked gone.parked⟩
  | starts on absent => exact ⟨gone.cancelled, gone.late, gone.parked⟩

theorem happensGone (happens : s.Happens t) (sane : s.Sane) (gone : s.Gone h) : t.Gone h := by
  cases happens with
  | step step =>
    cases step with
    | send here => exact sendGone gone
    | @turn flight course before after here =>
      have fit := sane.flying (flight, course) (by rw [here]; simp)
      exact turnedGone gone (turnTurned s before after fit)
    | stop here cancelled => exact ⟨gone.cancelled, landGone gone, gone.parked⟩
    | ground here cancelled => exact ⟨gone.cancelled, landGone gone, gone.parked⟩
    | settle here => exact settleGone here gone
  | register task only => exact ⟨gone.cancelled, gone.late, gone.parked⟩
  | unregister removed =>
    rcases Dispatcher.unregistered removed with ⟨absent, rfl⟩ | ⟨run, parked, rfl⟩
    · exact ⟨gone.cancelled, gone.late, gone.parked⟩
    · exact ⟨Handles.cancelKeeps gone.cancelled, gone.late, eraseParked gone.parked⟩
  | halt => exact haltGone gone
  | dispatch finished batch => exact ⟨gone.cancelled, List.not_mem_nil, gone.parked⟩

theorem followsGone (follows : s.Follows t) (sane : s.Sane) (gone : s.Gone h) : t.Gone h := by
  induction follows with
  | refl => exact gone
  | tail earlier happens ih => exact happensGone happens (followsSane earlier sane) ih

theorem haltedGone (sane : s.Sane) (known : h ∈ s.flights.map Flight.handle ++
    s.dispatch.dispatcher.parkedHandles) (late : h ∉ s.dispatch.late) : s.halt.Gone h := by
  obtain ⟨cancels, all, same⟩ := s.dispatch.dispatcher.haltAllCancels
  refine ⟨all h ?_, late, ?_⟩
  · rcases List.mem_append.mp known with flying | parked
    · exact List.mem_append_left _ (sane.ledger.flown flying)
    · exact List.mem_append_right _ parked
  · rw [show s.halt.dispatch.dispatcher = _ from same]
    exact List.not_mem_nil

theorem lateParked (sane : s.Sane) {flight : Flight} {run : Run}
    (landed : (flight, .back run (some .suspended)) ∈ s.dispatch.landed)
    (room : 0 < s.dispatch.dispatcher.maxParked) :
    ∃ t, s.halt.Step t ∧ t.dispatch.dispatcher.parked.get? flight.key = some run ∧
      t.world.handles.isCancelled run.handle = true := by
  obtain ⟨cancels, all, same⟩ := s.dispatch.dispatcher.haltAllCancels
  obtain ⟨before, after, here⟩ := List.append_of_mem landed
  have late : run.handle ∈ s.dispatch.late := Dispatch.memLate.mpr ⟨flight, run, landed, rfl⟩
  have cancelled := all run.handle
    (List.mem_append_left _ (sane.ledger.flown (lateFlight sane _ late)))
  have room' : s.halt.dispatch.dispatcher.parked.size < s.halt.dispatch.dispatcher.maxParked := by
    rw [show s.halt.dispatch.dispatcher = _ from same]
    exact room
  have parks : s.halt.dispatch.dispatcher.settle flight (.back run (some .suspended)) = _ :=
    if_pos room'
  refine ⟨_, .settle (s := s.halt) here, ?_⟩
  unfold Dispatch.settle
  rw [show ({ s.halt.dispatch with landed := before ++ after } : Dispatch).dispatcher.settle flight
    (.back run (some .suspended)) = _ from parks]
  exact ⟨(Table.getInsert _ _ _ _).trans (if_pos rfl), cancelled⟩

/- A parked run has been halted just if it was late when everything was halted. Whoever else was
in the air then, or parked, is never found parked any more; the late ones are parked. -/
theorem parkedHalted (reached : Reached settings world observer s) :
    (∀ key run, s.dispatch.dispatcher.parked.get? key = some run →
      (s.world.handles.isCancelled run.handle = true ↔ run.handle ∈ s.overtaken)) ∧
    (∀ h ∈ s.flights.map Flight.handle ++ s.dispatch.dispatcher.parkedHandles,
      h ∉ s.dispatch.late → ∀ t, s.halt.Follows t → ∀ key run,
        t.dispatch.dispatcher.parked.get? key = some run → run.handle ≠ h) ∧
    ∀ flight run, (flight, .back run (some .suspended)) ∈ s.dispatch.landed →
      0 < s.dispatch.dispatcher.maxParked → ∃ t, s.halt.Step t ∧
        t.dispatch.dispatcher.parked.get? flight.key = some run ∧
        t.world.handles.isCancelled run.handle = true := by
  obtain ⟨batch, follows⟩ := reached
  have sane := followsSane follows (newSane batch)
  refine ⟨fun key run parked => ⟨sane.ledger.parkedHalted _ (Table.getRow parked),
    sane.ledger.overtakenHalted _⟩, fun h known late t after key run parked => ?_,
    fun flight run landed room => lateParked sane landed room⟩
  have gone := followsGone after (haltSane sane) (haltedGone sane known late)
  rintro rfl
  exact gone.parked (Dispatcher.memParked.mpr ⟨_, Table.getRow parked, rfl⟩)

def windowTask : Task :=
  ⟨{ title := "Window" }, Sample.flow .root
    [.wait (Sample.named "wait for window" (.make 0x60 0x0001)) (Wait.ofType ⟨"new_window"⟩)],
    rfl, rfl⟩

def haltTask : Task :=
  ⟨{ title := "Halt" }, Sample.flow .root
    [.action (Sample.named "halt" (.make 0x50 0x0001)) fun _ =>
      .haltAll fun n => .done (.ok (.int n))], rfl, rfl⟩

def haltBatch : Batch := Sample.batch 0 "battery_changed" [("level", .int 40)]

def haltDispatcher : Dispatcher :=
  (((Dispatcher.ofSettings {} World.fresh none).register windowTask).2.register haltTask).2

theorem haltReached : ∃ overtaken,
    Reached {} World.fresh none ⟨haltDispatcher.dispatch haltBatch, haltBatch, [], [], overtaken⟩ := by
  obtain ⟨landed, overtaken, steps⟩ := haltDispatcher.dispatchSteps haltBatch
  have window : windowTask.tree.Only Demand.Handless := .flow (List.forall_mem_singleton.mpr .wait)
  have halt : haltTask.tree.Only Demand.Handless := .flow (List.forall_mem_singleton.mpr
    (.action fun input => ⟨trivial, fun n => trivial⟩))
  have first : Happens (start (.ofSettings {} World.fresh none) haltBatch) _ :=
    .register windowTask window
  have second : Happens _ { start haltDispatcher haltBatch with todo := [] } :=
    .register (s := { start (Dispatcher.register _ windowTask).2 haltBatch with todo := [] })
      haltTask halt
  have third : Happens { start haltDispatcher haltBatch with todo := [] }
      (start haltDispatcher haltBatch) := .dispatch ⟨rfl, rfl, rfl, rfl⟩ haltBatch
  have begun : Follows (start (.ofSettings {} World.fresh none) haltBatch)
      (start haltDispatcher haltBatch) := .head first (.head second (.single third))
  exact ⟨overtaken, haltBatch, begun.trans (steps.lift id fun s t step => .step step)⟩

theorem haltLate :
    let d := (haltDispatcher.dispatch haltBatch).dispatcher
    (d.parked.get? ⟨0⟩).map (fun run => d.world.handles.isCancelled run.handle) = some true := by
  decide +kernel

theorem parkedHaltedLate : ∃ s, Reached {} World.fresh none s ∧
    ∃ run, s.dispatch.dispatcher.parked.get? ⟨0⟩ = some run ∧
      s.world.handles.isCancelled run.handle = true ∧ run.handle ∈ s.overtaken := by
  obtain ⟨overtaken, reached⟩ := haltReached
  have halted := haltLate
  generalize haltDispatcher.dispatch haltBatch = d at reached halted
  obtain ⟨run, parked, cancelled⟩ := Option.map_eq_some_iff.mp halted
  have late := (parkedHalted reached).1 ⟨0⟩ run parked
  exact ⟨_, reached, run, parked, cancelled, late.mp cancelled⟩

end Sky
end Automation
