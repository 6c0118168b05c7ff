import Automation.Proofs.Calls
/-! Repeated runs, over all that is ever called of a dispatcher. A completed run is a duplicate if
and only if the completed run of its task before it had the same fingerprint, whichever runs that
came to anything else lie between them; and what the dispatcher remembers of a registered task is
the fingerprint of its last completed run. -/
namespace Automation

def TaskRun.print? (key : TaskKey) (r : TaskRun) : Option UInt32 :=
  if r.key = key ∧ r.status.isCompleted = true then some r.fingerprint else none

def lastPrint (runs : List TaskRun) (key : TaskKey) : Option UInt32 :=
  runs.reverse.findSome? (TaskRun.print? key)

section
variable {runs : List TaskRun} {run : TaskRun} {key : TaskKey}

theorem lastPrintAppend (runs runs' : List TaskRun) (key : TaskKey) :
    lastPrint (runs ++ runs') key = (lastPrint runs' key).or (lastPrint runs key) := by
  unfold lastPrint
  rw [List.reverse_append, List.findSome?_append]

theorem lastPrintSingle (run : TaskRun) (key : TaskKey) : lastPrint [run] key = run.print? key := by
  unfold lastPrint
  rw [List.reverse_singleton, List.findSome?_singleton]

theorem printOther (other : run.key ≠ key) : run.print? key = none :=
  if_neg fun own => other own.1

theorem printOpen (never : run.status.isCompleted = false) : run.print? key = none :=
  if_neg fun own => by simp [never] at own

theorem lastPrintOther (others : ∀ r ∈ runs, r.key ≠ key) : lastPrint runs key = none :=
  List.findSome?_eq_none_iff.mpr fun r inside => printOther (others r (List.mem_reverse.mp inside))

theorem placeSplit (run : TaskRun) (runs : List TaskRun) : ∃ before after,
    runs = before ++ after ∧ Report.place run runs = before ++ run :: after := by
  induction runs with
  | nil => exact ⟨[], [], rfl, rfl⟩
  | cons other rest ih =>
    unfold Report.place
    split
    · exact ⟨[], other :: rest, rfl, rfl⟩
    · obtain ⟨before, after, rfl, placed⟩ := ih
      exact ⟨other :: before, after, rfl, by rw [placed, List.cons_append]⟩

theorem lastPrintPlace (fresh : ∀ r ∈ runs, r.key ≠ run.key) (key : TaskKey) :
    lastPrint (Report.place run runs) key = (run.print? key).or (lastPrint runs key) := by
  obtain ⟨before, after, rfl, placed⟩ := placeSplit run runs
  rw [placed, lastPrintAppend, ← List.singleton_append, lastPrintAppend, lastPrintSingle,
    lastPrintAppend before]
  by_cases own : run.key = key
  · rw [lastPrintOther fun r inside => own ▸ fresh r (List.mem_append_right _ inside)]
    simp
  · rw [printOther own]
    simp

end

namespace Dispatcher
variable {d : Dispatcher}

theorem settleNotes (d : Dispatcher) (flight : Flight) (landing : Landing) :
    (∀ key, (d.settle flight landing).2.fingerprints.get? key =
      ((d.settle flight landing).1.print? key).or (d.fingerprints.get? key)) ∧
    ((d.settle flight landing).1.duplicate = true ↔
      (d.settle flight landing).1.status.isCompleted = true ∧
        d.fingerprints.get? flight.key = some (d.settle flight landing).1.fingerprint) := by
  have open' {r : TaskRun} (never : r.status.isCompleted = false) (plain : r.duplicate = false) :
      (∀ key, d.fingerprints.get? key = (r.print? key).or (d.fingerprints.get? key)) ∧
        (r.duplicate = true ↔ r.status.isCompleted = true ∧
          d.fingerprints.get? flight.key = some r.fingerprint) :=
    ⟨fun key => by rw [printOpen never, Option.none_or], by simp [never, plain]⟩
  rcases landing with ⟨run, _ | _ | _⟩ | _
  · exact open' rfl rfl
  · refine ⟨fun key => ?_, ?_⟩
    · refine (Table.getInsert ..).trans ?_
      unfold TaskRun.print? settle
      by_cases own : flight.key = key <;> simp [own, RunStatus.isCompleted]
    · simp [settle, isDuplicate, lastFingerprint?, RunStatus.isCompleted]
  · unfold settle
    dsimp only
    split
    · exact open' rfl rfl
    · exact open' rfl rfl
  · exact open' rfl rfl

end Dispatcher

namespace Sky

/- The dispatch began with `d₀`. Its fingerprints are those left by the runs it has reported, and
those of `d₀` under other keys; and it has compared its runs with those of `d₀`. -/
structure Noted (d₀ : Dispatcher) (s : Sky) : Prop where
  prints : ∀ key, s.dispatch.dispatcher.fingerprints.get? key =
    (lastPrint s.dispatch.runs key).or (d₀.fingerprints.get? key)
  flags : ∀ r ∈ s.dispatch.runs, r.duplicate = true ↔
    r.status.isCompleted = true ∧ d₀.fingerprints.get? r.key = some r.fingerprint

variable {d₀ : Dispatcher} {s t : Sky}

theorem sameNoted (noted : s.Noted d₀)
    (prints : t.dispatch.dispatcher.fingerprints = s.dispatch.dispatcher.fingerprints)
    (runs : t.dispatch.runs = s.dispatch.runs) : t.Noted d₀ :=
  ⟨by rw [prints, runs]; exact noted.prints, by rw [runs]; exact noted.flags⟩

theorem advanceSilent (d : Dispatch) (flight : Flight) (p : Process Scene (Except Stop Outcome)) :
    (d.advance flight p).1.dispatcher.fingerprints = d.dispatcher.fingerprints ∧
      (d.advance flight p).1.runs = d.runs := by
  cases p with
  | done scene r => rcases r with (_ | _) | _ <;> exact ⟨rfl, rfl⟩
  | yield scene next | pend scene => exact ⟨rfl, rfl⟩
  | haltAll scene next =>
    obtain ⟨cancels, all, same⟩ := (d.absorb flight scene).dispatcher.haltAllCancels
    refine ⟨?_, rfl⟩
    change (d.absorb flight scene).dispatcher.haltAll.2.fingerprints = _
    rw [same]
    rfl

theorem settleNoted (noted : s.Noted d₀) (once : s.keys.Nodup) {flight : Flight} {landing : Landing}
    {before after : List (Flight × Landing)}
    (here : s.dispatch.landed = before ++ (flight, landing) :: after) :
    Noted d₀ { s with
      dispatch := { s.dispatch with landed := before ++ after }.settle flight landing } := by
  obtain ⟨prints, flag⟩ := s.dispatch.dispatcher.settleNotes flight landing
  have own := settleKey s.dispatch.dispatcher flight landing
  generalize settled : s.dispatch.dispatcher.settle flight landing = result at prints flag own
  obtain ⟨run, d⟩ := result
  dsimp only at prints flag own
  have fresh : ∀ r ∈ s.dispatch.runs, r.key ≠ run.key := by
    intro r inside same
    refine (List.nodup_append.mp once).2.2 flight.key ?_ r.key (List.mem_map_of_mem inside)
      (own.symm.trans same.symm)
    simp [here]
  have absent : s.dispatch.dispatcher.fingerprints.get? flight.key =
      d₀.fingerprints.get? flight.key := by
    rw [noted.prints, ← own, lastPrintOther fresh, Option.none_or]
  unfold Dispatch.settle
  simp only [settled]
  refine ⟨fun key => ?_, fun r inside => ?_⟩
  · rw [prints, noted.prints, lastPrintPlace fresh, Option.or_assoc]
  · rcases List.mem_cons.mp ((placeKeys run s.dispatch.runs).mem_iff.mp inside) with rfl | inside
    · rw [flag, absent, own]
    · exact noted.flags r inside

theorem stepNoted (step : s.Step t) (once : s.keys.Nodup) (noted : s.Noted d₀) : t.Noted d₀ := by
  cases step with
  | @send row before after here =>
    have sends := Dispatch.sendSends s.batch s.dispatch row.1 row.2
    unfold send
    generalize Dispatch.send s.batch [] s.dispatch row.1 row.2 = sent at sends
    cases sends <;> exact sameNoted noted rfl rfl
  | @turn flight course before after here =>
    obtain ⟨prints, runs⟩ :=
      advanceSilent s.dispatch flight (course.process flight s.batch s.world)
    exact sameNoted noted prints runs
  | stop here cancelled => exact sameNoted noted rfl rfl
  | ground here cancelled => exact sameNoted noted rfl rfl
  | settle here => exact settleNoted noted once here

theorem stepsNoted {batch : Batch} (steps : Steps (.start d₀ batch) s) : s.Noted d₀ := by
  induction steps with
  | refl => exact ⟨fun key => (Option.none_or).symm, fun r none => nomatch none⟩
  | tail earlier step ih => exact stepNoted step (stepsUnique earlier) ih

end Sky

namespace Dispatcher

/- The reports that have been given out when these calls, one after another, have led from a new
dispatcher to this one. A call that fails has no effect. -/
inductive Reported (settings : Settings) (world : World) (observer : Option Observer) :
    List TaskKey → List Report → Dispatcher → Prop where
  | new : Reported settings world observer [] [] (.ofSettings settings world observer)
  | register {issued reports d} (earlier : Reported settings world observer issued reports d)
      (task : Task) :
      Reported settings world observer (issued ++ [(d.register task).1]) reports (d.register task).2
  | registerTree {issued reports d d' metadata tree key}
      (earlier : Reported settings world observer issued reports d)
      (made : d.registerTree metadata tree = .ok (key, d')) :
      Reported settings world observer (issued ++ [key]) reports d'
  | unregister {issued reports d d' key}
      (earlier : Reported settings world observer issued reports d)
      (removed : d.unregister key = .ok d') :
      Reported settings world observer issued reports d'
  | dispatch {issued reports d batch s}
      (earlier : Reported settings world observer issued reports d)
      (dispatched : Dispatched True d batch s) :
      Reported settings world observer issued (reports ++ [s.dispatch.report]) s.dispatch.dispatcher
  | haltAll {issued reports d} (earlier : Reported settings world observer issued reports d) :
      Reported settings world observer issued reports d.haltAll.2

variable {settings : Settings} {world : World} {observer : Option Observer}
  {issued : List TaskKey} {reports : List Report} {d d' : Dispatcher} {key : TaskKey}

theorem reportedCalled (reported : Reported settings world observer issued reports d) :
    Called settings world observer issued d := by
  induction reported with
  | new => exact .new
  | register earlier task ih => exact .register ih task
  | registerTree earlier made ih => exact .registerTree ih made
  | unregister earlier removed ih => exact .unregister ih removed
  | dispatch earlier dispatched ih => exact .dispatch ih dispatched
  | haltAll earlier ih => exact .haltAll ih

def Repeats (before : List TaskRun) (run : TaskRun) : Prop :=
  run.duplicate = true ↔
    run.status.isCompleted = true ∧ lastPrint before run.key = some run.fingerprint

structure Remembers (d : Dispatcher) (issued : List TaskKey) (runs : List TaskRun) : Prop where
  known : ∀ r ∈ runs, r.key ∈ issued
  prints : ∀ key ∈ d.tasks.keys, d.fingerprints.get? key = lastPrint runs key
  flags : ∀ before run after, runs = before ++ run :: after → Repeats before run

variable {runs : List TaskRun}

theorem printsRegistered (orderly : d.Orderly issued) (absent : key ∉ d.tasks.keys) :
    d.fingerprints.get? key = none := by
  cases found : d.fingerprints.get? key with
  | none => rfl
  | some print => exact absurd (orderly.fingerprints key (Table.getKey found)) absent

theorem registerRemembers (orderly : d.Orderly issued) (remembers : d.Remembers issued runs)
    (task : Task) :
    (d.register task).2.Remembers (issued ++ [(d.register task).1]) runs := by
  have fresh : (⟨d.nextKey⟩ : TaskKey) ∉ issued := fun inside =>
    Nat.lt_irrefl _ (orderly.later _ inside)
  refine ⟨fun r inside => List.mem_append_left _ (remembers.known r inside), fun key inside => ?_,
    remembers.flags⟩
  rcases Table.insertKey inside with rfl | old
  · have absent : (⟨d.nextKey⟩ : TaskKey) ∉ d.tasks.keys := fun inside =>
      fresh (orderly.registered _ inside)
    have others : ∀ r ∈ runs, r.key ≠ ⟨d.nextKey⟩ := fun r inside same =>
      fresh (same ▸ remembers.known r inside)
    rw [lastPrintOther others]
    exact printsRegistered (d := d) orderly absent
  · exact remembers.prints key old

theorem unregisterRemembers (remembers : d.Remembers issued runs)
    (removed : d.unregister key = .ok d') : d'.Remembers issued runs := by
  refine ⟨remembers.known, ?_, remembers.flags⟩
  have kept : ∀ other ∈ (d.tasks.erase key).keys,
      (d.fingerprints.erase key).get? other = lastPrint runs other := fun other inside => by
    rw [Table.getErase, if_neg (Table.eraseOther inside).symm]
    exact remembers.prints other (Table.eraseKey inside)
  rcases unregistered removed with ⟨absent, rfl⟩ | ⟨run, parked, rfl⟩
  · exact kept
  · exact kept

theorem dispatchRemembers {batch : Batch} {s : Sky} (orderly : d.Orderly issued)
    (remembers : d.Remembers issued runs) (dispatched : Dispatched True d batch s) :
    s.dispatch.dispatcher.Remembers issued (runs ++ s.dispatch.runs) := by
  obtain ⟨-, tasks, -⟩ := dispatchedOrderly orderly dispatched
  obtain ⟨waiting, -, told, -⟩ := (dispatchedAccounts orderly dispatched).each
  obtain ⟨t, sending, -, -, settling, -⟩ := dispatched
  have steps : Sky.Steps (.start d batch) s :=
    (sending.trans settling).lift id fun _ _ step => step.1
  have noted := Sky.stepsNoted steps
  have mine : ∀ r ∈ s.dispatch.runs, r.key ∈ d.tasks.keys := fun r inside => by
    have key := told.subset (List.mem_append_left _ (List.mem_map_of_mem inside))
    obtain ⟨task, row, -⟩ := memEnabled.mp key
    exact List.mem_map_of_mem row
  -- A run of this dispatch, in which no other run has its key.
  have own (mid after : List TaskRun) {run : TaskRun}
      (here : s.dispatch.runs = mid ++ run :: after) : Repeats (runs ++ mid) run := by
    have inside : run ∈ s.dispatch.runs := here ▸ List.mem_append_right _ List.mem_cons_self
    have others : ∀ r ∈ mid, r.key ≠ run.key := by
      have single := Sky.reportedOnce steps
      rw [here, List.map_append, List.map_cons] at single
      intro r early
      exact (List.nodup_append.mp single).2.2 _ (List.mem_map_of_mem early) _ List.mem_cons_self
    rw [Repeats, lastPrintAppend, lastPrintOther others, Option.none_or,
      ← remembers.prints _ (mine run inside)]
    exact noted.flags run inside
  refine ⟨List.forall_mem_append.mpr ⟨remembers.known, fun r inside =>
    orderly.registered _ (mine r inside)⟩, fun key inside => ?_, fun before run after split => ?_⟩
  · rw [tasks] at inside
    rw [noted.prints, remembers.prints key inside, lastPrintAppend]
  · rcases List.append_eq_append_iff.mp split with ⟨mid, rfl, here⟩ | ⟨mid, rfl, here⟩
    · exact own mid after here
    · cases mid with
      | nil =>
        simpa using own [] after here.symm
      | cons first mid =>
        obtain ⟨rfl, rfl⟩ := List.cons.inj here
        exact remembers.flags before run mid rfl

theorem reportedRemembers (reported : Reported settings world observer issued reports d) :
    d.Orderly issued ∧ d.Remembers issued (reports.flatMap Report.runs) := by
  refine ⟨(calledOrderly (reportedCalled reported)).1, ?_⟩
  induction reported with
  | new => exact ⟨by simp, by simp [ofSettings, Table.keys, Table.empty], by simp⟩
  | register earlier task ih =>
    exact registerRemembers (calledOrderly (reportedCalled earlier)).1 ih task
  | @registerTree issued reports d d' metadata tree key earlier made ih =>
    unfold registerTree at made
    split at made
    · rename_i task legal
      cases made
      exact registerRemembers (calledOrderly (reportedCalled earlier)).1 ih task
    · cases made
  | unregister earlier removed ih => exact unregisterRemembers ih removed
  | dispatch earlier dispatched ih =>
    rw [List.flatMap_append, List.flatMap_singleton]
    exact dispatchRemembers (calledOrderly (reportedCalled earlier)).1 ih dispatched
  | @haltAll issued reports d earlier ih =>
    obtain ⟨cancels, all, same⟩ := d.haltAllCancels
    rw [same]
    exact ⟨ih.known, ih.prints, ih.flags⟩

/- Over all reports that are ever given out, a run is a duplicate just if it is completed and the
last completed run of its key before it had the same fingerprint; runs that come to anything else
are no duplicates, and leave everything as it was for the later ones. The dispatcher remembers the
fingerprint of the last completed run of each registered task, and nothing of any other key. Its
own way of going about a batch is one of those considered, if it gets through. -/
theorem duplicatesExact (reported : Reported settings world observer issued reports d) :
    (∀ before run after, reports.flatMap Report.runs = before ++ run :: after →
      (run.duplicate = true ↔ run.status.isCompleted = true ∧
        lastPrint before run.key = some run.fingerprint) ∧
      (run.status.isCompleted = false → run.duplicate = false ∧
        ∀ key, lastPrint (before ++ [run]) key = lastPrint before key)) ∧
    (∀ key, d.lastFingerprint? key =
      if key ∈ d.tasks.keys then lastPrint (reports.flatMap Report.runs) key else none) ∧
    (∀ key print, d.isDuplicate key print = true ↔
      key ∈ d.tasks.keys ∧ lastPrint (reports.flatMap Report.runs) key = some print) ∧
    ∀ batch, (d.dispatch batch).stranded = [] → Reported settings world observer issued
      (reports ++ [(d.dispatch batch).report]) (d.dispatch batch).dispatcher := by
  obtain ⟨orderly, remembers⟩ := reportedRemembers reported
  have prints (key : TaskKey) : d.lastFingerprint? key =
      if key ∈ d.tasks.keys then lastPrint (reports.flatMap Report.runs) key else none := by
    split
    · rename_i registered
      exact remembers.prints key registered
    · rename_i absent
      exact printsRegistered orderly absent
  refine ⟨fun before run after split => ⟨remembers.flags before run after split, fun never => ?_⟩,
    prints, fun key print => ?_, fun batch back => ?_⟩
  · refine ⟨?_, fun key => ?_⟩
    · have flag := remembers.flags before run after split
      cases duplicate : run.duplicate with
      | false => rfl
      | true =>
        have completed := (flag.mp duplicate).1
        rw [never] at completed
        cases completed
    · rw [lastPrintAppend, lastPrintSingle, printOpen never, Option.none_or]
  · rw [isDuplicate, prints, beq_iff_eq, Option.ite_none_right_eq_some]
  · have any : ∀ row ∈ d.tasks.rows, row.2.tree.Only fun _ => True := d.anyTree
    obtain ⟨s, same, dispatched⟩ := dispatchDispatched orderly any batch fun _ => back
    rw [← same]
    exact .dispatch reported dispatched

def windowDispatcher : Dispatcher :=
  ((ofSettings {} World.fresh none).register Sky.windowTask).2

def windowBatch : Batch := Sample.batch 1 "new_window" [("title", .str "Settings")]

/- The second run is parked on the batch between, and resumed by the next one: it is a duplicate of
the first. -/
theorem duplicatesExactWindow :
    let first := windowDispatcher.dispatch windowBatch
    let between := first.dispatcher.dispatch Sky.haltBatch
    let last := between.dispatcher.dispatch windowBatch
    let reports := [first.report, between.report, last.report]
    Reported {} World.fresh none [⟨0⟩] reports last.dispatcher ∧
      (reports.flatMap Report.runs).map (fun r => (r.status, r.duplicate)) =
        [(.completed true, false), (.parked, false), (.completed true, true)] ∧
      last.dispatcher.lastFingerprint? ⟨0⟩ =
        lastPrint (reports.flatMap Report.runs) ⟨0⟩ := by
  have begun : Reported {} World.fresh none [⟨0⟩] [] windowDispatcher :=
    .register .new Sky.windowTask
  obtain ⟨-, -, -, dispatch⟩ := duplicatesExact begun
  have first := dispatch windowBatch (by decide +kernel)
  obtain ⟨-, -, -, dispatch⟩ := duplicatesExact first
  have between := dispatch Sky.haltBatch (by decide +kernel)
  obtain ⟨-, -, -, dispatch⟩ := duplicatesExact between
  have last := dispatch windowBatch (by decide +kernel)
  obtain ⟨-, prints, -, -⟩ := duplicatesExact last
  exact ⟨last, by decide +kernel, (prints ⟨0⟩).trans (if_pos (by decide +kernel))⟩

end Dispatcher
end Automation
