import Automation.Proofs.Booking
import Automation.Proofs.Parking
/-! Calls of a dispatcher, one after another. Between them nothing is in flight, the parked runs are
those of registered tasks, each at its wait, and no more than there is room for; and a dispatch
accounts for every enabled task once, whichever order its runs are settled in. -/
namespace Automation

def Demand.Modest (demand : Demand) : Prop := demand ≠ .haltAll

namespace Dispatcher

/- The batch can be dispatched like this. Runs are settled, in any order, when all of them have been
sent off; and somebody has everything halted meanwhile only if that may be. -/
def Dispatched (may : Prop) (d : Dispatcher) (batch : Batch) (s : Sky) : Prop :=
  ∃ t, Sky.Advances may (.start d batch) t ∧ t.todo = [] ∧ t.dispatch.runs = [] ∧
    t.Advances may s ∧ s.Over

/- What holds of a dispatcher that is at rest and has given out these keys. -/
structure Orderly (d : Dispatcher) (issued : List TaskKey) : Prop where
  room : d.parked.size ≤ d.maxParked
  inFlight : d.inFlight = Table.empty
  fingerprints : ∀ key ∈ d.fingerprints.keys, key ∈ d.tasks.keys
  parked : ∀ key run, d.parked.get? key = some run → d.Owns key run
  registered : ∀ key ∈ d.tasks.keys, key ∈ issued
  issuedOnce : issued.Nodup
  later : ∀ key ∈ issued, key.number < d.nextKey

/- The report of a dispatch that began with this dispatcher: every enabled task is reported or left
to wait, disabled ones are not, and as many runs are dropped as there was no room for, unless the
parked ones may have been halted meanwhile. A run that was suspended is parked or dropped. -/
structure Accounts (may : Prop) (d : Dispatcher) (batch : Batch) (report : Report) : Prop where
  each : ∃ waiting, waiting.length = report.stillParked ∧
    (report.runs.map TaskRun.key ++ waiting).Perm (enabledKeys d.tasks.rows) ∧
    ∀ key ∈ waiting, ∃ run, d.parked.get? key = some run ∧ run.qualifies batch.events = false
  sorted : Report.Sorted report.runs
  dropped (never : ¬may) :
    Report.count .dropped report.runs =
      report.stillParked + (Report.count .parked report.runs + Report.count .dropped report.runs) -
        d.maxParked

variable {d : Dispatcher} {issued : List TaskKey}

theorem ownsSame {d' : Dispatcher} {key : TaskKey} {run : Run} (owns : d.Owns key run)
    (same : d'.tasks.get? key = d.tasks.get? key) : d'.Owns key run :=
  ⟨⟨same.trans owns.has.registered, owns.has.enabled⟩, owns.waits⟩

theorem newOrderly (settings : Settings) (world : World) (observer : Option Observer) :
    (ofSettings settings world observer).Orderly [] where
  room := Nat.zero_le _
  inFlight := rfl
  fingerprints := by simp [ofSettings, Table.keys, Table.empty]
  parked key run absurd := nomatch absurd
  registered := by simp [ofSettings, Table.keys, Table.empty]
  issuedOnce := List.nodup_nil
  later := by simp

theorem registerOrderly (orderly : d.Orderly issued) (task : Task) :
    (d.register task).2.Orderly (issued ++ [(d.register task).1]) := by
  have fresh : (⟨d.nextKey⟩ : TaskKey) ∉ issued := fun inside =>
    Nat.lt_irrefl _ (orderly.later _ inside)
  have other {key : TaskKey} (inside : key ∈ d.tasks.keys) : (⟨d.nextKey⟩ : TaskKey) ≠ key :=
    fun same => fresh (orderly.registered _ (same ▸ inside))
  have absent : d.tasks.get? ⟨d.nextKey⟩ = none := by
    cases found : d.tasks.get? ⟨d.nextKey⟩ with
    | none => rfl
    | some task => exact absurd rfl (other (Table.getKey found))
  have keys : (d.register task).2.tasks.keys = d.tasks.keys ++ [⟨d.nextKey⟩] := by
    simp [register, Table.keys, Table.insertAbsent absent]
  refine { orderly with
    fingerprints := fun key inside => ?_
    parked := fun key run found => ?_
    registered := fun key inside => ?_
    issuedOnce := ?_
    later := fun key inside => ?_ }
  · rw [keys]
    exact List.mem_append_left _ (orderly.fingerprints key inside)
  · have owns := orderly.parked key run found
    have apart := other (Table.getKey owns.has.registered)
    exact ownsSame owns ((Table.getInsert ..).trans (if_neg apart))
  · rw [keys] at inside
    exact List.mem_append.mpr ((List.mem_append.mp inside).imp_left (orderly.registered key))
  · refine List.nodup_append.mpr ⟨orderly.issuedOnce, List.nodup_singleton _, ?_⟩
    intro key old k new same
    cases List.mem_singleton.mp new
    rw [same] at old
    exact fresh old
  · rcases List.mem_append.mp inside with old | new
    · exact Nat.lt_succ_of_lt (orderly.later key old)
    · cases List.mem_singleton.mp new
      exact Nat.lt_succ_self _

theorem unregisterOrderly {d' : Dispatcher} {key : TaskKey} (orderly : d.Orderly issued)
    (removed : d.unregister key = .ok d') : d'.Orderly issued := by
  have fingerprints : ∀ k ∈ (d.fingerprints.erase key).keys, k ∈ (d.tasks.erase key).keys :=
    fun k inside => Table.keepKey (orderly.fingerprints k (Table.eraseKey inside))
      (Table.eraseOther inside)
  have registered : ∀ k ∈ (d.tasks.erase key).keys, k ∈ issued := fun k inside =>
    orderly.registered k (Table.eraseKey inside)
  have owns {k : TaskKey} {run : Run} (found : d.parked.get? k = some run) (other : key ≠ k)
      {d' : Dispatcher} (tasks : d'.tasks = d.tasks.erase key) : d'.Owns k run := by
    refine ownsSame (orderly.parked k run found) ?_
    rw [tasks, Table.getErase, if_neg other]
  rcases unregistered removed with ⟨absent, rfl⟩ | ⟨run, parked, rfl⟩
  · refine { orderly with
      parked := fun k run found => owns found ?_ rfl
      fingerprints
      registered }
    rintro rfl
    rw [absent] at found
    cases found
  · refine { orderly with
      room := Nat.le_trans (Table.eraseSizeLe _ _) orderly.room
      parked := fun k run found => ?_
      fingerprints
      registered }
    obtain ⟨other, before⟩ := Table.eraseFound found
    exact owns before other rfl

theorem haltOrderly (orderly : d.Orderly issued) : d.haltAll.2.Orderly issued := by
  obtain ⟨cancels, all, same⟩ := d.haltAllCancels
  rw [same]
  exact { orderly with
    room := Nat.zero_le _
    parked := fun key run absurd => nomatch absurd }

theorem parkedCount (orderly : d.Orderly issued) :
    d.parked.size = d.tasks.rows.countP fun row => d.parked.contains row.1 := by
  have once := d.tasks.filterUnique fun row => d.parked.contains row.1
  have keys : d.parked.keys.Perm
      ((d.tasks.rows.filter fun row => d.parked.contains row.1).map Prod.fst) := by
    refine (List.perm_ext_iff_of_nodup d.parked.unique once).mpr fun key => ⟨fun inside => ?_,
      fun inside => ?_⟩
    · obtain ⟨run, found⟩ := Table.keyGet inside
      have row := Table.getRow (orderly.parked key run found).has.registered
      exact List.mem_map.mpr ⟨_, List.mem_filter.mpr ⟨row, by simp [Table.contains, found]⟩, rfl⟩
    · obtain ⟨row, kept, rfl⟩ := List.mem_map.mp inside
      obtain ⟨run, found⟩ := Option.isSome_iff_exists.mp (List.mem_filter.mp kept).2
      exact Table.getKey found
  rw [List.countP_eq_length_filter, ← List.length_map (f := Prod.fst), ← keys.length_eq]
  simp [Table.keys, Table.size]

variable {allowed : Demand → Prop} {may : Prop} {batch : Batch} {s : Sky}

theorem startBooked (orderly : d.Orderly issued) (batch : Batch) :
    (Sky.start d batch).Booked allowed may d := by
  refine ⟨⟨[], rfl, ?_⟩, fun f none => (nomatch none), fun f none => (nomatch none)⟩
  exact {
    tasks := rfl
    nextKey := rfl
    maxParked := rfl
    inFlight := fun key inside => by
      rw [show (Sky.start d batch).dispatch.dispatcher.inFlight = Table.empty from orderly.inFlight]
        at inside
      cases inside
    fingerprints := orderly.fingerprints
    room := orderly.room
    parked := orderly.parked
    away := fun f none => nomatch none
    known := fun row inside => inside
    todoOnce := d.tasks.unique
    early := fun row inside run found => found
    told := by simp [Sky.start, Sky.flights]
    waits := fun key none => nomatch none
    sorted := List.Pairwise.nil
    counted := fun never => parkedCount orderly }

theorem overOrderly (orderly : d.Orderly issued) (booked : s.Booked allowed may d)
    (finished : s.Over) :
    s.dispatch.dispatcher.Orderly issued ∧ s.dispatch.dispatcher.tasks = d.tasks ∧
      s.dispatch.dispatcher.maxParked = d.maxParked := by
  obtain ⟨waiting, length, books⟩ := booked.books
  have landed := Sky.overFlights finished
  refine ⟨⟨books.room, ?_, ?_, fun key run found => ?_, ?_, orderly.issuedOnce, ?_⟩, books.tasks,
    books.maxParked⟩
  · have none : s.dispatch.dispatcher.inFlight.keys = [] := by
      refine List.eq_nil_iff_forall_not_mem.mpr fun key inside => ?_
      have flown := books.inFlight key inside
      rw [landed] at flown
      cases flown
    exact Table.ext (List.map_eq_nil_iff.mp none)
  · rw [books.tasks]
    exact books.fingerprints
  · exact ownsSame (books.parked key run found) (congrArg (Table.get? · key) books.tasks)
  · rw [books.tasks]
    exact orderly.registered
  · rw [books.nextKey]
    exact orderly.later

theorem anyTree (d : Dispatcher) : ∀ row ∈ d.tasks.rows, row.2.tree.Only fun _ => True :=
  fun row _ => row.2.tree.onlyAnything

theorem dispatchedOrderly (orderly : d.Orderly issued) (dispatched : Dispatched may d batch s) :
    s.dispatch.dispatcher.Orderly issued ∧ s.dispatch.dispatcher.tasks = d.tasks ∧
      s.dispatch.dispatcher.maxParked = d.maxParked := by
  obtain ⟨t, sending, sent, none, settling, finished⟩ := dispatched
  have booked := Sky.advancesBooked d.anyTree sending (startBooked orderly batch)
  exact overOrderly orderly (Sky.advancesBooked d.anyTree settling booked) finished

theorem dispatchedDropped (orderly : d.Orderly issued) (dispatched : Dispatched may d batch s)
    (never : ¬may) :
    Report.count .dropped s.dispatch.runs =
      s.dispatch.stillParked +
        (Report.count .parked s.dispatch.runs + Report.count .dropped s.dispatch.runs) -
        d.maxParked := by
  obtain ⟨t, sending, sent, none, settling, finished⟩ := dispatched
  have begun := Sky.advancesBooked d.anyTree sending (startBooked orderly batch)
  have filled : t.Filled := ⟨sent, fun dropped => by
    rw [none] at dropped
    cases dropped⟩
  have full := (Sky.advancesFilled d.anyTree never begun filled settling).dropped
  obtain ⟨waiting, length, books⟩ := (Sky.advancesBooked d.anyTree settling begun).books
  have counted := books.counted never
  have room := books.room
  rw [finished.todo, List.countP_nil, length] at counted
  rw [books.maxParked] at full room
  omega

theorem dispatchedAccounts (orderly : d.Orderly issued) (dispatched : Dispatched may d batch s) :
    Accounts may d batch s.dispatch.report := by
  have dropped := dispatchedDropped orderly dispatched
  obtain ⟨t, sending, sent, none, settling, finished⟩ := dispatched
  have booked := Sky.advancesBooked d.anyTree sending (startBooked orderly batch)
  obtain ⟨waiting, length, books⟩ := (Sky.advancesBooked d.anyTree settling booked).books
  have landed := Sky.overFlights finished
  have same : s.batch = batch :=
    (Sky.advancesBatch settling).trans (Sky.advancesBatch sending)
  have told := books.told
  have waits := books.waits
  rw [finished.todo, landed] at told
  rw [same] at waits
  exact ⟨⟨waiting, length, told, waits⟩, books.sorted, dropped⟩

theorem launchRuns (batch : Batch) (rows : List (TaskKey × Task))
    (p : List (Flight × Run) × Dispatch) (none : p.2.runs = []) :
    (rows.foldl (fun p row => Dispatch.send batch p.1 p.2 row.1 row.2) p).2.runs = [] := by
  induction rows generalizing p with
  | nil => exact none
  | cons row rows ih =>
    refine ih _ ?_
    have sends := Dispatch.sendSends batch p.2 row.1 row.2
    beta_reduce
    rw [Dispatch.sendOnto]
    generalize Dispatch.send batch [] p.2 row.1 row.2 = sent at sends
    cases sends <;> exact none

theorem dispatchReturns (orderly : d.Orderly issued)
    (only : ∀ row ∈ d.tasks.rows, row.2.tree.Only allowed) (never : ¬allowed .pend)
    (batch : Batch) : (d.dispatch batch).stranded = [] := by
  obtain ⟨landed, overtaken, flown⟩ := Sky.flownSteps d batch
  exact Sky.stepsReturn only never (startBooked orderly batch) rfl
    ((Sky.launchedSteps d batch).trans flown)

/- The dispatcher's own order of turns is one of them, if every flight comes back; and nobody halts
everything if no executor does. -/
theorem dispatchDispatched (orderly : d.Orderly issued)
    (only : ∀ row ∈ d.tasks.rows, row.2.tree.Only allowed) (batch : Batch)
    (pending : allowed .pend → (d.dispatch batch).stranded = []) :
    ∃ s, s.dispatch = d.dispatch batch ∧ Dispatched (allowed .haltAll) d batch s := by
  have back : (d.dispatch batch).stranded = [] := by
    by_cases may : allowed .pend
    · exact pending may
    · exact dispatchReturns orderly only may batch
  obtain ⟨landed, overtaken, flown⟩ := Sky.flownSteps d batch
  have none : (Dispatch.launch d batch).2.runs = [] := launchRuns batch d.tasks.rows _ rfl
  obtain ⟨sending, booked⟩ :=
    Sky.stepsAdvances only (startBooked orderly batch) (Sky.launchedSteps d batch)
  obtain ⟨settling, -⟩ := Sky.stepsAdvances only booked flown
  exact ⟨⟨d.dispatch batch, batch, [], [], overtaken⟩, rfl, Sky.launched d batch, sending, rfl,
    none, settling, ⟨rfl, rfl, landed, back⟩⟩

/- What can have been called of a dispatcher that was new with these settings, one call after
another, with the keys given out on the way. A call that fails has no effect. -/
inductive Called (settings : Settings) (world : World) (observer : Option Observer) :
    List TaskKey → Dispatcher → Prop where
  | new : Called settings world observer [] (.ofSettings settings world observer)
  | register {issued : List TaskKey} {d : Dispatcher}
      (earlier : Called settings world observer issued d) (task : Task) :
      Called settings world observer (issued ++ [(d.register task).1]) (d.register task).2
  | registerTree {issued : List TaskKey} {d d' : Dispatcher} {metadata : TaskMetadata}
      {tree : Applet} {key : TaskKey} (earlier : Called settings world observer issued d)
      (made : d.registerTree metadata tree = .ok (key, d')) :
      Called settings world observer (issued ++ [key]) d'
  | unregister {issued : List TaskKey} {d d' : Dispatcher} {key : TaskKey}
      (earlier : Called settings world observer issued d) (removed : d.unregister key = .ok d') :
      Called settings world observer issued d'
  | dispatch {issued : List TaskKey} {d : Dispatcher} {batch : Batch} {s : Sky}
      (earlier : Called settings world observer issued d) (dispatched : Dispatched True d batch s) :
      Called settings world observer issued s.dispatch.dispatcher
  | haltAll {issued : List TaskKey} {d : Dispatcher}
      (earlier : Called settings world observer issued d) :
      Called settings world observer issued d.haltAll.2

variable {settings : Settings} {world : World} {observer : Option Observer}

theorem calledOrderly (called : Called settings world observer issued d) :
    d.Orderly issued ∧ d.maxParked = settings.maxParkedRuntimes := by
  induction called with
  | new => exact ⟨newOrderly settings world observer, rfl⟩
  | register earlier task ih => exact ⟨registerOrderly ih.1 task, ih.2⟩
  | @registerTree issued d metadata tree key d' earlier made ih =>
    unfold registerTree at made
    split at made
    · rename_i task legal
      cases made
      exact ⟨registerOrderly ih.1 task, ih.2⟩
    · cases made
  | unregister earlier removed ih =>
    refine ⟨unregisterOrderly ih.1 removed, ?_⟩
    rcases unregistered removed with ⟨absent, rfl⟩ | ⟨run, parked, rfl⟩
    · exact ih.2
    · exact ih.2
  | dispatch earlier dispatched ih =>
    obtain ⟨orderly, -, maxParked⟩ := dispatchedOrderly ih.1 dispatched
    exact ⟨orderly, maxParked.trans ih.2⟩
  | @haltAll issued d earlier ih =>
    obtain ⟨cancels, all, same⟩ := d.haltAllCancels
    refine ⟨haltOrderly ih.1, ?_⟩
    rw [same]
    exact ih.2

/- Whatever has been called, the dispatcher is at rest in good order, and whichever way it goes
about a batch, its report accounts for the enabled tasks. It gets through every batch unless an
executor waits for ever. -/
theorem callsAccounted (called : Called settings world observer issued d) :
    d.Orderly issued ∧ d.maxParked = settings.maxParkedRuntimes ∧
      (∀ may batch s, Dispatched may d batch s → Accounts may d batch s.dispatch.report) ∧
      ∀ allowed, (∀ row ∈ d.tasks.rows, row.2.tree.Only allowed) → ∀ batch,
        (allowed .pend → (d.dispatch batch).stranded = []) →
          ∃ s, s.dispatch = d.dispatch batch ∧ Dispatched (allowed .haltAll) d batch s := by
  obtain ⟨orderly, maxParked⟩ := calledOrderly called
  exact ⟨orderly, maxParked, fun may batch s => dispatchedAccounts orderly, fun allowed only =>
    dispatchDispatched orderly only⟩

def crowdedDispatcher : Dispatcher :=
  (((ofSettings { maxParkedRuntimes := 1 } World.fresh none).register Sky.windowTask).2.register
    Sky.windowTask).2

theorem callsAccountedCrowded : ∃ d,
    Called { maxParkedRuntimes := 1 } World.fresh none [⟨0⟩, ⟨1⟩] d ∧ d.Orderly [⟨0⟩, ⟨1⟩] ∧
      Accounts False d Sky.haltBatch (d.dispatch Sky.haltBatch).report ∧
      (d.dispatch Sky.haltBatch).report.stillParked = 1 ∧
      (d.dispatch Sky.haltBatch).report.runs.map (fun r => (r.key, r.status)) =
        [(⟨1⟩, .dropped)] := by
  have begun : Called { maxParkedRuntimes := 1 } World.fresh none [⟨0⟩, ⟨1⟩] crowdedDispatcher :=
    .register (.register .new Sky.windowTask) Sky.windowTask
  have modest : ∀ row ∈ crowdedDispatcher.tasks.rows, row.2.tree.Only Demand.Modest := by
    intro row inside
    have known : row.2 = Sky.windowTask := by
      rcases List.mem_cons.mp inside with rfl | inside
      · rfl
      · cases List.mem_singleton.mp inside
        rfl
    rw [known]
    exact .flow (List.forall_mem_singleton.mpr .wait)
  obtain ⟨orderly, -, -, first⟩ := callsAccounted begun
  obtain ⟨s, same, dispatched⟩ := first (fun _ => True) crowdedDispatcher.anyTree Sky.haltBatch
    fun _ => by decide +kernel
  have called := begun.dispatch dispatched
  have tasks := (dispatchedOrderly orderly dispatched).2.1
  rw [same] at called tasks
  obtain ⟨orderly, -, accounts, second⟩ := callsAccounted called
  obtain ⟨t, again, dispatched⟩ := second Demand.Modest (by rwa [tasks]) Sky.haltBatch
    fun _ => by decide +kernel
  have told := accounts _ Sky.haltBatch t dispatched
  rw [again] at told
  have dropped := told.dropped fun modest => modest rfl
  exact ⟨_, called, orderly, { told with dropped := fun _ => dropped }, by decide +kernel,
    by decide +kernel⟩

end Dispatcher
end Automation
