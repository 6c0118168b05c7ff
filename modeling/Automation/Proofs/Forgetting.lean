import Automation.Proofs.Parking
/-! What a dispatcher remembers of a task that has been unregistered, which is a parked run and a
fingerprint at most: nothing, unless a run of it was in flight. The settlement of such a run does
not ask for the task, so that what it parks or stores stays behind. -/
namespace Automation

structure Traces where
  parked : Option Run
  fingerprint : Option UInt32

namespace Traces

def blank : Traces := ⟨none, none⟩

def halted (traces : Traces) : Traces := { traces with parked := none }

end Traces

namespace Dispatcher

def traces (d : Dispatcher) (key : TaskKey) : Traces := ⟨d.parked.get? key, d.fingerprints.get? key⟩

def leaves (d : Dispatcher) : Landing → Traces
  | .back run (some .completed) => ⟨none, some run.fingerprint⟩
  | .back run (some .suspended) => ⟨if d.parked.size < d.maxParked then some run else none, none⟩
  | .back _ none | .crashed => .blank

variable {d : Dispatcher} {flight : Flight} {landing : Landing} {key : TaskKey}

theorem unregisteredTask {d' : Dispatcher} (removed : d.unregister key = .ok d') :
    key ∈ d.tasks.keys := by
  unfold unregister at removed
  split at removed
  · rename_i known
    obtain ⟨task, found⟩ := Option.isSome_iff_exists.mp known
    exact Table.getKey found
  · cases removed

structure Settled (d : Dispatcher) (flight : Flight) (landing : Landing) (d' : Dispatcher) : Prop where
  tasks : d'.tasks = d.tasks
  nextKey : d'.nextKey = d.nextKey
  inFlight : d'.inFlight = d.inFlight.erase flight.key
  own : d.traces flight.key = .blank → d'.traces flight.key = d.leaves landing
  others : ∀ key, flight.key ≠ key → d'.traces key = d.traces key

theorem settleSettled (d : Dispatcher) (flight : Flight) (landing : Landing) :
    d.Settled flight landing (d.settle flight landing).2 := by
  rcases landing with ⟨run, _ | _ | _⟩ | _
  · exact ⟨rfl, rfl, rfl, id, fun _ _ => rfl⟩
  · refine ⟨rfl, rfl, rfl, fun blank => ?_, fun key other => ?_⟩
    · have parked : d.parked.get? flight.key = none := congrArg Traces.parked blank
      simp [traces, settle, leaves, Table.getInsert, parked]
    · simp [traces, settle, Table.getInsert, other]
  · by_cases room : d.parked.size < d.maxParked
    · simp only [settle, room, if_true]
      refine ⟨rfl, rfl, rfl, fun blank => ?_, fun key other => ?_⟩
      · have fingerprint : d.fingerprints.get? flight.key = none := congrArg Traces.fingerprint blank
        simp [traces, leaves, Table.getInsert, fingerprint, room]
      · simp [traces, Table.getInsert, other]
    · simp only [settle, room, if_false]
      refine ⟨rfl, rfl, rfl, fun blank => ?_, fun key other => rfl⟩
      rw [leaves, if_neg room]
      exact blank
  · exact ⟨rfl, rfl, rfl, id, fun _ _ => rfl⟩

end Dispatcher

namespace Sky
variable {s t : Sky} {key : TaskKey} {traces : Traces}

def aloft (s : Sky) : List TaskKey := s.todo.map Prod.fst ++ s.flights.map Flight.key

structure Drifts (s t : Sky) : Prop where
  todo : t.todo = s.todo
  flights : t.flights.Perm s.flights
  tasks : t.dispatch.dispatcher.tasks = s.dispatch.dispatcher.tasks
  nextKey : t.dispatch.dispatcher.nextKey = s.dispatch.dispatcher.nextKey
  inFlight : t.dispatch.dispatcher.inFlight = s.dispatch.dispatcher.inFlight
  traces : ∀ key, t.dispatch.dispatcher.traces key = s.dispatch.dispatcher.traces key ∨
    t.dispatch.dispatcher.traces key = (s.dispatch.dispatcher.traces key).halted

theorem haltDrifts (s : Sky) : s.Drifts s.halt := by
  obtain ⟨-, -, same⟩ := s.dispatch.dispatcher.haltAllCancels
  have halted : s.halt.dispatch.dispatcher = _ := same
  refine ⟨rfl, .refl _, ?_, ?_, ?_, fun key => .inr ?_⟩ <;> rw [halted]
  rfl

theorem Drifts.trans {u : Sky} (first : s.Drifts t) (second : t.Drifts u) : s.Drifts u where
  todo := second.todo.trans first.todo
  flights := second.flights.trans first.flights
  tasks := second.tasks.trans first.tasks
  nextKey := second.nextKey.trans first.nextKey
  inFlight := second.inFlight.trans first.inFlight
  traces key := by
    rcases first.traces key with a | a <;> rcases second.traces key with b | b <;> rw [b, a]
    · exact .inl rfl
    · exact .inr rfl
    · exact .inr rfl
    · exact .inr rfl

theorem Drifts.aloft (drifts : s.Drifts t) : t.aloft.Perm s.aloft := by
  unfold Sky.aloft
  rw [drifts.todo]
  exact (drifts.flights.map _).append_left _

theorem turnedDrifts {flight : Flight} {course : Course} {before after : List (Flight × Course)}
    (here : s.flying = before ++ (flight, course) :: after)
    (turned : s.Turned flight before after t) : s.Drifts t := by
  have same (key : TaskKey) : s.dispatch.dispatcher.traces key = s.dispatch.dispatcher.traces key ∨
      s.dispatch.dispatcher.traces key = (s.dispatch.dispatcher.traces key).halted := .inl rfl
  induction turned with
  | lands log handles awake =>
    refine ⟨rfl, List.perm_iff_count.mpr fun f => ?_, rfl, rfl, rfl, same⟩
    simp [flights, here, List.count_cons]
    omega
  | strands log handles =>
    refine ⟨rfl, List.perm_iff_count.mpr fun f => ?_, rfl, rfl, rfl, same⟩
    simp [flights, here, List.count_cons]
    omega
  | goesOn log handles fit =>
    refine ⟨rfl, List.perm_iff_count.mpr fun f => ?_, rfl, rfl, rfl, same⟩
    simp [flights, here, List.count_cons]
  | halts goesOn ih => exact ih.trans (haltDrifts _)

inductive Sent (s : Sky) (key : TaskKey) (todo : List (TaskKey × Task)) : Sky → Prop where
  | stays (stillParked : Nat) :
      Sent s key todo { s with dispatch := { s.dispatch with stillParked }, todo }
  | boards {world : World} {parked : Table TaskKey Run} {flight : Flight} (run : Run)
      (own : flight.key = key) (absent : parked.get? key = none)
      (others : ∀ other, key ≠ other →
        parked.get? other = s.dispatch.dispatcher.parked.get? other) :
      Sent s key todo { s with
        dispatch := { s.dispatch with dispatcher := { s.dispatch.dispatcher with
          world, parked
          inFlight := s.dispatch.dispatcher.inFlight.insert key flight.handle } }
        todo
        flying := s.flying ++ [(flight, .ready run)] }

theorem sendSent (s : Sky) (row : TaskKey × Task) (todo : List (TaskKey × Task)) :
    s.Sent row.1 todo (s.send row todo) := by
  have sends := Dispatch.sendSends s.batch s.dispatch row.1 row.2
  unfold send
  generalize Dispatch.send s.batch [] s.dispatch row.1 row.2 = sent at sends
  cases sends with
  | disabled off =>
    simp only [List.map_nil, List.append_nil]
    exact .stays _
  | waits on parked refuse =>
    simp only [List.map_nil, List.append_nil]
    exact .stays _
  | @resumes run on parked accept =>
    exact .boards run rfl ((Table.getErase ..).trans (if_pos rfl))
      fun other apart => (Table.getErase ..).trans (if_neg apart)
  | starts on absent => exact .boards _ rfl absent fun _ _ => rfl

inductive Occurs (s : Sky) : Sky → Prop where
  | drifts {t : Sky} (drifts : s.Drifts t) : Occurs s t
  | sends {t : Sky} {row before after} (here : s.todo = before ++ row :: after)
      (sent : s.Sent row.1 (before ++ after) t) : Occurs s t
  | settles {flight landing before after}
      (here : s.dispatch.landed = before ++ (flight, landing) :: after) :
      Occurs s { s with
        dispatch := { s.dispatch with landed := before ++ after }.settle flight landing }
  | registers (task : Task) : Occurs s { s with
      dispatch := { s.dispatch with dispatcher := (s.dispatch.dispatcher.register task).2 } }
  | unregisters {key : TaskKey} {d : Dispatcher}
      (removed : s.dispatch.dispatcher.unregister key = .ok d) :
      Occurs s { s with dispatch := { s.dispatch with dispatcher := d } }
  | dispatches (finished : s.Over) (batch : Batch) :
      Occurs s { Sky.start s.dispatch.dispatcher batch with overtaken := s.overtaken }

theorem happensOccurs (sane : s.Sane) (happens : s.Happens t) : s.Occurs t := by
  cases happens with
  | step step =>
    cases step with
    | send here => exact .sends here (s.sendSent _ _)
    | @turn flight course before after here =>
      have fit := sane.flying (flight, course) (by rw [here]; simp)
      exact .drifts (turnedDrifts here (turnTurned s before after fit))
    | stop here cancelled =>
      refine .drifts ⟨rfl, List.perm_iff_count.mpr fun f => ?_, rfl, rfl, rfl, fun _ => .inl rfl⟩
      simp [flights, here, Dispatch.land, List.count_cons]
      omega
    | ground here cancelled =>
      refine .drifts ⟨rfl, List.perm_iff_count.mpr fun f => ?_, rfl, rfl, rfl, fun _ => .inl rfl⟩
      simp [flights, here, Dispatch.land, List.count_cons]
      omega
    | settle here => exact .settles here
  | register task only => exact .registers task
  | unregister removed => exact .unregisters removed
  | halt => exact .drifts s.haltDrifts
  | dispatch finished batch => exact .dispatches finished batch

theorem settledFlights {flight : Flight} {landing : Landing} {before after : List (Flight × Landing)}
    (here : s.dispatch.landed = before ++ (flight, landing) :: after) :
    s.flights.Perm (flight :: flights { s with
      dispatch := { s.dispatch with landed := before ++ after }.settle flight landing }) := by
  refine List.perm_iff_count.mpr fun f => ?_
  simp [flights, here, Dispatch.settle, List.count_cons]
  omega

/- Who is on record has been given a key, and has a run in flight just as long as it is out. -/
structure Posted (s : Sky) : Prop where
  given : ∀ key ∈ s.dispatch.dispatcher.tasks.keys, key.number < s.dispatch.dispatcher.nextKey
  manned : ∀ key ∉ s.flights.map Flight.key, s.dispatch.dispatcher.inFlight.get? key = none

theorem occursPosted (occurs : s.Occurs t) (posted : s.Posted) : t.Posted := by
  -- Only sending off and settling touch the handles in flight, each under the key of its own run.
  cases occurs with
  | drifts drifts =>
    refine ⟨?_, fun key gone => ?_⟩
    · rw [drifts.tasks, drifts.nextKey]
      exact posted.given
    · rw [drifts.inFlight]
      exact posted.manned key fun out => gone ((drifts.flights.map _).mem_iff.mpr out)
  | sends here sent =>
    cases sent with
    | stays => exact ⟨posted.given, posted.manned⟩
    | boards run own absent others =>
      refine ⟨posted.given, fun key gone => ?_⟩
      simp only [flights, List.map_append, List.mem_append, List.map_cons, List.map_nil,
        List.mem_singleton, not_or] at gone
      obtain ⟨⟨⟨flying, other⟩, landed⟩, stranded⟩ := gone
      rw [own] at other
      refine (Table.getInsert ..).trans ((if_neg (Ne.symm other)).trans (posted.manned key ?_))
      simp only [flights, List.map_append, List.mem_append, not_or]
      exact ⟨⟨flying, landed⟩, stranded⟩
  | @settles flight landing before after here =>
    have settled := s.dispatch.dispatcher.settleSettled flight landing
    refine ⟨settled.tasks ▸ settled.nextKey ▸ posted.given, fun key gone => ?_⟩
    refine (congrArg (Table.get? · key) settled.inFlight).trans ((Table.getErase ..).trans ?_)
    split
    · rfl
    · rename_i other
      refine posted.manned key fun out => gone ?_
      rw [((settledFlights here).map Flight.key).mem_iff, List.map_cons, List.mem_cons] at out
      exact out.resolve_left fun same => other same.symm
  | registers task =>
    refine ⟨fun key inside => ?_, posted.manned⟩
    rcases Table.insertKey inside with rfl | old
    · exact Nat.lt_succ_self _
    · exact Nat.lt_succ_of_lt (posted.given key old)
  | unregisters removed =>
    rcases Dispatcher.unregistered removed with ⟨-, rfl⟩ | ⟨run, -, rfl⟩
    · exact ⟨fun key inside => posted.given key (Table.eraseKey inside), posted.manned⟩
    · exact ⟨fun key inside => posted.given key (Table.eraseKey inside), posted.manned⟩
  | dispatches finished batch =>
    refine ⟨posted.given, fun key _ => posted.manned key ?_⟩
    simp [flights, finished.flying, finished.landed, finished.stranded]

theorem followsPosted {t : Sky} (follows : s.Follows t) (sane : s.Sane) (posted : s.Posted) :
    t.Posted := by
  induction follows with
  | refl => exact posted
  | tail earlier happens ih =>
    exact occursPosted (happensOccurs (followsSane earlier sane) happens) ih

structure Dismissed (key : TaskKey) (traces : Traces) (s : Sky) : Prop where
  task : key ∉ s.dispatch.dispatcher.tasks.keys
  given : key.number < s.dispatch.dispatcher.nextKey
  traces : s.dispatch.dispatcher.traces key = traces

structure Keeps (key : TaskKey) (traces : Traces) (s : Sky) : Prop extends s.Dismissed key traces where
  aloft : key ∉ s.aloft
  inFlight : s.dispatch.dispatcher.inFlight.get? key = none

theorem landedAloft {flight : Flight} {landing : Landing}
    (landed : (flight, landing) ∈ s.dispatch.landed) : flight.key ∈ s.aloft := by
  have flown : flight ∈ s.flights :=
    List.mem_append_left _ (List.mem_append_right _ (List.mem_map_of_mem landed))
  exact List.mem_append_right _ (List.mem_map_of_mem flown)

theorem settledAloft {flight : Flight} {landing : Landing} {before after : List (Flight × Landing)}
    (here : s.dispatch.landed = before ++ (flight, landing) :: after) :
    s.aloft.Perm (flight.key :: aloft { s with
      dispatch := { s.dispatch with landed := before ++ after }.settle flight landing }) := by
  have moved := ((settledFlights here).map Flight.key).append_left (s.todo.map Prod.fst)
  exact moved.trans List.perm_middle

theorem occursAloft (occurs : s.Occurs t) (dismissed : s.Dismissed key traces)
    (gone : key ∉ s.aloft) : key ∉ t.aloft := by
  cases occurs with
  | drifts drifts => exact fun inside => gone (drifts.aloft.mem_iff.mp inside)
  | sends here sent =>
    cases sent with
    | stays still =>
      refine fun inside => gone ?_
      simp only [aloft, flights, here, List.map_append, List.mem_append, List.map_cons,
        List.mem_cons] at inside ⊢
      tauto
    | boards run own absent others =>
      refine fun inside => gone ?_
      simp only [aloft, flights, here, List.map_append, List.mem_append, List.map_cons,
        List.mem_cons, List.map_nil, own] at inside ⊢
      tauto
  | settles here =>
    exact fun inside => gone ((settledAloft here).mem_iff.mpr (List.mem_cons_of_mem _ inside))
  | registers task => exact gone
  | unregisters removed => exact gone
  | dispatches finished batch =>
    refine fun inside => dismissed.task ?_
    simpa [aloft, flights, start, Table.keys] using inside

theorem settleLeaves (sane : s.Sane) {flight : Flight} {landing : Landing}
    {before after : List (Flight × Landing)}
    (here : s.dispatch.landed = before ++ (flight, landing) :: after) :
    let t : Sky := { s with
      dispatch := { s.dispatch with landed := before ++ after }.settle flight landing }
    flight.key ∉ t.aloft ∧ (s.Dismissed flight.key .blank →
      t.Dismissed flight.key (s.dispatch.dispatcher.leaves landing)) := by
  have settled := s.dispatch.dispatcher.settleSettled flight landing
  have once := (settledAloft here).nodup_iff.mp sane.ledger.keys
  refine ⟨(List.nodup_cons.mp once).1, fun dismissed => ⟨fun inside => ?_, ?_, ?_⟩⟩
  · exact dismissed.task (settled.tasks ▸ inside)
  · exact settled.nextKey.symm ▸ dismissed.given
  · exact settled.own dismissed.traces

theorem occursDismissed (occurs : s.Occurs t) (sane : s.Sane) (dismissed : s.Dismissed key traces) :
    t.Dismissed key traces ∨ t.Dismissed key traces.halted ∨
      ∃ flight landing, (flight, landing) ∈ s.dispatch.landed ∧ flight.key = key ∧ key ∉ t.aloft ∧
        (traces = .blank → t.Dismissed key (s.dispatch.dispatcher.leaves landing)) := by
  cases occurs with
  | drifts drifts =>
    have still {traces' : Traces} (same : t.dispatch.dispatcher.traces key = traces') :
        t.Dismissed key traces' :=
      ⟨drifts.tasks ▸ dismissed.task, drifts.nextKey ▸ dismissed.given, same⟩
    refine (drifts.traces key).imp (fun same => still (same.trans dismissed.traces)) fun same => ?_
    exact .inl (still (same.trans (congrArg Traces.halted dismissed.traces)))
  | @sends _ row before after here sent =>
    cases sent with
    | stays still => exact .inl ⟨dismissed.task, dismissed.given, dismissed.traces⟩
    | @boards world parked flight run own absent others =>
      by_cases same : row.1 = key
      · refine .inr (.inl ⟨dismissed.task, dismissed.given, ?_⟩)
        rw [← dismissed.traces, ← same]
        exact congrArg (Traces.mk · _) absent
      · refine .inl ⟨dismissed.task, dismissed.given, ?_⟩
        rw [← dismissed.traces]
        exact congrArg (Traces.mk · _) (others key same)
  | @settles flight landing before after here =>
    -- The settlement of a run of the task is the one thing that leaves something behind.
    by_cases same : flight.key = key
    · subst same
      obtain ⟨gone, leaves⟩ := settleLeaves sane here
      have landed : (flight, landing) ∈ s.dispatch.landed := by rw [here]; simp
      exact .inr (.inr ⟨flight, landing, landed, rfl, gone, fun blank => leaves (blank ▸ dismissed)⟩)
    · have settled := s.dispatch.dispatcher.settleSettled flight landing
      exact .inl ⟨fun inside => dismissed.task (settled.tasks ▸ inside),
        settled.nextKey.symm ▸ dismissed.given, (settled.others key same).trans dismissed.traces⟩
  | registers task =>
    refine .inl ⟨fun inside => ?_, Nat.lt_succ_of_lt dismissed.given, dismissed.traces⟩
    rcases Table.insertKey inside with rfl | old
    · exact Nat.lt_irrefl _ dismissed.given
    · exact dismissed.task old
  | @unregisters other d removed =>
    have apart : other ≠ key := fun same =>
      dismissed.task (same ▸ Dispatcher.unregisteredTask removed)
    refine .inl ?_
    rcases Dispatcher.unregistered removed with ⟨-, rfl⟩ | ⟨run, -, rfl⟩
    · refine ⟨fun inside => dismissed.task (Table.eraseKey inside), dismissed.given, ?_⟩
      rw [← dismissed.traces]
      simp [Dispatcher.traces, Table.getErase, apart]
    · refine ⟨fun inside => dismissed.task (Table.eraseKey inside), dismissed.given, ?_⟩
      rw [← dismissed.traces]
      simp [Dispatcher.traces, Table.getErase, apart]
  | dispatches finished batch =>
    exact .inl ⟨dismissed.task, dismissed.given, dismissed.traces⟩

theorem happensKeeps (happens : s.Happens t) (sane : s.Sane) (posted : s.Posted)
    (keeps : s.Keeps key traces) : t.Keeps key traces ∨ t.Keeps key traces.halted := by
  have occurs := happensOccurs sane happens
  have gone := occursAloft occurs keeps.toDismissed keeps.aloft
  have manned := (occursPosted occurs posted).manned key fun out => gone (List.mem_append_right _ out)
  rcases occursDismissed occurs sane keeps.toDismissed with
    still | halted | ⟨f, l, landed, own, -, -⟩
  · exact .inl ⟨still, gone, manned⟩
  · exact .inr ⟨halted, gone, manned⟩
  · exact absurd (own ▸ landedAloft landed) keeps.aloft

theorem followsKeeps (follows : s.Follows t) (sane : s.Sane) (posted : s.Posted)
    (keeps : s.Keeps key traces) : t.Keeps key traces ∨ t.Keeps key traces.halted := by
  induction follows with
  | refl => exact .inl keeps
  | tail earlier happens ih =>
    have sane' := followsSane earlier sane
    have posted' := followsPosted earlier sane posted
    rcases ih with still | halted
    · exact happensKeeps happens sane' posted' still
    · exact .inr ((happensKeeps happens sane' posted' halted).elim id id)

/- What may have become of a task that was unregistered: its run goes on, with nothing remembered;
nothing is remembered for good; or what its run left when it was settled, but for a halt since. -/
inductive Fate (gone : Sky) (key : TaskKey) (t : Sky) : Prop where
  | aloft (dismissed : t.Dismissed key .blank) (aloft : key ∈ t.aloft)
  | forgotten (keeps : t.Keeps key .blank)
  | left {u flight landing} (earlier : gone.Follows u) (later : u.Follows t)
      (landed : (flight, landing) ∈ u.dispatch.landed) (own : flight.key = key)
      (keeps : t.Keeps key (u.dispatch.dispatcher.leaves landing) ∨
        t.Keeps key (u.dispatch.dispatcher.leaves landing).halted)

theorem dismissedFate (sane : s.Sane) (posted : s.Posted) (dismissed : s.Dismissed key .blank)
    (follows : s.Follows t) : s.Fate key t := by
  have rests {t : Sky} {traces : Traces} (follows : s.Follows t) (dismissed : t.Dismissed key traces)
      (gone : key ∉ t.aloft) : t.Keeps key traces :=
    ⟨dismissed, gone, (followsPosted follows sane posted).manned key fun out =>
      gone (List.mem_append_right _ out)⟩
  have fate {t : Sky} (follows : s.Follows t) (dismissed : t.Dismissed key .blank) : s.Fate key t := by
    by_cases aloft : key ∈ t.aloft
    · exact .aloft dismissed aloft
    · exact .forgotten (rests follows dismissed aloft)
  induction follows with
  | refl => exact fate .refl dismissed
  | @tail u v earlier happens ih =>
    have sane' := followsSane earlier sane
    have posted' := followsPosted earlier sane posted
    cases ih with
    | aloft dismissed' aloft =>
      have occurs := happensOccurs sane' happens
      rcases occursDismissed occurs sane' dismissed' with
        still | halted | ⟨flight, landing, landed, own, gone, leaves⟩
      · exact fate (earlier.tail happens) still
      · exact fate (earlier.tail happens) halted
      · have keeps := rests (earlier.tail happens) (leaves rfl) gone
        exact .left earlier (.single happens) landed own (.inl keeps)
    | forgotten keeps =>
      exact .forgotten ((happensKeeps happens sane' posted' keeps).elim id id)
    | left earlier' later landed own keeps =>
      refine .left earlier' (later.tail happens) landed own ?_
      rcases keeps with still | halted
      · exact happensKeeps happens sane' posted' still
      · exact .inr ((happensKeeps happens sane' posted' halted).elim id id)

theorem unregisteredDismissed {d : Dispatcher} (posted : s.Posted)
    (removed : s.dispatch.dispatcher.unregister key = .ok d) :
    Dismissed key .blank { s with dispatch := { s.dispatch with dispatcher := d } } := by
  have given := posted.given key (Dispatcher.unregisteredTask removed)
  rcases Dispatcher.unregistered removed with ⟨absent, rfl⟩ | ⟨run, parked, rfl⟩
  · refine ⟨fun inside => Table.eraseOther inside rfl, given, ?_⟩
    simp [Dispatcher.traces, Traces.blank, Table.getErase, absent]
  · refine ⟨fun inside => Table.eraseOther inside rfl, given, ?_⟩
    simp [Dispatcher.traces, Traces.blank, Table.getErase]

variable {settings : Settings} {world : World} {observer : Option Observer}

/- A task that is unregistered is forgotten for good if no run of it is under way. If one is,
nothing is remembered until it is settled; what it leaves then stays, if not for a halt. -/
theorem unregisteredFate {d : Dispatcher} (reached : Reached settings world observer s)
    (removed : s.dispatch.dispatcher.unregister key = .ok d) :
    let gone : Sky := { s with dispatch := { s.dispatch with dispatcher := d } }
    (key ∉ s.aloft → ∀ t, gone.Follows t → t.Keeps key .blank) ∧
      (∀ t, gone.Follows t → gone.Fate key t) ∧
      (∀ t flight landing, gone.Follows t → (flight, landing) ∈ t.dispatch.landed →
        flight.key = key → ∃ u, t.Step u ∧ u.Keeps key (t.dispatch.dispatcher.leaves landing)) ∧
      ∀ t traces, gone.Follows t → t.Keeps key traces →
        ∀ u, t.Follows u → u.Keeps key traces ∨ u.Keeps key traces.halted := by
  intro gone
  obtain ⟨batch, follows⟩ := reached
  have sane := followsSane follows (newSane batch)
  have posted : s.Posted := followsPosted follows (newSane batch)
    ⟨fun key none => absurd none List.not_mem_nil, fun key _ => rfl⟩
  have removes : s.Happens gone := .unregister removed
  have dismissed := unregisteredDismissed posted removed
  have sane' := happensSane removes sane
  have posted' := occursPosted (happensOccurs sane removes) posted
  refine ⟨fun idle t later => ?_, fun t => dismissedFate sane' posted' dismissed,
    fun t flight landing later landed own => ?_, fun t traces earlier keeps u later => ?_⟩
  · have idle' : key ∉ gone.aloft := idle
    have manned := posted'.manned key fun out => idle' (List.mem_append_right _ out)
    exact (followsKeeps later sane' posted' ⟨dismissed, idle', manned⟩).elim id id
  · subst own
    obtain ⟨before, after, here⟩ := List.append_of_mem landed
    have step : t.Step _ := .settle here
    have sane'' := followsSane later sane'
    have posted'' := followsPosted (later.tail (.step step)) sane' posted'
    obtain ⟨left, leaves⟩ := settleLeaves sane'' here
    have manned := posted''.manned flight.key fun out => left (List.mem_append_right _ out)
    cases dismissedFate sane' posted' dismissed later with
    | aloft dismissed' aloft => exact ⟨_, step, leaves dismissed', left, manned⟩
    | forgotten keeps => exact absurd (landedAloft landed) keeps.aloft
    | left earlier onward landed' own keeps =>
      exact keeps.elim (fun keeps => absurd (landedAloft landed) keeps.aloft)
        fun keeps => absurd (landedAloft landed) keeps.aloft
  · exact followsKeeps later (followsSane earlier sane') (followsPosted earlier sane' posted') keeps

def windowDispatcher : Dispatcher :=
  ((Dispatcher.ofSettings {} World.fresh none).register windowTask).2

def windowFlight : Flight := Dispatch.firstFlight haltBatch ⟨0⟩ windowTask ⟨0⟩

def windowRun : Run := (Dispatch.firstRun windowDispatcher haltBatch windowTask).1

def windowBack : Sky :=
  ((start windowDispatcher haltBatch).send (⟨0⟩, windowTask) []).turn windowFlight (.ready windowRun)
    [] []

theorem windowReached : Reached {} World.fresh none windowBack := by
  have window : windowTask.tree.Only Demand.Handless := .flow (List.forall_mem_singleton.mpr .wait)
  have first : Happens (start (.ofSettings {} World.fresh none) haltBatch)
      { start windowDispatcher haltBatch with todo := [] } := .register windowTask window
  have second : Happens { start windowDispatcher haltBatch with todo := [] }
      (start windowDispatcher haltBatch) := .dispatch ⟨rfl, rfl, rfl, rfl⟩ haltBatch
  have due : (start windowDispatcher haltBatch).todo = [] ++ (⟨0⟩, windowTask) :: [] := rfl
  have flying : ((start windowDispatcher haltBatch).send (⟨0⟩, windowTask) []).flying =
      [] ++ (windowFlight, .ready windowRun) :: [] := rfl
  have sent : Step _ ((start windowDispatcher haltBatch).send (⟨0⟩, windowTask) []) := .send due
  have turned : Step _ windowBack := .turn flying
  exact ⟨haltBatch, .head first (.head second (.head (.step sent) (.single (.step turned))))⟩

/- Unregistered at this moment, the task has its run parked all the same, where it stays. -/
theorem unregisteredFateWindow :
    ∃ d t run, Reached {} World.fresh none windowBack ∧
      windowBack.dispatch.dispatcher.unregister ⟨0⟩ = .ok d ∧
      let gone : Sky := { windowBack with dispatch := { windowBack.dispatch with dispatcher := d } }
      gone.Follows t ∧ t.Keeps ⟨0⟩ ⟨some run, none⟩ ∧
        ∀ u, t.Follows u → u.Keeps ⟨0⟩ ⟨some run, none⟩ ∨ u.Keeps ⟨0⟩ .blank := by
  have landed : ∃ run, windowBack.dispatch.landed =
      [(windowFlight, .back run (some .suspended))] := ⟨_, rfl⟩
  obtain ⟨run, landed⟩ := landed
  have known : windowBack.dispatch.dispatcher.tasks.contains ⟨0⟩ = true := rfl
  have removed : ∃ d, windowBack.dispatch.dispatcher.unregister ⟨0⟩ = .ok d :=
    ⟨_, if_pos known⟩
  obtain ⟨d, removed⟩ := removed
  obtain ⟨-, -, leaves, stays⟩ := unregisteredFate windowReached removed
  have inside : (windowFlight, .back run (some .suspended)) ∈ windowBack.dispatch.landed := by
    rw [landed]
    exact List.mem_cons_self
  obtain ⟨t, step, keeps⟩ := leaves _ _ _ .refl inside rfl
  have room : d.parked.size < d.maxParked := by
    have empty : windowBack.dispatch.dispatcher.parked = Table.empty := rfl
    rcases Dispatcher.unregistered removed with ⟨-, rfl⟩ | ⟨other, parked, -⟩
    · exact Nat.zero_lt_succ 63
    · rw [empty] at parked
      cases parked
  have left : d.leaves (.back run (some .suspended)) = ⟨some run, none⟩ := by
    simp only [Dispatcher.leaves, if_pos room]
  have keeps' : t.Keeps ⟨0⟩ ⟨some run, none⟩ := left ▸ keeps
  exact ⟨d, t, run, windowReached, removed, .single (.step step), keeps',
    stays _ _ (.single (.step step)) keeps'⟩

end Sky
end Automation
