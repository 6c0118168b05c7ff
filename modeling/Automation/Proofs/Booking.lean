import Automation.Proofs.Books
/-! What is on record of a dispatch under way. Whichever turn of a flight or settlement comes next
keeps the record, and whoever lands at a wait is of the task registered under its key. -/
namespace Automation

namespace Walk
variable {allowed : Demand → Prop} {flight : Flight} {s : Scene}

theorem flightPends (waits : flight.resumed = true → s.run.waitsFor?.isSome = true) :
    (Dispatch.walk flight s).Ends Pends := by
  unfold Dispatch.walk
  split
  · rename_i resumed
    exact endsThen (triggerPends (waits resumed)) (fun t outcome pends => pends)
      fun t e _ absurd => by cases absurd
  · exact runPends s

theorem flightOnly (only : s.run.task.tree.Only allowed) :
    (Dispatch.walk flight s).Only allowed := by
  unfold Dispatch.walk
  split
  · refine Process.onlyBind (triggerOnly only) fun r t => ?_
    cases r <;> trivial
  · exact runOnly only

end Walk

structure Course.Due (allowed : Demand → Prop) (d₀ : Dispatcher) (flight : Flight) (batch : Batch)
    (c : Course) : Prop where
  kept : c.Kept allowed flight batch
  has : d₀.Has flight.key c.run.task
  pends : ∀ world, (c.process flight batch world).Ends Walk.Pends
  only : ∀ world, (c.process flight batch world).Only allowed

def Landing.Due (d₀ : Dispatcher) (flight : Flight) : Landing → Prop
  | .back run (some .suspended) => d₀.Owns flight.key run
  | _ => True

namespace Course
variable {allowed : Demand → Prop} {d₀ : Dispatcher} {flight : Flight} {batch : Batch}

theorem readyDue {run : Run} (handle : run.handle = flight.handle)
    (only : run.task.tree.Only allowed) (has : d₀.Has flight.key run.task)
    (waits : flight.resumed = true → run.waitsFor?.isSome = true) :
    (Course.ready run).Due allowed d₀ flight batch :=
  ⟨readyKept handle only, has, fun _ => Walk.flightPends waits, fun _ => Walk.flightOnly only⟩

theorem dueStays {c : Course} (due : c.Due allowed d₀ flight batch) {world : World} {t : Scene}
    (reaches : (c.scene batch world).Reaches allowed t) : d₀.Has flight.key t.run.task := by
  have task : t.run.task = (c.scene batch world).run.task := (Frame.reachesIdentity reaches).1
  rw [task, c.sceneRun]
  exact due.has

end Course

namespace Sky
variable {allowed : Demand → Prop} {may : Prop} {d₀ : Dispatcher}

theorem overFlights {s : Sky} (finished : s.Over) : s.flights = [] := by
  simp [flights, finished.flying, finished.landed, finished.stranded]

inductive Takes (allowed : Demand → Prop) (may : Prop) (d₀ : Dispatcher) (s : Sky)
    (flight : Flight) (before after : List (Flight × Course)) : Sky → Prop where
  | lands (w : World) {landing : Landing} (log : List (String × Entry))
      (due : landing.Due d₀ flight) :
      Takes allowed may d₀ s flight before after { s with
        dispatch := { s.dispatch with
          dispatcher := { s.dispatch.dispatcher with world := w }
          landed := s.dispatch.landed ++ [(flight, landing)]
          log }
        flying := before ++ after }
  | strands (w : World) (run : Run) (log : List (String × Entry)) (pending : allowed .pend) :
      Takes allowed may d₀ s flight before after { s with
        dispatch := { s.dispatch with
          dispatcher := { s.dispatch.dispatcher with world := w }
          stranded := s.dispatch.stranded ++ [(flight, run)]
          log }
        flying := before ++ after }
  | goesOn (w : World) {c : Course} (log : List (String × Entry))
      (due : c.Due allowed d₀ flight s.batch) :
      Takes allowed may d₀ s flight before after { s with
        dispatch := { s.dispatch with
          dispatcher := { s.dispatch.dispatcher with world := w }
          log }
        flying := before ++ (flight, c) :: after }
  | halts {t : Sky} (halting : may)
      (goesOn : Takes allowed may d₀ s flight before after t) :
      Takes allowed may d₀ s flight before after t.halt

theorem turnTakes (s : Sky) {flight : Flight} {course : Course}
    (before after : List (Flight × Course)) (due : course.Due allowed d₀ flight s.batch)
    (halting : (course.process flight s.batch s.world).HaltsNow → may) :
    s.Takes allowed may d₀ flight before after (s.turn flight course before after) := by
  have turns := due.kept.turns s.world
  have pends := due.pends s.world
  have only := due.only s.world
  have handle : (course.scene s.batch s.world).run.handle = flight.handle := by
    rw [course.sceneRun]
    exact due.kept.handle
  unfold turn
  generalize course.process flight s.batch s.world = p at turns pends only halting
  cases p with
  | done t r =>
    have back (outcome : Option Outcome) (due : (Landing.back t.run outcome).Due d₀ flight) :
        s.Takes allowed may d₀ flight before after _ :=
      .lands t.world (s.dispatch.absorb flight t).log due
    rcases r with (_ | _) | (_ | _) <;>
      simp only [Dispatch.advance, Option.toList_none, List.map_nil, List.append_nil]
    · exact back none trivial
    · have due : Landing.crashed.Due d₀ flight := trivial
      exact .lands (t.world.recycle t.run) _ due
    · exact back (some .completed) trivial
    · exact back (some .suspended) ⟨Course.dueStays due turns, pends rfl⟩
  | yield t next =>
    have kept : (Course.paused t next).Kept allowed flight s.batch :=
      Course.advanceKept handle turns s.dispatch rfl
    simp only [Dispatch.advance, Option.toList_some, List.map_cons, List.map_nil,
      List.append_assoc, List.singleton_append]
    exact .goesOn t.world _
      ⟨kept, Course.dueStays due turns.1, fun world => pends _, fun world => only.2 _⟩
  | pend t =>
    simp only [Dispatch.advance, Option.toList_none, List.map_nil, List.append_nil]
    exact .strands t.world t.run _ only
  | haltAll t next =>
    have kept : (Course.answered t (next (s.dispatch.absorb flight t).haltAll.1)).Kept allowed
        flight s.batch := Course.advanceKept handle turns s.dispatch rfl
    have gone : s.Takes allowed may d₀ flight before after _ :=
      .goesOn t.world (s.dispatch.absorb flight t).log
        ⟨kept, Course.dueStays due turns.1, fun world => pends _ _, fun world => only.2 _ _⟩
    simp only [Dispatch.advance, Option.toList_some, List.map_cons, List.map_nil,
      List.append_assoc, List.singleton_append]
    exact .halts (halting trivial) gone

structure Booked (allowed : Demand → Prop) (may : Prop) (d₀ : Dispatcher) (s : Sky) : Prop where
  books : ∃ waiting, waiting.length = s.dispatch.stillParked ∧
    Books may d₀ s.batch s.dispatch.dispatcher s.todo s.flights s.dispatch.runs waiting
  flying : ∀ f ∈ s.flying, f.2.Due allowed d₀ f.1 s.batch
  landed : ∀ f ∈ s.dispatch.landed, f.2.Due d₀ f.1

variable {s t : Sky} {flight : Flight} {course : Course} {before after : List (Flight × Course)}

theorem haltBooked (booked : s.Booked allowed may d₀) (halting : may) :
    s.halt.Booked allowed may d₀ := by
  obtain ⟨waiting, length, books⟩ := booked.books
  exact ⟨⟨waiting, length, books.halt halting⟩, booked.flying, booked.landed⟩

theorem landBooked (booked : s.Booked allowed may d₀)
    (here : s.flying = before ++ (flight, course) :: after) (w : World) {landing : Landing}
    (log : List (String × Entry)) (due : landing.Due d₀ flight) :
    Booked allowed may d₀ { s with
      dispatch := { s.dispatch with
        dispatcher := { s.dispatch.dispatcher with world := w }
        landed := s.dispatch.landed ++ [(flight, landing)]
        log }
      flying := before ++ after } := by
  obtain ⟨waiting, length, books⟩ := booked.books
  refine ⟨⟨waiting, length, (books.world w).perm (List.perm_iff_count.mpr fun f => ?_)⟩,
    fun f inside => booked.flying f (othersAmong here inside), fun f inside => ?_⟩
  · simp only [flights, here, List.map_append, List.map_cons, List.map_nil, List.count_append,
      List.count_cons, List.count_nil]
    omega
  · rcases List.mem_append.mp inside with old | new
    · exact booked.landed f old
    · cases List.mem_singleton.mp new
      exact due

theorem takesBooked (booked : s.Booked allowed may d₀)
    (here : s.flying = before ++ (flight, course) :: after)
    (takes : s.Takes allowed may d₀ flight before after t) : t.Booked allowed may d₀ := by
  induction takes with
  | lands w log due => exact landBooked booked here w log due
  | strands w run log pending =>
    obtain ⟨waiting, length, books⟩ := booked.books
    refine ⟨⟨waiting, length, (books.world w).perm (List.perm_iff_count.mpr fun f => ?_)⟩,
      fun f inside => booked.flying f (othersAmong here inside), booked.landed⟩
    simp only [flights, here, List.map_append, List.map_cons, List.map_nil, List.count_append,
      List.count_cons, List.count_nil]
    omega
  | goesOn w log due =>
    obtain ⟨waiting, length, books⟩ := booked.books
    refine ⟨⟨waiting, length, (books.world w).perm (List.Perm.of_eq ?_)⟩, fun f inside => ?_,
      booked.landed⟩
    · simp [flights, here]
    · rcases List.mem_append.mp inside with old | new
      · exact booked.flying f (here ▸ List.mem_append_left _ old)
      · rcases List.mem_cons.mp new with rfl | old
        · exact due
        · exact booked.flying f (here ▸ List.mem_append_right _ (List.mem_cons_of_mem _ old))
  | halts halting goesOn ih => exact haltBooked ih halting

theorem groundBooked (booked : s.Booked allowed may d₀) {run : Run}
    {before after : List (Flight × Run)}
    (here : s.dispatch.stranded = before ++ (flight, run) :: after) :
    Booked allowed may d₀ { s with
      dispatch :=
        { s.dispatch with stranded := before ++ after }.land flight (.back run none) } := by
  obtain ⟨waiting, length, books⟩ := booked.books
  refine ⟨⟨waiting, length, books.perm (List.perm_iff_count.mpr fun f => ?_)⟩, booked.flying,
    fun f inside => ?_⟩
  · simp only [flights, here, Dispatch.land, List.map_append, List.map_cons, List.map_nil,
      List.count_append, List.count_cons, List.count_nil]
    omega
  · rcases List.mem_append.mp inside with old | new
    · exact booked.landed f old
    · cases List.mem_singleton.mp new
      trivial

theorem leaveBooked (booked : s.Booked allowed may d₀) {landing : Landing}
    {before after : List (Flight × Landing)}
    (here : s.dispatch.landed = before ++ (flight, landing) :: after) {d : Dispatcher}
    {runs : List TaskRun} {waiting : List TaskKey}
    (length : waiting.length = s.dispatch.stillParked)
    (books : Books may d₀ s.batch d s.todo
      { s with dispatch := { s.dispatch with landed := before ++ after } }.flights runs waiting) :
    Booked allowed may d₀ { s with
      dispatch := { s.dispatch with dispatcher := d, landed := before ++ after, runs } } :=
  ⟨⟨waiting, length, books⟩, booked.flying, fun f inside =>
    booked.landed f (othersAmong here inside)⟩

theorem settledFlight (booked : s.Booked allowed may d₀) {landing : Landing}
    {before after : List (Flight × Landing)}
    (here : s.dispatch.landed = before ++ (flight, landing) :: after) :
    ∃ waiting, waiting.length = s.dispatch.stillParked ∧
      Books may d₀ s.batch s.dispatch.dispatcher s.todo (flight ::
        { s with dispatch := { s.dispatch with landed := before ++ after } }.flights)
        s.dispatch.runs waiting := by
  obtain ⟨waiting, length, books⟩ := booked.books
  refine ⟨waiting, length, books.perm (List.perm_iff_count.mpr fun f => ?_)⟩
  simp only [flights, here, List.map_append, List.map_cons, List.count_append, List.count_cons]
  omega

theorem settleBooked (booked : s.Booked allowed may d₀) {landing : Landing}
    {before after : List (Flight × Landing)}
    (here : s.dispatch.landed = before ++ (flight, landing) :: after) :
    Booked allowed may d₀ { s with
      dispatch := { s.dispatch with landed := before ++ after }.settle flight landing } := by
  have due : landing.Due d₀ flight := booked.landed (flight, landing) (by rw [here]; simp)
  obtain ⟨waiting, length, books⟩ := settledFlight booked here
  have leave {r : TaskRun} (key : r.key = flight.key) (moved : r.status ≠ .parked) (w : World) :=
    leaveBooked booked here length ((books.leave key moved).world w)
  rcases landing with ⟨run, _ | _ | _⟩ | _
  · exact leave rfl (by nofun) _
  · obtain ⟨task, has⟩ := books.flightHas
    have known := Table.getKey has.registered
    have left := (books.leave (r := (s.dispatch.dispatcher.settle flight
      (.back run (some .completed))).1) rfl (by nofun)).world (s.world.recycle run)
    exact leaveBooked booked here length (left.note known run.fingerprint)
  · unfold Dispatch.settle Dispatcher.settle
    split
    rename_i run' dispatcher settled
    dsimp only at settled
    split at settled
    · rename_i space
      cases settled
      exact leaveBooked booked here length (books.park rfl rfl due space)
    · cases settled
      exact leave rfl (by nofun) _
  · exact leave rfl (by nofun) _

theorem stopBooked (booked : s.Booked allowed may d₀) {scene : Scene}
    {next : Scene → Process Scene (Except Stop Outcome)}
    (here : s.flying = before ++ (flight, .paused scene next) :: after) :
    Booked allowed may d₀ { s with
      dispatch := s.dispatch.land flight (.back scene.run none)
      flying := before ++ after } := by
  have due : (Landing.back scene.run none).Due d₀ flight := trivial
  exact landBooked booked here s.world s.dispatch.log due

theorem boardBooked (booked : s.Booked allowed may d₀) {d : Dispatcher}
    {todo : List (TaskKey × Task)} {waiting : List TaskKey}
    (length : waiting.length = s.dispatch.stillParked)
    (books : Books may d₀ s.batch d todo (flight :: s.flights) s.dispatch.runs waiting)
    {run : Run} (due : (Course.ready run).Due allowed d₀ flight s.batch) :
    Booked allowed may d₀ { s with
      dispatch := { s.dispatch with dispatcher := d }
      todo
      flying := s.flying ++ [(flight, .ready run)] } := by
  refine ⟨⟨waiting, length, books.perm (List.perm_iff_count.mpr fun f => ?_)⟩, fun f inside => ?_,
    booked.landed⟩
  · simp only [flights, List.map_append, List.map_cons, List.map_nil, List.count_append,
      List.count_cons, List.count_nil]
    omega
  · rcases List.mem_append.mp inside with old | new
    · exact booked.flying f old
    · cases List.mem_singleton.mp new
      exact due

theorem sendBooked (booked : s.Booked allowed may d₀)
    (only : ∀ row ∈ d₀.tasks.rows, row.2.tree.Only allowed) {row : TaskKey × Task}
    {before after : List (TaskKey × Task)} (here : s.todo = before ++ row :: after) :
    (s.send row (before ++ after)).Booked allowed may d₀ := by
  obtain ⟨waiting, length, books⟩ := booked.books
  rw [here] at books
  have sends := Dispatch.sendSends s.batch s.dispatch row.1 row.2
  unfold send
  generalize Dispatch.send s.batch [] s.dispatch row.1 row.2 = sent at sends
  have known := books.known row (by simp)
  cases sends with
  | disabled off =>
    simp only [List.map_nil, List.append_nil]
    exact ⟨⟨waiting, length, books.passOver off⟩, booked.flying, booked.landed⟩
  | waits on parked refuse =>
    simp only [List.map_nil, List.append_nil]
    exact ⟨⟨row.1 :: waiting, congrArg (· + 1) length, books.leaveWaiting on parked refuse⟩,
      booked.flying, booked.landed⟩
  | @resumes run on parked accept =>
    have owns := books.parked row.1 run parked
    exact boardBooked booked length
      (books.board on (f := Dispatch.resumption s.batch row.1 row.2 run) rfl)
      (Course.readyDue rfl (only _ (Table.getRow owns.has.registered)) owns.has fun _ => owns.waits)
  | starts on away =>
    have boarded := books.board on (f := Dispatch.firstFlight s.batch row.1 row.2
      (Dispatch.firstRun s.dispatch.dispatcher s.batch row.2).1.handle) rfl
    rw [show (Dispatch.firstFlight s.batch row.1 row.2 _).key = row.1 from rfl,
      Table.eraseAbsent away] at boarded
    exact boardBooked booked length
      (boarded.world (Dispatch.firstRun s.dispatch.dispatcher s.batch row.2).2.world)
      (Course.readyDue rfl (only row known) ⟨Table.rowGet known, on⟩
        fun absurd => by cases absurd)

def Halts (s t : Sky) : Prop :=
  ∃ flight course before after, s.flying = before ++ (flight, course) :: after ∧
    (course.process flight s.batch s.world).HaltsNow ∧ t = s.turn flight course before after

theorem stepBooked (only : ∀ row ∈ d₀.tasks.rows, row.2.tree.Only allowed) (step : s.Step t)
    (halting : s.Halts t → may) (booked : s.Booked allowed may d₀) : t.Booked allowed may d₀ := by
  cases step with
  | send here => exact sendBooked booked only here
  | @turn flight course before after here =>
    have due := booked.flying (flight, course) (by rw [here]; simp)
    exact takesBooked booked here (turnTakes s before after due fun now =>
      halting ⟨flight, course, before, after, here, now, rfl⟩)
  | stop here cancelled => exact stopBooked booked here
  | ground here cancelled => exact groundBooked booked here
  | settle here => exact settleBooked booked here

/- The dispatch goes on like this, and somebody has everything halted meanwhile only if that may
be. -/
def Advances (may : Prop) : Sky → Sky → Prop :=
  Relation.ReflTransGen fun s t => s.Step t ∧ (s.Halts t → may)

theorem advancesBooked (only : ∀ row ∈ d₀.tasks.rows, row.2.tree.Only allowed)
    (advances : s.Advances may t) (booked : s.Booked allowed may d₀) : t.Booked allowed may d₀ := by
  induction advances with
  | refl => exact booked
  | tail earlier step ih => exact stepBooked only step.1 step.2 ih

theorem advancesBatch (advances : s.Advances may t) : t.batch = s.batch := by
  induction advances with
  | refl => rfl
  | tail earlier step ih => cases step.1 <;> exact ih

theorem haltsAllowed (booked : s.Booked allowed may d₀) (halts : s.Halts t) : allowed .haltAll := by
  obtain ⟨flight, course, before, after, here, now, -⟩ := halts
  have due := booked.flying (flight, course) (by rw [here]; simp)
  exact Process.haltsNow (due.only s.world) now

theorem stepsAdvances (only : ∀ row ∈ d₀.tasks.rows, row.2.tree.Only allowed)
    (booked : s.Booked allowed True d₀) (steps : Steps s t) :
    s.Advances (allowed .haltAll) t ∧ t.Booked allowed True d₀ := by
  induction steps with
  | refl => exact ⟨.refl, booked⟩
  | tail earlier step ih =>
    exact ⟨.tail ih.1 ⟨step, haltsAllowed ih.2⟩, stepBooked only step (fun _ => trivial) ih.2⟩

theorem takesReturns (never : ¬allowed .pend) (none : s.dispatch.stranded = [])
    (takes : s.Takes allowed may d₀ flight before after t) : t.dispatch.stranded = [] := by
  induction takes with
  | lands w log due | goesOn w log due => exact none
  | strands w run log pending => exact absurd pending never
  | halts halting goesOn ih => exact ih

theorem stepsReturn (only : ∀ row ∈ d₀.tasks.rows, row.2.tree.Only allowed)
    (never : ¬allowed .pend) (booked : s.Booked allowed True d₀) (none : s.dispatch.stranded = [])
    (steps : Steps s t) : t.dispatch.stranded = [] := by
  induction steps with
  | refl => exact none
  | @tail u t earlier step ih =>
    cases step with
    | @send row before after here =>
      have sends := Dispatch.sendSends u.batch u.dispatch row.1 row.2
      unfold send
      generalize Dispatch.send u.batch [] u.dispatch row.1 row.2 = sent at sends
      cases sends <;> exact ih
    | @turn flight course before after here =>
      have booked := (stepsAdvances only booked earlier).2
      have due := booked.flying (flight, course) (by rw [here]; simp)
      exact takesReturns never ih (turnTakes u before after due fun _ => trivial)
    | stop here cancelled => exact ih
    | ground here cancelled =>
      rw [ih] at here
      simp at here
    | settle here => exact ih

structure Filled (s : Sky) : Prop where
  sent : s.todo = []
  dropped : 0 < Report.count .dropped s.dispatch.runs →
    s.dispatch.dispatcher.maxParked ≤ s.dispatch.dispatcher.parked.size

theorem takesFilled (never : ¬may) (filled : s.Filled)
    (takes : s.Takes allowed may d₀ flight before after t) : t.Filled := by
  cases takes with
  | lands w log due => exact ⟨filled.sent, filled.dropped⟩
  | strands w run log pending => exact ⟨filled.sent, filled.dropped⟩
  | goesOn w log due => exact ⟨filled.sent, filled.dropped⟩
  | halts halting goesOn => exact absurd halting never

theorem settleFilled (booked : s.Booked allowed may d₀) (filled : s.Filled) {landing : Landing}
    {before after : List (Flight × Landing)}
    (here : s.dispatch.landed = before ++ (flight, landing) :: after) :
    Filled { s with
      dispatch := { s.dispatch with landed := before ++ after }.settle flight landing } := by
  have still {r : TaskRun} (other : r.status ≠ .dropped)
      (dropped : 0 < Report.count .dropped (Report.place r s.dispatch.runs)) :
      s.dispatch.dispatcher.maxParked ≤ s.dispatch.dispatcher.parked.size := by
    rw [Report.placeCount, if_neg other, Nat.add_zero] at dropped
    exact filled.dropped dropped
  refine ⟨filled.sent, ?_⟩
  rcases landing with ⟨run, _ | _ | _⟩ | _
  · exact fun dropped => still (by nofun) dropped
  · exact fun dropped => still (by nofun) dropped
  · obtain ⟨waiting, length, books⟩ := settledFlight booked here
    unfold Dispatch.settle Dispatcher.settle
    split
    rename_i run' dispatcher settled
    dsimp only at settled
    split at settled
    · cases settled
      intro dropped
      have size := Table.insertSize (v := run) (books.away flight List.mem_cons_self)
      have full := still (by nofun) dropped
      change _ ≤ (s.dispatch.dispatcher.parked.insert flight.key run).size
      omega
    · rename_i space
      cases settled
      exact fun dropped => Nat.le_of_not_lt space
  · exact fun dropped => still (by nofun) dropped

theorem stepFilled (never : ¬may) (booked : s.Booked allowed may d₀) (filled : s.Filled)
    (step : s.Step t) (halting : s.Halts t → may) : t.Filled := by
  cases step with
  | send here =>
    rw [filled.sent] at here
    simp at here
  | @turn flight course before after here =>
    have due := booked.flying (flight, course) (by rw [here]; simp)
    exact takesFilled never filled (turnTakes s before after due fun now =>
      halting ⟨flight, course, before, after, here, now, rfl⟩)
  | stop here cancelled => exact ⟨filled.sent, filled.dropped⟩
  | ground here cancelled => exact ⟨filled.sent, filled.dropped⟩
  | settle here => exact settleFilled booked filled here

theorem advancesFilled (only : ∀ row ∈ d₀.tasks.rows, row.2.tree.Only allowed) (never : ¬may)
    (booked : s.Booked allowed may d₀) (filled : s.Filled) (advances : s.Advances may t) :
    t.Filled := by
  induction advances with
  | refl => exact filled
  | tail earlier step ih =>
    exact stepFilled never (advancesBooked only earlier booked) ih step.1 step.2

end Sky
end Automation
