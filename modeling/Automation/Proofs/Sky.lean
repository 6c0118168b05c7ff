import Mathlib.Logic.Relation
import Automation.Dispatch
/-! Dispatches in any order. A sky is a call of the dispatcher's `dispatch` under way: the tasks
that are yet to be sent off, the spawned runs that are `in_flight` with the course that each is on,
and the landed ones, joined but yet to be settled. Flights take their turns, land, and are settled
whenever it comes about; the order in which the dispatcher does it is one of many. A run is late
from when its walk came back suspended until `settle` parks or drops it. -/
namespace Automation

/- Where a flight is between its turns. -/
inductive Course where
  | ready (run : Run)
  | paused (scene : Scene) (next : Scene → Process Scene (Except Stop Outcome))
  | answered (scene : Scene) (next : Scene → Process Scene (Except Stop Outcome))

namespace Course

def scene (batch : Batch) (world : World) : Course → Scene
  | ready run => ⟨run, Occasion.ofBatch run.task batch, world, []⟩
  | paused scene _ | answered scene _ => { scene with world, journal := [] }

def walk (flight : Flight) : Course → Walk Outcome
  | ready _ => Dispatch.walk flight
  | paused _ next | answered _ next => next

def process (flight : Flight) (batch : Batch) (world : World) (c : Course) :
    Process Scene (Except Stop Outcome) :=
  c.walk flight (c.scene batch world)

def rounds (flight : Flight) (batch : Batch) : Course → Dispatch → Rounds Dispatch
  | ready run => Dispatch.takeOff batch flight run
  | paused scene next => fun d =>
    if d.dispatcher.world.handles.isCancelled flight.handle then
      .ended (d.land flight (.back scene.run none))
    else
      Dispatch.fly flight (next { scene with world := d.dispatcher.world, journal := [] }) d
  | answered scene next => fun d =>
    Dispatch.fly flight (next { scene with world := d.dispatcher.world, journal := [] }) d

end Course

namespace Dispatch

/- The beginning of a turn, up to where the flight lets go of the dispatch, and where it is then. -/
def advance (flight : Flight) :
    Process Scene (Except Stop Outcome) → Dispatch → Dispatch × Option Course
  | .done scene (.ok outcome), d =>
    ((d.absorb flight scene).land flight (.back scene.run (some outcome)), none)
  | .done scene (.error .cancelled), d =>
    ((d.absorb flight scene).land flight (.back scene.run none), none)
  | .done scene (.error .panicked), d =>
    let d := d.absorb flight scene
    ((d.withWorld (d.dispatcher.world.recycle scene.run)).land flight .crashed, none)
  | .yield scene next, d => (d.absorb flight scene, some (.paused scene next))
  | .pend scene, d =>
    let d := d.absorb flight scene
    ({ d with stranded := d.stranded ++ [(flight, scene.run)] }, none)
  | .haltAll scene next, d =>
    let (released, d) := (d.absorb flight scene).haltAll
    (d, some (.answered scene (next released)))

def late (d : Dispatch) : List Handle :=
  d.landed.filterMap fun l => match l.2 with
    | .back run (some .suspended) => some run.handle
    | _ => none

theorem memLate {d : Dispatch} {h : Handle} :
    h ∈ d.late ↔
      ∃ flight run, (flight, .back run (some .suspended)) ∈ d.landed ∧ run.handle = h := by
  constructor
  · intro inside
    obtain ⟨⟨flight, landing⟩, landed, late⟩ := List.mem_filterMap.mp inside
    rcases landing with ⟨run, _ | _ | _⟩ | _
    · cases late
    · cases late
    · cases late
      exact ⟨flight, run, landed, rfl⟩
    · cases late
  · rintro ⟨flight, run, landed, rfl⟩
    exact List.mem_filterMap.mpr ⟨(flight, .back run (some .suspended)), landed, rfl⟩

theorem sendOnto (batch : Batch) (sent : List (Flight × Run)) (d : Dispatch) (key : TaskKey)
    (task : Task) :
    send batch sent d key task =
      (sent ++ (send batch [] d key task).1, (send batch [] d key task).2) := by
  unfold send
  split
  · simp
  · split
    · split <;> simp
    · simp

end Dispatch

theorem othersAmong {α : Type} {l before after : List α} {a x : α} (here : l = before ++ a :: after)
    (inside : x ∈ before ++ after) : x ∈ l := by
  rw [here]
  exact List.mem_append.mpr ((List.mem_append.mp inside).imp_right (List.mem_cons_of_mem a))

theorem Rounds.thenTurnEnded {σ : Type} (r : Rounds σ) : r.thenTurn .ended = r := by
  cases r <;> rfl

structure Sky where
  dispatch : Dispatch
  batch : Batch
  todo : List (TaskKey × Task)
  flying : List (Flight × Course)
  /- The handles of runs that were late whenever everything was halted. -/
  overtaken : List Handle

namespace Sky

def world (s : Sky) : World := s.dispatch.dispatcher.world

def start (d : Dispatcher) (batch : Batch) : Sky := ⟨⟨d, [], [], [], 0, []⟩, batch, d.tasks.rows, [], []⟩

structure Over (s : Sky) : Prop where
  todo : s.todo = []
  flying : s.flying = []
  landed : s.dispatch.landed = []
  stranded : s.dispatch.stranded = []

def send (s : Sky) (row : TaskKey × Task) (todo : List (TaskKey × Task)) : Sky :=
  let (sent, dispatch) := Dispatch.send s.batch [] s.dispatch row.1 row.2
  { s with dispatch, todo, flying := s.flying ++ sent.map fun f => (f.1, .ready f.2) }

def turn (s : Sky) (flight : Flight) (course : Course) (before after : List (Flight × Course)) :
    Sky :=
  let p := course.process flight s.batch s.world
  let (dispatch, course) := s.dispatch.advance flight p
  { s with
    dispatch
    flying := before ++ course.toList.map (fun c => (flight, c)) ++ after
    overtaken := match p with
      | .haltAll .. => s.overtaken ++ s.dispatch.late
      | _ => s.overtaken }

inductive Step (s : Sky) : Sky → Prop where
  | send {row before after} (here : s.todo = before ++ row :: after) :
      Step s (s.send row (before ++ after))
  | turn {flight course before after}
      (here : s.flying = before ++ (flight, course) :: after) :
      Step s (s.turn flight course before after)
  | stop {flight scene next before after}
      (here : s.flying = before ++ (flight, .paused scene next) :: after)
      (cancelled : s.world.handles.isCancelled flight.handle = true) :
      Step s { s with
        dispatch := s.dispatch.land flight (.back scene.run none)
        flying := before ++ after }
  | ground {flight run before after}
      (here : s.dispatch.stranded = before ++ (flight, run) :: after)
      (cancelled : s.world.handles.isCancelled flight.handle = true) :
      Step s { s with
        dispatch := { s.dispatch with stranded := before ++ after }.land flight (.back run none) }
  | settle {flight landing before after}
      (here : s.dispatch.landed = before ++ (flight, landing) :: after) :
      Step s { s with
        dispatch := { s.dispatch with landed := before ++ after }.settle flight landing }

abbrev Steps : Sky → Sky → Prop := Relation.ReflTransGen Step

def Comes (s : Sky) (d : Dispatch) (flying : List (Flight × Course)) : Prop :=
  ∃ overtaken, Steps s ⟨d, s.batch, s.todo, flying, overtaken⟩

variable {flight : Flight} {course : Course} {before after : List (Flight × Course)}

theorem comesTrans {s : Sky} {d d' : Dispatch} {flying flying' : List (Flight × Course)}
    {overtaken : List Handle} (first : Steps s ⟨d, s.batch, s.todo, flying, overtaken⟩)
    (later : Comes ⟨d, s.batch, s.todo, flying, overtaken⟩ d' flying') : s.Comes d' flying' := by
  obtain ⟨overtaken', steps⟩ := later
  exact ⟨overtaken', first.trans steps⟩

theorem flyComes {s : Sky} (here : s.flying = before ++ (flight, course) :: after)
    (p : Process Scene (Except Stop Outcome))
    (same : course.process flight s.batch s.world = p) :
    (∃ d, Dispatch.fly flight p s.dispatch = .ended d ∧ s.Comes d (before ++ after)) ∨
    ∃ d course, Dispatch.fly flight p s.dispatch = .again d (course.rounds flight s.batch) ∧
      s.Comes d (before ++ (flight, course) :: after) := by
  induction p generalizing s course with
  | done scene r =>
    have step : Steps s (s.turn flight course before after) := .single (.turn here)
    rw [turn, same] at step
    refine .inl ?_
    rcases r with (_ | _) | outcome
    · exact ⟨_, rfl, _, by simpa [Dispatch.advance] using step⟩
    · exact ⟨_, rfl, _, by simpa [Dispatch.advance] using step⟩
    · exact ⟨_, rfl, _, by simpa [Dispatch.advance] using step⟩
  | yield scene next ih =>
    have step : Steps s (s.turn flight course before after) := .single (.turn here)
    rw [turn, same] at step
    exact .inr ⟨_, .paused scene next, rfl, _, by simpa [Dispatch.advance] using step⟩
  | pend scene =>
    have step : Steps s (s.turn flight course before after) := .single (.turn here)
    rw [turn, same] at step
    exact .inl ⟨_, rfl, _, by simpa [Dispatch.advance] using step⟩
  | haltAll scene next ih =>
    have step : Steps s (s.turn flight course before after) := .single (.turn here)
    rw [turn, same] at step
    let answered : Course :=
      .answered scene (next (s.dispatch.absorb flight scene).haltAll.1)
    let t : Sky := ⟨(s.dispatch.absorb flight scene).haltAll.2, s.batch, s.todo,
      before ++ (flight, answered) :: after, s.overtaken ++ s.dispatch.late⟩
    have moved : Steps s t := by simpa [Dispatch.advance] using step
    have onward := ih (s.dispatch.absorb flight scene).haltAll.1
      { scene with world := t.world, journal := [] } (s := t)
      (show t.flying = before ++ (flight, answered) :: after from rfl) rfl
    rcases onward with ⟨d, flown, comes⟩ | ⟨d, course', flown, comes⟩
    · exact .inl ⟨d, flown, comesTrans moved comes⟩
    · exact .inr ⟨d, course', flown, comesTrans moved comes⟩

theorem roundsComes {s : Sky} (here : s.flying = before ++ (flight, course) :: after) :
    (∃ d, course.rounds flight s.batch s.dispatch = .ended d ∧ s.Comes d (before ++ after)) ∨
    ∃ d course', course.rounds flight s.batch s.dispatch =
        .again d (course'.rounds flight s.batch) ∧
      s.Comes d (before ++ (flight, course') :: after) := by
  cases course with
  | ready run => exact flyComes here _ rfl
  | answered scene next => exact flyComes here _ rfl
  | paused scene next =>
    cases cancelled : s.world.handles.isCancelled flight.handle with
    | true =>
      have stopped : Course.rounds flight s.batch (.paused scene next) s.dispatch =
          .ended (s.dispatch.land flight (.back scene.run none)) := if_pos cancelled
      exact .inl ⟨_, stopped, s.overtaken, .single (.stop here cancelled)⟩
    | false =>
      have going : Course.rounds flight s.batch (.paused scene next) s.dispatch =
          Dispatch.fly flight (next { scene with world := s.world, journal := [] }) s.dispatch :=
        if_neg (ne_true_of_eq_false cancelled)
      rw [going]
      exact flyComes here _ rfl

def roundsOf (batch : Batch) (flying : List (Flight × Course)) : Dispatch → Rounds Dispatch :=
  Rounds.all (flying.map fun f => f.2.rounds f.1 batch)

theorem roundComes {s : Sky} (here : s.flying = before ++ after) :
    (∃ d, roundsOf s.batch after s.dispatch = .ended d ∧ s.Comes d before) ∨
    ∃ d rest, roundsOf s.batch after s.dispatch = .again d (roundsOf s.batch rest) ∧
      s.Comes d (before ++ rest) := by
  induction after generalizing s before with
  | nil =>
    rw [List.append_nil] at here
    exact .inl ⟨s.dispatch, rfl, s.overtaken, by rw [← here]⟩
  | cons f after ih =>
    obtain ⟨flight, course⟩ := f
    rcases roundsComes here with ⟨d, first, overtaken, steps⟩ | ⟨d, course', first, overtaken, steps⟩
    · -- This flight is over, and the round is that of the others.
      have turned : roundsOf s.batch ((flight, course) :: after) s.dispatch =
          roundsOf s.batch after d := by
        change (course.rounds flight s.batch s.dispatch).thenTurn _ = _
        rw [first]
        rfl
      rw [turned]
      rcases ih (s := ⟨d, s.batch, s.todo, before ++ after, overtaken⟩) rfl with
        ⟨d', ended, comes⟩ | ⟨d', rest, again, comes⟩
      · exact .inl ⟨d', ended, comesTrans steps comes⟩
      · exact .inr ⟨d', rest, again, comesTrans steps comes⟩
    · have turned : roundsOf s.batch ((flight, course) :: after) s.dispatch =
          (Rounds.again d (course'.rounds flight s.batch)).thenTurn (roundsOf s.batch after) := by
        change (course.rounds flight s.batch s.dispatch).thenTurn _ = _
        rw [first]
        rfl
      rw [turned, Rounds.thenTurn]
      have here' : before ++ (flight, course') :: after = (before ++ [(flight, course')]) ++ after := by
        rw [List.append_assoc, List.singleton_append]
      rcases ih (s := ⟨d, s.batch, s.todo, before ++ (flight, course') :: after, overtaken⟩) here' with
        ⟨d', ended, comes⟩ | ⟨d', rest, again, comes⟩
      · refine .inr ⟨d', [(flight, course')], ?_, comesTrans steps comes⟩
        rw [show roundsOf s.batch after d = .ended d' from ended]
        exact congrArg (Rounds.again d') (funext fun u => (Rounds.thenTurnEnded _).symm)
      · refine .inr ⟨d', (flight, course') :: rest, ?_, comesTrans steps ?_⟩
        · rw [show roundsOf s.batch after d = .again d' _ from again]
          rfl
        · rw [List.append_assoc] at comes
          exact comes

theorem groundAll (s : Sky) (kept lost : List (Flight × Run))
    (stranded : s.dispatch.stranded = kept ++ lost) :
    let cancelled (f : Flight × Run) : Bool := s.world.handles.isCancelled f.1.handle
    Steps s { s with
      dispatch := { s.dispatch with
        stranded := kept ++ lost.filter fun f => !cancelled f
        landed := s.dispatch.landed ++ (lost.filter cancelled).map fun f => (f.1, .back f.2 none) } } := by
  intro cancelled
  induction lost generalizing s kept with
  | nil =>
    simp only [List.filter_nil, List.map_nil, List.append_nil] at stranded ⊢
    rw [← stranded]
  | cons f lost ih =>
    obtain ⟨flight, run⟩ := f
    cases hit : s.dispatch.dispatcher.world.handles.isCancelled flight.handle with
    | true =>
      have later := ih
        { s with
          dispatch := { s.dispatch with stranded := kept ++ lost }.land flight (.back run none) }
        kept rfl
      refine .head (.ground stranded hit) ?_
      simpa [Dispatch.land, cancelled, world, hit] using later
    | false =>
      have later := ih s (kept ++ [(flight, run)]) (by simpa using stranded)
      simpa [cancelled, world, hit] using later

theorem settleAll (s : Sky) : Steps s { s with dispatch := s.dispatch.settleAll } := by
  unfold Dispatch.settleAll
  generalize landed : s.dispatch.landed = l
  induction l generalizing s with
  | nil =>
    rw [List.foldl_nil, ← landed]
  | cons f l ih =>
    obtain ⟨flight, landing⟩ := f
    have step : Step s _ :=
      .settle (show s.dispatch.landed = [] ++ (flight, landing) :: l from landed)
    exact .head step (ih _ rfl)

theorem between (s : Sky) : Steps s { s with dispatch := s.dispatch.betweenRounds } := by
  have grounded := groundAll s [] s.dispatch.stranded rfl
  exact grounded.trans (settleAll _)

theorem finishComes (s : Sky) :
    s.Comes ((roundsOf s.batch s.flying s.dispatch).finish Dispatch.betweenRounds) [] := by
  generalize same : roundsOf s.batch s.flying s.dispatch = r
  have here : s.flying = [] ++ s.flying := rfl
  induction r generalizing s with
  | ended d =>
    rcases roundComes (s := s) here with ⟨d', ended, o, steps⟩ | ⟨d', rest, again, _⟩
    · obtain rfl : d' = d := by simpa [same] using ended.symm
      exact ⟨o, steps.trans (between _)⟩
    · exact absurd (same.symm.trans again) (by simp)
  | again d next ih =>
    rcases roundComes (s := s) here with ⟨d', ended, _⟩ | ⟨d', rest, again, o, steps⟩
    · exact absurd (same.symm.trans ended) (by simp)
    · obtain ⟨rfl, rfl⟩ : d = d' ∧ next = roundsOf s.batch rest := by simpa [same] using again
      exact comesTrans (steps.trans (between _)) (ih _ ⟨_, s.batch, s.todo, rest, o⟩ rfl rfl)

theorem launchSteps (batch : Batch) (rows : List (TaskKey × Task)) (sent : List (Flight × Run))
    (d : Dispatch) :
    let launched := rows.foldl (fun p row => Dispatch.send batch p.1 p.2 row.1 row.2) (sent, d)
    Steps ⟨d, batch, rows, sent.map fun f => (f.1, .ready f.2), []⟩
      ⟨launched.2, batch, [], launched.1.map fun f => (f.1, .ready f.2), []⟩ := by
  intro launched
  induction rows generalizing sent d with
  | nil => exact .refl
  | cons row rows ih =>
    have step : Step ⟨d, batch, row :: rows, sent.map fun f => (f.1, .ready f.2), []⟩ _ :=
      .send (show row :: rows = [] ++ row :: rows from rfl)
    have later := ih (sent ++ (Dispatch.send batch [] d row.1 row.2).1)
      (Dispatch.send batch [] d row.1 row.2).2
    rw [← Dispatch.sendOnto, List.map_append] at later
    exact .head step later

theorem flyAllLanded (s : Sky) :
    ((roundsOf s.batch s.flying s.dispatch).finish Dispatch.betweenRounds).landed = [] := by
  have settled (l : List (Flight × Landing)) (d : Dispatch) (none : d.landed = []) :
      (l.foldl (fun d f => d.settle f.1 f.2) d).landed = [] := by
    induction l generalizing d with
    | nil => exact none
    | cons f l ih => exact ih _ none
  generalize roundsOf s.batch s.flying s.dispatch = r
  induction r with
  | ended d => exact settled _ _ rfl
  | again d next ih => exact ih _

end Sky

def Dispatcher.Dispatches (d : Dispatcher) (batch : Batch) (report : Report) (after : Dispatcher) :
    Prop :=
  ∃ s, Sky.Steps (.start d batch) s ∧ s.Over ∧ s.dispatch.report = report ∧
    s.dispatch.dispatcher = after

def Sky.launched (d : Dispatcher) (batch : Batch) : Sky :=
  let launched := Dispatch.launch d batch
  ⟨launched.2, batch, [], launched.1.map fun f => (f.1, .ready f.2), []⟩

theorem Sky.launchedSteps (d : Dispatcher) (batch : Batch) :
    Steps (.start d batch) (launched d batch) :=
  launchSteps batch d.tasks.rows [] ⟨d, [], [], [], 0, []⟩

theorem Sky.flownSteps (d : Dispatcher) (batch : Batch) :
    (d.dispatch batch).landed = [] ∧
      ∃ overtaken, Steps (launched d batch) ⟨d.dispatch batch, batch, [], [], overtaken⟩ := by
  have same : (roundsOf batch (launched d batch).flying (launched d batch).dispatch).finish
      Dispatch.betweenRounds = d.dispatch batch := by
    rw [roundsOf, launched, List.map_map]
    rfl
  rw [← same]
  exact ⟨flyAllLanded (launched d batch), finishComes (launched d batch)⟩

theorem Dispatcher.dispatchSteps (d : Dispatcher) (batch : Batch) :
    (d.dispatch batch).landed = [] ∧
      ∃ overtaken, Sky.Steps (.start d batch) ⟨d.dispatch batch, batch, [], [], overtaken⟩ := by
  obtain ⟨landed, overtaken, flown⟩ := Sky.flownSteps d batch
  exact ⟨landed, overtaken, (Sky.launchedSteps d batch).trans flown⟩

end Automation
