import Automation.Proofs.Keeping
import Automation.Proofs.Sky
import Automation.Proofs.Table
/-! Which tasks take part in a dispatch. A task is sent off once at most, its flight keeps its key
and its handle, and its run is reported once. -/
namespace Automation

theorem Dispatcher.unregistered {d d' : Dispatcher} {key : TaskKey}
    (removed : d.unregister key = .ok d') :
    (d.parked.get? key = none ∧
      d' = { d with tasks := d.tasks.erase key, fingerprints := d.fingerprints.erase key }) ∨
    ∃ run, d.parked.get? key = some run ∧
      d' = { d with
        tasks := d.tasks.erase key
        parked := d.parked.erase key
        fingerprints := d.fingerprints.erase key
        world := (d.world.cancel run.handle).recycle run } := by
  unfold unregister at removed
  cases parked : d.parked.get? key with
  | none =>
    simp only [parked] at removed
    split at removed
    · cases removed
      exact .inl ⟨rfl, rfl⟩
    · cases removed
  | some run =>
    simp only [parked] at removed
    split at removed
    · cases removed
      exact .inr ⟨run, rfl, rfl⟩
    · cases removed

namespace Dispatch

def resumption (batch : Batch) (key : TaskKey) (task : Task) (run : Run) : Flight :=
  ⟨key, task.title, run.handle, true, batch.context.linkedTo run.origin⟩

def firstFlight (batch : Batch) (key : TaskKey) (task : Task) (handle : Handle) : Flight :=
  ⟨key, task.title, handle, false, batch.context⟩

def board (d : Dispatch) (flight : Flight) (dispatcher : Dispatcher) : Dispatch :=
  { d with
    dispatcher := { dispatcher with
      inFlight := dispatcher.inFlight.insert flight.key flight.handle } }

def firstRun (d : Dispatcher) (batch : Batch) (task : Task) : Run × Dispatcher :=
  let (handle, world) := d.world.issueHandle
  let (run, world) := world.obtain task batch handle
  (run.setObserver d.observer, { d with world })

inductive Sends (batch : Batch) (d : Dispatch) (key : TaskKey) (task : Task) :
    List (Flight × Run) × Dispatch → Prop where
  | disabled (off : task.metadata.enabled = false) : Sends batch d key task ([], d)
  | waits {run : Run} (on : task.metadata.enabled = true)
      (parked : d.dispatcher.parked.get? key = some run)
      (refuse : run.qualifies batch.events = false) :
      Sends batch d key task ([], { d with stillParked := d.stillParked + 1 })
  | resumes {run : Run} (on : task.metadata.enabled = true)
      (parked : d.dispatcher.parked.get? key = some run)
      (accept : run.qualifies batch.events = true) :
      Sends batch d key task ([(resumption batch key task run, run)],
        d.board (resumption batch key task run)
          { d.dispatcher with parked := d.dispatcher.parked.erase key })
  | starts (on : task.metadata.enabled = true) (absent : d.dispatcher.parked.get? key = none) :
      Sends batch d key task
        ([(firstFlight batch key task (firstRun d.dispatcher batch task).1.handle,
            (firstRun d.dispatcher batch task).1)],
          d.board (firstFlight batch key task (firstRun d.dispatcher batch task).1.handle)
            (firstRun d.dispatcher batch task).2)

theorem sendSends (batch : Batch) (d : Dispatch) (key : TaskKey) (task : Task) :
    Sends batch d key task (send batch [] d key task) := by
  unfold send
  cases on : task.metadata.enabled with
  | false => exact .disabled on
  | true =>
    cases parked : d.dispatcher.parked.get? key with
    | none => exact .starts on parked
    | some run =>
      cases accept : run.qualifies batch.events with
      | false =>
        simp only [Bool.not_true, Bool.false_eq_true, if_false, accept]
        exact .waits on parked accept
      | true =>
        simp only [Bool.not_true, Bool.false_eq_true, if_false, accept, if_true]
        exact .resumes on parked accept

end Dispatch

namespace Course
variable {allowed : Demand → Prop} {flight : Flight} {batch : Batch}

def run : Course → Run
  | ready run => run
  | paused scene _ | answered scene _ => scene.run

theorem sceneRun (c : Course) (batch : Batch) (world : World) : (c.scene batch world).run = c.run := by
  cases c <;> rfl

theorem sceneWorld (c : Course) (batch : Batch) (world : World) :
    (c.scene batch world).world = world := by
  cases c <;> rfl

/- The course is that of the flight, and leads nowhere that such demands do not lead to. -/
structure Kept (allowed : Demand → Prop) (flight : Flight) (batch : Batch) (c : Course) : Prop where
  handle : c.run.handle = flight.handle
  turns : ∀ world, (c.process flight batch world).Guarantees (Scene.Reaches allowed)
    (c.scene batch world)

theorem readyKept {run : Run} (handle : run.handle = flight.handle)
    (only : run.task.tree.Only allowed) : (Course.ready run).Kept allowed flight batch := by
  refine ⟨handle, fun world => ?_⟩
  unfold process walk Dispatch.walk
  split
  · refine Process.guaranteesBind Scene.reachesTrans (Walk.triggerKeeps only) fun r t => ?_
    cases r <;> exact Scene.reachesSame rfl
  · exact Walk.runKeeps only

theorem advanceKept {s : Scene} {p : Process Scene (Except Stop Outcome)}
    (handle : s.run.handle = flight.handle) (turns : p.Guarantees (Scene.Reaches allowed) s)
    (d : Dispatch) {c : Course} (next : (d.advance flight p).2 = some c) :
    c.Kept allowed flight batch := by
  cases p with
  | done t r => rcases r with (_ | _) | _ <;> cases next
  | yield t onward =>
    cases next
    exact ⟨(Frame.reachesIdentity turns.1).2.2.1.trans handle, fun world => turns.2 _⟩
  | pend t => cases next
  | haltAll t onward =>
    cases next
    exact ⟨(Frame.reachesIdentity turns.1).2.2.1.trans handle, fun world => turns.2 _ _⟩

end Course

namespace Sky

def keys (s : Sky) : List TaskKey :=
  s.todo.map Prod.fst ++ s.flying.map (fun f => f.1.key) ++
    s.dispatch.landed.map (fun f => f.1.key) ++ s.dispatch.stranded.map (fun f => f.1.key) ++
    s.dispatch.runs.map TaskRun.key

theorem sendKeys (s : Sky) {row : TaskKey × Task} {before after : List (TaskKey × Task)}
    (here : s.todo = before ++ row :: after) (key : TaskKey) :
    (s.send row (before ++ after)).keys.count key ≤ s.keys.count key := by
  have sends := Dispatch.sendSends s.batch s.dispatch row.1 row.2
  unfold send
  generalize Dispatch.send s.batch [] s.dispatch row.1 row.2 = sent at sends
  cases sends <;>
    simp [keys, here, List.count_cons, Dispatch.board, Dispatch.resumption,
      Dispatch.firstFlight] <;> omega

theorem turnKeys (s : Sky) {flight : Flight} {course : Course}
    {before after : List (Flight × Course)} (here : s.flying = before ++ (flight, course) :: after)
    (key : TaskKey) : (s.turn flight course before after).keys.count key ≤ s.keys.count key := by
  unfold turn
  cases course.process flight s.batch s.world with
  | done t r =>
    rcases r with (_ | _) | _ <;>
      simp [keys, here, List.count_cons, Dispatch.advance, Dispatch.land, Dispatch.absorb,
        Dispatch.withWorld] <;> omega
  | yield t next =>
    simp [keys, here, List.count_cons, Dispatch.advance, Dispatch.absorb, Dispatch.withWorld]
  | pend t =>
    simp [keys, here, List.count_cons, Dispatch.advance, Dispatch.absorb, Dispatch.withWorld]
    omega
  | haltAll t next =>
    simp [keys, here, List.count_cons, Dispatch.advance, Dispatch.absorb, Dispatch.withWorld,
      Dispatch.haltAll]

theorem placeKeys (run : TaskRun) (runs : List TaskRun) : (Report.place run runs).Perm (run :: runs) := by
  induction runs with
  | nil => exact .refl _
  | cons other rest ih =>
    unfold Report.place
    split
    · exact .refl _
    · exact (List.Perm.cons other ih).trans (.swap run other rest)

theorem settleKey (d : Dispatcher) (flight : Flight) (landing : Landing) :
    (d.settle flight landing).1.key = flight.key := by
  unfold Dispatcher.settle
  rcases landing with ⟨run, _ | _ | _⟩ | _
  · rfl
  · rfl
  · dsimp only
    split <;> rfl
  · rfl

theorem stepKeys {s t : Sky} (step : s.Step t) (key : TaskKey) :
    t.keys.count key ≤ s.keys.count key := by
  cases step with
  | send here => exact sendKeys s here key
  | turn here => exact turnKeys s here key
  | stop here cancelled =>
    simp [keys, here, List.count_cons, Dispatch.land]
    omega
  | ground here cancelled =>
    simp [keys, here, List.count_cons, Dispatch.land]
    omega
  | @settle flight landing before after here =>
    have placed := ((placeKeys (s.dispatch.dispatcher.settle flight landing).1
      s.dispatch.runs).map TaskRun.key).count_eq key
    rw [List.map_cons, settleKey, List.count_cons] at placed
    simp [keys, here, List.count_cons, Dispatch.settle, placed]
    omega

theorem stepUnique {s t : Sky} (step : s.Step t) (unique : s.keys.Nodup) : t.keys.Nodup :=
  List.nodup_iff_count.mpr fun key =>
    Nat.le_trans (stepKeys step key) (List.nodup_iff_count.mp unique key)

theorem stepsUnique {d : Dispatcher} {batch : Batch} {s : Sky} (steps : Steps (.start d batch) s) :
    s.keys.Nodup := by
  induction steps with
  | refl => simpa [keys, start] using d.tasks.unique
  | tail earlier step ih => exact stepUnique step ih

theorem reportedOnce {d : Dispatcher} {batch : Batch} {s : Sky} (steps : Steps (.start d batch) s) :
    (s.dispatch.runs.map TaskRun.key).Nodup := (List.nodup_append.mp (stepsUnique steps)).2.1

end Sky
end Automation
