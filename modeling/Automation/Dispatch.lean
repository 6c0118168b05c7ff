import Automation.Dispatch.Report
import Automation.Dispatch.Rounds
import Automation.Run.Walk
/-! Dispatching a batch. Every enabled task gets a run, unless a run of it is parked: then that one
is resumed if the batch ends its wait, and left alone if not. A flight is a run in flight, as the
dispatcher knows it; the runs take turns in the order of their keys. A run whose walk is over has
landed, and one that waits for ever is stranded unless it is cancelled; after each round the landed
runs are settled in the order in which they landed. -/
namespace Automation

structure Flight where
  key : TaskKey
  title : String
  handle : Handle
  resumed : Bool
  context : Context
  deriving DecidableEq, Repr

/- How a flight came back: with its run, which was cancelled if there is no outcome, or not
at all. -/
inductive Landing where
  | back (run : Run) (outcome : Option Outcome)
  | crashed

structure Dispatch where
  dispatcher : Dispatcher
  landed : List (Flight × Landing)
  stranded : List (Flight × Run)
  runs : List TaskRun
  stillParked : Nat
  log : List (String × Entry)

namespace Dispatcher

/- Ends a landed flight: a completed run leaves its fingerprint, a suspended one is parked
while there is room. -/
def settle (d : Dispatcher) (flight : Flight) (landing : Landing) : TaskRun × Dispatcher :=
  let d := { d with inFlight := d.inFlight.erase flight.key }
  let entry (status : RunStatus) (fingerprint : UInt32) (duplicate : Bool) : TaskRun :=
    ⟨flight.key, flight.title, status, fingerprint, duplicate, flight.resumed, flight.context⟩
  match landing with
  | .crashed => (entry .failed 0 false, d)
  | .back run (some .completed) =>
    (entry (.completed run.slate.successful) run.fingerprint
        (d.isDuplicate flight.key run.fingerprint),
      { d with
        fingerprints := d.fingerprints.insert flight.key run.fingerprint
        world := d.world.recycle run })
  | .back run (some .suspended) =>
    if d.parked.size < d.maxParked then
      (entry .parked run.fingerprint false, { d with parked := d.parked.insert flight.key run })
    else (entry .dropped run.fingerprint false, d.abandon run)
  | .back run none =>
    (entry .cancelled run.fingerprint false, { d with world := d.world.recycle run })

end Dispatcher

namespace Dispatch

def withWorld (d : Dispatch) (world : World) : Dispatch :=
  { d with dispatcher := { d.dispatcher with world } }

def absorb (d : Dispatch) (flight : Flight) (scene : Scene) : Dispatch :=
  { d.withWorld scene.world with
    log := d.log ++ scene.journal.map fun entry => (flight.title, entry) }

def land (d : Dispatch) (flight : Flight) (landing : Landing) : Dispatch :=
  { d with landed := d.landed ++ [(flight, landing)] }

def haltAll (d : Dispatch) : Nat × Dispatch :=
  let (released, dispatcher) := d.dispatcher.haltAll
  (released, { d with dispatcher })

/- The walk of a flight on its turn. Between turns, cancellation comes first. -/
def fly (flight : Flight) :
    Process Scene (Except Stop Outcome) → Dispatch → Rounds Dispatch
  | .done scene (.ok outcome), d =>
    .ended ((d.absorb flight scene).land flight (.back scene.run (some outcome)))
  | .done scene (.error .cancelled), d =>
    .ended ((d.absorb flight scene).land flight (.back scene.run none))
  | .done scene (.error .panicked), d =>
    let d := d.absorb flight scene
    .ended ((d.withWorld (d.dispatcher.world.recycle scene.run)).land flight .crashed)
  | .yield scene next, d =>
    .again (d.absorb flight scene) fun d =>
      if d.dispatcher.world.handles.isCancelled flight.handle then
        .ended (d.land flight (.back scene.run none))
      else fly flight (next { scene with world := d.dispatcher.world, journal := [] }) d
  | .pend scene, d =>
    let d := d.absorb flight scene
    .ended { d with stranded := d.stranded ++ [(flight, scene.run)] }
  | .haltAll scene next, d =>
    let (released, d) := (d.absorb flight scene).haltAll
    fly flight (next released { scene with world := d.dispatcher.world, journal := [] }) d

def walk (flight : Flight) : Walk Outcome :=
  if flight.resumed then do
    let outcome ← Walk.trigger
    return outcome.getD .suspended
  else Walk.run

def takeOff (batch : Batch) (flight : Flight) (run : Run) (d : Dispatch) : Rounds Dispatch :=
  let scene := ⟨run, Occasion.ofBatch run.task batch, d.dispatcher.world, []⟩
  fly flight (walk flight scene) d

def settle (d : Dispatch) (flight : Flight) (landing : Landing) : Dispatch :=
  let (run, dispatcher) := d.dispatcher.settle flight landing
  { d with dispatcher, runs := Report.place run d.runs }

def landCancelled (d : Dispatch) : Dispatch :=
  let cancelled (s : Flight × Run) : Bool :=
    d.dispatcher.world.handles.isCancelled s.1.handle
  { d with
    stranded := d.stranded.filter fun s => !cancelled s
    landed := d.landed ++ (d.stranded.filter cancelled).map fun s => (s.1, .back s.2 none) }

def settleAll (d : Dispatch) : Dispatch :=
  d.landed.foldl (fun d l => d.settle l.1 l.2) { d with landed := [] }

def betweenRounds (d : Dispatch) : Dispatch := d.landCancelled.settleAll

/- Sends off the run of one task, or counts it as still parked. -/
def send (batch : Batch) (sent : List (Flight × Run)) (d : Dispatch) (key : TaskKey) (task : Task) :
    List (Flight × Run) × Dispatch :=
  let go (flight : Flight) (run : Run) (dispatcher : Dispatcher) :
      List (Flight × Run) × Dispatch :=
    let inFlight := dispatcher.inFlight.insert key run.handle
    (sent ++ [(flight, run)], { d with dispatcher := { dispatcher with inFlight } })
  if !task.metadata.enabled then (sent, d)
  else match d.dispatcher.parked.get? key with
    | some run =>
      if run.qualifies batch.events then
        go ⟨key, task.title, run.handle, true, batch.context.linkedTo run.origin⟩ run
          { d.dispatcher with parked := d.dispatcher.parked.erase key }
      else (sent, { d with stillParked := d.stillParked + 1 })
    | none =>
      let (handle, world) := d.dispatcher.world.issueHandle
      let (run, world) := world.obtain task batch handle
      go ⟨key, task.title, handle, false, batch.context⟩ (run.setObserver d.dispatcher.observer)
        { d.dispatcher with world }

def launch (dispatcher : Dispatcher) (batch : Batch) : List (Flight × Run) × Dispatch :=
  dispatcher.tasks.rows.foldl (fun (sent, d) row => send batch sent d row.1 row.2)
    ([], ⟨dispatcher, [], [], [], 0, []⟩)

def flyAll (batch : Batch) (flights : List (Flight × Run)) (d : Dispatch) : Dispatch :=
  (Rounds.all (flights.map fun f => takeOff batch f.1 f.2) d).finish betweenRounds

def report (d : Dispatch) : Report := ⟨d.runs, d.stillParked⟩

end Dispatch

def Dispatcher.dispatch (d : Dispatcher) (batch : Batch) : Dispatch :=
  let (flights, started) := Dispatch.launch d batch
  Dispatch.flyAll batch flights started

end Automation
