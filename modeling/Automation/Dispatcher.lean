import Automation.Run
import Automation.Settings
/-! The dispatcher: registered tasks, the runs parked at a wait, the handles of the runs in
flight, and the fingerprint of the last completed run of each task. Keys are given out in
ascending order and never again. -/
namespace Automation

structure TaskKey where
  number : Nat
  deriving DecidableEq, Repr, Inhabited

def TaskKey.text (k : TaskKey) : String := "task#" ++ String.ofList (Text.decimal k.number)

structure Dispatcher where
  tasks : Table TaskKey Task
  nextKey : Nat
  parked : Table TaskKey Run
  inFlight : Table TaskKey Handle
  fingerprints : Table TaskKey UInt32
  observer : Option Observer
  maxParked : Nat
  world : World

inductive DispatchError where
  | taskNotFound (key : TaskKey)
  | engine (cause : RunError)
  deriving DecidableEq, Repr

def DispatchError.message : DispatchError → String
  | taskNotFound key => "Task not registered: " ++ key.text
  | engine cause => "Engine error: " ++ cause.message

namespace Dispatcher

def ofSettings (settings : Settings) (world : World) (observer : Option Observer) : Dispatcher where
  tasks := Table.empty
  nextKey := 0
  parked := Table.empty
  inFlight := Table.empty
  fingerprints := Table.empty
  observer := observer
  maxParked := settings.maxParkedRuntimes
  world := world.configurePools settings.resultPoolCapacity settings.runtimePoolCapacity

def register (d : Dispatcher) (task : Task) : TaskKey × Dispatcher :=
  (⟨d.nextKey⟩, { d with tasks := d.tasks.insert ⟨d.nextKey⟩ task, nextKey := d.nextKey + 1 })

def registerTree (d : Dispatcher) (metadata : TaskMetadata) (tree : Applet) :
    Except DispatchError (TaskKey × Dispatcher) :=
  match Task.make metadata tree with
  | .ok task => .ok (d.register task)
  | .error e => .error (.engine e)

def abandon (d : Dispatcher) (run : Run) : Dispatcher :=
  { d with world := (d.world.cancel run.handle).recycle run }

def unregister (d : Dispatcher) (key : TaskKey) : Except DispatchError Dispatcher :=
  if d.tasks.contains key then
    let d := { d with tasks := d.tasks.erase key }
    let d := match d.parked.get? key with
      | some run => { d with parked := d.parked.erase key }.abandon run
      | none => d
    .ok { d with fingerprints := d.fingerprints.erase key }
  else .error (.taskNotFound key)

/- Cancels the runs in flight and abandons the parked ones; says how many were parked. -/
def haltAll (d : Dispatcher) : Nat × Dispatcher :=
  let world := d.inFlight.values.foldl World.cancel d.world
  let halted := d.parked.values.foldl abandon { d with parked := Table.empty, world }
  (d.parked.size, halted)

def lastFingerprint? (d : Dispatcher) (key : TaskKey) : Option UInt32 := d.fingerprints.get? key

def isDuplicate (d : Dispatcher) (key : TaskKey) (fingerprint : UInt32) : Bool :=
  d.lastFingerprint? key == some fingerprint

def isParked (d : Dispatcher) (key : TaskKey) : Bool := d.parked.contains key

open Text in
def shown (d : Dispatcher) : String :=
  let count (n : Nat) : String := String.ofList (decimal n)
  Shown.record "Dispatcher"
    [("tasks", count d.tasks.size), ("parked", count d.parked.size),
     ("in_flight", count d.inFlight.size), ("max_parked", count d.maxParked)]

end Dispatcher
end Automation
