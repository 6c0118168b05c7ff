import Automation.Dispatcher
/-! Reports of dispatches: what became of every run that a batch started or resumed. -/
namespace Automation

inductive RunStatus where
  | completed (successful : Bool)
  | parked
  | dropped
  | cancelled
  | failed
  deriving DecidableEq, Repr

structure TaskRun where
  key : TaskKey
  title : String
  status : RunStatus
  fingerprint : UInt32
  /- Whether the previous completed run of the task had the same fingerprint. -/
  duplicate : Bool
  resumed : Bool
  context : Context
  deriving DecidableEq, Repr

structure Report where
  runs : List TaskRun
  stillParked : Nat
  deriving DecidableEq, Repr

namespace RunStatus

def isCompleted : RunStatus → Bool
  | completed _ => true
  | _ => false

def toJson : RunStatus → Json
  | completed successful => .record [("completed", .record [("successful", .bool successful)])]
  | parked => .str "parked"
  | dropped => .str "dropped"
  | cancelled => .str "cancelled"
  | failed => .str "failed"

end RunStatus

def TaskRun.toJson (r : TaskRun) : Json :=
  .record
    [("key", .int r.key.number), ("title", .str r.title), ("status", r.status.toJson),
     ("fingerprint", .int r.fingerprint.toNat), ("duplicate", .bool r.duplicate),
     ("resumed", .bool r.resumed), ("context", r.context.toJson)]

namespace Report

def runOf? (r : Report) (key : TaskKey) : Option TaskRun := r.runs.find? fun run => run.key == key

def completed (r : Report) : List TaskRun := r.runs.filter fun run => run.status.isCompleted

def place (run : TaskRun) : List TaskRun → List TaskRun
  | [] => [run]
  | other :: rest =>
    if run.key.number < other.key.number then run :: other :: rest else other :: place run rest

def toJson (r : Report) : Json :=
  .record [("runs", .arr (r.runs.map TaskRun.toJson)), ("still_parked", .int r.stillParked)]

end Report
end Automation
