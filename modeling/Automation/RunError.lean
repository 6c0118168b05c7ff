import Automation.Applet.Id
import Automation.Applet.FlowKind
/-! Errors of runs and of what runs share. A failing executor is none of them: its failure
is the result of its applet. -/
namespace Automation

inductive TreeFault where
  | topNotRoot (kind : FlowKind)
  | topNotFlow
  | nestedRoot
  deriving DecidableEq, Repr

inductive RunError where
  | cancelled
  | globalMissing (key : UInt64)
  | globalTypeMismatch (key : UInt64)
  | argumentTypeMismatch (id : AppletId)
  | invalidTree (fault : TreeFault)
  | noTarget
  deriving DecidableEq, Repr

def TreeFault.reason : TreeFault → String
  | topNotRoot kind => "top-level flow is `" ++ kind.name ++ "`, expected `root`"
  | topNotFlow => "top-level applet is not a flow"
  | nestedRoot => "root flow nested below the top level"

namespace RunError

def message : RunError → String
  | cancelled => "Runtime cancelled"
  | globalMissing key => "Global value not found: " ++ Text.hexWord 1 key.toNat
  | globalTypeMismatch key =>
    "Global value " ++ Text.hexWord 1 key.toNat ++ " has a different type"
  | argumentTypeMismatch id => "Cached argument for applet " ++ id.text ++ " has a different type"
  | invalidTree fault => "Invalid applet tree: " ++ fault.reason
  | noTarget => "Target is not set"

def isCancelled : RunError → Bool
  | cancelled => true
  | _ => false

end RunError
end Automation
