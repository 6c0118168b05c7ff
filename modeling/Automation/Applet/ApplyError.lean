import Automation.Text.Quoted
import Automation.Text.Shown
import Automation.Text.Digits
/-! Failures that executors raise. They never end a walk: each becomes the failed result of
its own applet. -/
namespace Automation

inductive ApplyError where
  | targetUnavailable (what : String)
  | invalidArgument (slot : Nat) (reason : String)
  | platform (reason : String)
  deriving DecidableEq, Repr

namespace ApplyError
open Text

def message : ApplyError → String
  | targetUnavailable what => "Target unavailable: " ++ what
  | invalidArgument slot reason =>
    "Invalid argument in slot " ++ String.ofList (decimal slot) ++ ": " ++ reason
  | platform reason => "Platform call failed: " ++ reason

def shown : ApplyError → String
  | targetUnavailable what => Shown.tagged "TargetUnavailable" (quoted what)
  | invalidArgument slot reason =>
    Shown.record "InvalidArgument"
      [("slot", String.ofList (decimal slot)), ("reason", quoted reason)]
  | platform reason => Shown.tagged "Platform" (quoted reason)

end ApplyError
end Automation
