import Automation.Applet.FlowKind
import Automation.Applet.Slots
import Automation.Applet.ApplyError
import Automation.Applet.Wait
import Automation.Applet.Script
import Automation.Json.Shown
/-! The nodes of a task's tree. Criteria check the current target, actions act, waits hold
a run open until an event arrives, and flows group their children under a control-flow
kind. A node carries no state of a run, so many runs can walk one tree. -/
namespace Automation

structure AppletInfo where
  id : AppletId
  title : Option String := none
  value : Option Json := none
  references : Slots := Slots.empty
  referents : Slots := Slots.empty
  inverted : Bool := false
  deriving DecidableEq, Repr, Inhabited

def AppletInfo.displayName (i : AppletInfo) : String := i.title.getD i.id.text

def AppletInfo.arity (i : AppletInfo) : Nat := i.references.arity

structure CheckInput where
  applet : AppletInfo
  target : Option Json
  expected : Option Json
  batch : Batch

structure Checked where
  matched : Bool
  actual : Json
  deriving DecidableEq, Repr

structure ActionInput where
  applet : AppletInfo
  args : List (Option Json)
  target : Option Json
  batch : Batch

abbrev Check := CheckInput → Script (Except ApplyError Checked)

abbrev Action := ActionInput → Script (Except ApplyError Json)

abbrev Selector := Batch → Option Json

def Selector.hitPayload : Selector := fun batch => batch.hitEvent.payload

structure FlowSpec where
  kind : FlowKind
  selector : Option Selector := none
  fields : Option (List String) := none

inductive Applet where
  | criterion (info : AppletInfo) (check : Check)
  | action (info : AppletInfo) (perform : Action)
  | wait (info : AppletInfo) (wait : Wait)
  | flow (info : AppletInfo) (spec : FlowSpec) (children : List Applet)

instance : Inhabited Applet := ⟨.flow default ⟨.container, none, none⟩ []⟩

namespace CheckInput

def requireTarget (i : CheckInput) : Except ApplyError Json :=
  match i.target with
  | some v => .ok v
  | none => .error (.targetUnavailable i.applet.displayName)

def requireExpected (i : CheckInput) : Except ApplyError Json :=
  match i.expected with
  | some v => .ok v
  | none => .error (.invalidArgument 0 "no declared value")

end CheckInput

namespace ActionInput

/- The argument in `slot`; the declared value stands in for an absent first one. -/
def arg (i : ActionInput) (slot : Nat) : Option Json :=
  match (i.args[slot]?).join with
  | some v => some v
  | none => if slot = 0 then i.applet.value else none

def requireArg (i : ActionInput) (slot : Nat) : Except ApplyError Json :=
  match i.arg slot with
  | some v => .ok v
  | none => .error (.invalidArgument slot "unresolved")

end ActionInput

namespace Applet

def info : Applet → AppletInfo
  | criterion i _ | action i _ | wait i _ | flow i _ _ => i

def displayName (a : Applet) : String := a.info.displayName

def flowKind? : Applet → Option FlowKind
  | flow _ spec _ => some spec.kind
  | _ => none

def children : Applet → List Applet
  | flow _ _ cs => cs
  | _ => []

def wait? : Applet → Option Wait
  | wait _ w => some w
  | _ => none

def at? : List Nat → Applet → Option Applet
  | [], a => some a
  | i :: path, a => (a.children[i]?).bind (at? path)

open Text

def shownSlots (m : Slots) : String :=
  Shown.map (m.rows.map fun row => (String.ofList (decimal row.1), quoted row.2))

def shownNode (i : AppletInfo) (kind : String) : String :=
  Shown.record "Applet"
    [("id", Shown.tagged "AppletId" (String.ofList (decimal i.id.raw.toNat))),
     ("title", Shown.option (i.title.map quoted)),
     ("value", Shown.option (i.value.map Json.shown)),
     ("references", shownSlots i.references), ("referents", shownSlots i.referents),
     ("inverted", Shown.truth i.inverted), ("kind", kind)]

mutual
def shown : Applet → String
  | criterion i _ => shownNode i "Criterion"
  | action i _ => shownNode i "Action"
  | wait i w => shownNode i (Shown.tagged "WaitFor" w.shown)
  | flow i spec cs =>
    shownNode i <| Shown.record "Flow"
      [("kind", spec.kind.shown), ("children", Shown.list (shownAll cs)),
       ("has_target", Shown.truth spec.selector.isSome)]

def shownAll : List Applet → List String
  | [] => []
  | a :: rest => shown a :: shownAll rest
end

end Applet
end Automation
