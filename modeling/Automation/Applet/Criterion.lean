import Automation.Applet
/-! Ready-made criteria: comparison of a selected value with the declared one, properties
of the target, and patterns over one of its fields. A value that is missing or null
matches nothing. -/
namespace Automation.Check

def comparing (select : Json → Option Json) (matcher : Json → Json → Bool) : Check :=
  fun input => .done do
    let target ← input.requireTarget
    let expected ← input.requireExpected
    let actual := (select target).getD .null
    return ⟨!actual.isNull && matcher actual expected, actual⟩

def field (name : String) (matcher : Json → Json → Bool) : Check :=
  comparing (Json.field? name) matcher

def property (holds : Json → Bool) : Check :=
  fun input => .done do
    let target ← input.requireTarget
    return ⟨holds target, .bool (holds target)⟩

def patternOperands (input : CheckInput) : Except ApplyError (Json × String) := do
  let target ← input.requireTarget
  let expected ← input.requireExpected
  match expected with
  | .str text => return (target, text)
  | _ => throw (.invalidArgument 0 "pattern must be a string")

def patternOutcome (target : Json) (name : String) :
    Except RunError Stored.Compiled → Except ApplyError Checked
  | .error e => .error (.invalidArgument 0 e.message)
  | .ok (.error refusal) => .error (.invalidArgument 0 refusal.message)
  | .ok (.ok p) =>
    let actual := (target.field? name).getD .null
    .ok ⟨actual.text?.any p.occursIn, actual⟩

/- Searches the text in field `name` of the target for the declared pattern. Applets of
one identity share their patterns. -/
def pattern (name : String) : Check := fun input =>
  match patternOperands input with
  | .error e => .done (.error e)
  | .ok (target, text) =>
    .pattern input.applet.id text fun compiled => .done (patternOutcome target name compiled)

end Automation.Check
