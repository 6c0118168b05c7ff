import Automation.Run
/-! The journal of a walk says what an onlooker could see of it: every call of the observer's
callbacks, that is every start, end and skip of an applet, with the observer that was told, if there
was one; and what went in and out of the executors in between. Applets are told apart by their path,
the child indices from the node at which the walk began. -/
namespace Automation

inductive Phase where
  | started
  | terminated
  | skipped
  deriving DecidableEq, Repr

inductive Entry where
  /- A start, end or skip, with the run as it was then. -/
  | notice (heard : Option Observer) (phase : Phase) (path : List Nat) (applet : AppletInfo)
      (run : Run)
  | selected (path : List Nat) (target : Json)
  | checking (path : List Nat) (input : CheckInput)
  | checked (path : List Nat) (outcome : Except ApplyError Checked)
  | performing (path : List Nat) (input : ActionInput)
  | performed (path : List Nat) (outcome : Except ApplyError Json)
  | released (path : List Nat) (event : Event)

abbrev Journal := List Entry

def Event.passed (e : Event) : Json := e.payload.getD .null

namespace Entry

/- The values that the run consumed at this entry, in order. -/
def consumed : Entry → List Json
  | notice .. => []
  | selected _ target => [target]
  | checking _ input => input.expected.toList
  | checked _ (.ok outcome) => [outcome.actual]
  | checked _ (.error _) => []
  | performing _ input => input.args.filterMap id
  | performed .. => []
  | released _ event => [event.passed]

end Entry

def Journal.consumed (j : Journal) : List Json := j.flatMap Entry.consumed

end Automation
