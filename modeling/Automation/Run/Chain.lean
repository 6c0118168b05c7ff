import Automation.Applet.FlowKind
/-! Branch chains among siblings: guards, each with its block, and a catch-all. The state of
the chain decides which member comes next and is changed by what a member returns. -/
namespace Automation

inductive Chain where
  | idle
  | unmatched
  | matched
  | done
  deriving DecidableEq, Repr, Inhabited

inductive Plan where
  | evaluate
  | skip
  /- A member of a chain that was never opened. -/
  | orphan
  deriving DecidableEq, Repr

namespace Chain

def plan (chain : Chain) : Option FlowKind → Plan
  | none => .evaluate
  | some kind =>
    if kind.continuesChain && chain == idle then .orphan
    else if (kind == .elseIf || kind == .otherwise) && chain != unmatched then .skip
    else if kind == .block && chain != matched then .skip
    else .evaluate

def after (kind : Option FlowKind) (successful : Bool) : Chain :=
  match kind with
  | some k =>
    if k.isGuard then (if successful then matched else unmatched)
    else if k == .otherwise then matched
    else if k == .block then done
    else idle
  | none => idle

end Chain

inductive Mode where
  | aggregate
  | guard
  deriving DecidableEq, Repr

/- The mode of a flow of this kind within a flow evaluated in `outer`. -/
def FlowKind.mode (kind : FlowKind) (outer : Mode) : Mode :=
  if kind.isGuard then .guard else if kind.isTransparent then outer else .aggregate

end Automation
