import Automation.Json.Decode
/-! Control-flow kinds. A root is the top-level sequence of a task, a container a sequence whose
members share a target, and a phantom the placeholder of a category, evaluated like a container.
Branch chains are laid out as siblings inside their parent: a guard (`ifAll`, or `when` in tasks
that react to triggers), its block, then further guards with their blocks, and at last a catch-all
with its block. The children of a guard are a conjunction cut short at the first failure. -/
namespace Automation

inductive FlowKind where
  | root
  | container
  | when
  | ifAll
  | elseIf
  | otherwise
  | block
  | phantom
  deriving DecidableEq, Repr, Inhabited

namespace FlowKind

def isGuard : FlowKind → Bool
  | when | ifAll | elseIf => true
  | _ => false

def steersChain (k : FlowKind) : Bool := k.isGuard || k == otherwise

def continuesChain : FlowKind → Bool
  | elseIf | otherwise | block => true
  | _ => false

def isTransparent : FlowKind → Bool
  | container | phantom => true
  | _ => false

def name : FlowKind → String
  | root => "root"
  | container => "container"
  | when => "when"
  | ifAll => "if"
  | elseIf => "else_if"
  | otherwise => "else"
  | block => "do"
  | phantom => "phantom"

def shown : FlowKind → String
  | root => "Root"
  | container => "Container"
  | when => "When"
  | ifAll => "If"
  | elseIf => "ElseIf"
  | otherwise => "Else"
  | block => "Do"
  | phantom => "Phantom"

def all : List FlowKind := [root, container, when, ifAll, elseIf, otherwise, block, phantom]

def ofName? (name : String) : Option FlowKind := all.find? fun k => k.name == name

theorem ofNameName (k : FlowKind) : ofName? k.name = some k := by cases k <;> decide

open Json in
def ofJson : Json → Decoded FlowKind
  | .str s =>
    match ofName? s with
    | some k => .ok k
    | none => .error (.unknownVariant s (all.map name))
  | .obj [(s, v)] =>
    match ofName? s with
    | some k => if v.isNull then .ok k else mismatch v "unit"
    | none => .error (.unknownVariant s (all.map name))
  | .obj _ => .error (.invalidValue "map" "map with a single key")
  | v => mismatch v "string or map"

end FlowKind
end Automation
