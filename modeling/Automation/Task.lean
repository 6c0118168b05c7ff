import Automation.Applet
/-! Tasks: a tree to walk and what is said about it. The top of the tree is a root flow,
and there is no other root flow in it. -/
namespace Automation

structure TaskMetadata where
  title : String
  description : Option String := none
  checksum : UInt32 := 0
  enabled : Bool := true
  deriving DecidableEq, Repr, Inhabited

namespace TaskMetadata
open Json

def disabled (m : TaskMetadata) : TaskMetadata := { m with enabled := false }

def toJson (m : TaskMetadata) : Json :=
  .record <|
    [("title", .str m.title), ("checksum", .int m.checksum.toNat), ("enabled", .bool m.enabled)]
      ++ (m.description.map fun text => ("description", .str text)).toList

def decodeChecksum : Json → Decoded Nat := decodeWord (Nat.pow 2 32) "u32"

def ofJson (v : Json) : Decoded TaskMetadata := do
  let fields ← fieldsOf "TaskMetadata"
    [rule "title" decodeText false, rule "description" (decodeOptional decodeText) true,
     rule "checksum" decodeChecksum true, rule "enabled" decodeTruth true] false v
  let title ← required fields "title" decodeText
  let description ← withDefault fields "description" (decodeOptional decodeText) none
  let checksum ← withDefault fields "checksum" decodeChecksum 0
  let enabled ← withDefault fields "enabled" decodeTruth true
  return ⟨title, description, UInt32.ofNat checksum, enabled⟩

end TaskMetadata

mutual
def Applet.rootFree : Applet → Bool
  | .flow _ spec children => spec.kind != .root && rootFreeAll children
  | _ => true

def Applet.rootFreeAll : List Applet → Bool
  | [] => true
  | a :: rest => a.rootFree && rootFreeAll rest
end

structure Task where
  metadata : TaskMetadata
  tree : Applet
  rooted : tree.flowKind? = some .root
  onlyRoot : Applet.rootFreeAll tree.children = true

namespace Task

def make (metadata : TaskMetadata) (tree : Applet) : Except RunError Task :=
  match rooted : tree.flowKind? with
  | some .root =>
    if onlyRoot : Applet.rootFreeAll tree.children = true then
      .ok ⟨metadata, tree, rooted, onlyRoot⟩
    else .error (.invalidTree .nestedRoot)
  | some kind => .error (.invalidTree (.topNotRoot kind))
  | none => .error (.invalidTree .topNotFlow)

def title (t : Task) : String := t.metadata.title

end Task
end Automation
