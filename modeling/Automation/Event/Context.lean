import Automation.Json.Decode
import Automation.Ulid
/-! A context says which dispatch an event or batch belongs to. A context may name the one
whose work it continues. Identifiers are usually sortable ones that carry a time. -/
namespace Automation

structure Context where
  id : String
  causedBy : Option String
  deriving DecidableEq, Repr, Inhabited

namespace Context

def withId (id : String) : Context := ⟨id, none⟩

def fresh (u : Ulid) : Context := withId u.write

def linkedTo (c origin : Context) : Context := { c with causedBy := some origin.id }

def createdAt? (c : Context) : Option Nat := (Ulid.read? c.id).map Ulid.millis

def toJson (c : Context) : Json :=
  .record (("id", .str c.id) :: (c.causedBy.map fun cause => ("caused_by", .str cause)).toList)

open Json in
def ofJson (v : Json) : Decoded Context := do
  let fields ← fieldsOf "Context"
    [rule "id" decodeText false, rule "caused_by" (decodeOptional decodeText) true] false v
  let id ← required fields "id" decodeText
  let cause ← withDefault fields "caused_by" (decodeOptional decodeText) none
  return ⟨id, cause⟩

end Context
end Automation
