import Automation.Json.Shown
/-! Payloads that a finished applet publishes. A payload is kept whole and read by slot, so
that one value can back several names. A plain value is the same in every slot, and null
is no value. A payload with field names shows the named field of its source in each
listed slot and the whole source behind the list. -/
namespace Automation

inductive Payload where
  | plain (value : Json)
  | fields (source : Json) (names : List String)
  deriving DecidableEq, Repr

namespace Payload

def slot? : Payload → Nat → Option Json
  | plain v, _ => if v.isNull then none else some v
  | fields source names, which =>
    match names[which]? with
    | some name => source.field? name
    | none => some source

def source : Payload → Json
  | plain v => v
  | fields v _ => v

open Text in
def shown : Payload → String
  | plain v => v.shown
  | fields source names =>
    Shown.record "FieldReferent"
      [("source", source.shown), ("fields", Shown.list (names.map quoted))]

end Payload
end Automation
