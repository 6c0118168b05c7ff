import Automation.Event.Type
import Automation.Event.Context
import Automation.Timestamp
/-! Events: a type, a moment, a context, and whatever payload the source attached. A null
payload is a payload; in the serialized form, though, null reads as no payload. -/
namespace Automation

structure Event where
  type : EventType
  payload : Option Json
  firedAt : Timestamp
  context : Context
  deriving Repr, Inhabited

namespace Event

def field? (e : Event) (name : String) : Option Json := e.payload.bind fun v => v.field? name

def toJson (e : Event) : Json :=
  .record <|
    [("event_type", .str e.type.tag), ("fired_at", .str e.firedAt.write),
     ("context", e.context.toJson)] ++ (e.payload.map fun v => ("payload", v)).toList

open Json

def decodeTime : Json → Decoded Timestamp
  | .str s =>
    match Timestamp.read? s with
    | some t => .ok t
    | none => .error .malformedTime
  | v => mismatch v "an RFC 3339 formatted date and time string"

def ofJson (v : Json) : Decoded Event := do
  let fields ← fieldsOf "Event"
    [rule "event_type" decodeText false, rule "payload" (decodeOptional .ok) true,
     rule "fired_at" decodeTime false, rule "context" Context.ofJson false] false v
  let tag ← required fields "event_type" decodeText
  let payload ← withDefault fields "payload" (decodeOptional .ok) none
  let firedAt ← required fields "fired_at" decodeTime
  let context ← required fields "context" Context.ofJson
  return ⟨⟨tag⟩, payload, firedAt, context⟩

end Event
end Automation
