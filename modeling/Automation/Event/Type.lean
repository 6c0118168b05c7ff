import Automation.Text.Quoted
import Automation.Text.Shown
/-! Event types are plain tags. The tag `*` is a wildcard when it stands in a filter; as
the tag of an event it is a tag like any other. -/
namespace Automation

structure EventType where
  tag : String
  deriving DecidableEq, Repr, Inhabited

namespace EventType

def any : EventType := ⟨"*"⟩

def isAny (t : EventType) : Bool := t.tag == any.tag

def accepts (filter other : EventType) : Bool := filter.isAny || filter == other

def shown (t : EventType) : String := Text.Shown.tagged "EventType" (Text.quoted t.tag)

def wellKnown : List String :=
  ["component_changed", "content_changed", "new_window", "notification_received",
   "primary_clip_changed", "battery_changed", "time_changed"]

theorem acceptsIff (filter other : EventType) :
    filter.accepts other = true ↔ filter = any ∨ filter = other := by
  cases filter
  simp [accepts, isAny, any]

end EventType
end Automation
