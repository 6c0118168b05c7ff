import Automation.Event.Batch
/-! Waits name the events that release a suspended run: those of a type, if wanted only the
ones that pass a filter. -/
namespace Automation

structure Wait where
  type : EventType
  filter : Option (Event → Bool)

namespace Wait

def ofType (type : EventType) : Wait := ⟨type, none⟩

def withFilter (w : Wait) (filter : Event → Bool) : Wait := { w with filter := some filter }

def accepts (w : Wait) (e : Event) : Bool :=
  w.type.accepts e.type && w.filter.all (· e)

def find? (w : Wait) (events : List Event) : Option Event := events.find? w.accepts

open Text in
def shown (w : Wait) : String :=
  Shown.record "WaitForSpec"
    [("event_type", w.type.shown), ("filtered", Shown.truth w.filter.isSome)]

end Wait
end Automation
