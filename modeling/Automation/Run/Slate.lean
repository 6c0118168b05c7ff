import Automation.Applet
import Automation.Fingerprint
import Automation.Run.Cursor
/-! Slates are the runtime frames (`RuntimeFrame`): the part of a task runtime that changes while it
walks its tree. A slate has the tracker, the referents by name, the checksum behind the fingerprint,
the wait that is pending with the flag of a walk that is being suspended, the observer, the result
registered last and whether it was a success, the target, and the current applet and flow. Slates
are pooled, and wiped before they are kept for another run. -/
namespace Automation

structure Observer where
  label : String
  deriving DecidableEq, Repr

/- A published payload and the slot of it that a name stands for. -/
structure Binding where
  slot : Nat
  payload : Payload
  deriving DecidableEq, Repr

def Binding.value? (b : Binding) : Option Json := b.payload.slot? b.slot

abbrev Referents := Table String Binding

structure Slate where
  cursor : Cursor := {}
  referents : Referents := Table.empty
  checksum : Checksum := Checksum.start
  suspending : Bool := false
  waiting : Option Applet := none
  observer : Option Observer := none
  successful : Bool := true
  result : Option AppletResult := none
  target : Option Json := none
  currentApplet : Option AppletInfo := none
  currentFlow : Option AppletInfo := none

namespace Slate

def held (s : Slate) : List AppletResult := Cursor.held s.cursor.levels ++ s.result.toList

def wipe (s : Slate) : Slate :=
  { s with
    cursor := {}
    referents := Table.empty
    checksum := Checksum.start
    suspending := false
    waiting := none
    observer := none
    successful := true
    result := none
    target := none
    currentApplet := none
    currentFlow := none }

instance : Recyclable Slate where
  default := {}
  restore := wipe

end Slate
end Automation
