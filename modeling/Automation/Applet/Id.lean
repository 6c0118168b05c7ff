import Automation.Text.Digits
/-! Stable identities of applets, 32 bits wide. The high half names the option registry an
applet came from, the low half its category there. Applets of one identity share what
they cache. -/
namespace Automation

structure AppletId where
  raw : UInt32
  deriving DecidableEq, Repr, Inhabited

namespace AppletId

def make (registry category : UInt16) : AppletId :=
  ⟨registry.toUInt32 <<< 16 ||| category.toUInt32⟩

def unregistered : AppletId := ⟨0xFFFFFFFF⟩

def registry (i : AppletId) : UInt16 := (i.raw >>> 16).toUInt16

def category (i : AppletId) : UInt16 := i.raw.toUInt16

def text (i : AppletId) : String :=
  Text.hexWord 4 i.registry.toNat ++ ":" ++ Text.hexWord 4 i.category.toNat

def compare (a b : AppletId) : Ordering := Ord.compare a.raw b.raw

end AppletId
end Automation
