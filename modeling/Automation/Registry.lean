import Automation.Table
/-! Registries of lazily made values of several types: the globals of an event scope (`EventScope`)
and the arguments that a task context keeps for its applets. The first request for a key stores the
value made for it; later requests read it at the type they expect, and fail when the stored value
has another. Which types there are is a parameter. -/
namespace Automation

structure Cell {τ : Type} (β : τ → Type) where
  type : τ
  value : β type

namespace Cell
variable {τ : Type} [DecidableEq τ] {β : τ → Type}

def as? (c : Cell β) (t : τ) : Option (β t) :=
  if same : c.type = t then some (same ▸ c.value) else none

theorem asSelf (t : τ) (v : β t) : (⟨t, v⟩ : Cell β).as? t = some v := by simp [as?]

theorem asOther {t u : τ} (v : β t) (differ : t ≠ u) : (⟨t, v⟩ : Cell β).as? u = none := by
  simp [as?, differ]

end Cell

structure Registry (κ : Type) {τ : Type} (β : τ → Type) where
  cells : Table κ (Cell β)

inductive Registry.Fault where
  | missing
  | otherType
  deriving DecidableEq, Repr

namespace Registry
variable {κ τ : Type} [DecidableEq κ] [DecidableEq τ] {β : τ → Type}

def empty : Registry κ β := ⟨Table.empty⟩

instance : Inhabited (Registry κ β) := ⟨empty⟩

def readAs (c : Cell β) (t : τ) : Except Fault (β t) :=
  match c.as? t with
  | some v => .ok v
  | none => .error .otherType

def getOrInit (r : Registry κ β) (k : κ) (t : τ) (make : Unit → β t) :
    Except Fault (β t) × Registry κ β :=
  match r.cells.get? k with
  | some c => (readAs c t, r)
  | none =>
    let v := make ()
    (.ok v, ⟨r.cells.insert k ⟨t, v⟩⟩)

def get (r : Registry κ β) (k : κ) (t : τ) : Except Fault (β t) :=
  match r.cells.get? k with
  | some c => readAs c t
  | none => .error .missing

def contains (r : Registry κ β) (k : κ) : Bool := r.cells.contains k

def remove (r : Registry κ β) (k : κ) : Bool × Registry κ β :=
  (r.cells.contains k, ⟨r.cells.erase k⟩)

def clear (_ : Registry κ β) : Registry κ β := empty

def size (r : Registry κ β) : Nat := r.cells.size

end Registry
end Automation
