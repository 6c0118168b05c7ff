/-! Bounded pools of reusable objects (`Pool`, `Recycle`). Taking pops an idle object or makes a
default one; giving back resets the object and keeps it while there is room. `restore` brings an
object back to its default state field by field. A pool counts the loans it has made and those that
have ended. -/
namespace Automation

class Recyclable (α : Type) extends Inhabited α where
  restore : α → α

structure Pool (α : Type) where
  idle : List α
  capacity : Nat
  taken : Nat
  given : Nat

namespace Pool
variable {α : Type} [Recyclable α]

def ofCapacity (capacity : Nat) : Pool α := ⟨[], capacity, 0, 0⟩

def take (p : Pool α) : α × Pool α :=
  match p.idle with
  | [] => (default, { p with taken := p.taken + 1 })
  | a :: rest => (a, { p with idle := rest, taken := p.taken + 1 })

def give (p : Pool α) (a : α) : Pool α :=
  let a := Recyclable.restore a
  { p with
    idle := if p.idle.length < p.capacity then a :: p.idle else p.idle
    given := p.given + 1 }

/- Changes the limit; idle objects beyond it, the latest ones, are dropped. -/
def setCapacity (p : Pool α) (capacity : Nat) : Pool α :=
  { p with idle := p.idle.drop (p.idle.length - capacity), capacity }

def drain (p : Pool α) : Nat × Pool α := (p.idle.length, { p with idle := [] })

def size (p : Pool α) : Nat := p.idle.length

theorem giveSize (p : Pool α) (a : α) (bounded : p.size ≤ p.capacity) :
    (p.give a).size ≤ (p.give a).capacity := by
  unfold give size at *
  dsimp only
  split
  · simp only [List.length_cons]
    omega
  · exact bounded

omit [Recyclable α] in
theorem setCapacitySize (p : Pool α) (capacity : Nat) :
    (p.setCapacity capacity).size ≤ (p.setCapacity capacity).capacity := by
  simp only [setCapacity, size, List.length_drop]
  omega

end Pool
end Automation
