/-! Names by slot: the references and the referents of an applet's metadata, an ordered map from
slot to name. A slot named again keeps the later name. -/
namespace Automation

structure Slots where
  rows : List (Nat × String)
  ascending : rows.Pairwise fun a b => a.1 < b.1
  deriving DecidableEq, Repr

namespace Slots

def empty : Slots := ⟨[], .nil⟩

instance : Inhabited Slots := ⟨empty⟩

def place (slot : Nat) (name : String) : List (Nat × String) → List (Nat × String)
  | [] => [(slot, name)]
  | (s, n) :: rest =>
    if slot < s then (slot, name) :: (s, n) :: rest
    else if slot = s then (slot, name) :: rest
    else (s, n) :: place slot name rest

theorem placeRows {slot : Nat} {name : String} {rows : List (Nat × String)} {row : Nat × String}
    (inside : row ∈ place slot name rows) : row = (slot, name) ∨ row ∈ rows := by
  induction rows with
  | nil => exact .inl (List.mem_singleton.mp inside)
  | cons other rest ih =>
    obtain ⟨s, n⟩ := other
    unfold place at inside
    split at inside
    · exact List.mem_cons.mp inside
    · split at inside
      · exact (List.mem_cons.mp inside).imp_right (List.mem_cons_of_mem _)
      · rcases List.mem_cons.mp inside with rfl | inside
        · exact .inr List.mem_cons_self
        · exact (ih inside).imp_right (List.mem_cons_of_mem _)

theorem placeAscending {rows : List (Nat × String)}
    (ascending : rows.Pairwise fun a b => a.1 < b.1) (slot : Nat) (name : String) :
    (place slot name rows).Pairwise fun a b => a.1 < b.1 := by
  induction rows with
  | nil => exact List.pairwise_singleton _ _
  | cons other rest ih =>
    obtain ⟨s, n⟩ := other
    obtain ⟨first, later⟩ := List.pairwise_cons.mp ascending
    unfold place
    split
    · rename_i less
      refine List.pairwise_cons.mpr ⟨fun row inside => ?_, ascending⟩
      rcases List.mem_cons.mp inside with rfl | inside
      · exact less
      · exact Nat.lt_trans less (first row inside)
    · split
      · rename_i same
        subst same
        exact List.pairwise_cons.mpr ⟨first, later⟩
      · refine List.pairwise_cons.mpr ⟨fun row inside => ?_, ih later⟩
        rcases placeRows inside with rfl | inside
        · dsimp only
          omega
        · exact first row inside

def insert (m : Slots) (slot : Nat) (name : String) : Slots :=
  ⟨place slot name m.rows, placeAscending m.ascending slot name⟩

def ofList (rows : List (Nat × String)) : Slots :=
  rows.foldl (fun m row => m.insert row.1 row.2) empty

def name? (m : Slots) (slot : Nat) : Option String :=
  (m.rows.find? fun row => row.1 == slot).map Prod.snd

def contains (m : Slots) (slot : Nat) : Bool := (m.name? slot).isSome

/- The number of slots from the first up to the highest named one. -/
def arity (m : Slots) : Nat :=
  match m.rows.getLast? with
  | some (slot, _) => slot + 1
  | none => 0

end Slots
end Automation
