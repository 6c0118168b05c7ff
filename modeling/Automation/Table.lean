/-! Tables from keys to values that remember the order in which keys first arrived, and have one
row for each. Writing to a present key changes its value in place, so reading the rows back gives
the order of first insertion. Look-ups after a write or a removal are settled by `getInsert` and
`getErase`. -/
namespace Automation

@[ext]
structure Table (κ ν : Type) where
  rows : List (κ × ν)
  unique : (rows.map Prod.fst).Nodup
  deriving Repr

namespace Table
variable {κ ν : Type} [DecidableEq κ]

def empty : Table κ ν := ⟨[], .nil⟩

instance : Inhabited (Table κ ν) := ⟨empty⟩

def keys (t : Table κ ν) : List κ := t.rows.map Prod.fst

def values (t : Table κ ν) : List ν := t.rows.map Prod.snd

def size (t : Table κ ν) : Nat := t.rows.length

def isEmpty (t : Table κ ν) : Bool := t.rows.isEmpty

def lookup (k : κ) : List (κ × ν) → Option ν
  | [] => none
  | (key, value) :: rest => if key = k then some value else lookup k rest

def get? (t : Table κ ν) (k : κ) : Option ν := lookup k t.rows

def contains (t : Table κ ν) (k : κ) : Bool := (t.get? k).isSome

def write (k : κ) (v : ν) : List (κ × ν) → List (κ × ν)
  | [] => [(k, v)]
  | (key, value) :: rest => if key = k then (key, v) :: rest else (key, value) :: write k v rest

theorem writeKeys {k : κ} {v : ν} (rows : List (κ × ν)) :
    ∀ j, j ∈ (write k v rows).map Prod.fst → j = k ∨ j ∈ rows.map Prod.fst := by
  intro j inside
  induction rows with
  | nil => exact .inl (by simpa [write] using inside)
  | cons row rest ih =>
    obtain ⟨key, value⟩ := row
    rw [write] at inside
    split at inside
    · exact .inr inside
    · rcases List.mem_cons.mp inside with same | later
      · exact .inr (same ▸ List.mem_cons_self)
      · rcases ih later with same | old
        · exact .inl same
        · exact .inr (List.mem_cons_of_mem _ old)

theorem writeUnique {k : κ} {v : ν} {rows : List (κ × ν)} (unique : (rows.map Prod.fst).Nodup) :
    ((write k v rows).map Prod.fst).Nodup := by
  induction rows with
  | nil => simp [write]
  | cons row rest ih =>
    obtain ⟨key, value⟩ := row
    obtain ⟨absent, later⟩ := List.nodup_cons.mp unique
    rw [write]
    split
    · exact unique
    · rename_i other
      refine List.nodup_cons.mpr ⟨fun inside => ?_, ih later⟩
      rcases writeKeys rest key inside with same | old
      · exact other same
      · exact absent old

omit [DecidableEq κ] in
theorem filterUnique (t : Table κ ν) (keep : κ × ν → Bool) :
    ((t.rows.filter keep).map Prod.fst).Nodup := (List.filter_sublist.map Prod.fst).nodup t.unique

/- Sets the value of `k`; a new key goes behind all present ones. -/
def insert (t : Table κ ν) (k : κ) (v : ν) : Table κ ν := ⟨write k v t.rows, writeUnique t.unique⟩

def erase (t : Table κ ν) (k : κ) : Table κ ν :=
  ⟨t.rows.filter fun row => row.1 ≠ k, t.filterUnique _⟩

def ofList (rows : List (κ × ν)) : Table κ ν :=
  rows.foldl (fun t row => t.insert row.1 row.2) empty

theorem lookupWrite (rows : List (κ × ν)) (k : κ) (v : ν) (j : κ) :
    lookup j (write k v rows) = if k = j then some v else lookup j rows := by
  induction rows with
  | nil => simp [write, lookup]
  | cons row rest ih =>
    obtain ⟨key, value⟩ := row
    simp only [write]
    split
    · rename_i same
      subst same
      simp [lookup]
      split <;> rfl
    · rename_i other
      simp only [lookup, ih]
      split
      · rename_i hit
        subst hit
        simp [Ne.symm other]
      · rfl

theorem getInsert (t : Table κ ν) (k : κ) (v : ν) (j : κ) :
    (t.insert k v).get? j = if k = j then some v else t.get? j :=
  lookupWrite t.rows k v j

theorem lookupFilter (rows : List (κ × ν)) (k j : κ) :
    lookup j (rows.filter fun row => row.1 ≠ k) = if k = j then none else lookup j rows := by
  induction rows with
  | nil => simp [lookup]
  | cons row rest ih =>
    obtain ⟨key, value⟩ := row
    by_cases same : key = k
    · subst same
      simp only [List.filter_cons, ne_eq, not_true_eq_false, decide_false, Bool.false_eq_true,
        if_false, lookup]
      rw [ih]
      split <;> rfl
    · simp only [List.filter_cons, ne_eq, same, not_false_eq_true, decide_true, if_true, lookup]
      rw [ih]
      by_cases hit : key = j
      · subst hit
        simp [Ne.symm same]
      · simp [hit]

theorem getErase (t : Table κ ν) (k j : κ) :
    (t.erase k).get? j = if k = j then none else t.get? j :=
  lookupFilter t.rows k j

theorem getEmpty (j : κ) : (empty : Table κ ν).get? j = none := rfl

end Table
end Automation
