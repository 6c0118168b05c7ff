import Mathlib.Data.List.Nodup
import Automation.Table
/-! The rows of a table are the answers to its look-ups: a key that is found has its row, a row is
found under its key, and writing and removing change the rows of their own key only. -/
namespace Automation.Table
variable {κ ν : Type} [DecidableEq κ] {t : Table κ ν} {k : κ} {v : ν}

theorem lookupRow {rows : List (κ × ν)} (found : lookup k rows = some v) : (k, v) ∈ rows := by
  induction rows with
  | nil => cases found
  | cons row rest ih =>
    obtain ⟨key, value⟩ := row
    rw [lookup] at found
    split at found
    · rename_i same
      cases same
      cases found
      exact List.mem_cons_self
    · exact List.mem_cons_of_mem _ (ih found)

theorem getRow (found : t.get? k = some v) : (k, v) ∈ t.rows := lookupRow found

theorem rowLookup {rows : List (κ × ν)} (unique : (rows.map Prod.fst).Nodup)
    (row : (k, v) ∈ rows) : lookup k rows = some v := by
  induction rows with
  | nil => cases row
  | cons first rest ih =>
    obtain ⟨key, value⟩ := first
    obtain ⟨absent, later⟩ := List.nodup_cons.mp unique
    rcases List.mem_cons.mp row with same | inside
    · cases same
      rw [lookup, if_pos rfl]
    · have other : key ≠ k := by
        rintro rfl
        exact absent (List.mem_map.mpr ⟨(key, v), inside, rfl⟩)
      rw [lookup, if_neg other]
      exact ih later inside

theorem rowGet (row : (k, v) ∈ t.rows) : t.get? k = some v := rowLookup t.unique row

theorem getKey (found : t.get? k = some v) : k ∈ t.keys := List.mem_map_of_mem (getRow found)

theorem keyGet (key : k ∈ t.keys) : ∃ v, t.get? k = some v := by
  obtain ⟨⟨key', value⟩, row, same⟩ := List.mem_map.mp key
  cases same
  exact ⟨value, rowGet row⟩

theorem writeAbsent {rows : List (κ × ν)} (absent : lookup k rows = none) :
    write k v rows = rows ++ [(k, v)] := by
  induction rows with
  | nil => rfl
  | cons row rest ih =>
    obtain ⟨key, value⟩ := row
    rw [lookup] at absent
    split at absent
    · cases absent
    · rename_i other
      rw [write, if_neg other, ih absent]
      rfl

theorem insertAbsent (absent : t.get? k = none) : (t.insert k v).rows = t.rows ++ [(k, v)] :=
  writeAbsent absent

theorem writeRow (rows : List (κ × ν)) :
    ∀ row ∈ write k v rows, row = (k, v) ∨ row ∈ rows := by
  intro row inside
  induction rows with
  | nil => exact .inl (List.mem_singleton.mp inside)
  | cons first rest ih =>
    obtain ⟨key, value⟩ := first
    rw [write] at inside
    split at inside
    · rename_i same
      subst same
      exact (List.mem_cons.mp inside).imp_right (List.mem_cons_of_mem _)
    · rcases List.mem_cons.mp inside with rfl | later
      · exact .inr List.mem_cons_self
      · exact (ih later).imp_right (List.mem_cons_of_mem _)

theorem insertRow {row : κ × ν} (inside : row ∈ (t.insert k v).rows) :
    row = (k, v) ∨ row ∈ t.rows := writeRow t.rows row inside

theorem eraseRows {row : κ × ν} (inside : row ∈ (t.erase k).rows) : row ∈ t.rows :=
  List.mem_of_mem_filter inside

theorem insertKey {j : κ} (key : j ∈ (t.insert k v).keys) : j = k ∨ j ∈ t.keys :=
  writeKeys t.rows j key

theorem eraseKey {j : κ} (key : j ∈ (t.erase k).keys) : j ∈ t.keys :=
  (List.filter_sublist.map Prod.fst).subset key

theorem eraseRow (found : t.get? k = some v) :
    ∃ before after, t.rows = before ++ (k, v) :: after ∧ (t.erase k).rows = before ++ after := by
  obtain ⟨before, after, split⟩ := List.append_of_mem (getRow found)
  refine ⟨before, after, split, ?_⟩
  have unique := t.unique
  rw [split, List.map_append, List.map_cons] at unique
  have absent := (List.nodup_cons.mp (List.nodup_middle.mp unique)).1
  have others (rows : List (κ × ν)) (absent : k ∉ rows.map Prod.fst) :
      rows.filter (fun row => row.1 ≠ k) = rows := by
    refine List.filter_eq_self.mpr fun row inside => decide_eq_true fun same => ?_
    exact absent (same ▸ List.mem_map_of_mem inside)
  rw [← List.map_append] at absent
  have both := others (before ++ after) absent
  rw [List.filter_append] at both
  change t.rows.filter (fun row => row.1 ≠ k) = before ++ after
  rw [split, List.filter_append, List.filter_cons_of_neg (by simp)]
  exact both

theorem lookupNone {rows : List (κ × ν)} (absent : lookup k rows = none) :
    ∀ row ∈ rows, row.1 ≠ k := by
  induction rows with
  | nil => simp
  | cons first rest ih =>
    obtain ⟨key, value⟩ := first
    rw [lookup] at absent
    split at absent
    · cases absent
    · rename_i other
      exact List.forall_mem_cons.mpr ⟨other, ih absent⟩

theorem eraseAbsent (absent : t.get? k = none) : t.erase k = t :=
  Table.ext (List.filter_eq_self.mpr fun row inside =>
    decide_eq_true (lookupNone absent row inside))

theorem eraseOther {j : κ} (key : j ∈ (t.erase k).keys) : j ≠ k := by
  obtain ⟨row, inside, rfl⟩ := List.mem_map.mp key
  exact of_decide_eq_true (List.mem_filter.mp inside).2

theorem keepKey {j : κ} (key : j ∈ t.keys) (other : j ≠ k) : j ∈ (t.erase k).keys := by
  obtain ⟨row, inside, rfl⟩ := List.mem_map.mp key
  exact List.mem_map_of_mem (List.mem_filter.mpr ⟨inside, decide_eq_true other⟩)

theorem insertFound {j : κ} {w : ν} (found : (t.insert k v).get? j = some w) :
    k = j ∧ v = w ∨ t.get? j = some w := by
  rw [getInsert] at found
  split at found
  · rename_i same
    exact .inl ⟨same, Option.some.inj found⟩
  · exact .inr found

theorem eraseFound {j : κ} (found : (t.erase k).get? j = some v) : k ≠ j ∧ t.get? j = some v := by
  rw [getErase] at found
  split at found
  · cases found
  · rename_i other
    exact ⟨other, found⟩

theorem eraseSizeLe (t : Table κ ν) (k : κ) : (t.erase k).size ≤ t.size :=
  List.length_filter_le _ _

theorem eraseSize (found : t.get? k = some v) : (t.erase k).size + 1 = t.size := by
  obtain ⟨before, after, rows, erased⟩ := eraseRow found
  simp only [size, rows, erased, List.length_append, List.length_cons]
  omega

theorem insertSize (absent : t.get? k = none) : (t.insert k v).size = t.size + 1 := by
  simp [size, insertAbsent absent]

theorem containsErase {j : κ} (other : k ≠ j) : (t.erase k).contains j = t.contains j := by
  rw [contains, getErase, if_neg other, contains]

theorem containsInsert {j : κ} (other : k ≠ j) : (t.insert k v).contains j = t.contains j := by
  rw [contains, getInsert, if_neg other, contains]

end Automation.Table
