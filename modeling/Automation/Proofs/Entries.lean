import Automation.Proofs.Documents
import Automation.Proofs.Expansion
/-! The entries of expanded mappings. Keys may come to be equal when something else stands in the
places of their marks. The mapping then loses entries without a word: what keeps the entries of
all mappings is that no keys come to be equal. -/
namespace Automation.Settings
open Automation.Yaml (Node)

mutual
/- Whether the second document has as many entries as the first in every mapping, the places of
marks apart. -/
def KeepsEntries : Node → Node → Prop
  | .seq as, .seq bs => KeepsInItems as bs
  | .map as, .map bs => bs.length = as.length ∧ KeepsInEntries as bs
  | .seq _, _ => False
  | .map _, _ => False
  | _, _ => True

def KeepsInItems : List Node → List Node → Prop
  | [], [] => True
  | a :: as, b :: bs => KeepsEntries a b ∧ KeepsInItems as bs
  | _, _ => False

def KeepsInEntries : List (Node × Node) → List (Node × Node) → Prop
  | [], [] => True
  | (k, v) :: as, (j, w) :: bs => KeepsEntries k j ∧ KeepsEntries v w ∧ KeepsInEntries as bs
  | _, _ => False
end

variable {stand : Mark → Node} {v : Node} {done entries : List (Node × Node)}

theorem putOld {d : Node × Node} {key value : Node} (inside : d ∈ done)
    (same : d.1.same key = true) : (putEntry key value done).length = done.length := by
  induction done with
  | nil => cases inside
  | cons e rest ih =>
    obtain ⟨k, w⟩ := e
    rw [putEntry]
    split
    · rfl
    · rename_i other
      rcases List.mem_cons.mp inside with rfl | later
      · exact absurd same other
      · rw [List.length_cons, ih later, List.length_cons]

theorem putAllLength (done entries : List (Node × Node)) :
    (entries.foldl (fun done e => putEntry e.1 e.2 done) done).length ≤
      done.length + entries.length := by
  induction entries generalizing done with
  | nil => exact Nat.le_refl _
  | cons e rest ih =>
    have later := ih (putEntry e.1 e.2 done)
    have grows : (putEntry e.1 e.2 done).length ≤ done.length + 1 := by
      by_cases new : ∀ d ∈ done, d.1.same e.1 = false
      · rw [putNew new, List.length_append]
        exact Nat.le_refl _
      · obtain ⟨d, new⟩ := not_forall.mp new
        obtain ⟨inside, same⟩ := Classical.not_imp.mp new
        rw [putOld inside (by simpa using same)]
        exact Nat.le_succ _
    rw [List.foldl_cons, List.length_cons]
    omega

theorem putAllApart (apart : Apart done)
    (whole : (entries.foldl (fun done e => putEntry e.1 e.2 done) done).length =
      done.length + entries.length) : Apart (done ++ entries) := by
  induction entries generalizing done with
  | nil => rwa [List.append_nil]
  | cons e rest ih =>
    rw [List.foldl_cons, List.length_cons] at whole
    by_cases new : ∀ d ∈ done, d.1.same e.1 = false
    · rw [putNew new] at whole
      have both := ih (apartNew apart new)
        (by rw [whole, List.length_append, List.length_singleton]; omega)
      rwa [List.append_assoc] at both
    · obtain ⟨d, new⟩ := not_forall.mp new
      obtain ⟨inside, same⟩ := Classical.not_imp.mp new
      have bound := putAllLength (putEntry e.1 e.2 done) rest
      rw [whole, putOld inside (by simpa using same)] at bound
      omega

theorem mergeLengthIff : (merge entries).length = entries.length ↔ Apart entries := by
  constructor
  · intro whole
    have none : Apart [] := List.Pairwise.nil
    simpa using putAllApart none (by simpa [merge] using whole)
  · intro apart
    rw [mergeApart apart]

theorem keepsItemsIff {items : List Node} {f : Node → Node} :
    KeepsInItems items (items.map f) ↔ ∀ item ∈ items, KeepsEntries item (f item) := by
  induction items with
  | nil => simp [KeepsInItems]
  | cons item rest ih => rw [List.map_cons, KeepsInItems, ih, List.forall_mem_cons]

theorem keepsEntriesIff {f : Node → Node} :
    KeepsInEntries entries (entries.map fun e => (f e.1, f e.2)) ↔
      ∀ e ∈ entries, KeepsEntries e.1 (f e.1) ∧ KeepsEntries e.2 (f e.2) := by
  induction entries with
  | nil => simp [KeepsInEntries]
  | cons e rest ih => rw [List.map_cons, KeepsInEntries, ih, List.forall_mem_cons, and_assoc]

theorem keepsIff : KeepsEntries v (fillWith merge stand v) ↔ KeysApart stand v := by
  induction v using Node.byParts with
  | seq items ih =>
    rw [fillWith, fillItemsMap, KeepsEntries, keepsItemsIff]
    exact (forall₂_congr ih).trans everyMappingSeq.symm
  | map entries ih =>
    have parts : KeepsInEntries entries (fillEntries merge stand entries) ↔
        ∀ e ∈ entries, KeysApart stand e.1 ∧ KeysApart stand e.2 := by
      rw [fillEntriesMap, keepsEntriesIff]
      exact forall₂_congr fun e inside => and_congr (ih e inside).1 (ih e inside).2
    -- Where the parts keep their entries, nothing but their marks has changed.
    have filled (apart : ∀ e ∈ entries, KeysApart stand e.1 ∧ KeysApart stand e.2) :
        fillEntries merge stand entries = entries.map (fillEntry stand) := by
      rw [fillEntriesMap]
      exact List.map_congr_left fun e inside =>
        Prod.ext (fillApart (apart e inside).1) (fillApart (apart e inside).2)
    have length : (fillEntries merge stand entries).length = entries.length := by
      rw [fillEntriesMap, List.length_map]
    rw [fillWith, KeepsEntries]
    constructor
    · rintro ⟨whole, keeps⟩
      have own : Apart (fillEntries merge stand entries) := mergeLengthIff.mp (whole.trans length.symm)
      rw [mergeApart own] at keeps
      have apart := parts.mp keeps
      exact everyMappingMap.mpr ⟨filled apart ▸ own, apart⟩
    · intro apart
      obtain ⟨own, deeper⟩ := everyMappingMap.mp apart
      have own' : Apart (fillEntries merge stand entries) := by rwa [filled deeper]
      rw [mergeApart own']
      exact ⟨length, parts.mpr deeper⟩
  | tagged tag value => exact ⟨fun _ => List.forall_mem_nil _, fun _ => trivial⟩
  | _ => exact ⟨fun _ => List.forall_mem_nil _, fun _ => trivial⟩

/- Reading refuses two equal keys in a mapping. Expansion does not: what makes it fail are offences
alone. It keeps the entries of every mapping exactly if no two keys of one mapping come to be equal
when something else stands in the places of marks. -/
theorem entriesKept (env : Environment) (v : Node) :
    (∀ text, Node.read text = .ok v → KeysDiffer v) ∧
      ((∃ w, expand env v = .ok w) ↔ Clear env (marks v)) ∧
      ∀ w, expand env v = .ok w →
        ∃ stand, (∀ m ∈ marks v, StandsFor env m (stand m)) ∧
          (KeepsEntries v w ↔ KeysApart stand v) := by
  refine ⟨fun text => Node.readDiffers, expandOkIff, fun w expanded => ?_⟩
  obtain ⟨stand, stands, rfl⟩ := expandedFill expanded
  exact ⟨stand, stands, keepsIff⟩

def keyedDocument : Node :=
  .map [(.tagged variableTag (.str "FIRST"), .int 5), (.tagged variableTag (.str "SECOND"), .int 7)]

/- Both stand for the same key, and the value that was first is lost. -/
theorem entriesKeptRepeated :
    let env : Environment := fun _ => some "max_parked_runtimes"
    let key := reread "max_parked_runtimes"
    expand env keyedDocument = .ok (.map [(key, .int 7)]) ∧
      ¬ KeepsEntries keyedDocument (.map [(key, .int 7)]) := by
  intro env key
  have same : key.same key = true := by decide +kernel
  have stands (name : String) (asks : Asks name name none) :
      StandsFor env ⟨variableTag, .str name⟩ key :=
    .value asks rfl (writtenIff.mpr rfl)
  have every : ∀ m ∈ marks keyedDocument, StandsFor env m key := by
    intro m inside
    rcases List.mem_pair.mp inside with rfl | rfl
    · exact stands "FIRST" (asksIff.mpr (by decide))
    · exact stands "SECOND" (asksIff.mpr (by decide))
  have merged : merge [(key, .int 5), (key, .int 7)] = [(key, .int 7)] := if_pos same
  have expanded : expand env keyedDocument = .ok (.map [(key, .int 7)]) := by
    rw [expandFill every]
    exact congrArg (fun entries => Except.ok (Node.map entries)) merged
  refine ⟨expanded, fun keeps => ?_⟩
  obtain ⟨stand, stands, exactly⟩ := (entriesKept env keyedDocument).2.2 _ expanded
  have known (m : Mark) (inside : m ∈ marks keyedDocument) : stand m = key :=
    Except.ok.inj ((standsIff.mp (stands m inside)).symm.trans (standsIff.mp (every m inside)))
  have apart := exactly.mp keeps _ List.mem_cons_self
  have keys : (stand ⟨variableTag, .str "FIRST"⟩).same (stand ⟨variableTag, .str "SECOND"⟩) = false :=
    List.rel_of_pairwise_cons apart List.mem_cons_self
  rw [known _ List.mem_cons_self, known _ (List.mem_cons_of_mem _ List.mem_cons_self), same] at keys
  cases keys

end Automation.Settings
