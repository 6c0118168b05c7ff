import Automation.Proofs.Variables
/-! The marks of a document, which are its values under tags, and its mappings; and documents with
other nodes in the places of their marks. A document without tags has no marks. -/
namespace Automation

/- A property of all documents that sequences take over from their items, and mappings from their
keys and values. -/
theorem Yaml.Node.byParts {motive : Node → Prop} (null : motive null) (bool : ∀ b, motive (bool b))
    (int : ∀ n, motive (int n)) (double : ∀ d, motive (double d)) (str : ∀ s, motive (str s))
    (seq : ∀ items, (∀ n ∈ items, motive n) → motive (seq items))
    (map : ∀ entries, (∀ e ∈ entries, motive e.1 ∧ motive e.2) → motive (map entries))
    (tagged : ∀ tag value, motive (tagged tag value)) : ∀ v, motive v
  | .null => null
  | .bool b => bool b
  | .int n => int n
  | .double d => double d
  | .str s => str s
  | .seq items => seq items fun n _ => byParts null bool int double str seq map tagged n
  | .map entries => map entries fun e _ =>
    ⟨byParts null bool int double str seq map tagged e.1,
      byParts null bool int double str seq map tagged e.2⟩
  | .tagged tag value => tagged tag value
decreasing_by
  · have smaller := List.sizeOf_lt_of_mem ‹n ∈ items›
    simp only [Node.seq.sizeOf_spec]
    omega
  all_goals
    have smaller := List.sizeOf_lt_of_mem ‹e ∈ entries›
    have parts : sizeOf e = 1 + sizeOf e.1 + sizeOf e.2 := rfl
    simp only [Node.map.sizeOf_spec]
    omega

namespace Settings
open Automation.Yaml (Node)

mutual
/- The values under tags in the order of the document, a key before its value. What is below a tag
is left out. -/
def marks : Node → List Mark
  | .tagged tag value => [⟨tag, value⟩]
  | .seq items => marksOfItems items
  | .map entries => marksOfEntries entries
  | _ => []

def marksOfItems : List Node → List Mark
  | [] => []
  | item :: rest => marks item ++ marksOfItems rest

def marksOfEntries : List (Node × Node) → List Mark
  | [] => []
  | (key, value) :: rest => marks key ++ marks value ++ marksOfEntries rest
end

mutual
/- The mappings of a document, those in keys and values of others too. What is below a tag is left
out. -/
def mappings : Node → List (List (Node × Node))
  | .seq items => mappingsOfItems items
  | .map entries => entries :: mappingsOfEntries entries
  | _ => []

def mappingsOfItems : List Node → List (List (Node × Node))
  | [] => []
  | item :: rest => mappings item ++ mappingsOfItems rest

def mappingsOfEntries : List (Node × Node) → List (List (Node × Node))
  | [] => []
  | (key, value) :: rest => mappings key ++ mappings value ++ mappingsOfEntries rest
end

mutual
def fillWith (join : List (Node × Node) → List (Node × Node)) (stand : Mark → Node) : Node → Node
  | .tagged tag value => stand ⟨tag, value⟩
  | .seq items => .seq (fillItems join stand items)
  | .map entries => .map (join (fillEntries join stand entries))
  | node => node

def fillItems (join : List (Node × Node) → List (Node × Node)) (stand : Mark → Node) :
    List Node → List Node
  | [] => []
  | item :: rest => fillWith join stand item :: fillItems join stand rest

def fillEntries (join : List (Node × Node) → List (Node × Node)) (stand : Mark → Node) :
    List (Node × Node) → List (Node × Node)
  | [] => []
  | (key, value) :: rest =>
    (fillWith join stand key, fillWith join stand value) :: fillEntries join stand rest
end

def fill (stand : Mark → Node) (v : Node) : Node := fillWith id stand v

def fillEntry (stand : Mark → Node) (e : Node × Node) : Node × Node :=
  (fill stand e.1, fill stand e.2)

def Apart (entries : List (Node × Node)) : Prop := entries.Pairwise fun a b => a.1.same b.1 = false

def KeysDiffer (v : Node) : Prop := ∀ entries ∈ mappings v, Apart entries

def KeysApart (stand : Mark → Node) (v : Node) : Prop :=
  ∀ entries ∈ mappings v, Apart (entries.map (fillEntry stand))

variable {stand : Mark → Node} {v : Node} {join : List (Node × Node) → List (Node × Node)}
  {items : List Node} {entries : List (Node × Node)}

theorem marksItems (items : List Node) : marksOfItems items = items.flatMap marks := by
  induction items with
  | nil => rfl
  | cons item rest ih => rw [marksOfItems, ih, List.flatMap_cons]

theorem marksEntries (entries : List (Node × Node)) :
    marksOfEntries entries = entries.flatMap fun e => marks e.1 ++ marks e.2 := by
  induction entries with
  | nil => rfl
  | cons e rest ih => rw [marksOfEntries, ih, List.flatMap_cons]

theorem mappingsItems (items : List Node) : mappingsOfItems items = items.flatMap mappings := by
  induction items with
  | nil => rfl
  | cons item rest ih => rw [mappingsOfItems, ih, List.flatMap_cons]

theorem mappingsEntries (entries : List (Node × Node)) :
    mappingsOfEntries entries = entries.flatMap fun e => mappings e.1 ++ mappings e.2 := by
  induction entries with
  | nil => rfl
  | cons e rest ih => rw [mappingsOfEntries, ih, List.flatMap_cons]

theorem fillItemsMap (items : List Node) :
    fillItems join stand items = items.map (fillWith join stand) := by
  induction items with
  | nil => rfl
  | cons item rest ih => rw [fillItems, ih, List.map_cons]

theorem fillEntriesMap (entries : List (Node × Node)) :
    fillEntries join stand entries =
      entries.map fun e => (fillWith join stand e.1, fillWith join stand e.2) := by
  induction entries with
  | nil => rfl
  | cons e rest ih => rw [fillEntries, ih, List.map_cons]

theorem fillSeq (items : List Node) : fill stand (.seq items) = .seq (items.map (fill stand)) := by
  rw [fill, fillWith, fillItemsMap]
  rfl

theorem fillMap (entries : List (Node × Node)) :
    fill stand (.map entries) = .map (entries.map (fillEntry stand)) := by
  rw [fill, fillWith, fillEntriesMap]
  rfl

theorem everyMarkSeq {P : Mark → Prop} :
    (∀ m ∈ marks (.seq items), P m) ↔ ∀ item ∈ items, ∀ m ∈ marks item, P m := by
  rw [marks, marksItems]
  exact List.forall_mem_flatMap

theorem everyMarkMap {P : Mark → Prop} :
    (∀ m ∈ marks (.map entries), P m) ↔
      ∀ e ∈ entries, (∀ m ∈ marks e.1, P m) ∧ ∀ m ∈ marks e.2, P m := by
  rw [marks, marksEntries, List.forall_mem_flatMap]
  exact forall₂_congr fun e _ => List.forall_mem_append

theorem everyMappingSeq {P : List (Node × Node) → Prop} :
    (∀ es ∈ mappings (.seq items), P es) ↔ ∀ item ∈ items, ∀ es ∈ mappings item, P es := by
  rw [mappings, mappingsItems]
  exact List.forall_mem_flatMap

theorem everyMappingMap {P : List (Node × Node) → Prop} :
    (∀ es ∈ mappings (.map entries), P es) ↔
      P entries ∧ ∀ e ∈ entries, (∀ es ∈ mappings e.1, P es) ∧ ∀ es ∈ mappings e.2, P es := by
  rw [mappings, mappingsEntries, List.forall_mem_cons, List.forall_mem_flatMap]
  exact and_congr_right' (forall₂_congr fun e _ => List.forall_mem_append)

theorem tagFreeItemsIff {items : List Node} :
    Node.tagFreeItems items = true ↔ ∀ item ∈ items, item.tagFree = true := by
  induction items with
  | nil => simp [Node.tagFreeItems]
  | cons item rest ih => rw [Node.tagFreeItems, Bool.and_eq_true, ih, List.forall_mem_cons]

theorem tagFreeEntriesIff {entries : List (Node × Node)} :
    Node.tagFreeEntries entries = true ↔ ∀ e ∈ entries, e.1.tagFree = true ∧ e.2.tagFree = true := by
  induction entries with
  | nil => simp [Node.tagFreeEntries]
  | cons e rest ih =>
    rw [Node.tagFreeEntries, Bool.and_eq_true, Bool.and_eq_true, ih, List.forall_mem_cons]

theorem seqFree {items : List Node} :
    (Node.seq items).tagFree = true ↔ ∀ item ∈ items, item.tagFree = true := by
  rw [Node.tagFree, tagFreeItemsIff]

theorem mapFree {entries : List (Node × Node)} :
    (Node.map entries).tagFree = true ↔
      ∀ e ∈ entries, e.1.tagFree = true ∧ e.2.tagFree = true := by
  rw [Node.tagFree, tagFreeEntriesIff]

theorem marksFree (free : v.tagFree = true) : ∀ m ∈ marks v, False := by
  induction v using Node.byParts with
  | seq items ih =>
    exact everyMarkSeq.mpr fun item inside =>
      ih item inside (seqFree.mp free item inside)
  | map entries ih =>
    exact everyMarkMap.mpr fun e inside =>
      ⟨(ih e inside).1 (mapFree.mp free e inside).1, (ih e inside).2 (mapFree.mp free e inside).2⟩
  | tagged tag value => cases free
  | _ => exact List.forall_mem_nil _

theorem fillFree (free : v.tagFree = true) : fill stand v = v := by
  induction v using Node.byParts with
  | seq items ih =>
    rw [fillSeq, List.map_congr_left fun item inside =>
      ih item inside (seqFree.mp free item inside)]
    exact congrArg Node.seq (List.map_id items)
  | map entries ih =>
    rw [fillMap, List.map_congr_left fun e inside => Prod.ext
      ((ih e inside).1 (mapFree.mp free e inside).1) ((ih e inside).2 (mapFree.mp free e inside).2)]
    exact congrArg Node.map (List.map_id entries)
  | tagged tag value => cases free
  | _ => rfl

theorem apartNew {e : Node × Node} (apart : Apart entries)
    (new : ∀ d ∈ entries, d.1.same e.1 = false) : Apart (entries ++ [e]) := by
  refine List.pairwise_append.mpr ⟨apart, List.pairwise_singleton _ _, fun d inside f last => ?_⟩
  cases List.mem_singleton.mp last
  exact new d inside

theorem apartFree (free : v.tagFree = true) (differ : KeysDiffer v) : KeysApart stand v := by
  induction v using Node.byParts with
  | seq items ih =>
    exact everyMappingSeq.mpr fun item inside =>
      ih item inside (seqFree.mp free item inside) (everyMappingSeq.mp differ item inside)
  | map entries ih =>
    obtain ⟨own, parts⟩ := everyMappingMap.mp differ
    have same : entries.map (fillEntry stand) = entries := by
      have filled := (fillFree free : fill stand (.map entries) = .map entries)
      rwa [fillMap, Node.map.injEq] at filled
    refine everyMappingMap.mpr ⟨?_, fun e inside => ?_⟩
    · rwa [same]
    · obtain ⟨key, value⟩ := mapFree.mp free e inside
      exact ⟨(ih e inside).1 key (parts e inside).1, (ih e inside).2 value (parts e inside).2⟩
  | _ => exact List.forall_mem_nil _

end Settings
end Automation
