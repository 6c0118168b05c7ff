import Automation.Proofs.Expansion
import Automation.Settings.Load
/-! The tags in documents. No tag that is written in a text gets past the expansion of the text,
but what a variable or a fallback says is not expanded again: the tags in there stay, and decoding
settings takes no notice of them. -/
namespace Automation.Settings
open Automation.Yaml (Node)

mutual
def tags : Node → List String
  | .tagged tag value => tag :: tags value
  | .seq items => tagsOfItems items
  | .map entries => tagsOfEntries entries
  | _ => []

def tagsOfItems : List Node → List String
  | [] => []
  | item :: rest => tags item ++ tagsOfItems rest

def tagsOfEntries : List (Node × Node) → List String
  | [] => []
  | (key, value) :: rest => tags key ++ tags value ++ tagsOfEntries rest
end

variable {env : Environment} {stand : Mark → Node} {v : Node} {items : List Node}
  {entries done : List (Node × Node)} {P : String → Prop}

theorem tagsItems (items : List Node) : tagsOfItems items = items.flatMap tags := by
  induction items with
  | nil => rfl
  | cons item rest ih => rw [tagsOfItems, ih, List.flatMap_cons]

theorem tagsEntries (entries : List (Node × Node)) :
    tagsOfEntries entries = entries.flatMap fun e => tags e.1 ++ tags e.2 := by
  induction entries with
  | nil => rfl
  | cons e rest ih => rw [tagsOfEntries, ih, List.flatMap_cons]

theorem everyTagSeq : (∀ t ∈ tags (.seq items), P t) ↔ ∀ item ∈ items, ∀ t ∈ tags item, P t := by
  rw [tags, tagsItems]
  exact List.forall_mem_flatMap

theorem everyTagMap :
    (∀ t ∈ tags (.map entries), P t) ↔
      ∀ e ∈ entries, (∀ t ∈ tags e.1, P t) ∧ ∀ t ∈ tags e.2, P t := by
  rw [tags, tagsEntries, List.forall_mem_flatMap]
  exact forall₂_congr fun e _ => List.forall_mem_append

theorem freeIff : v.tagFree = true ↔ ∀ t ∈ tags v, False := by
  induction v using Node.byParts with
  | seq items ih => exact (seqFree.trans (forall₂_congr ih)).trans everyTagSeq.symm
  | map entries ih =>
    exact (mapFree.trans (forall₂_congr fun e inside =>
      and_congr (ih e inside).1 (ih e inside).2)).trans everyTagMap.symm
  | tagged tag value =>
    exact ⟨fun free => (nomatch free), fun none => (none tag List.mem_cons_self).elim⟩
  | _ => exact ⟨fun _ => List.forall_mem_nil _, fun _ => rfl⟩

theorem putKeeps {Q : Node → Prop} {key value : Node} (before : ∀ d ∈ done, Q d.1 ∧ Q d.2)
    (first : Q key) (second : Q value) : ∀ e ∈ putEntry key value done, Q e.1 ∧ Q e.2 := by
  induction done with
  | nil => exact List.forall_mem_singleton.mpr ⟨first, second⟩
  | cons d rest ih =>
    have ⟨⟨old, last⟩, others⟩ := List.forall_mem_cons.mp before
    rw [putEntry]
    split
    · exact List.forall_mem_cons.mpr ⟨⟨old, second⟩, others⟩
    · exact List.forall_mem_cons.mpr ⟨⟨old, last⟩, ih others⟩

theorem mergeKeeps {Q : Node → Prop} (parts : ∀ e ∈ entries, Q e.1 ∧ Q e.2) :
    ∀ e ∈ merge entries, Q e.1 ∧ Q e.2 := by
  have onto (done : List (Node × Node)) (before : ∀ d ∈ done, Q d.1 ∧ Q d.2) :
      ∀ e ∈ entries.foldl (fun done e => putEntry e.1 e.2 done) done, Q e.1 ∧ Q e.2 := by
    induction entries generalizing done with
    | nil => exact before
    | cons e rest ih =>
      have ⟨first, others⟩ := List.forall_mem_cons.mp parts
      exact ih others _ (putKeeps before first.1 first.2)
  exact onto [] (List.forall_mem_nil _)

theorem fillTags (within : ∀ m ∈ marks v, ∀ t ∈ tags (stand m), P t) :
    ∀ t ∈ tags (fillWith merge stand v), P t := by
  induction v using Node.byParts with
  | seq items ih =>
    rw [fillWith, fillItemsMap]
    refine everyTagSeq.mpr (List.forall_mem_map.mpr fun item inside => ?_)
    exact ih item inside (everyMarkSeq.mp within item inside)
  | map entries ih =>
    rw [fillWith, fillEntriesMap]
    refine everyTagMap.mpr (mergeKeeps (Q := fun n => ∀ t ∈ tags n, P t)
      (List.forall_mem_map.mpr fun e inside => ?_))
    obtain ⟨key, value⟩ := everyMarkMap.mp within e inside
    exact ⟨(ih e inside).1 key, (ih e inside).2 value⟩
  | tagged tag value => exact within ⟨tag, value⟩ (List.mem_singleton_self _)
  | _ => exact List.forall_mem_nil _

theorem fillTagsBack (within : ∀ t ∈ tags (fill stand v), P t) :
    ∀ m ∈ marks v, ∀ t ∈ tags (stand m), P t := by
  induction v using Node.byParts with
  | seq items ih =>
    rw [fillSeq, everyTagSeq, List.forall_mem_map] at within
    exact everyMarkSeq.mpr fun item inside => ih item inside (within item inside)
  | map entries ih =>
    rw [fillMap, everyTagMap, List.forall_mem_map] at within
    exact everyMarkMap.mpr fun e inside =>
      ⟨(ih e inside).1 (within e inside).1, (ih e inside).2 (within e inside).2⟩
  | tagged tag value => exact List.forall_mem_singleton.mpr within
  | _ => exact List.forall_mem_nil _

theorem clearTags (clear : Clear env (marks v)) : ∀ t ∈ tags v, t = variableTag := by
  induction v using Node.byParts with
  | seq items ih =>
    exact everyTagSeq.mpr fun item inside => ih item inside (everyMarkSeq.mp clear item inside)
  | map entries ih =>
    refine everyTagMap.mpr fun e inside => ?_
    obtain ⟨key, value⟩ := everyMarkMap.mp clear e inside
    exact ⟨(ih e inside).1 key, (ih e inside).2 value⟩
  | tagged tag value =>
    have fine := clear ⟨tag, value⟩ (List.mem_singleton_self _)
    by_cases known : tag = variableTag
    · subst known
      have text : ∃ body, value = .str body := by
        by_contra noText
        exact fine _ (.shapeless (not_exists.mp noText))
      obtain ⟨body, rfl⟩ := text
      exact List.forall_mem_singleton.mpr rfl
    · exact absurd (.foreign known) (fine _)
  | _ => exact List.forall_mem_nil _

theorem readDocumentOk {text : String} {raw : Node} (read : Node.read text = .ok raw) :
    readDocument env text = expand env raw := by
  rw [readDocument, read]

theorem readDocumentFrom {text : String} {document : Node}
    (found : readDocument env text = .ok document) :
    ∃ raw, Node.read text = .ok raw ∧ expand env raw = .ok document := by
  rw [readDocument] at found
  split at found
  · rename_i raw read
    exact ⟨raw, read, found⟩
  all_goals cases found

theorem loadError {text : String} {e : SettingsError} (failed : readDocument env text = .error e) :
    load env text = .error e := by
  rw [load, failed]
  rfl

theorem untaggedTwice : ∀ v : Node, v.untagged.untagged = v.untagged
  | .tagged _ value => untaggedTwice value
  | .null | .bool _ | .int _ | .double _ | .str _ | .seq _ | .map _ => rfl

theorem decodeTextBare (expected : String) (v : Node) :
    v.untagged.decodeText expected = v.decodeText expected := by
  rw [Node.decodeText, untaggedTwice]
  rfl

theorem decodeCountBare (expected : String) (v : Node) :
    v.untagged.decodeCount expected = v.decodeCount expected := by
  rw [Node.decodeCount, untaggedTwice]
  rfl

def bareEntry (e : Node × Node) : Node × Node := (e.1.untagged, e.2.untagged)

theorem setFieldBare (s : Settings) (name : String) (value : Node) :
    s.setField name value.untagged = s.setField name value := by
  simp only [setField, decodeTextBare, decodeCountBare]

theorem setFieldsBare (s : Settings) (seen : List String) (entries : List (Node × Node)) :
    setFields s seen (entries.map bareEntry) = setFields s seen entries := by
  induction entries generalizing s seen with
  | nil => rfl
  | cons e rest ih =>
    simp only [List.map_cons, bareEntry, setFields, decodeTextBare, setFieldBare, ih]

theorem ofNodeBare (under : v.untagged = .map entries) :
    ofNode v = ofNode (.map (entries.map bareEntry)) := by
  have decoded : ofNode v = setFields {} [] entries := by
    cases v with
    | null => cases under
    | _ =>
      rw [ofNode, Node.decodeEntries, under]
      · rfl
      · exact fun here => nomatch here
  rw [decoded]
  exact (setFieldsBare {} [] entries).symm

/- The document in a text is free of tags if what stands for its marks is; the other way round, if
keys of one mapping do not come to be equal. All tags that it has are from there, and decoding takes
no notice of them. A tag that is written in the text itself and is not the one of variables makes
loading fail, and by its name if no offence is before it. -/
theorem tagsAccounted (env : Environment) (text : String) :
    (∀ document, readDocument env text = .ok document →
      (∃ raw stand, Node.read text = .ok raw ∧ (∀ m ∈ marks raw, StandsFor env m (stand m)) ∧
        (∀ t ∈ tags document, ∃ m ∈ marks raw, t ∈ tags (stand m)) ∧
        ((∀ m ∈ marks raw, (stand m).tagFree = true) → document.tagFree = true) ∧
        (KeysApart stand raw → document.tagFree = true →
          ∀ m ∈ marks raw, (stand m).tagFree = true)) ∧
      ∀ entries, document.untagged = .map entries →
        ofNode document = ofNode (.map (entries.map bareEntry))) ∧
    ∀ raw, Node.read text = .ok raw →
      (∀ t ∈ tags raw, t ≠ variableTag →
        ∃ e, FirstOffence env (marks raw) e ∧ load env text = .error e) ∧
      ∀ before m after, marks raw = before ++ m :: after → Clear env before →
        m.tag ≠ variableTag → load env text = .error (.unknownTag ("!" ++ m.tag)) := by
  refine ⟨fun document found => ⟨?_, fun entries => ofNodeBare⟩, fun raw read => ⟨?_, ?_⟩⟩
  · obtain ⟨raw, read, expanded⟩ := readDocumentFrom found
    obtain ⟨stand, stands, rfl⟩ := expandedFill expanded
    refine ⟨raw, stand, read, stands, ?_, fun free => ?_, fun apart free m inside => ?_⟩
    · exact fillTags fun m inside t here => ⟨m, inside, here⟩
    · exact freeIff.mpr (fillTags fun m inside => freeIff.mp (free m inside))
    · rw [fillApart apart] at free
      exact freeIff.mpr (fillTagsBack (freeIff.mp free) m inside)
  · intro t inside other
    cases found : expand env raw with
    | ok w => exact absurd (clearTags (expandOkIff.mp ⟨w, found⟩) t inside) other
    | error e => exact ⟨e, expandErrorIff.mp found, loadError ((readDocumentOk read).trans found)⟩
  · intro before m after here clear other
    have first : FirstOffence env (marks raw) (.unknownTag ("!" ++ m.tag)) :=
      ⟨before, m, after, here, clear, .foreign other⟩
    exact loadError ((readDocumentOk read).trans (expandErrorIff.mpr first))

theorem tagsAccountedLevel :
    let env : Environment := fun _ => some "!secret debug"
    let text := "log_level: !env_var LEVEL"
    load env text = .ok { logLevel := "debug" } ∧
      ∃ document, readDocument env text = .ok document ∧ document.tagFree = false ∧
        ∃ raw, Node.read text = .ok raw ∧
          ∃ m ∈ marks raw, ∃ node, StandsFor env m node ∧ "secret" ∈ tags node := by
  intro env text
  have loaded : load env text = .ok { logLevel := "debug" } := by decide +kernel
  have stays : ((readDocument env text).toOption.any fun document =>
      !document.tagFree && (tags document).contains "secret") = true := by
    decide +kernel
  refine ⟨loaded, ?_⟩
  cases found : readDocument env text with
  | error e =>
    rw [found] at stays
    cases stays
  | ok document =>
    rw [found] at stays
    obtain ⟨tagged, inside⟩ := Bool.and_eq_true_iff.mp stays
    obtain ⟨raw, stand, read, stands, sources, -⟩ := ((tagsAccounted env text).1 document found).1
    obtain ⟨m, here, there⟩ := sources "secret" (List.contains_iff_mem.mp inside)
    have unfree : document.tagFree = false := by simpa using tagged
    exact ⟨document, rfl, unfree, raw, read, m, here, _, stands m here, there⟩

end Automation.Settings
