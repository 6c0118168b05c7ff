import Automation.Proofs.Marks
/-! The expansion of documents. What stands for the values under tags is put in their places, and
all else stays where it is, unless keys of one mapping come to be equal. Expansion fails with the
first value under a tag that is an offence, and with nothing else. -/
namespace Automation.Settings
open Automation.Yaml (Node)

def merge (entries : List (Node × Node)) : List (Node × Node) :=
  entries.foldl (fun done e => putEntry e.1 e.2 done) []

def Clear (env : Environment) (ms : List Mark) : Prop := ∀ m ∈ ms, ∀ e, ¬ Offends env m e

def FirstOffence (env : Environment) (ms : List Mark) (e : SettingsError) : Prop :=
  ∃ before m after, ms = before ++ m :: after ∧ Clear env before ∧ Offends env m e

variable {env : Environment} {stand : Mark → Node} {v : Node} {ms : List Mark}

theorem firstOf {m : Mark} {e : SettingsError} {rest : List Mark} (offends : Offends env m e) :
    FirstOffence env (m :: rest) e :=
  ⟨[], m, rest, rfl, fun _ inside => (nomatch inside), offends⟩

theorem firstLeft {bs : List Mark} {e : SettingsError} (first : FirstOffence env ms e) :
    FirstOffence env (ms ++ bs) e := by
  obtain ⟨before, m, after, rfl, clear, offends⟩ := first
  exact ⟨before, m, after ++ bs, by simp, clear, offends⟩

theorem firstRight {bs : List Mark} {e : SettingsError} (clear : Clear env ms)
    (first : FirstOffence env bs e) : FirstOffence env (ms ++ bs) e := by
  obtain ⟨before, m, after, rfl, clear', offends⟩ := first
  refine ⟨ms ++ before, m, after, by simp, fun n inside => ?_, offends⟩
  exact (List.mem_append.mp inside).elim (clear n) (clear' n)

theorem offenceMeets {m m' : Mark} {gap after after' : List Mark} {e e' : SettingsError}
    (same : m :: after = gap ++ m' :: after') (offends : Offends env m e) (clear : Clear env gap)
    (offends' : Offends env m' e') : e = e' := by
  cases gap with
  | nil =>
    cases (List.cons.inj same).1
    exact Except.error.inj ((offendsIff.mp offends).symm.trans (offendsIff.mp offends'))
  | cons n gap =>
    cases (List.cons.inj same).1
    exact absurd offends (clear m List.mem_cons_self e)

theorem firstOnly {e e' : SettingsError} (first : FirstOffence env ms e)
    (first' : FirstOffence env ms e') : e = e' := by
  obtain ⟨before, m, after, rfl, clear, offends⟩ := first
  obtain ⟨before', m', after', same, clear', offends'⟩ := first'
  rcases List.append_eq_append_iff.mp same with ⟨gap, rfl, rest⟩ | ⟨gap, rfl, rest⟩
  · exact offenceMeets rest offends (fun n inside => clear' n (List.mem_append_right _ inside)) offends'
  · exact (offenceMeets rest offends' (fun n inside => clear n (List.mem_append_right _ inside))
      offends).symm

theorem firstUnclear {e : SettingsError} (first : FirstOffence env ms e) : ¬ Clear env ms := by
  obtain ⟨before, m, after, rfl, -, offends⟩ := first
  exact fun clear => clear m (by simp) e offends

/- Work over these marks one after the other comes to an end as the first of them that is an
offence says, or goes through if none is. -/
def Judged {α : Type} (env : Environment) (ms : List Mark) : Except SettingsError α → Prop
  | .ok _ => Clear env ms
  | .error e => FirstOffence env ms e

theorem judgedNone {α : Type} (a : α) : Judged env [] (.ok a) := fun _ inside => nomatch inside

theorem judgedMark (m : Mark) : Judged env [m] (m.resolve env) := by
  rcases resolves env m with ⟨node, stands, same⟩ | ⟨e, offends, same⟩
  · rw [same]
    intro n inside e offends
    cases List.mem_singleton.mp inside
    cases (offendsIff.mp offends).symm.trans same
  · rw [same]
    exact firstOf offends

theorem judgedBind {α β : Type} {bs : List Mark} {x : Except SettingsError α}
    {f : α → Except SettingsError β} (first : Judged env ms x)
    (second : ∀ a, Judged env bs (f a)) : Judged env (ms ++ bs) (x.bind f) := by
  cases x with
  | error e => exact firstLeft first
  | ok a =>
    have later := second a
    change Judged env (ms ++ bs) (f a)
    cases found : f a with
    | ok b =>
      rw [found] at later
      exact fun n inside => (List.mem_append.mp inside).elim (first n) (later n)
    | error e =>
      rw [found] at later
      exact firstRight first later

theorem judgedMap {α β : Type} {x : Except SettingsError α} (f : α → β) (judged : Judged env ms x) :
    Judged env ms (x.map f) := by
  cases x with
  | ok a => exact judged
  | error e => exact judged

theorem itemsCons (item : Node) (rest : List Node) :
    expandItems env (item :: rest) =
      (expand env item).bind fun a => (expandItems env rest).bind fun as => .ok (a :: as) := rfl

theorem entriesCons (done : List (Node × Node)) (key value : Node) (rest : List (Node × Node)) :
    expandEntries env done ((key, value) :: rest) =
      (expand env key).bind fun k => (expand env value).bind fun w =>
        expandEntries env (putEntry k w done) rest := rfl

theorem expandItemsJudged {items : List Node}
    (parts : ∀ item ∈ items, Judged env (marks item) (expand env item)) :
    Judged env (marksOfItems items) (expandItems env items) := by
  induction items with
  | nil => exact judgedNone _
  | cons item rest ih =>
    have ⟨first, others⟩ := List.forall_mem_cons.mp parts
    rw [itemsCons, marksOfItems]
    refine judgedBind first fun a => ?_
    rw [← List.append_nil (marksOfItems rest)]
    exact judgedBind (ih others) fun as => judgedNone _

theorem expandEntriesJudged {entries : List (Node × Node)} (done : List (Node × Node))
    (parts : ∀ e ∈ entries, Judged env (marks e.1) (expand env e.1) ∧
      Judged env (marks e.2) (expand env e.2)) :
    Judged env (marksOfEntries entries) (expandEntries env done entries) := by
  induction entries generalizing done with
  | nil => exact judgedNone _
  | cons e rest ih =>
    have ⟨⟨key, value⟩, others⟩ := List.forall_mem_cons.mp parts
    rw [entriesCons, marksOfEntries, List.append_assoc]
    exact judgedBind key fun k => judgedBind value fun w => ih _ others

theorem expandJudged (env : Environment) (v : Node) : Judged env (marks v) (expand env v) := by
  induction v using Node.byParts with
  | seq items ih => exact judgedMap _ (expandItemsJudged ih)
  | map entries ih => exact judgedMap _ (expandEntriesJudged [] ih)
  | tagged tag value => exact judgedMark ⟨tag, value⟩
  | _ => exact judgedNone _

theorem expandErrorIff {e : SettingsError} :
    expand env v = .error e ↔ FirstOffence env (marks v) e := by
  have judged := expandJudged env v
  constructor
  · intro failed
    rwa [failed] at judged
  · intro first
    cases found : expand env v with
    | ok w =>
      rw [found] at judged
      exact absurd judged (firstUnclear first)
    | error e' =>
      rw [found] at judged
      rw [firstOnly judged first]

theorem expandOkIff : (∃ w, expand env v = .ok w) ↔ Clear env (marks v) := by
  have judged := expandJudged env v
  cases found : expand env v with
  | ok w =>
    rw [found] at judged
    exact ⟨fun _ => judged, fun _ => ⟨w, rfl⟩⟩
  | error e =>
    rw [found] at judged
    refine ⟨?_, fun clear => absurd clear (firstUnclear judged)⟩
    rintro ⟨w, same⟩
    cases same

theorem clearStands (clear : Clear env ms) :
    ∃ stand : Mark → Node, ∀ m ∈ ms, StandsFor env m (stand m) := by
  refine ⟨fun m => (m.resolve env).toOption.getD .null, fun m inside => ?_⟩
  rcases resolves env m with ⟨node, stands, same⟩ | ⟨e, offends, -⟩
  · dsimp only
    rw [same]
    exact stands
  · exact absurd offends (clear m inside e)

theorem expandItemsFill {items : List Node}
    (parts : ∀ item ∈ items, expand env item = .ok (fillWith merge stand item)) :
    expandItems env items = .ok (fillItems merge stand items) := by
  induction items with
  | nil => rfl
  | cons item rest ih =>
    have ⟨first, others⟩ := List.forall_mem_cons.mp parts
    rw [itemsCons, first, ih others]
    rfl

theorem expandEntriesFill {entries : List (Node × Node)} (done : List (Node × Node))
    (parts : ∀ e ∈ entries, expand env e.1 = .ok (fillWith merge stand e.1) ∧
      expand env e.2 = .ok (fillWith merge stand e.2)) :
    expandEntries env done entries = .ok ((fillEntries merge stand entries).foldl
      (fun done e => putEntry e.1 e.2 done) done) := by
  induction entries generalizing done with
  | nil => rfl
  | cons e rest ih =>
    have ⟨⟨key, value⟩, others⟩ := List.forall_mem_cons.mp parts
    rw [entriesCons, key, value]
    exact ih _ others

/- With something to stand for every mark, it is put in their places and the entries of every
mapping are put in one after the other. -/
theorem expandFill (stands : ∀ m ∈ marks v, StandsFor env m (stand m)) :
    expand env v = .ok (fillWith merge stand v) := by
  induction v using Node.byParts with
  | seq items ih =>
    have parts := expandItemsFill fun item inside =>
      ih item inside (everyMarkSeq.mp stands item inside)
    rw [expand, parts]
    rfl
  | map entries ih =>
    have parts := expandEntriesFill [] fun e inside =>
      have ⟨key, value⟩ := everyMarkMap.mp stands e inside
      ⟨(ih e inside).1 key, (ih e inside).2 value⟩
    rw [expand, parts]
    rfl
  | tagged tag value => exact standsIff.mp (stands ⟨tag, value⟩ (List.mem_singleton_self _))
  | _ => rfl

theorem expandedFill {w : Node} (expanded : expand env v = .ok w) :
    ∃ stand, (∀ m ∈ marks v, StandsFor env m (stand m)) ∧ w = fillWith merge stand v := by
  obtain ⟨stand, stands⟩ := clearStands (expandOkIff.mp ⟨w, expanded⟩)
  exact ⟨stand, stands, Except.ok.inj (expanded.symm.trans (expandFill stands))⟩

theorem putNew {done : List (Node × Node)} {key value : Node}
    (new : ∀ d ∈ done, d.1.same key = false) : putEntry key value done = done ++ [(key, value)] := by
  induction done with
  | nil => rfl
  | cons d rest ih =>
    have ⟨first, others⟩ := List.forall_mem_cons.mp new
    rw [putEntry, first, ih others]
    rfl

theorem mergeOnto {done entries : List (Node × Node)} (apart : Apart (done ++ entries)) :
    entries.foldl (fun done e => putEntry e.1 e.2 done) done = done ++ entries := by
  induction entries generalizing done with
  | nil => exact (List.append_nil done).symm
  | cons e rest ih =>
    have new : ∀ d ∈ done, d.1.same e.1 = false := fun d inside =>
      (List.pairwise_append.mp apart).2.2 d inside e List.mem_cons_self
    rw [List.foldl_cons, putNew new, ih (by simpa using apart), List.append_assoc]
    rfl

theorem mergeApart {entries : List (Node × Node)} (apart : Apart entries) :
    merge entries = entries :=
  show merge entries = [] ++ entries from mergeOnto apart

theorem fillApart (apart : KeysApart stand v) : fillWith merge stand v = fill stand v := by
  induction v using Node.byParts with
  | seq items ih =>
    rw [fillSeq, fillWith, fillItemsMap]
    exact congrArg Node.seq (List.map_congr_left fun item inside =>
      ih item inside (everyMappingSeq.mp apart item inside))
  | map entries ih =>
    obtain ⟨own, parts⟩ := everyMappingMap.mp apart
    have same : fillEntries merge stand entries = entries.map (fillEntry stand) := by
      rw [fillEntriesMap]
      exact List.map_congr_left fun e inside =>
        Prod.ext ((ih e inside).1 (parts e inside).1) ((ih e inside).2 (parts e inside).2)
    rw [fillMap, fillWith, same, mergeApart own]
  | _ => rfl

/- A document without tags is left as it is. The expansion of any other fails if one of its marks
is an offence, with the first of these in the order of the document, and else puts what stands for
every mark in its place. Nothing else is changed, unless keys of one mapping come to be equal. -/
theorem expansionExact (env : Environment) (v : Node) :
    (KeysDiffer v → v.tagFree = true → expand env v = .ok v) ∧
      ((∃ e, expand env v = .error e) ↔ ∃ m ∈ marks v, ∃ e, Offends env m e) ∧
      (∀ e, expand env v = .error e ↔ FirstOffence env (marks v) e) ∧
      ∀ w, expand env v = .ok w →
        ∃ stand, (∀ m ∈ marks v, StandsFor env m (stand m)) ∧
          (KeysApart stand v → w = fill stand v) := by
  refine ⟨fun differ free => ?_, ⟨?_, ?_⟩, fun e => expandErrorIff, fun w expanded => ?_⟩
  · have none : ∀ m ∈ marks v, StandsFor env m .null := fun m inside =>
      (marksFree free m inside).elim
    rw [expandFill none, fillApart (apartFree free differ), fillFree free]
  · rintro ⟨e, failed⟩
    obtain ⟨before, m, after, here, -, offends⟩ := expandErrorIff.mp failed
    exact ⟨m, by simp [here], e, offends⟩
  · rintro ⟨m, inside, e, offends⟩
    cases found : expand env v with
    | error e' => exact ⟨e', rfl⟩
    | ok w => exact absurd offends (expandOkIff.mp ⟨w, found⟩ m inside e)
  · obtain ⟨stand, stands, rfl⟩ := expandedFill expanded
    exact ⟨stand, stands, fillApart⟩

def variableDocument : Node :=
  .map [(.str "log_level", .tagged variableTag (.str " LEVEL  warn ")),
    (.tagged variableTag (.str "COUNT"), .seq [.int 3, .tagged "secret" .null])]

theorem expansionExactUnset :
    KeysDiffer variableDocument ∧
      expand (fun _ => none) variableDocument = .error (.unsetVariable "COUNT") := by
  have valid : KeysDiffer variableDocument := by
    unfold KeysDiffer Apart
    decide
  have asks : Asks " LEVEL  warn " "LEVEL" (some "warn") := asksIff.mpr (by decide)
  have clear : Clear (fun _ => none) [⟨variableTag, .str " LEVEL  warn "⟩] := by
    intro m inside e offends
    cases List.mem_singleton.mp inside
    have stands : StandsFor (fun _ => none) ⟨variableTag, .str " LEVEL  warn "⟩ (reread "warn") :=
      .fallback asks rfl (writtenIff.mpr rfl)
    cases (standsIff.mp stands).symm.trans (offendsIff.mp offends)
  have unset : Asks "COUNT" "COUNT" none := asksIff.mpr (by decide)
  exact ⟨valid, ((expansionExact _ _).2.2.1 _).mpr
    ⟨_, _, [⟨"secret", .null⟩], rfl, clear, .unset unset rfl⟩⟩

end Automation.Settings
