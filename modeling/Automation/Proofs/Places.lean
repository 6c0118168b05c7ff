import Automation.Proofs.Chronicle
/-! Where the entries of a chronicle stand. Every entry is about one node, and all there is about
that node and those below it stands together: it is a chronicle of the node, at the target that
the flow nearest around it has chosen. -/
namespace Automation

namespace Entry

def path : Entry → List Nat
  | notice _ _ path _ _ | selected path _ | checking path _ | checked path _ | performing path _
  | performed path _ | released path _ => path

def skips : Entry → Bool
  | notice _ phase _ _ _ => phase == .skipped
  | _ => false

end Entry

namespace Applet

def chooses : Applet → Bool
  | flow _ spec _ => spec.selector.isSome
  | _ => false

def chooser? : Applet → List Nat → Option (List Nat)
  | flow _ spec children, k :: path =>
    match (children[k]?).bind (chooser? · path) with
    | some q => some (k :: q)
    | none => if spec.selector.isSome then some [] else none
  | _, _ => none

/- The target for the node at path `q`, as the journal has it: what that flow has chosen, and the
target of the tree if there is none. The tree itself stands at `path`. -/
def Aims (a : Applet) (target : Option Json) (path : List Nat) (journal : Journal) (q : List Nat)
    (aim : Option Json) : Prop :=
  match a.chooser? q with
  | some c => ∃ v, .selected (path ++ c) v ∈ journal ∧ aim = some v
  | none => aim = target

theorem chooserNearest (a : Applet) (path : List Nat) :
    a.chooser? path = path.inits.dropLast.reverse.find? fun q => (a.at? q).any chooses := by
  induction path generalizing a with
  | nil => cases a <;> rfl
  | cons k path ih =>
    have inner : path.inits.dropLast.reverse.find? ((fun q => (a.at? q).any chooses) ∘ (k :: ·)) =
        (a.children[k]?).bind (chooser? · path) := by
      have deeper : (fun q => (a.at? q).any chooses) ∘ (k :: ·) =
          fun q => ((a.children[k]?).bind (at? q)).any chooses := rfl
      rw [deeper]
      cases a.children[k]? with
      | none => simp
      | some child => exact (ih child).symm
    rw [List.inits_cons, List.dropLast_cons_of_ne_nil (by cases path <;> simp), ← List.map_dropLast,
      List.reverse_cons, List.find?_append, ← List.map_reverse, List.find?_map, inner]
    cases a with
    | flow info spec cs =>
      rw [chooser?, Applet.children]
      cases (cs[k]?).bind (chooser? · path) with
      | some q => rfl
      | none => cases selector : spec.selector <;> simp [at?, chooses, selector]
    | _ => rfl

end Applet

section
variable {path : List Nat} {a : Applet} {run : Run} {batch : Batch} {r : Option AppletResult}
  {part : Journal} {e : Entry}

theorem deedPath (deed : Deed path run batch a part r) (inside : e ∈ part) : e.path = path := by
  cases deed <;> simp at inside <;> rcases inside with rfl | rfl <;> rfl

theorem deedChecking {input : CheckInput} (deed : Deed path run batch a part r)
    (inside : .checking path input ∈ part) :
    input.applet = a.info ∧ input.target = run.slate.target ∧
      run.expected? a.info = some input.expected ∧ ∃ rest, part = .checking path input :: rest := by
  cases deed with
  | checking found | checked found =>
    simp only [List.mem_cons, Entry.checking.injEq, true_and, reduceCtorEq, List.not_mem_nil,
      or_false] at inside
    subst inside
    exact ⟨rfl, rfl, found, _, rfl⟩
  | _ => simp at inside

theorem deedPerforming {input : ActionInput} (deed : Deed path run batch a part r)
    (inside : .performing path input ∈ part) :
    input.applet = a.info ∧ input.target = run.slate.target ∧
      input.args = run.arguments a.info ∧ ∃ rest, part = .performing path input :: rest := by
  cases deed with
  | performing | performed =>
    simp only [List.mem_cons, Entry.performing.injEq, true_and, reduceCtorEq, List.not_mem_nil,
      or_false] at inside
    subst inside
    exact ⟨rfl, rfl, rfl, _, rfl⟩
  | _ => simp at inside

variable {target inside' : Option Json} {info : AppletInfo} {spec : FlowSpec} {opening : Journal}

theorem opensPath (opens : Opens target path info spec opening inside') (inside : e ∈ opening) :
    e.path = path ∧ e.skips = false := by
  cases opens <;> simp at inside
  · subst inside
    exact ⟨rfl, rfl⟩
  · rcases inside with rfl | rfl <;> exact ⟨rfl, rfl⟩

end

theorem chaptersWithin {target path last i children part out}
    (within : ∀ c ∈ children, ∀ target path part r, Chronicle target path c part r →
      ∀ e ∈ part, path <+: e.path)
    (chapters : Chapters target path last i children part out) {e : Entry} (inside : e ∈ part) :
    ∃ k, i ≤ k ∧ path ++ [k] <+: e.path := by
  induction children generalizing last i part with
  | nil => cases chapters <;> simp at inside
  | cons child rest ih =>
    have behind {last part} (chapters : Chapters target path last (i + 1) rest part out)
        (inside : e ∈ part) : ∃ k, i ≤ k ∧ path ++ [k] <+: e.path := by
      obtain ⟨k, low, below⟩ := ih (fun c inside => within c (List.mem_cons_of_mem child inside))
        chapters inside
      exact ⟨k, by omega, below⟩
    have here {front r} (inner : Chronicle target (path ++ [i]) child front r)
        (inside : e ∈ front) : ∃ k, i ≤ k ∧ path ++ [k] <+: e.path :=
      ⟨i, Nat.le_refl i, within child List.mem_cons_self _ _ _ _ inner e inside⟩
    cases chapters with
    | ahead => simp at inside
    | skipped later =>
      rcases List.mem_cons.mp inside with rfl | inside
      · exact ⟨i, Nat.le_refl i, List.prefix_rfl⟩
      · exact behind later inside
    | visiting inner => exact here inner inside
    | visited inner later =>
      rcases List.mem_append.mp inside with inside | inside
      · exact here inner inside
      · exact behind later inside

theorem chronicleWithin {target path a part r} (chronicle : Chronicle target path a part r) :
    ∀ e ∈ part, path <+: e.path := by
  induction a using Applet.byChildren generalizing target path part r with
  | criterion info check | action info action | wait info wait =>
    intro e inside
    cases chronicle with
    | ahead => simp at inside
    | leafOpen started deed =>
      rcases List.mem_cons.mp inside with rfl | inside
      · exact List.prefix_rfl
      · rw [deedPath deed inside]
    | leaf started deed ended =>
      simp only [List.cons_append, List.mem_cons, List.mem_append, List.not_mem_nil, or_false]
        at inside
      rcases inside with rfl | inside | rfl
      · exact List.prefix_rfl
      · rw [deedPath deed inside]
      · exact List.prefix_rfl
  | flow info spec children ih =>
    have inner {target last i part out} (chapters : Chapters target path last i children part out)
        (e : Entry) (inside : e ∈ part) : path <+: e.path := by
      obtain ⟨k, -, below⟩ := chaptersWithin
        (fun c inside target path part r chronicle => ih c inside chronicle) chapters inside
      exact (List.prefix_append path [k]).trans below
    have opened {target opening inside part} (opens : Opens target path info spec opening inside)
        (inner : ∀ e ∈ part, path <+: e.path) : ∀ e ∈ opening ++ part, path <+: e.path := by
      refine List.forall_mem_append.mpr ⟨fun e inside => ?_, inner⟩
      rw [(opensPath opens inside).1]
    cases chronicle with
    | ahead => simp
    | leafOpen started deed | leaf started deed ended => cases deed
    | unavailable started selector missing skips ended =>
      refine List.forall_mem_append.mpr ⟨List.forall_mem_cons.mpr ⟨List.prefix_rfl, ?_⟩, ?_⟩
      · exact inner skips
      · simp [Entry.path]
    | flowOpen opens chapters => exact opened opens (inner chapters)
    | flow opens chapters ended =>
      refine List.forall_mem_append.mpr ⟨opened opens (inner chapters), ?_⟩
      simp [Entry.path]

theorem chaptersBelow {target path last i children part out}
    (chapters : Chapters target path last i children part out) {e : Entry} (inside : e ∈ part) :
    ∃ k, i ≤ k ∧ path ++ [k] <+: e.path :=
  chaptersWithin (fun _ _ _ _ _ _ chronicle => chronicleWithin chronicle) chapters inside

/- All that the journal holds of the node at this path and those below it is `part`, and stands
together. -/
def Journal.Owns (journal : Journal) (path : List Nat) (part : Journal) : Prop :=
  ∃ before after, journal = before ++ part ++ after ∧ ∀ e ∈ before ++ after, ¬ path <+: e.path

section
variable {journal part front back mid : Journal} {path q : List Nat} {e : Entry}

theorem ownsAll (journal : Journal) (path : List Nat) : journal.Owns path journal :=
  ⟨[], [], by simp, by simp⟩

theorem ownsBehind (owns : journal.Owns path part) (other : ∀ e ∈ front, ¬ path <+: e.path) :
    (front ++ journal).Owns path part := by
  obtain ⟨before, after, rfl, apart⟩ := owns
  refine ⟨front ++ before, after, by simp, ?_⟩
  rw [List.append_assoc]
  exact List.forall_mem_append.mpr ⟨other, apart⟩

theorem ownsBefore (owns : journal.Owns path part) (other : ∀ e ∈ back, ¬ path <+: e.path) :
    (journal ++ back).Owns path part := by
  obtain ⟨before, after, rfl, apart⟩ := owns
  refine ⟨before, after ++ back, by simp, ?_⟩
  rw [← List.append_assoc]
  exact List.forall_mem_append.mpr ⟨apart, other⟩

theorem ownsTrans (first : journal.Owns path mid) (second : mid.Owns q part) (below : path <+: q) :
    journal.Owns q part := by
  obtain ⟨before, after, rfl, apart⟩ := first
  rw [List.forall_mem_append] at apart
  refine ownsBefore (ownsBehind second fun e inside under => ?_) fun e inside under => ?_
  · exact apart.1 e inside (below.trans under)
  · exact apart.2 e inside (below.trans under)

theorem ownsInfix (owns : journal.Owns path part) : part <:+: journal := by
  obtain ⟨before, after, rfl, -⟩ := owns
  exact ⟨before, after, rfl⟩

end

structure Noted (target : Option Json) (path : List Nat) (i : Nat) (children : List Applet)
    (journal : Journal) (k : Nat) (child : Applet) (part : Journal) : Prop where
  found : children[k]? = some child
  owns : journal.Owns (path ++ [i + k]) part
  what : (∃ heard run, part = [.notice heard .skipped (path ++ [i + k]) child.info run]) ∨
    ∃ r, Chronicle target (path ++ [i + k]) child part r

section
variable {target : Option Json} {path : List Nat} {i k : Nat} {child c : Applet}
  {children rest : List Applet} {front journal part : Journal} {last : Option AppletResult}
  {out : Option (Option AppletResult)} {e : Entry}

theorem notedBehind (own : ∀ e ∈ front, path ++ [i] <+: e.path)
    (noted : Noted target path (i + 1) rest journal k c part) :
    Noted target path i (child :: rest) (front ++ journal) (k + 1) c part := by
  have place : i + (k + 1) = i + 1 + k := by omega
  refine ⟨noted.found, ?_, by rw [place]; exact noted.what⟩
  rw [place]
  refine ownsBehind noted.owns fun e inside below => ?_
  have same := childrenApart below (own e inside)
  omega

theorem notedFirst (chapters : Chapters target path last (i + 1) rest journal out)
    (what : (∃ heard run, front = [.notice heard .skipped (path ++ [i]) child.info run]) ∨
      ∃ r, Chronicle target (path ++ [i]) child front r) :
    Noted target path i (child :: rest) (front ++ journal) 0 child front := by
  refine ⟨rfl, ownsBefore (ownsAll _ _) fun e inside below => ?_, what⟩
  obtain ⟨j, low, below'⟩ := chaptersBelow chapters inside
  have same := childrenApart below below'
  omega

theorem chaptersOwn (chapters : Chapters target path last i children journal out)
    (inside : e ∈ journal) :
    ∃ k child part, Noted target path i children journal k child part ∧ e ∈ part := by
  induction children generalizing last i journal with
  | nil => cases chapters <;> simp at inside
  | cons child rest ih =>
    cases chapters with
    | ahead => simp at inside
    | @skipped _ _ _ _ _ _ journal _ heard run later =>
      rw [← List.singleton_append] at inside ⊢
      rcases List.mem_append.mp inside with inside | inside
      · exact ⟨0, child, _, notedFirst later (.inl ⟨heard, run, rfl⟩), inside⟩
      · obtain ⟨k, c, part, noted, here⟩ := ih later inside
        refine ⟨k + 1, c, part, notedBehind (List.forall_mem_singleton.mpr ?_) noted, here⟩
        exact List.prefix_rfl
    | visiting inner =>
      exact ⟨0, child, _, ⟨rfl, ownsAll _ _, .inr ⟨none, inner⟩⟩, inside⟩
    | visited inner later =>
      rcases List.mem_append.mp inside with inside | inside
      · exact ⟨0, child, _, notedFirst later (.inr ⟨_, inner⟩), inside⟩
      · obtain ⟨k, c, part, noted, here⟩ := ih later inside
        exact ⟨k + 1, c, part, notedBehind (chronicleWithin inner) noted, here⟩

end

theorem chaptersLast {target path r i children part last}
    (chapters : Chapters target path (some r) i children part (some last)) : last ≠ none := by
  induction children generalizing r i part with
  | nil =>
    cases chapters
    simp
  | cons child rest ih =>
    cases chapters with
    | skipped later => exact ih later
    | visited inner later => exact ih later

theorem chaptersSkips {target path i children part}
    (chapters : Chapters target path none i children part (some none)) :
    ∀ e ∈ part, e.skips = true := by
  induction children generalizing i part with
  | nil =>
    cases chapters
    simp
  | cons child rest ih =>
    cases chapters with
    | skipped later => exact List.forall_mem_cons.mpr ⟨rfl, ih later⟩
    | visited inner later => exact absurd rfl (chaptersLast later)

structure Located (target : Option Json) (path : List Nat) (a : Applet) (journal : Journal)
    (q : List Nat) (b : Applet) (inside : Option Json) (part : Journal)
    (r : Option AppletResult) : Prop where
  located : a.at? q = some b
  owns : journal.Owns (path ++ q) part
  chronicle : Chronicle inside (path ++ q) b part r
  scope : a.Aims target path journal q inside

theorem locatedHere {target path a journal r} (chronicle : Chronicle target path a journal r) :
    Located target path a journal [] a target journal r where
  located := rfl
  owns := ownsAll _ _
  chronicle := by rwa [List.append_nil]
  scope := by cases a <;> rfl

theorem locatedOwn {target path a journal r} (chronicle : Chronicle target path a journal r)
    {e : Entry} (inside : e ∈ journal) (own : e.path = path) :
    ∃ q b aim part r', e.path = path ++ q ∧ e ∈ part ∧
      Located target path a journal q b aim part r' :=
  ⟨[], a, target, journal, r, by rw [own, List.append_nil], inside, locatedHere chronicle⟩

theorem locatedUp {target inside aim : Option Json} {path : List Nat} {info : AppletInfo}
    {spec : FlowSpec} {children : List Applet} {opening part ending mid own : Journal} {k : Nat}
    {child b : Applet} {q : List Nat} {r : Option AppletResult}
    (opens : Opens target path info spec opening inside) (found : children[k]? = some child)
    (owns : part.Owns (path ++ [k]) mid) (last : ∀ e ∈ ending, e.path = path)
    (low : Located inside (path ++ [k]) child mid q b aim own r) :
    Located target path (.flow info spec children) (opening ++ part ++ ending) (k :: q) b aim own
      r := by
  have deeper : path ++ k :: q = path ++ [k] ++ q := by simp
  have apart (e : Entry) (here : e.path = path) : ¬ path ++ [k] <+: e.path := by
    rw [here]
    exact fun below => childBelow below rfl
  have whole : (opening ++ part ++ ending).Owns (path ++ [k]) mid :=
    ownsBefore (ownsBehind owns fun e inside => apart e (opensPath opens inside).1)
      fun e inside => apart e (last e inside)
  constructor
  · rw [Applet.at?, Applet.children, found]
    exact low.located
  · rw [deeper]
    exact ownsTrans whole low.owns (List.prefix_append _ _)
  · rw [deeper]
    exact low.chronicle
  · have scope := low.scope
    unfold Applet.Aims at scope ⊢
    rw [Applet.chooser?, found, Option.bind_some]
    cases chooser : child.chooser? q with
    | some c =>
      rw [chooser] at scope
      obtain ⟨v, selected, same⟩ := scope
      refine ⟨v, ?_, same⟩
      rw [List.append_assoc] at selected
      exact (ownsInfix whole).subset selected
    | none =>
      rw [chooser] at scope
      cases opens with
      | plain started plain =>
        rw [plain]
        exact scope
      | chosen started selector selected =>
        rw [selector]
        exact ⟨_, by simp, scope⟩

theorem chronicleLocated {target path a journal r} (chronicle : Chronicle target path a journal r)
    {e : Entry} (inside : e ∈ journal) (told : e.skips = false) :
    ∃ q b aim own r', e.path = path ++ q ∧ e ∈ own ∧
      Located target path a journal q b aim own r' := by
  induction a using Applet.byChildren generalizing target path journal r with
  | criterion info check | action info action | wait info wait =>
    refine locatedOwn chronicle inside ?_
    cases chronicle with
    | ahead => simp at inside
    | leafOpen started deed =>
      rcases List.mem_cons.mp inside with rfl | inside
      · rfl
      · exact deedPath deed inside
    | leaf started deed ended =>
      simp only [List.cons_append, List.mem_cons, List.mem_append, List.not_mem_nil, or_false]
        at inside
      rcases inside with rfl | inside | rfl
      · rfl
      · exact deedPath deed inside
      · rfl
  | flow info spec children ih =>
    -- An entry of one of the children, of which the flow has noted `part`.
    have inner {aim last opening part ending out} (opens : Opens target path info spec opening aim)
        (chapters : Chapters aim path last 0 children part out)
        (ends : ∀ e ∈ ending, e.path = path) (whole : journal = opening ++ part ++ ending)
        (within : e ∈ part) : ∃ q b aim own r', e.path = path ++ q ∧ e ∈ own ∧
          Located target path (.flow info spec children) journal q b aim own r' := by
      obtain ⟨k, child, mid, ⟨found, owns, what⟩, within⟩ := chaptersOwn chapters within
      rw [Nat.zero_add] at owns what
      rcases what with ⟨heard, run, rfl⟩ | ⟨r', lower⟩
      · rw [List.mem_singleton.mp within] at told
        cases told
      · obtain ⟨q, b, aim', own, r'', same, held, low⟩ :=
          ih child (List.mem_of_getElem? found) lower within
        refine ⟨k :: q, b, aim', own, r'', by simp [same], held, ?_⟩
        rw [whole]
        exact locatedUp opens found owns ends low
    have here := locatedOwn chronicle inside
    cases chronicle with
    | ahead => simp at inside
    | leafOpen started deed | leaf started deed ended => cases deed
    | unavailable started selector missing skips ended =>
      simp only [List.cons_append, List.mem_cons, List.mem_append, List.not_mem_nil, or_false]
        at inside
      rcases inside with rfl | inside | rfl
      · exact here rfl
      · rw [chaptersSkips skips e inside] at told
        cases told
      · exact here rfl
    | flowOpen opens chapters =>
      rcases List.mem_append.mp inside with inside | inside
      · exact here (opensPath opens inside).1
      · exact inner opens chapters (by simp) (List.append_nil _).symm inside
    | flow opens chapters ended =>
      rw [List.append_assoc, List.mem_append, List.mem_append] at inside
      rcases inside with inside | inside | inside
      · exact here (opensPath opens inside).1
      · exact inner opens chapters (by simp [Entry.path]) rfl inside
      · obtain rfl := List.mem_singleton.mp inside
        exact here rfl

inductive Own (target : Option Json) (path : List Nat) (a : Applet) (journal : Journal)
    (r : Option AppletResult) : Entry → Prop where
  | started {heard run rest} (shape : journal = .notice heard .started path a.info run :: rest)
      (aims : run.slate.target = target) :
      Own target path a journal r (.notice heard .started path a.info run)
  | ended {heard run result} (ended : Ended target result run) (last : r = some result) :
      Own target path a journal r (.notice heard .terminated path a.info run)
  | selected {info spec children heard run select v rest} (flow : a = .flow info spec children)
      (selector : spec.selector = some select) (chosen : select run.batch = some v)
      (shape : journal = .notice heard .started path info run :: .selected path v :: rest) :
      Own target path a journal r (.selected path v)
  | deed {e heard run batch part out rest}
      (shape : journal = .notice heard .started path a.info run :: part ++ rest)
      (aims : run.slate.target = target) (deed : Deed path run batch a part out)
      (inside : e ∈ part) : Own target path a journal r e

theorem opensOwn {target inside : Option Json} {path : List Nat} {info : AppletInfo}
    {spec : FlowSpec} {opening : Journal} (opens : Opens target path info spec opening inside)
    {e : Entry} (within : e ∈ opening) (children : List Applet) (rest : Journal)
    (r : Option AppletResult) :
    Own target path (.flow info spec children) (opening ++ rest) r e := by
  cases opens with
  | plain started plain =>
    obtain rfl := List.mem_singleton.mp within
    exact .started rfl started
  | chosen started selector selected =>
    simp only [List.mem_cons, List.not_mem_nil, or_false] at within
    rcases within with rfl | rfl
    · exact .started rfl started
    · exact .selected rfl selector selected rfl

theorem chronicleOwn {target path a journal r} (chronicle : Chronicle target path a journal r)
    {e : Entry} (inside : e ∈ journal) (own : e.path = path) : Own target path a journal r e := by
  have deeper {target last i children part out}
      (chapters : Chapters target path last i children part out) : e ∉ part := by
    intro inside
    obtain ⟨k, -, below⟩ := chaptersBelow chapters inside
    exact childBelow below own
  cases chronicle with
  | ahead => simp at inside
  | leafOpen started deed =>
    rcases List.mem_cons.mp inside with rfl | inside
    · exact .started rfl started
    · exact .deed (List.append_nil _).symm started deed inside
  | leaf started deed ended =>
    simp only [List.cons_append, List.mem_cons, List.mem_append, List.not_mem_nil, or_false]
      at inside
    rcases inside with rfl | inside | rfl
    · exact .started rfl started
    · exact .deed rfl started deed inside
    · exact .ended ended rfl
  | unavailable started selector missing skips ended =>
    simp only [List.cons_append, List.mem_cons, List.mem_append, List.not_mem_nil, or_false,
      deeper skips, false_or] at inside
    rcases inside with rfl | rfl
    · exact .started rfl started
    · exact .ended ended rfl
  | flowOpen opens chapters =>
    simp only [List.mem_append, deeper chapters, or_false] at inside
    exact opensOwn opens inside _ _ _
  | flow opens chapters ended =>
    simp only [List.mem_append, deeper chapters, or_false, List.mem_singleton] at inside
    rcases inside with inside | rfl
    · rw [List.append_assoc]
      exact opensOwn opens inside _ _ _
    · exact .ended ended rfl

namespace Entry

inductive What where
  | told (phase : Phase)
  | selected
  | checking
  | checked
  | performing
  | performed
  | released
  deriving DecidableEq, Repr

def what : Entry → What
  | notice _ phase _ _ _ => .told phase
  | selected .. => .selected
  | checking .. => .checking
  | checked .. => .checked
  | performing .. => .performing
  | performed .. => .performed
  | released .. => .released

def Differs (e e' : Entry) : Prop := e.what ≠ e'.what ∨ e.path ≠ e'.path

end Entry

theorem deedUnique {path run batch a part r} (deed : Deed path run batch a part r) :
    part.Pairwise Entry.Differs ∧ ∀ e ∈ part, ∀ phase, e.what ≠ .told phase := by
  cases deed <;> simp [Entry.Differs, Entry.what]

theorem differsBelow {path : List Nat} {e e' : Entry} (own : e.path = path)
    (deeper : ∃ k, path ++ [k] <+: e'.path) : e.Differs e' ∧ e'.Differs e := by
  obtain ⟨k, below⟩ := deeper
  have other := childBelow below
  exact ⟨.inr fun same => other (same ▸ own), .inr fun same => other (same.trans own)⟩

theorem uniqueAround {path : List Nat} {part : Journal} (front back : Journal)
    (first : (front ++ back).Pairwise Entry.Differs) (own : ∀ e ∈ front ++ back, e.path = path)
    (inner : part.Pairwise Entry.Differs) (deeper : ∀ e ∈ part, ∃ k, path ++ [k] <+: e.path) :
    (front ++ part ++ back).Pairwise Entry.Differs := by
  rw [List.pairwise_append] at first
  rw [List.forall_mem_append] at own
  obtain ⟨front', back', across⟩ := first
  refine List.pairwise_append.mpr ⟨List.pairwise_append.mpr ⟨front', inner, ?_⟩, back', ?_⟩
  · exact fun e here e' inside => (differsBelow (own.1 e here) (deeper e' inside)).1
  · intro e inside e' behind
    rcases List.mem_append.mp inside with here | inside
    · exact across e here e' behind
    · exact (differsBelow (own.2 e' behind) (deeper e inside)).2

theorem chaptersUnique {target path last i children part out}
    (unique : ∀ c ∈ children, ∀ target path part r, Chronicle target path c part r →
      part.Pairwise Entry.Differs)
    (chapters : Chapters target path last i children part out) : part.Pairwise Entry.Differs := by
  induction children generalizing last i part with
  | nil => cases chapters <;> simp
  | cons child rest ih =>
    have later {last part} (chapters : Chapters target path last (i + 1) rest part out) :
        part.Pairwise Entry.Differs :=
      ih (fun c inside => unique c (List.mem_cons_of_mem child inside)) chapters
    have here {front r} (inner : Chronicle target (path ++ [i]) child front r) :
        front.Pairwise Entry.Differs := unique child List.mem_cons_self _ _ _ _ inner
    have apart {last part} (chapters : Chapters target path last (i + 1) rest part out)
        {e e' : Entry} (below : path ++ [i] <+: e.path) (inside : e' ∈ part) : e.Differs e' := by
      obtain ⟨k, low, below'⟩ := chaptersBelow chapters inside
      refine .inr fun same => ?_
      have equal := childrenApart (same ▸ below) below'
      omega
    cases chapters with
    | ahead => simp
    | skipped chapters =>
      exact List.pairwise_cons.mpr ⟨fun e' => apart chapters List.prefix_rfl, later chapters⟩
    | visiting inner => exact here inner
    | visited inner chapters =>
      refine List.pairwise_append.mpr ⟨here inner, later chapters, fun e inside e' => ?_⟩
      exact apart chapters (chronicleWithin inner e inside)

theorem chronicleUnique {target path a journal r} (chronicle : Chronicle target path a journal r) :
    journal.Pairwise Entry.Differs := by
  induction a using Applet.byChildren generalizing target path journal r with
  | criterion info check | action info action | wait info wait =>
    cases chronicle with
    | ahead => simp
    | leafOpen started deed =>
      obtain ⟨unique, silent⟩ := deedUnique deed
      exact List.pairwise_cons.mpr ⟨fun e inside => .inl (silent e inside .started).symm, unique⟩
    | leaf started deed ended =>
      obtain ⟨unique, silent⟩ := deedUnique deed
      refine List.pairwise_append.mpr ⟨List.pairwise_cons.mpr
        ⟨fun e inside => .inl (silent e inside .started).symm, unique⟩, by simp, ?_⟩
      simp only [List.mem_cons, List.not_mem_nil, or_false]
      rintro e (rfl | inside) e' rfl
      · exact .inl (by simp [Entry.what])
      · exact .inl (silent e inside .terminated)
  | flow info spec children ih =>
    have inner {target last part out} (chapters : Chapters target path last 0 children part out) :=
      chaptersUnique (fun c inside target path part r chronicle => ih c inside chronicle) chapters
    have deeper {target last part out} (chapters : Chapters target path last 0 children part out)
        (e : Entry) (inside : e ∈ part) : ∃ k, path ++ [k] <+: e.path := by
      obtain ⟨k, -, below⟩ := chaptersBelow chapters inside
      exact ⟨k, below⟩
    cases chronicle with
    | ahead => simp
    | leafOpen started deed | leaf started deed ended => cases deed
    | unavailable started selector missing skips ended =>
      refine uniqueAround [_] [_] ?_ ?_ (inner skips) (deeper skips)
      · simp [Entry.Differs, Entry.what]
      · simp [Entry.path]
    | flowOpen opens chapters =>
      rw [← List.append_nil (_ ++ _)]
      refine uniqueAround _ [] ?_ ?_ (inner chapters) (deeper chapters)
      · cases opens <;> simp [Entry.Differs, Entry.what]
      · cases opens <;> simp [Entry.path]
    | flow opens chapters ended =>
      refine uniqueAround _ [_] ?_ ?_ (inner chapters) (deeper chapters)
      · cases opens <;> simp [Entry.Differs, Entry.what]
      · cases opens <;> simp [Entry.path]

end Automation
