import Mathlib.Data.List.TakeWhile
import Mathlib.Data.List.Basic
import Automation.Settings.Variable
/-! What a value under a tag stands for. A text under the tag of variables asks for a variable by
name, and maybe for a fallback, and stands for the document that is written there. Every other
value under a tag is an offence. Resolving a value comes to exactly that. -/
namespace Automation

namespace Text

def Blank (cs : List Char) : Prop := ∀ c ∈ cs, isBlank c = true

def Solid (cs : List Char) : Prop := ∀ c ∈ cs, isBlank c = false

structure Tight (cs : List Char) : Prop where
  first : ∀ c ∈ cs.head?, isBlank c = false
  last : ∀ c ∈ cs.getLast?, isBlank c = false

variable {lead name gap core trail rest cs : List Char}

theorem solidTight (solid : Solid name) : Tight name :=
  ⟨fun _ here => solid _ (List.mem_of_mem_head? here),
    fun _ here => solid _ (List.mem_of_mem_getLast? here)⟩

theorem dropBlanks (blank : Blank lead) (first : ∀ c ∈ core.head?, isBlank c = false) :
    (lead ++ core).dropWhile isBlank = core := by
  rw [List.dropWhile_append_of_pos blank]
  cases core with
  | nil => rfl
  | cons c cs => exact List.dropWhile_cons_of_neg (by simp [first c rfl])

theorem trimExact (before : Blank lead) (tight : Tight core) (after : Blank trail) :
    trim (lead ++ core ++ trail) = core := by
  have after' : Blank trail.reverse := fun c inside => after c (List.mem_reverse.mp inside)
  unfold trim
  rw [List.append_assoc]
  cases core with
  | nil =>
    have gone : (lead ++ ([] ++ trail)).dropWhile isBlank = [] :=
      List.dropWhile_eq_nil_iff.mpr fun c inside =>
        (List.mem_append.mp inside).elim (before c) (after c)
    rw [gone]
    rfl
  | cons c cs =>
    have first : (lead ++ (c :: cs ++ trail)).dropWhile isBlank = c :: cs ++ trail :=
      dropBlanks before tight.first
    have last : (trail.reverse ++ (c :: cs).reverse).dropWhile isBlank = (c :: cs).reverse :=
      dropBlanks after' (by
        rw [List.head?_reverse]
        exact tight.last)
    rw [first, List.reverse_append, last, List.reverse_reverse]

theorem dropWhileFirst (cs : List Char) : ∀ c ∈ (cs.dropWhile isBlank).head?, isBlank c = false := by
  intro c here
  have stopped := List.head?_dropWhile_not isBlank cs
  rw [Option.mem_def.mp here] at stopped
  exact stopped

theorem tightExists (cs : List Char) :
    ∃ lead core trail, Blank lead ∧ Tight core ∧ Blank trail ∧ cs = lead ++ core ++ trail := by
  let behind := cs.dropWhile isBlank
  let core := (behind.reverse.dropWhile isBlank).reverse
  let trail := (behind.reverse.takeWhile isBlank).reverse
  have parts : behind = core ++ trail := by
    rw [← List.reverse_append, List.takeWhile_append_dropWhile, List.reverse_reverse]
  refine ⟨cs.takeWhile isBlank, core, trail, fun c => List.mem_takeWhile_imp, ⟨?_, ?_⟩, ?_, ?_⟩
  · intro c here
    refine dropWhileFirst cs c ?_
    change c ∈ behind.head?
    rw [parts, List.head?_append, Option.mem_def.mp here]
    rfl
  · rw [List.getLast?_reverse]
    exact dropWhileFirst _
  · exact fun c inside => List.mem_takeWhile_imp (List.mem_reverse.mp inside)
  · rw [List.append_assoc, ← parts]
    exact List.takeWhile_append_dropWhile.symm

theorem splitSolid (solid : Solid name) : splitAtBlank name = none := by
  induction name with
  | nil => rfl
  | cons c cs ih =>
    have ⟨first, others⟩ := List.forall_mem_cons.mp solid
    rw [splitAtBlank, if_neg (by simp [first]), ih others]
    rfl

theorem splitExact (solid : Solid name) {b : Char} (blank : isBlank b = true) :
    splitAtBlank (name ++ b :: rest) = some (name, rest) := by
  induction name with
  | nil => exact if_pos blank
  | cons c cs ih =>
    have ⟨first, others⟩ := List.forall_mem_cons.mp solid
    rw [List.cons_append, splitAtBlank, if_neg (by simp [first]), ih others]
    rfl

theorem solidParts (cs : List Char) :
    Solid cs ∨ ∃ name b rest, Solid name ∧ isBlank b = true ∧ cs = name ++ b :: rest := by
  induction cs with
  | nil => exact .inl fun c inside => nomatch inside
  | cons c cs ih =>
    cases first : isBlank c with
    | true => exact .inr ⟨[], c, cs, (fun d inside => nomatch inside), first, rfl⟩
    | false =>
      rcases ih with solid | ⟨name, b, rest, solid, blank, rfl⟩
      · exact .inl (List.forall_mem_cons.mpr ⟨first, solid⟩)
      · exact .inr ⟨c :: name, b, rest, List.forall_mem_cons.mpr ⟨first, solid⟩, blank, rfl⟩

end Text

namespace Settings
open Automation.Yaml (Node)
open Automation.Text

/- A text asks for the variable of a name, which has no blank in it, and with blanks between them
maybe for a fallback. Blanks around both are no part of either. -/
inductive Asks : String → String → Option String → Prop where
  | name {lead name trail : List Char} (before : Blank lead) (solid : Solid name)
      (after : Blank trail) :
      Asks (.ofList (lead ++ name ++ trail)) (.ofList name) none
  | fallback {lead name gap fallback trail : List Char} (before : Blank lead) (solid : Solid name)
      (named : name ≠ []) (blank : Blank gap) (apart : gap ≠ []) (tight : Tight fallback)
      (given : fallback ≠ []) (after : Blank trail) :
      Asks (.ofList (lead ++ (name ++ gap ++ fallback) ++ trail)) (.ofList name)
        (some (.ofList fallback))

theorem asksRead {body name : String} {fallback : Option String}
    (asks : Asks body name fallback) : nameAndFallback body = (name, fallback) := by
  cases asks with
  | name before solid after =>
    simp only [nameAndFallback, String.toList_ofList, trimExact before (solidTight solid) after,
      splitSolid solid]
  | @fallback lead name gap fallback trail before solid named blank apart tight given after =>
    obtain ⟨c, name', rfl⟩ := List.exists_cons_of_ne_nil named
    obtain ⟨b, gap', rfl⟩ := List.exists_cons_of_ne_nil apart
    have ⟨first, later⟩ := List.forall_mem_cons.mp blank
    have whole : Tight (c :: name' ++ b :: gap' ++ fallback) := by
      refine ⟨(solidTight solid).first, ?_⟩
      rw [List.getLast?_append_of_ne_nil _ given]
      exact tight.last
    have nothing : Blank [] := fun c inside => nomatch inside
    have behind : trim (gap' ++ fallback) = fallback := by
      simpa using trimExact later tight nothing
    simp only [nameAndFallback, String.toList_ofList, trimExact before whole after]
    rw [List.append_assoc, List.cons_append (a := b), splitExact solid first]
    simp only [behind]

theorem asksExists (body : String) : ∃ name fallback, Asks body name fallback := by
  obtain ⟨lead, core, trail, before, tight, after, parts⟩ := tightExists body.toList
  rw [← String.ofList_toList (s := body), parts]
  rcases solidParts core with solid | ⟨name, b, rest, solid, blank, rfl⟩
  · exact ⟨_, _, .name before solid after⟩
  · have named : name ≠ [] := by
      rintro rfl
      simpa [blank] using tight.first b rfl
    have blanks : Blank (b :: rest.takeWhile isBlank) :=
      List.forall_mem_cons.mpr ⟨blank, fun c => List.mem_takeWhile_imp⟩
    have whole : name ++ b :: rest =
        name ++ (b :: rest.takeWhile isBlank) ++ rest.dropWhile isBlank := by
      simp
    rw [whole] at tight ⊢
    -- A text that ends in a blank is not tight, so there is something behind the gap.
    have given : rest.dropWhile isBlank ≠ [] := by
      intro none
      have last := tight.last
      rw [none, List.append_nil, List.getLast?_append_of_ne_nil _ (List.cons_ne_nil _ _)] at last
      have ends := last _ (List.getLast?_eq_some_getLast (List.cons_ne_nil b _))
      rw [blanks _ (List.getLast_mem _)] at ends
      cases ends
    have last := tight.last
    rw [List.getLast?_append_of_ne_nil _ given] at last
    exact ⟨_, _, .fallback before solid named blanks (List.cons_ne_nil _ _)
      ⟨dropWhileFirst rest, last⟩ given after⟩

theorem asksIff {body name : String} {fallback : Option String} :
    Asks body name fallback ↔ nameAndFallback body = (name, fallback) := by
  refine ⟨asksRead, fun read => ?_⟩
  obtain ⟨name', fallback', asks⟩ := asksExists body
  cases (asksRead asks).symm.trans read
  exact asks

inductive Written : String → Node → Prop where
  | document {text node} (read : Node.read text = .ok node) : Written text node
  | text {text fault} (refused : Node.read text = .error fault) : Written text (.str text)

theorem writtenIff {text : String} {node : Node} : Written text node ↔ reread text = node := by
  unfold reread
  constructor
  · rintro (read | refused)
    · rw [read]
    · rw [refused]
  · rintro rfl
    cases found : Node.read text with
    | ok node => exact .document found
    | error fault => exact .text found

structure Mark where
  tag : String
  value : Node

inductive StandsFor (env : Environment) : Mark → Node → Prop where
  | value {body name fallback text node} (asks : Asks body name fallback)
      (set : env name = some text) (written : Written text node) :
      StandsFor env ⟨variableTag, .str body⟩ node
  | fallback {body name text node} (asks : Asks body name (some text))
      (unset : env name = none) (written : Written text node) :
      StandsFor env ⟨variableTag, .str body⟩ node

inductive Offends (env : Environment) : Mark → SettingsError → Prop where
  | foreign {tag value} (other : tag ≠ variableTag) :
      Offends env ⟨tag, value⟩ (.unknownTag ("!" ++ tag))
  | shapeless {value} (noText : ∀ body, value ≠ .str body) :
      Offends env ⟨variableTag, value⟩
        (.invalidValue ("!" ++ variableTag) "expected `NAME` or `NAME fallback`")
  | unset {body name} (asks : Asks body name none) (unset : env name = none) :
      Offends env ⟨variableTag, .str body⟩ (.unsetVariable name)

def Mark.resolve (env : Environment) (m : Mark) : Except SettingsError Node :=
  resolveTagged env m.tag m.value

variable {env : Environment} {m : Mark}

theorem resolveText (body : String) :
    Mark.resolve env ⟨variableTag, .str body⟩ = substitute env body := rfl

theorem resolveShapeless {value : Node} (noText : ∀ body, value ≠ .str body) :
    Mark.resolve env ⟨variableTag, value⟩ =
      .error (.invalidValue ("!" ++ variableTag) "expected `NAME` or `NAME fallback`") := by
  cases value with
  | str body => exact absurd rfl (noText body)
  | _ => rfl

theorem resolveForeign {tag : String} (other : tag ≠ variableTag) (value : Node) :
    Mark.resolve env ⟨tag, value⟩ = .error (.unknownTag ("!" ++ tag)) :=
  if_pos (bne_iff_ne.mpr other)

theorem substituteAsks {body name : String} {fallback : Option String}
    (asks : Asks body name fallback) :
    substitute env body = ((env name).or fallback).elim (.error (.unsetVariable name))
      fun text => .ok (reread text) := by
  simp only [substitute, asksRead asks]
  cases (env name).or fallback <;> rfl

theorem resolves (env : Environment) (m : Mark) :
    (∃ node, StandsFor env m node ∧ m.resolve env = .ok node) ∨
      ∃ e, Offends env m e ∧ m.resolve env = .error e := by
  obtain ⟨tag, value⟩ := m
  by_cases other : tag = variableTag
  · subst other
    by_cases text : ∃ body, value = .str body
    · obtain ⟨body, rfl⟩ := text
      obtain ⟨name, fallback, asks⟩ := asksExists body
      rw [resolveText, substituteAsks asks]
      cases set : env name with
      | some text => exact .inl ⟨_, .value asks set (writtenIff.mpr rfl), rfl⟩
      | none =>
        cases fallback with
        | some text => exact .inl ⟨_, .fallback asks set (writtenIff.mpr rfl), rfl⟩
        | none => exact .inr ⟨_, .unset asks set, rfl⟩
    · have noText : ∀ body, value ≠ .str body := not_exists.mp text
      exact .inr ⟨_, .shapeless noText, resolveShapeless noText⟩
  · exact .inr ⟨_, .foreign other, resolveForeign other value⟩

theorem standsResolved {node : Node} (stands : StandsFor env m node) :
    m.resolve env = .ok node := by
  cases stands with
  | value asks set written =>
    rw [resolveText, substituteAsks asks, set, ← writtenIff.mp written]
    rfl
  | fallback asks unset written =>
    rw [resolveText, substituteAsks asks, unset, ← writtenIff.mp written]
    rfl

theorem offendsResolved {e : SettingsError} (offends : Offends env m e) :
    m.resolve env = .error e := by
  cases offends with
  | foreign other => exact resolveForeign other _
  | shapeless noText => exact resolveShapeless noText
  | unset asks unset =>
    rw [resolveText, substituteAsks asks, unset]
    rfl

theorem standsIff {node : Node} : StandsFor env m node ↔ m.resolve env = .ok node := by
  refine ⟨standsResolved, fun resolved => ?_⟩
  rcases resolves env m with ⟨node', stands, same⟩ | ⟨e, -, same⟩
  · cases same.symm.trans resolved
    exact stands
  · cases same.symm.trans resolved

theorem offendsIff {e : SettingsError} : Offends env m e ↔ m.resolve env = .error e := by
  refine ⟨offendsResolved, fun resolved => ?_⟩
  rcases resolves env m with ⟨node, -, same⟩ | ⟨e', offends, same⟩
  · cases same.symm.trans resolved
  · cases same.symm.trans resolved
    exact offends

end Settings
end Automation
