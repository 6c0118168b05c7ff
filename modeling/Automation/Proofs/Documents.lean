import Automation.Proofs.Marks
/-! What is read from texts. A document with two equal keys in a mapping is refused while it is
read, so in every document that there is the keys of each mapping differ. -/
namespace Automation

def Gives {ε α : Type} (P : α → Prop) (x : Except ε α) : Prop := ∀ a, x = .ok a → P a

section Gives
variable {ε α β : Type} {P : α → Prop} {Q : β → Prop} {x : Except ε α}

theorem givesOk {a : α} (holds : P a) : Gives (ε := ε) P (.ok a) := by
  intro b made
  cases made
  exact holds

theorem givesError (e : ε) : Gives P (.error e : Except ε α) := fun _ made => nomatch made

theorem givesBind {f : α → Except ε β} (first : Gives P x) (second : ∀ a, P a → Gives Q (f a)) :
    Gives Q (x >>= f) := by
  cases x with
  | ok a => exact second a (first a rfl)
  | error e => exact givesError e

end Gives

namespace Yaml.Node
open Automation.Settings (mappings everyMappingSeq everyMappingMap KeysDiffer Apart apartNew)

theorem flatDiffer {v : Node} (flat : mappings v = []) : KeysDiffer v := by
  intro entries here
  rw [flat] at here
  cases here

theorem ofPlainFlat (s : String) : Gives (fun v => mappings v = []) (ofPlain s) := by
  unfold ofPlain
  dsimp only
  repeat' split
  all_goals first | exact givesOk rfl | exact givesError _

theorem ofTypedFlat (tag s : String) : Gives (fun v => mappings v = []) (ofTyped tag s) := by
  unfold ofTyped
  dsimp only
  split
  · cases truth? s with
    | some b => exact givesOk rfl
    | none => exact givesError _
  split
  · cases (integer? s.toList).join with
    | some n => exact givesOk rfl
    | none => exact givesError _
  split
  · cases floating? s.toList with
    | some d => exact givesOk rfl
    | none => exact givesError _
  split
  · cases s != "" && nullWords.contains s with
    | true => exact givesOk rfl
    | false => exact givesError _
  · exact givesOk rfl

theorem ofScalarFlat (p : Properties) (text : String) (style : ScalarStyle) :
    Gives (fun v => mappings v = []) (ofScalar p text style) := by
  unfold ofScalar
  split
  · exact ofTypedFlat _ text
  · dsimp only
    split
    · refine givesBind (ofPlainFlat text) fun v flat => ?_
      cases applicationTag? p with
      | some tag => exact givesOk rfl
      | none => exact givesOk flat
    · cases applicationTag? p <;> exact givesOk rfl

section Parts
variable {events : Array (NodeEvent ⊕ Nat)} {node : Reached → Except Fault (Node × Reached)}

theorem readItemsDiffer (parts : ∀ at_, Gives (fun r => KeysDiffer r.1) (node at_)) (fuel : Nat)
    (at_ : Reached) {items : List Node} (differ : ∀ item ∈ items, KeysDiffer item) :
    Gives (fun r => ∀ item ∈ r.1, KeysDiffer item) (readItems events node fuel at_ items) := by
  induction fuel generalizing at_ items with
  | zero => exact givesError _
  | succ fuel ih =>
    rw [readItems]
    split
    · exact givesOk fun item inside => differ item (List.mem_reverse.mp inside)
    · exact givesBind (parts at_) fun r own => ih r.2 (List.forall_mem_cons.mpr ⟨own, differ⟩)

structure Distinct (entries : List (Node × Node)) : Prop where
  apart : Apart entries.reverse
  parts : ∀ e ∈ entries, KeysDiffer e.1 ∧ KeysDiffer e.2

theorem readEntriesDiffer (parts : ∀ at_, Gives (fun r => KeysDiffer r.1) (node at_)) (fuel : Nat)
    (at_ : Reached) {entries : List (Node × Node)} (distinct : Distinct entries) :
    Gives (fun r => KeysDiffer (.map r.1)) (readEntries events node fuel at_ entries) := by
  induction fuel generalizing at_ entries with
  | zero => exact givesError _
  | succ fuel ih =>
    rw [readEntries]
    split
    · exact givesOk (everyMappingMap.mpr ⟨distinct.apart, fun e inside =>
        distinct.parts e (List.mem_reverse.mp inside)⟩)
    · refine givesBind (parts at_) fun key keyDiffers => ?_
      dsimp only
      cases repeated : entries.any fun e => e.1.same key.1 with
      | true => exact givesError _
      | false =>
        refine givesBind (parts key.2) fun value valueDiffers => ih value.2 ⟨?_, ?_⟩
        · have new : ∀ e ∈ entries, e.1.same key.1 = false := by simpa using repeated
          rw [List.reverse_cons]
          exact apartNew distinct.apart fun e inside => new e (List.mem_reverse.mp inside)
        · exact List.forall_mem_cons.mpr ⟨⟨keyDiffers, valueDiffers⟩, distinct.parts⟩
end Parts

def startOf (l : Linked) (events : Array (NodeEvent ⊕ Nat)) (at_ : Reached) :
    Except Fault (Nat × Nat × Option Nat) :=
  match events[at_.place]? with
  | some (.inr n) =>
    if repetitionRate * events.size < at_.repeats + 1 then
      throw .tooManyRepetitions
    else match l.place? n with
      | some start => pure (start, at_.repeats + 1, some (at_.place + 1))
      | none => throw .misplaced
  | _ => pure (at_.place, at_.repeats, none)

def readFrom (l : Linked) (events : Array (NodeEvent ⊕ Nat)) (depth start repeats : Nat)
    (after : Option Nat) : Except Fault (Node × Reached) :=
  let next := start + 1
  let done (node : Node) (reached : Reached) : Except Fault (Node × Reached) :=
    .ok (node, { reached with place := after.getD reached.place })
  match events[start]? with
  | some (.inl (.scalar p text style)) => do
    let node ← ofScalar p text style
    done node ⟨next, repeats⟩
  | some (.inl (.sequenceStart p)) =>
    match depth with
    | 0 => throw .misplaced
    | depth + 1 => do
      let (items, reached) ←
        readItems events (readNode l events depth) (events.size + 1) ⟨next, repeats⟩ []
      done (underTag p (seq items)) reached
  | some (.inl (.mappingStart p)) =>
    match depth with
    | 0 => throw .misplaced
    | depth + 1 => do
      let (entries, reached) ←
        readEntries events (readNode l events depth) (events.size + 1) ⟨next, repeats⟩ []
      done (underTag p (map entries)) reached
  | _ => throw .misplaced

theorem readNodeFrom (l : Linked) (events : Array (NodeEvent ⊕ Nat)) (depth : Nat) (at_ : Reached) :
    readNode l events depth at_ =
      (startOf l events at_).bind fun x => readFrom l events depth x.1 x.2.1 x.2.2 := by
  cases depth <;> rw [readNode, startOf] <;> cases events[at_.place]? with
  | none => rfl
  | some event =>
    cases event with
    | inl event => rfl
    | inr n =>
      dsimp only
      split
      · rfl
      · cases l.place? n <;> rfl

theorem underTagDiffer (p : Properties) {v : Node} (differ : KeysDiffer v) :
    KeysDiffer (underTag p v) := by
  unfold underTag
  cases applicationTag? p with
  | some tag => exact flatDiffer rfl
  | none => exact differ

theorem readFromDiffer {l : Linked} {events : Array (NodeEvent ⊕ Nat)} {depth : Nat}
    (deeper : ∀ less, less < depth → ∀ at_, Gives (fun r => KeysDiffer r.1) (readNode l events less at_))
    (start repeats : Nat) (after : Option Nat) :
    Gives (fun r => KeysDiffer r.1) (readFrom l events depth start repeats after) := by
  unfold readFrom
  dsimp only
  split
  · exact givesBind (ofScalarFlat _ _ _) fun v flat => givesOk (flatDiffer flat)
  · cases depth with
    | zero => exact givesError _
    | succ depth =>
      have none : ∀ item ∈ ([] : List Node), KeysDiffer item := List.forall_mem_nil _
      exact givesBind (readItemsDiffer (deeper depth (Nat.lt_succ_self depth)) _ _ none)
        fun r differ => givesOk (underTagDiffer _ (everyMappingSeq.mpr differ))
  · cases depth with
    | zero => exact givesError _
    | succ depth =>
      have none : Distinct [] := ⟨List.Pairwise.nil, List.forall_mem_nil _⟩
      exact givesBind (readEntriesDiffer (deeper depth (Nat.lt_succ_self depth)) _ _ none)
        fun r differ => givesOk (underTagDiffer _ differ)
  · exact givesError _

theorem readNodeDiffer (l : Linked) (events : Array (NodeEvent ⊕ Nat)) (depth : Nat) (at_ : Reached) :
    Gives (fun r => KeysDiffer r.1) (readNode l events depth at_) := by
  induction depth using Nat.strongRecOn generalizing at_ with
  | ind depth ih =>
    rw [readNodeFrom]
    have anywhere : Gives (fun _ => True) (startOf l events at_) := fun _ _ => trivial
    exact givesBind anywhere fun x _ => readFromDiffer ih x.1 x.2.1 x.2.2

theorem readDiffers {text : String} {v : Node} (read : Node.read text = .ok v) : KeysDiffer v := by
  have given : Gives KeysDiffer (ofEvents (NodeEvent.ofTokens (Token.scan text.toList))) := by
    unfold ofEvents
    split
    · exact givesOk (flatDiffer rfl)
    · refine givesBind (readNodeDiffer _ _ _ _) fun r differ => ?_
      dsimp only
      split
      · exact givesError _
      · exact givesOk differ
      · exact givesOk differ
      · exact givesError _
  exact given v read

end Yaml.Node
end Automation
