import Mathlib.Tactic.IntervalCases
import Automation.Fingerprint
import Automation.Json.Reader
import Automation.Proofs.Numerals
/-! Unique readability of the canonical text, and of the bytes behind a fingerprint. Two texts that
go on in any way are the same only if they are those of the same value, with the same text behind:
the first character tells which kind of value it is, a string ends at its quote, a number at the
first character that is none of a number's, and a list at its bracket. -/
namespace Automation.Json
open Automation.Double (numeralMark exponentText exponentReadText)
open Automation.Text (decimalInt padded)

mutual
def finite : Json → Bool
  | double d => d.isFinite
  | arr items => finiteItems items
  | obj fields => finiteFields fields
  | null | bool _ | int _ | str _ => true

def finiteItems : List Json → Bool
  | [] => true
  | a :: rest => finite a && finiteItems rest

def finiteFields : List (String × Json) → Bool
  | [] => true
  | (_, a) :: rest => finite a && finiteFields rest
end

theorem wordApart {α : Type} {mark : α → Bool} {a b s t : List α} (word : ∀ x ∈ a, mark x = true)
    (word' : ∀ x ∈ b, mark x = true) (ends : ∀ x ∈ s.head?, mark x = false)
    (ends' : ∀ x ∈ t.head?, mark x = false) (same : a ++ s = b ++ t) : a = b ∧ s = t := by
  have front : ∀ {c u : List α}, (∀ x ∈ c, mark x = true) → (∀ x ∈ u.head?, mark x = false) →
      (c ++ u).takeWhile mark = c := by
    intro c u inside outside
    rw [List.takeWhile_append_of_pos inside]
    cases u with
    | nil => simp
    | cons x u => rw [List.takeWhile_cons_of_neg (by simp [outside x rfl]), List.append_nil]
  have words : a = b := by rw [← front word ends, same, front word' ends']
  exact ⟨words, List.append_cancel_left (words ▸ same)⟩

theorem unitReadBack {n : Nat} (small : n < 32) (rest : List Char) :
    readUnits (padded 16 4 n ++ rest) = some (Char.ofNat n, rest) := by
  interval_cases n <;> rfl

theorem escapeReadBack (c : Char) (fuel : Nat) (rest done : List Char) :
    readText (fuel + 1) (escape c ++ rest) done = readText fuel rest (c :: done) := by
  unfold escape
  split_ifs with quote backslash back feed line carriage tab control
  · rw [quote]; rfl
  · rw [backslash]; rfl
  · rw [back]; rfl
  · rw [feed]; rfl
  · rw [line]; rfl
  · rw [carriage]; rfl
  · rw [tab]; rfl
  · simp only [List.cons_append, readText, unitReadBack control, Char.ofNat_toNat]
  · simp [readText, backslash, control]

theorem textReadBack (cs : List Char) {fuel : Nat} (long : cs.length < fuel)
    (rest done : List Char) :
    readText fuel (cs.flatMap escape ++ '\x22' :: rest) done =
      some (String.ofList (done.reverse ++ cs), rest) := by
  induction cs generalizing fuel done with
  | nil =>
    obtain ⟨fuel, rfl⟩ : ∃ n, fuel = n + 1 := ⟨fuel - 1, by omega⟩
    simp [readText]
  | cons c cs ih =>
    obtain ⟨fuel, rfl⟩ : ∃ n, fuel = n + 1 := ⟨fuel - 1, by omega⟩
    rw [List.flatMap_cons, List.append_assoc, escapeReadBack,
      ih (by simpa using long), List.reverse_cons, List.append_assoc]
    rfl

theorem quoteApart {k j : String} {s t : List Char} (same : quote k ++ s = quote j ++ t) :
    k = j ∧ s = t := by
  have same' : k.toList.flatMap escape ++ '\x22' :: s = j.toList.flatMap escape ++ '\x22' :: t := by
    simpa [quote] using same
  have long : k.toList.length < k.toList.length + j.toList.length + 1 := by omega
  have read := textReadBack k.toList long s []
  rw [same', textReadBack j.toList (by omega)] at read
  simpa [eq_comm] using read

inductive Kind where
  | null | truth | number | text | array | object
  deriving DecidableEq

def kind : Json → Kind
  | null => .null
  | bool _ => .truth
  | int _ | double _ => .number
  | str _ => .text
  | arr _ => .array
  | obj _ => .object

def kindOf? (c : Char) : Option Kind :=
  if c = 'n' then some .null
  else if c = 't' ∨ c = 'f' then some .truth
  else if c.isDigit ∨ c = '-' then some .number
  else if c = '\x22' then some .text
  else if c = '[' then some .array
  else if c = '\x7b' then some .object
  else none

theorem kindNumber {c : Char} (front : c.isDigit = true ∨ c = '-') : kindOf? c = some .number := by
  unfold kindOf?
  rw [if_neg, if_neg, if_pos front]
  · rintro (rfl | rfl) <;> revert front <;> decide
  · rintro rfl
    revert front
    decide

section
variable {v w : Json} {s t : List Char}

theorem integerText (n : Int) : (∀ c ∈ decimalInt n, c.isDigit = true ∨ c = '-') ∧
    ∃ c rest, decimalInt n = c :: rest := by
  unfold decimalInt
  split
  · exact ⟨List.forall_mem_cons.mpr ⟨.inr rfl, fun c inside => .inl (Double.decimalDigits _ c inside)⟩,
      _, _, rfl⟩
  · exact ⟨fun c inside => .inl (Double.decimalDigits _ c inside),
      List.exists_cons_of_ne_nil Nat.toDigits_ne_nil⟩

theorem integerInjective {m n : Int} (same : decimalInt m = decimalInt n) : m = n := by
  have exponent : ∀ k, decimalInt k = exponentText false k := by
    intro k
    unfold decimalInt exponentText
    split <;> rfl
  have read := exponentReadText false m
  rw [← exponent, same, exponent, exponentReadText] at read
  exact read.symm

theorem integerDouble (n : Int) (d : Double) : decimalInt n ≠ d.canonical := by
  intro same
  obtain ⟨-, fractional, -⟩ := Double.canonicalMarks d
  rw [← same] at fractional
  rcases fractional with point | exponent
  · rcases (integerText n).1 _ point with digit | minus
    · cases digit
    · cases minus
  · rcases (integerText n).1 _ exponent with digit | minus
    · cases digit
    · cases minus

theorem doubleText {d : Double} (finite : (double d).finite = true) :
    (double d).write = d.canonical := by
  rw [write, writeNumber, if_pos (by exact finite)]

theorem numberMarks (finite : v.finite = true) (number : v.kind = .number) :
    ∀ c ∈ v.write, numeralMark c = true := by
  cases v with
  | int n =>
    intro c inside
    rcases (integerText n).1 c (by simpa [write] using inside) with digit | minus <;>
      simp [numeralMark, *]
  | double d =>
    rw [doubleText finite]
    exact (Double.canonicalMarks d).1
  | _ => cases number

theorem numberInjective (finite : v.finite = true) (finite' : w.finite = true)
    (number : v.kind = .number) (number' : w.kind = .number) (same : v.write = w.write) : v = w := by
  cases v with
  | int m =>
    cases w with
    | int n => rw [integerInjective same]
    | double d => exact absurd (same.trans (doubleText finite')) (integerDouble m d)
    | _ => cases number'
  | double d =>
    cases w with
    | int n => exact absurd (same.symm.trans (doubleText finite)) (integerDouble n d)
    | double e =>
      rw [doubleText finite, doubleText finite'] at same
      rw [Double.writeInjective _ same]
    | _ => cases number'
  | _ => cases number

theorem writeLeads (finite : v.finite = true) :
    ∃ c rest, v.write = c :: rest ∧ kindOf? c = some v.kind := by
  cases v with
  | null => exact ⟨'n', _, by rw [write], rfl⟩
  | bool b => cases b <;> exact ⟨_, _, by rw [write], rfl⟩
  | int n =>
    obtain ⟨only, c, rest, text⟩ := integerText n
    exact ⟨c, rest, by rw [write, text], kindNumber (only c (text ▸ List.mem_cons_self))⟩
  | double d =>
    obtain ⟨-, -, c, rest, text, front⟩ := Double.canonicalMarks d
    exact ⟨c, rest, by rw [doubleText finite, text], kindNumber front⟩
  | str s => exact ⟨'\x22', _, by rw [write, quote]; rfl, rfl⟩
  | arr items => exact ⟨'[', _, by rw [write]; rfl, rfl⟩
  | obj fields => exact ⟨'\x7b', _, by rw [write]; rfl, rfl⟩

theorem kindApart (finite : v.finite = true) (finite' : w.finite = true)
    (same : v.write ++ s = w.write ++ t) : v.kind = w.kind := by
  obtain ⟨c, rest, text, tells⟩ := writeLeads finite
  obtain ⟨c', rest', text', tells'⟩ := writeLeads finite'
  rw [text, text'] at same
  cases (List.cons.inj same).1
  exact Option.some.inj (tells.symm.trans tells')

/- What is behind a value: nothing, or a character that no number goes on with. -/
def Stops (s : List Char) : Prop := ∀ c ∈ s.head?, numeralMark c = false

theorem numberApart (finite : v.finite = true) (finite' : w.finite = true)
    (number : v.kind = .number) (stops : Stops s) (stops' : Stops t)
    (same : v.write ++ s = w.write ++ t) : v = w ∧ s = t := by
  have number' : w.kind = .number := (kindApart finite finite' same).symm.trans number
  obtain ⟨text, behind⟩ :=
    wordApart (numberMarks finite number) (numberMarks finite' number') stops stops' same
  exact ⟨numberInjective finite finite' number number' text, behind⟩

end

section
variable {α : Type} {written : List α → List Char} {close : Char}

def writeMore (written : List α → List Char) : List α → List Char
  | [] => []
  | b :: rest => ',' :: written (b :: rest)

theorem moreStops (closes : numeralMark close = false) (rest : List α) (s : List Char) :
    Stops (writeMore written rest ++ close :: s) := by
  cases rest with
  | nil =>
    rintro _ ⟨⟩
    exact closes
  | cons b rest =>
    rintro _ ⟨⟩
    rfl

theorem moreApart (closes : close ≠ ',') {as bs : List α} {s t : List Char}
    (onward : written as ++ close :: s = written bs ++ close :: t → as = bs ∧ s = t)
    (same : writeMore written as ++ close :: s = writeMore written bs ++ close :: t) :
    as = bs ∧ s = t := by
  cases as with
  | nil =>
    cases bs with
    | nil => exact ⟨rfl, (List.cons.inj same).2⟩
    | cons b bs => exact absurd (List.cons.inj same).1 closes
  | cons a as =>
    cases bs with
    | nil => exact absurd (List.cons.inj same).1.symm closes
    | cons b bs => exact onward (List.cons.inj same).2

end

theorem writeItemsCons (a : Json) (rest : List Json) :
    writeItems (a :: rest) = write a ++ writeMore writeItems rest := by
  cases rest <;> simp [writeItems, writeMore]

theorem writeFieldsCons (k : String) (a : Json) (rest : List (String × Json)) :
    writeFields ((k, a) :: rest) = quote k ++ ':' :: (write a ++ writeMore writeFields rest) := by
  cases rest <;> simp [writeFields, writeMore]

theorem closeApart {b : Json} (finite : b.finite = true) (bs : List Json) (s t : List Char) :
    ']' :: s ≠ writeItems (b :: bs) ++ t := by
  intro same
  obtain ⟨c, rest, text, tells⟩ := writeLeads finite
  rw [writeItemsCons, text] at same
  cases (List.cons.inj same).1
  cases tells

-- By induction on the first value; its kind is that of the second. What is behind a value is part
-- of the statement, since the items behind an item are what is behind its text.
mutual
theorem writeApart : (v w : Json) → v.finite = true → w.finite = true → {s t : List Char} →
    Stops s → Stops t → v.write ++ s = w.write ++ t → v = w ∧ s = t
  | null, w, finite, finite', s, t, _, _, same => by
    have kinds := kindApart finite finite' same
    cases w with
    | null => exact ⟨rfl, List.append_cancel_left same⟩
    | _ => cases kinds
  | bool a, w, finite, finite', s, t, _, _, same => by
    have kinds := kindApart finite finite' same
    cases w with
    | bool b => cases a <;> cases b <;> simp_all [write]
    | _ => cases kinds
  | int n, w, finite, finite', _, _, stops, stops', same =>
    numberApart finite finite' rfl stops stops' same
  | double d, w, finite, finite', _, _, stops, stops', same =>
    numberApart finite finite' rfl stops stops' same
  | str k, w, finite, finite', s, t, _, _, same => by
    have kinds := kindApart finite finite' same
    cases w with
    | str j =>
      obtain ⟨text, behind⟩ := quoteApart (by simpa [write] using same)
      exact ⟨congrArg str text, behind⟩
    | _ => cases kinds
  | arr as, w, finite, finite', s, t, _, _, same => by
    have kinds := kindApart finite finite' same
    cases w with
    | arr bs =>
      obtain ⟨items, behind⟩ := itemsApart as bs finite finite' (by simpa [write] using same)
      exact ⟨congrArg arr items, behind⟩
    | _ => cases kinds
  | obj as, w, finite, finite', s, t, _, _, same => by
    have kinds := kindApart finite finite' same
    cases w with
    | obj bs =>
      obtain ⟨fields, behind⟩ := fieldsApart as bs finite finite' (by simpa [write] using same)
      exact ⟨congrArg obj fields, behind⟩
    | _ => cases kinds

theorem itemsApart : (as bs : List Json) → finiteItems as = true → finiteItems bs = true →
    {s t : List Char} → writeItems as ++ ']' :: s = writeItems bs ++ ']' :: t → as = bs ∧ s = t
  | [], [], _, _, _, _, same => ⟨rfl, (List.cons.inj same).2⟩
  | [], b :: bs, _, finite', _, _, same =>
    absurd same (closeApart (Bool.and_eq_true_iff.mp finite').1 bs _ _)
  | a :: as, [], finite, _, _, _, same =>
    absurd same.symm (closeApart (Bool.and_eq_true_iff.mp finite).1 as _ _)
  | a :: as, b :: bs, finite, finite', s, t, same => by
    obtain ⟨head, tail⟩ := Bool.and_eq_true_iff.mp finite
    obtain ⟨head', tail'⟩ := Bool.and_eq_true_iff.mp finite'
    rw [writeItemsCons, writeItemsCons, List.append_assoc, List.append_assoc] at same
    obtain ⟨rfl, behind⟩ := writeApart a b head head' (moreStops rfl _ _) (moreStops rfl _ _) same
    obtain ⟨rfl, after⟩ := moreApart (by decide) (itemsApart as bs tail tail') behind
    exact ⟨rfl, after⟩

theorem fieldsApart : (as bs : List (String × Json)) → finiteFields as = true →
    finiteFields bs = true → {s t : List Char} →
    writeFields as ++ '\x7d' :: s = writeFields bs ++ '\x7d' :: t → as = bs ∧ s = t
  | [], [], _, _, _, _, same => ⟨rfl, (List.cons.inj same).2⟩
  | [], (k, b) :: bs, _, _, _, _, same => by
    rw [writeFieldsCons] at same
    cases (List.cons.inj same).1
  | (k, a) :: as, [], _, _, _, _, same => by
    rw [writeFieldsCons] at same
    cases (List.cons.inj same).1
  | (k, a) :: as, (j, b) :: bs, finite, finite', s, t, same => by
    obtain ⟨head, tail⟩ := Bool.and_eq_true_iff.mp finite
    obtain ⟨head', tail'⟩ := Bool.and_eq_true_iff.mp finite'
    rw [writeFieldsCons, writeFieldsCons, List.append_assoc, List.append_assoc] at same
    obtain ⟨rfl, behind⟩ := quoteApart same
    have same' : a.write ++ (writeMore writeFields as ++ '\x7d' :: s) =
        b.write ++ (writeMore writeFields bs ++ '\x7d' :: t) := by
      simpa using behind
    obtain ⟨rfl, others⟩ := writeApart a b head head' (moreStops rfl _ _) (moreStops rfl _ _) same'
    obtain ⟨rfl, after⟩ := moreApart (by decide) (fieldsApart as bs tail tail') others
    exact ⟨rfl, after⟩
end

theorem encodingInjective {cs ds : List Char}
    (same : cs.flatMap String.utf8EncodeChar = ds.flatMap String.utf8EncodeChar) : cs = ds := by
  refine String.ofList_injective (String.toByteArray_inj.mp ?_)
  rw [String.toByteArray_ofList, String.toByteArray_ofList, List.utf8Encode, List.utf8Encode, same]

theorem bytesInjective {v w : Json} (finite : v.finite = true) (finite' : w.finite = true)
    (same : v.bytes = w.bytes) : v = w := by
  have text : v.write ++ [] = w.write ++ [] := by
    rw [encodingInjective same]
  exact (writeApart v w finite finite' (by rintro _ ⟨⟩) (by rintro _ ⟨⟩) text).1

end Automation.Json

namespace Automation.Fingerprint

theorem encodingBelow (c : Char) : terminator ∉ String.utf8EncodeChar c := by
  intro inside
  have inside' := List.mem_map_of_mem (f := UInt8.toNat) inside
  unfold String.utf8EncodeChar at inside'
  dsimp only at inside'
  split_ifs at inside' <;>
    simp only [List.map_cons, List.map_nil, List.mem_cons, List.not_mem_nil, or_false,
      UInt8.toNat_ofNat', terminator, UInt8.reduceToNat] at inside' <;>
    omega

theorem bytesFree (v : Json) : terminator ∉ v.bytes := by
  unfold Json.bytes
  rw [List.mem_flatMap]
  rintro ⟨c, -, inside⟩
  exact encodingBelow c inside

theorem framedApart {v w : Json} {s t : List UInt8} (finite : v.finite = true)
    (finite' : w.finite = true) (same : framed v ++ s = framed w ++ t) : v = w ∧ s = t := by
  have word : ∀ u : Json, ∀ b ∈ u.bytes, (b != terminator) = true := fun u b inside =>
    bne_iff_ne.mpr fun closes => bytesFree u (closes ▸ inside)
  have ends : ∀ u : List UInt8, ∀ b ∈ (terminator :: u).head?, (b != terminator) = false := by
    rintro u _ ⟨⟩
    rfl
  unfold framed at same
  rw [List.append_assoc, List.append_assoc] at same
  obtain ⟨bytes, rest⟩ := Json.wordApart (word v) (word w) (ends s) (ends t) same
  exact ⟨Json.bytesInjective finite finite' bytes, (List.cons.inj rest).2⟩

theorem streamCons (v : Json) (vs : List Json) : stream (v :: vs) = framed v ++ stream vs :=
  List.flatMap_cons

theorem streamSome (v : Json) (vs : List Json) : stream [] ≠ stream (v :: vs) := by
  simp [stream, framed]

/- The bytes of a list of values tell the list: how long it is, and each value with all it is made
of, integers from floating point numbers and zero from its negative. No value contains the byte
that closes it. -/
theorem streamInjective : (∀ v : Json, terminator ∉ v.bytes) ∧
    ∀ xs ys : List Json, (∀ x ∈ xs, x.finite = true) → (∀ y ∈ ys, y.finite = true) →
      stream xs = stream ys → xs = ys := by
  refine ⟨bytesFree, fun xs => ?_⟩
  induction xs with
  | nil =>
    intro ys _ _ same
    cases ys with
    | nil => rfl
    | cons y ys => exact absurd same (streamSome y ys)
  | cons x xs ih =>
    intro ys finite finite' same
    cases ys with
    | nil => exact absurd same.symm (streamSome x xs)
    | cons y ys =>
      obtain ⟨head, tail⟩ := List.forall_mem_cons.mp finite
      obtain ⟨head', tail'⟩ := List.forall_mem_cons.mp finite'
      rw [streamCons, streamCons] at same
      obtain ⟨value, rest⟩ := framedApart head head' same
      rw [value, ih ys tail tail' rest]

def listed : List Json :=
  [.record [("a", .arr [.int (-1), .str "é\n"]), ("b", .double (.zero true))],
    .double (.ofNat 1), .int 1]

def relisted : List Json :=
  [.record [("b", .double (.zero true)), ("a", .null), ("a", .arr [.int (-1), .str "é\n"])],
    .double (.ofNat 1), .int 1]

theorem streamInjectiveRelisted : (∀ x ∈ listed, x.finite = true) ∧
    (∀ y ∈ relisted, y.finite = true) ∧ stream listed = stream relisted ∧ listed = relisted :=
  ⟨by decide, by decide, rfl, streamInjective.2 listed relisted (by decide) (by decide) rfl⟩

example : stream [.int 1, .int 0] ≠ stream [.int 10] := by decide

end Automation.Fingerprint
