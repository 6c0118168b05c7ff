import Automation.Double.Text
import Automation.Proofs.Rounding
/-! Texts of numbers. Read as a decimal, the text of a floating point number is its shortest
decimal, positional or not, so different numbers have different texts; and each has a point or an
exponent, which integers have not. -/
namespace Automation.Double
open Nat (ofDigitChars)

def digitsRead (cs : List Char) : Nat := ofDigitChars 10 (cs.filter Char.isDigit) 0

def pointRead (cs : List Char) : ℚ :=
  digitsRead cs / 10 ^ ((cs.dropWhile fun c => c != '.').length - 1)

def exponentRead (cs : List Char) : Int :=
  if '-' ∈ cs then -(digitsRead cs : Int) else digitsRead cs

def numeralRead (cs : List Char) : ℚ :=
  pointRead (cs.takeWhile fun c => c != 'e') *
    10 ^ exponentRead ((cs.dropWhile fun c => c != 'e').drop 1)

def Digits (cs : List Char) : Prop := ∀ c ∈ cs, c.isDigit = true

def Plain (cs : List Char) : Prop := ∀ c ∈ cs, c.isDigit = true ∨ c = '.'

def numeralMark (c : Char) : Bool := c.isDigit || c == '.' || c == 'e' || c == '+' || c == '-'

theorem decimalDigits (n : Nat) : Digits (Nat.toDigits 10 n) := fun _ inside =>
  Nat.isDigit_of_mem_toDigits (by decide) (by decide) inside

theorem zerosDigits (n : Nat) : Digits (List.replicate n '0') := by
  intro c inside
  rw [List.eq_of_mem_replicate inside]
  rfl

section
variable {digits whole fraction body : List Char}

theorem digitsAppend (first : Digits whole) (second : Digits fraction) :
    Digits (whole ++ fraction) :=
  List.forall_mem_append.mpr ⟨first, second⟩

theorem digitsMarks (only : Digits digits) : ∀ c ∈ digits, numeralMark c = true := by
  intro c inside
  simp [numeralMark, only c inside]

theorem digitsOther {mark : Char} (only : Digits digits) (other : mark.isDigit = false) :
    ∀ c ∈ digits, (c != mark) = true := by
  intro c inside
  refine bne_iff_ne.mpr ?_
  rintro rfl
  rw [only c inside] at other
  cases other

theorem digitsReadOnly (only : Digits digits) : digitsRead digits = ofDigitChars 10 digits 0 := by
  unfold digitsRead
  rw [List.filter_eq_self.mpr only]

theorem pointReadSplit (first : Digits whole) (second : Digits fraction) :
    pointRead (whole ++ '.' :: fraction) =
      ofDigitChars 10 (whole ++ fraction) 0 / 10 ^ fraction.length := by
  have past : (whole ++ '.' :: fraction).dropWhile (fun c => c != '.') = '.' :: fraction := by
    rw [List.dropWhile_append_of_pos (digitsOther first rfl)]
    rfl
  have read : digitsRead (whole ++ '.' :: fraction) = ofDigitChars 10 (whole ++ fraction) 0 := by
    unfold digitsRead
    rw [List.filter_append, List.filter_cons_of_neg (by decide), List.filter_eq_self.mpr first,
      List.filter_eq_self.mpr second]
  unfold pointRead
  rw [past, read]
  rfl

theorem pointReadWhole (only : Digits digits) : pointRead digits = ofDigitChars 10 digits 0 := by
  have past : digits.dropWhile (fun c => c != '.') = [] := by
    rw [← List.append_nil digits, List.dropWhile_append_of_pos (digitsOther only rfl)]
    rfl
  unfold pointRead
  rw [past, digitsReadOnly only]
  simp

theorem plainDigits (only : Digits digits) : Plain digits := fun c inside => .inl (only c inside)

theorem plainSplit (first : Digits whole) (second : Digits fraction) :
    Plain (whole ++ '.' :: fraction) := by
  intro c inside
  rcases List.mem_append.mp inside with front | back
  · exact .inl (first c front)
  · rcases List.mem_cons.mp back with point | back
    · exact .inr point
    · exact .inl (second c back)

theorem plainMarks (plain : Plain body) : ∀ c ∈ body, numeralMark c = true := by
  intro c inside
  rcases plain c inside with digit | point <;> simp [numeralMark, *]

theorem plainBefore (plain : Plain body) : ∀ c ∈ body, (c != 'e') = true := by
  intro c inside
  refine bne_iff_ne.mpr ?_
  rintro rfl
  rcases plain _ inside with digit | point
  · cases digit
  · cases point

theorem numeralReadPlain (plain : Plain body) : numeralRead body = pointRead body := by
  have before := plainBefore plain
  unfold numeralRead
  rw [← List.append_nil body, List.takeWhile_append_of_pos before,
    List.dropWhile_append_of_pos before]
  simp [exponentRead, digitsRead]

theorem numeralReadExponent (plain : Plain body) (behind : List Char) :
    numeralRead (body ++ 'e' :: behind) = pointRead body * 10 ^ exponentRead behind := by
  have before := plainBefore plain
  unfold numeralRead
  rw [List.takeWhile_append_of_pos before, List.dropWhile_append_of_pos before]
  simp

end

/- The text of a number without sign that is not an integer's. -/
structure Reads (cs : List Char) (x : ℚ) : Prop where
  marks : ∀ c ∈ cs, numeralMark c = true
  leads : ∃ c rest, cs = c :: rest ∧ c.isDigit = true
  fractional : '.' ∈ cs ∨ 'e' ∈ cs
  value : numeralRead cs = x

theorem splitReads {whole fraction : List Char} (first : Digits whole) (second : Digits fraction)
    (some : whole ≠ []) : Reads (whole ++ '.' :: fraction)
      (ofDigitChars 10 (whole ++ fraction) 0 / 10 ^ fraction.length) where
  marks := plainMarks (plainSplit first second)
  leads := by
    obtain ⟨c, rest, rfl⟩ := List.exists_cons_of_ne_nil some
    exact ⟨c, rest ++ '.' :: fraction, rfl, first c List.mem_cons_self⟩
  fractional := .inl (by simp)
  value := by rw [numeralReadPlain (plainSplit first second), pointReadSplit first second]

theorem positionalReads (n : Nat) (power : Int) :
    Reads (positional (Nat.toDigits 10 n) power) (n * 10 ^ power) := by
  have only := decimalDigits n
  have read : ofDigitChars 10 (Nat.toDigits 10 n) 0 = n := Nat.ofDigitChars_ten_toDigits
  have some : Nat.toDigits 10 n ≠ [] := Nat.toDigits_ne_nil
  generalize Nat.toDigits 10 n = digits at only read some
  unfold positional
  split
  · rename_i whole
    obtain ⟨p, rfl⟩ := Int.eq_ofNat_of_zero_le whole
    rw [Int.toNat_natCast, zpow_natCast]
    convert splitReads (digitsAppend only (zerosDigits p)) (show Digits ['0'] from zerosDigits 1)
      (List.append_ne_nil_of_left_ne_nil some _) using 1
    rw [Nat.ofDigitChars_append, Nat.ofDigitChars_append, Nat.ofDigitChars_replicate_zero, read]
    simp [Nat.ofDigitChars_cons]
    ring
  · rename_i less
    obtain ⟨p, rfl⟩ : ∃ p : Nat, power = -(p : Int) := ⟨(-power).toNat, by omega⟩
    rw [neg_neg, Int.toNat_natCast, zpow_neg, zpow_natCast, ← div_eq_mul_inv]
    dsimp only
    split
    · rename_i inside
      have front : Digits (digits.take (digits.length - p)) := fun c here =>
        only c (List.mem_of_mem_take here)
      have back : Digits (digits.drop (digits.length - p)) := fun c here =>
        only c (List.mem_of_mem_drop here)
      convert splitReads front back (List.ne_nil_of_length_pos (by simp; omega)) using 1
      rw [List.take_append_drop, read, List.length_drop,
        show digits.length - (digits.length - p) = p by omega]
    · rename_i outside
      have zeros := digitsAppend (zerosDigits (p - digits.length)) only
      change Reads (['0'] ++ '.' :: (List.replicate (p - digits.length) '0' ++ digits)) _
      convert splitReads (show Digits ['0'] from zerosDigits 1) zeros (List.cons_ne_nil _ _) using 1
      rw [Nat.ofDigitChars_append, Nat.ofDigitChars_append, Nat.ofDigitChars_replicate_zero,
        List.length_append, List.length_replicate,
        show p - digits.length + digits.length = p by omega]
      simp [Nat.ofDigitChars_cons, read]

def exponentText (plus : Bool) (e : Int) : List Char :=
  (if e < 0 then ['-'] else if plus then ['+'] else []) ++ Nat.toDigits 10 e.natAbs

theorem exponentMarks (plus : Bool) (e : Int) :
    ∀ c ∈ exponentText plus e, numeralMark c = true := by
  refine List.forall_mem_append.mpr ⟨?_, digitsMarks (decimalDigits _)⟩
  split
  · exact List.forall_mem_singleton.mpr rfl
  · split
    · exact List.forall_mem_singleton.mpr rfl
    · exact List.forall_mem_nil _

theorem exponentReadText (plus : Bool) (e : Int) : exponentRead (exponentText plus e) = e := by
  have only := decimalDigits e.natAbs
  have read : ofDigitChars 10 (Nat.toDigits 10 e.natAbs) 0 = e.natAbs :=
    Nat.ofDigitChars_ten_toDigits
  have absent : '-' ∉ Nat.toDigits 10 e.natAbs := fun inside => by
    simpa using digitsOther only (show '-'.isDigit = false from rfl) _ inside
  have digits : digitsRead (exponentText plus e) = e.natAbs := by
    unfold digitsRead exponentText
    rw [List.filter_append, List.filter_eq_self.mpr only]
    split
    · exact read
    · split <;> exact read
  unfold exponentRead
  rw [digits]
  unfold exponentText
  by_cases negative : e < 0
  · rw [if_pos negative, if_pos (List.mem_append_left _ (List.mem_singleton_self _))]
    omega
  · rw [if_neg negative, if_neg]
    · omega
    · cases plus <;> simp [absent]

def significandText : List Char → List Char
  | [] => []
  | [d] => [d]
  | d :: rest => d :: '.' :: rest

theorem scientificIs (plus : Bool) (digits : List Char) (e : Int) :
    scientific plus digits e = significandText digits ++ 'e' :: exponentText plus e := by
  unfold scientific exponentText significandText
  dsimp only
  rw [List.append_assoc]
  rfl

theorem significandRead {d : Char} {rest : List Char} (only : Digits (d :: rest)) :
    Plain (significandText (d :: rest)) ∧ (∃ behind, significandText (d :: rest) = d :: behind) ∧
      pointRead (significandText (d :: rest)) = ofDigitChars 10 (d :: rest) 0 / 10 ^ rest.length := by
  cases rest with
  | nil => exact ⟨plainDigits only, ⟨[], rfl⟩, by simpa [significandText] using pointReadWhole only⟩
  | cons d' rest =>
    obtain ⟨first, second⟩ := List.forall_mem_cons.mp only
    have first' : Digits [d] := List.forall_mem_singleton.mpr first
    exact ⟨plainSplit first' second, ⟨'.' :: d' :: rest, rfl⟩, pointReadSplit first' second⟩

theorem scientificReads (plus : Bool) (n : Nat) (power : Int) :
    Reads (scientific plus (Nat.toDigits 10 n) (power + (Nat.toDigits 10 n).length - 1))
      (n * 10 ^ power) := by
  have only := decimalDigits n
  have read : ofDigitChars 10 (Nat.toDigits 10 n) 0 = n := Nat.ofDigitChars_ten_toDigits
  have some : Nat.toDigits 10 n ≠ [] := Nat.toDigits_ne_nil
  generalize Nat.toDigits 10 n = digits at only read some
  obtain ⟨d, rest, rfl⟩ := List.exists_cons_of_ne_nil some
  obtain ⟨plain, ⟨behind, leads⟩, point⟩ := significandRead only
  have exponent : power + (d :: rest).length - 1 = power + rest.length := by
    rw [List.length_cons]
    omega
  rw [scientificIs, exponent]
  exact {
    marks := List.forall_mem_append.mpr ⟨plainMarks plain,
      List.forall_mem_cons.mpr ⟨rfl, exponentMarks _ _⟩⟩
    leads := ⟨d, _, by rw [leads]; rfl, only d List.mem_cons_self⟩
    fractional := .inr (by simp)
    value := by
      rw [numeralReadExponent plain, exponentReadText, point, read, zpow_add₀ (by norm_num),
        zpow_natCast]
      field_simp }

theorem writeReads (style : Style) (d : Double) : ∃ body, Reads body d.shortest.value ∧
    style.write d = if d.isNegative then '-' :: body else body := by
  refine ⟨_, ?_, rfl⟩
  split
  · exact positionalReads _ _
  · exact scientificReads _ _ _

theorem signedEq {a b : Double} (sign : a.isNegative = b.isNegative)
    (size : a.magnitude = b.magnitude) : a = b := by
  obtain ⟨x⟩ := a
  obtain ⟨y⟩ := b
  have bound := x.toNat_lt
  have bound' := y.toNat_lt
  unfold isNegative at sign
  unfold magnitude at size
  dsimp only at sign size
  have half : signBit = 9223372036854775808 := rfl
  rw [half] at sign size
  simp only [decide_eq_decide] at sign
  congr 1
  apply UInt64.toNat.inj
  omega

theorem writeInjective (style : Style) {a b : Double} (same : style.write a = style.write b) :
    a = b := by
  obtain ⟨x, reads, text⟩ := writeReads style a
  obtain ⟨y, reads', text'⟩ := writeReads style b
  obtain ⟨c, front, starts, digit⟩ := reads.leads
  obtain ⟨c', front', starts', digit'⟩ := reads'.leads
  rw [text, text'] at same
  obtain ⟨sign, body⟩ : a.isNegative = b.isNegative ∧ x = y := by
    cases left : a.isNegative <;> cases right : b.isNegative <;>
      simp only [left, right, Bool.false_eq_true, if_true, if_false] at same
    · exact ⟨rfl, same⟩
    · rw [starts] at same
      cases same
      cases digit
    · rw [starts'] at same
      cases same
      cases digit'
    · exact ⟨rfl, List.cons.inj same |>.2⟩
  have value : a.shortest.value = b.shortest.value := by rw [← reads.value, ← reads'.value, body]
  have spans := shortestSpans a
  rw [value] at spans
  exact signedEq sign (spansApart spans (shortestSpans b))

theorem canonicalMarks (d : Double) : (∀ c ∈ d.canonical, numeralMark c = true) ∧
    ('.' ∈ d.canonical ∨ 'e' ∈ d.canonical) ∧
    ∃ c rest, d.canonical = c :: rest ∧ (c.isDigit = true ∨ c = '-') := by
  obtain ⟨body, reads, text⟩ := writeReads canonicalStyle d
  obtain ⟨c, rest, starts, digit⟩ := reads.leads
  rw [canonical, text]
  split
  · exact ⟨List.forall_mem_cons.mpr ⟨rfl, reads.marks⟩,
      reads.fractional.imp (List.mem_cons_of_mem _) (List.mem_cons_of_mem _), '-', body, rfl,
      .inr rfl⟩
  · exact ⟨reads.marks, reads.fractional, c, rest, starts, .inl digit⟩

end Automation.Double
