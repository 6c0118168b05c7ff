import Mathlib.Algebra.Order.Field.Power
import Mathlib.Tactic.FieldSimp
import Mathlib.Tactic.Linarith
import Mathlib.Tactic.LinearCombination
import Mathlib.Tactic.NormNum
import Mathlib.Tactic.Positivity
import Mathlib.Tactic.Ring
import Automation.Double.Shortest
/-! Decimals that round to a number. The finite numbers without their signs lie on the line one
behind the other, and the decimals that round to one of them are those between the middles to the
one before and the one behind. The shortest decimal is one of these, so it belongs to one number
only. -/
namespace Automation.Double

def significandOf (magnitude : Nat) : Nat :=
  if magnitude / fractionSize = 0 then magnitude % fractionSize
  else magnitude % fractionSize + fractionSize

def level (magnitude : Nat) : Nat := max (magnitude / fractionSize) 1

def size (magnitude : Nat) : Nat := significandOf magnitude * 2 ^ (level magnitude - 1)

section
variable {m : Nat}

theorem fractionSizeIs : fractionSize = 4503599627370496 := rfl

theorem sizeNext (m : Nat) : size (m + 1) = size m + 2 ^ (level m - 1) := by
  have parts := Nat.div_add_mod m fractionSize
  have least := Nat.mod_lt m (show 0 < fractionSize by decide)
  unfold size significandOf level
  by_cases inside : m % fractionSize + 1 < fractionSize
  · have quotient : (m + 1) / fractionSize = m / fractionSize := by
      rw [fractionSizeIs] at *
      omega
    have remainder : (m + 1) % fractionSize = m % fractionSize + 1 := by
      rw [fractionSizeIs] at *
      omega
    rw [quotient, remainder]
    split <;> ring
  · have quotient : (m + 1) / fractionSize = m / fractionSize + 1 := by
      rw [fractionSizeIs] at *
      omega
    have remainder : (m + 1) % fractionSize = 0 := by
      rw [fractionSizeIs] at *
      omega
    have last : m % fractionSize = fractionSize - 1 := by omega
    rw [quotient, remainder, last]
    cases m / fractionSize with
    | zero => simp [fractionSizeIs]
    | succ q =>
      have up : max (q + 1 + 1) 1 - 1 = (max (q + 1) 1 - 1) + 1 := by omega
      rw [up, pow_succ, fractionSizeIs]
      simp only [Nat.add_one_ne_zero, if_false]
      ring

theorem sizeMono : StrictMono size := strictMono_nat_of_lt_succ fun m => by
  rw [sizeNext]
  exact Nat.lt_add_of_pos_right (Nat.two_pow_pos _)

def depth : Nat := 1076

/- The middle between a number and the one before it, twice over. -/
def edge (magnitude : Nat) : Nat := 2 * (size (magnitude - 1) + size magnitude)

/- The decimals that round to a number: those between the middles on either side of it, with the
middles if the significand is even. -/
def Spans (magnitude : Nat) (x : ℚ) : Prop :=
  if magnitude % 2 = 0 then edge magnitude ≤ x * 2 ^ depth ∧ x * 2 ^ depth ≤ edge (magnitude + 1)
  else edge magnitude < x * 2 ^ depth ∧ x * 2 ^ depth < edge (magnitude + 1)

theorem spansBetween {x : ℚ} (spans : Spans m x) :
    edge m ≤ x * 2 ^ depth ∧ x * 2 ^ depth ≤ edge (m + 1) := by
  unfold Spans at spans
  split at spans
  · exact spans
  · exact ⟨spans.1.le, spans.2.le⟩

theorem spansOrdered {n : Nat} {x : ℚ} (spans : Spans m x) (spans' : Spans n x) : ¬ m < n := by
  intro less
  have between := spansBetween spans
  have between' := spansBetween spans'
  have edges : edge n ≤ edge (m + 1) := by exact_mod_cast between'.1.trans between.2
  have lower := sizeMono.monotone (show m ≤ n - 1 by omega)
  have upper := sizeMono.monotone (show m + 1 ≤ n by omega)
  -- Only if the numbers follow on each other can the middles be the same.
  have next : n = m + 1 := by
    by_contra other
    have strictly := sizeMono (show m + 1 < n by omega)
    simp only [edge, Nat.add_sub_cancel] at edges
    omega
  subst next
  unfold Spans at spans spans'
  split at spans
  · rw [if_neg (by omega)] at spans'
    exact absurd spans.2 (not_le.mpr spans'.1)
  · rw [if_pos (by omega)] at spans'
    exact absurd spans'.1 (not_le.mpr spans.2)

theorem spansApart {n : Nat} {x : ℚ} (spans : Spans m x) (spans' : Spans n x) : m = n :=
  Nat.le_antisymm (not_lt.mp (spansOrdered spans' spans)) (not_lt.mp (spansOrdered spans spans'))

def below (magnitude : Nat) : Nat :=
  if significandOf magnitude = fractionSize ∧ 1 < magnitude / fractionSize then 1 else 2

theorem belowBefore (positive : 0 < m) :
    below m * 2 ^ (level m - 1) = 2 * 2 ^ (level (m - 1) - 1) := by
  have parts := Nat.div_add_mod m fractionSize
  have least := Nat.mod_lt m (show 0 < fractionSize by decide)
  unfold below significandOf level
  by_cases first : m % fractionSize = 0
  · have quotient : (m - 1) / fractionSize = m / fractionSize - 1 := by
      rw [fractionSizeIs] at *
      omega
    have normal : m / fractionSize ≠ 0 := by
      rw [fractionSizeIs] at *
      omega
    rw [quotient, first, if_neg normal, Nat.zero_add]
    by_cases higher : 1 < m / fractionSize
    · have up : max (m / fractionSize) 1 - 1 = (max (m / fractionSize - 1) 1 - 1) + 1 := by omega
      rw [if_pos ⟨rfl, higher⟩, up, pow_succ]
      ring
    · have one : m / fractionSize = 1 :=
        Nat.le_antisymm (not_lt.mp higher) (Nat.pos_of_ne_zero normal)
      simp [one]
  · have quotient : (m - 1) / fractionSize = m / fractionSize := by
      rw [fractionSizeIs] at *
      omega
    have inner : ¬ ((if m / fractionSize = 0 then m % fractionSize
        else m % fractionSize + fractionSize) = fractionSize ∧ 1 < m / fractionSize) := by
      rintro ⟨whole, higher⟩
      rw [if_neg (Nat.ne_zero_of_lt higher)] at whole
      omega
    rw [quotient, if_neg inner]

theorem edgeBelow (positive : 0 < m) :
    edge m = (4 * significandOf m - below m) * 2 ^ (level m - 1) := by
  have next := sizeNext (m - 1)
  rw [Nat.sub_add_cancel positive] at next
  rw [Nat.sub_mul, belowBefore positive, edge, Nat.mul_assoc, show significandOf m *
    2 ^ (level m - 1) = size m from rfl, next]
  omega

theorem edgeAbove (m : Nat) : edge (m + 1) = (4 * significandOf m + 2) * 2 ^ (level m - 1) := by
  rw [edge, Nat.add_sub_cancel, sizeNext, size]
  ring

theorem significandEven (m : Nat) : significandOf m % 2 = m % 2 := by
  have parts := Nat.div_add_mod m fractionSize
  unfold significandOf
  rw [fractionSizeIs] at *
  split <;> omega

end

theorem intervalIs (d : Double) : ∃ up down, 0 < up ∧ 0 < down ∧ down ≤ 2 ^ depth ∧
    up * 2 ^ depth = 2 ^ (level d.magnitude - 1) * down ∧
    d.interval = ⟨(4 * significandOf d.magnitude - below d.magnitude) * up,
      4 * significandOf d.magnitude * up, (4 * significandOf d.magnitude + 2) * up, down,
      d.magnitude % 2 == 0⟩ := by
  have least : 1 ≤ level d.magnitude := Nat.le_max_right _ _
  have power : d.exponent - 2 = (level d.magnitude : Int) - 1077 := by
    unfold exponent level biasedExponent
    omega
  unfold interval
  rw [power, ← significandEven]
  by_cases whole : (0 : Int) ≤ (level d.magnitude : Int) - 1077
  · refine ⟨2 ^ ((level d.magnitude : Int) - 1077).toNat, 1, Nat.two_pow_pos _, Nat.one_pos,
      Nat.one_le_two_pow, ?_, ?_⟩
    · rw [← pow_add, Nat.mul_one, depth]
      congr 1
      omega
    · simp only [if_pos whole]
      rfl
  · refine ⟨1, 2 ^ (-((level d.magnitude : Int) - 1077)).toNat, Nat.one_pos, Nat.two_pow_pos _,
      Nat.pow_le_pow_right Nat.two_pos (by rw [depth]; omega), ?_, ?_⟩
    · rw [← pow_add, Nat.one_mul, depth]
      congr 1
      omega
    · simp only [if_neg whole]
      rfl

section
variable {middle bound denominator den point : Nat} {x : ℚ}

theorem middleScaled (same : middle * denominator = bound * 2 ^ depth) (at' : x * den = point) :
    (middle : ℚ) * (den * denominator) = (bound * den : Nat) * 2 ^ depth ∧
      x * 2 ^ depth * (den * denominator) = (point * denominator : Nat) * 2 ^ depth := by
  have same' : (middle : ℚ) * denominator = bound * 2 ^ depth := by exact_mod_cast same
  push_cast
  constructor
  · linear_combination (den : ℚ) * same'
  · linear_combination 2 ^ depth * (denominator : ℚ) * at'

theorem middleLe (positive : 0 < den) (positive' : 0 < denominator)
    (same : middle * denominator = bound * 2 ^ depth) (at' : x * den = point) :
    (middle : ℚ) ≤ x * 2 ^ depth ↔ bound * den ≤ point * denominator := by
  obtain ⟨scaled, scaled'⟩ := middleScaled same at'
  have wide : (0 : ℚ) < den * denominator := by positivity
  rw [← mul_le_mul_iff_of_pos_right wide, scaled, scaled',
    mul_le_mul_iff_of_pos_right (by positivity), Nat.cast_le]

theorem leMiddle (positive : 0 < den) (positive' : 0 < denominator)
    (same : middle * denominator = bound * 2 ^ depth) (at' : x * den = point) :
    x * 2 ^ depth ≤ middle ↔ point * denominator ≤ bound * den := by
  obtain ⟨scaled, scaled'⟩ := middleScaled same at'
  have wide : (0 : ℚ) < den * denominator := by positivity
  rw [← mul_le_mul_iff_of_pos_right wide, scaled, scaled',
    mul_le_mul_iff_of_pos_right (by positivity), Nat.cast_le]

end

theorem powerFractionIs (k : Int) : 0 < (powerFraction k).1 ∧ 0 < (powerFraction k).2 ∧
    (10 : ℚ) ^ k * (powerFraction k).2 = (powerFraction k).1 := by
  unfold powerFraction
  split
  · rename_i whole
    refine ⟨Nat.pow_pos (by decide), Nat.one_pos, ?_⟩
    have same : (10 : ℚ) ^ k = 10 ^ k.toNat := by
      rw [← zpow_natCast, Int.toNat_of_nonneg whole]
    rw [same]
    simp
  · rename_i less
    refine ⟨Nat.one_pos, Nat.pow_pos (by decide), ?_⟩
    have same : (10 : ℚ) ^ k = (10 ^ (-k).toNat)⁻¹ := by
      rw [← zpow_natCast, Int.toNat_of_nonneg (by omega), zpow_neg, inv_inv]
    rw [same]
    simp

theorem holdsSpans {d : Double} (positive : 0 < d.magnitude) {c : Nat} {k : Int}
    (holds : d.interval.holds c (powerFraction k).1 (powerFraction k).2 = true) :
    Spans d.magnitude (c * 10 ^ k) := by
  obtain ⟨-, wide, power⟩ := powerFractionIs k
  obtain ⟨up, down, -, deep, -, units, same⟩ := intervalIs d
  have at' : (c * 10 ^ k : ℚ) * (powerFraction k).2 = (c * (powerFraction k).1 : Nat) := by
    push_cast
    linear_combination (c : ℚ) * power
  have low : edge d.magnitude * down =
      (4 * significandOf d.magnitude - below d.magnitude) * up * 2 ^ depth := by
    rw [edgeBelow positive, Nat.mul_assoc, ← units, Nat.mul_assoc]
  have high : edge (d.magnitude + 1) * down =
      (4 * significandOf d.magnitude + 2) * up * 2 ^ depth := by
    rw [edgeAbove, Nat.mul_assoc, ← units, Nat.mul_assoc]
  unfold Spans
  rw [same] at holds
  unfold Interval.holds at holds
  by_cases even : d.magnitude % 2 = 0
  · simp only [even, beq_self_eq_true, if_true, Bool.and_eq_true, decide_eq_true_eq] at holds
    rw [if_pos even, middleLe wide deep low at', leMiddle wide deep high at']
    exact holds
  · simp only [beq_eq_false_iff_ne.mpr even, Bool.false_eq_true, if_false, Bool.and_eq_true,
      decide_eq_true_eq] at holds
    rw [if_neg even, ← not_le, ← not_le, leMiddle wide deep low at', middleLe wide deep high at',
      not_le, not_le]
    exact holds

theorem onGridHolds {i : Interval} {power : Int} {c : Nat} (found : i.onGrid power = some c) :
    i.holds c (powerFraction power).1 (powerFraction power).2 = true := by
  unfold Interval.onGrid at found
  dsimp only at found
  split at found
  · cases found
  · cases found
    assumption
  · cases found
    assumption
  · split at found <;> cases found <;> assumption

theorem onGridNone {i : Interval} {power : Int} (deep : 0 < i.denominator)
    (ordered : i.low ≤ i.value ∧ i.value < i.high) (none' : i.onGrid power = none) :
    (i.high - i.low) * (powerFraction power).2 ≤ (powerFraction power).1 * i.denominator := by
  obtain ⟨long, wide, -⟩ := powerFractionIs power
  unfold Interval.onGrid at none'
  dsimp only at none'
  generalize (powerFraction power).1 = num at long none' ⊢
  generalize (powerFraction power).2 = den at wide none' ⊢
  have step : 0 < num * i.denominator := Nat.mul_pos long deep
  have parts := Nat.div_add_mod (i.value * den) (num * i.denominator)
  have rest := Nat.mod_lt (i.value * den) step
  generalize i.value * den / (num * i.denominator) = floor at none' parts
  have down : floor * num * i.denominator = num * i.denominator * floor := by ring
  have up : (floor + 1) * num * i.denominator =
      num * i.denominator * floor + num * i.denominator := by ring
  have lower := Nat.mul_le_mul_right den ordered.1
  have upper := Nat.mul_lt_mul_of_pos_right ordered.2 wide
  have missed : i.holds floor num den = false ∧ i.holds (floor + 1) num den = false := by
    split at none'
    · exact ⟨‹_›, ‹_›⟩
    · cases none'
    · cases none'
    · split at none' <;> cases none'
  rw [Nat.sub_mul]
  obtain ⟨first, second⟩ := missed
  unfold Interval.holds at first second
  dsimp only at first second
  rw [down] at first
  rw [up] at second
  generalize num * i.denominator * floor = past at first second parts
  generalize i.value * den % (num * i.denominator) = beyond at parts rest
  cases closed : i.closed with
  | true =>
    simp only [closed, if_true, Bool.and_eq_false_iff, decide_eq_false_iff_not, not_le] at first second
    omega
  | false =>
    simp only [closed, Bool.false_eq_true, if_false, Bool.and_eq_false_iff,
      decide_eq_false_iff_not, not_lt] at first second
    omega

theorem climbBelow {den : Nat} (fuel n j : Nat) (k : Int) (less : j < fuel)
    (reached : den ≤ n * 10 ^ j) :
    (10 : ℚ) ^ leadingPower.climb den fuel n k * den ≤ n * 10 ^ k := by
  induction fuel generalizing n j k with
  | zero => omega
  | succ fuel ih =>
    unfold leadingPower.climb
    split
    · rename_i here
      have here' : (den : ℚ) ≤ n := by exact_mod_cast here
      rw [mul_comm]
      exact mul_le_mul_of_nonneg_right here' (by positivity)
    · rename_i above
      obtain ⟨j, rfl⟩ : ∃ i, j = i + 1 := by
        cases j with
        | zero => simp at reached; omega
        | succ j => exact ⟨j, rfl⟩
      have onward := ih (n * 10) j (k - 1) (by omega) (by rw [pow_succ] at reached; linarith)
      refine onward.trans (le_of_eq ?_)
      rw [zpow_sub_one₀ (by norm_num)]
      push_cast
      ring

theorem leadingBelow {num den : Nat} (deep : 0 < den) (reached : den ≤ num * 10 ^ 399) :
    (10 : ℚ) ^ leadingPower num den * den ≤ num := by
  unfold leadingPower
  split
  · rename_i whole
    have positive := Nat.div_pos whole deep
    have digits := Nat.length_toDigits_pos (b := 10) (n := num / den)
    generalize length : (Nat.toDigits 10 (num / den)).length = l at digits
    have few : 10 ^ (l - 1) ≤ num / den := by
      by_contra more
      cases l with
      | zero => omega
      | succ l =>
        cases l with
        | zero => simp at more; omega
        | succ l =>
          have shorter := (Nat.length_toDigits_le_iff (by decide) (Nat.succ_pos l)).mpr
            (not_le.mp more)
          omega
    have power : (10 : ℚ) ^ ((l : Int) - 1) = 10 ^ (l - 1) := by
      rw [← zpow_natCast]
      congr 1
      omega
    have product : 10 ^ (l - 1) * den ≤ num := (Nat.mul_le_mul_right den few).trans
      (Nat.div_mul_le_self num den)
    rw [power]
    exact_mod_cast product
  · have climbed := climbBelow 400 num 399 0 (by decide) reached
    simpa using climbed

theorem significandBelow (m : Nat) : significandOf m < 2 * fractionSize := by
  have least := Nat.mod_lt m (show 0 < fractionSize by decide)
  unfold significandOf
  split <;> omega

theorem significandPositive {m : Nat} (positive : 0 < m) : 0 < significandOf m := by
  have parts := Nat.div_add_mod m fractionSize
  unfold significandOf
  split
  · rename_i small
    rw [small] at parts
    omega
  · exact Nat.add_pos_right _ (by decide)

theorem eightBelow (n : Nat) : 2 ^ (3 * n) ≤ 10 ^ n := by
  rw [pow_mul]
  exact Nat.pow_le_pow_left (by decide) n

theorem depthBelow : 2 ^ depth ≤ 10 ^ 399 :=
  (Nat.pow_le_pow_right (by decide) (by decide)).trans (eightBelow 399)

theorem gridHit {d : Double} (positive : 0 < d.magnitude) :
    (d.interval.onGrid (leadingPower d.interval.value d.interval.denominator - 16)).isSome := by
  obtain ⟨up, down, high, deep, bounded, units, same⟩ := intervalIs d
  have significant := significandPositive positive
  have small := significandBelow d.magnitude
  have whole : below d.magnitude = 2 ∨ below d.magnitude = 1 ∧
      significandOf d.magnitude = fractionSize := by
    unfold below
    split
    · rename_i first
      exact .inr ⟨rfl, first.1⟩
    · exact .inl rfl
  rw [same]
  generalize significandOf d.magnitude = m at significant small whole same
  generalize below d.magnitude = b at whole same
  have less : b ≤ 4 * m := by omega
  -- Were no point of the grid in the interval, the interval would be no longer than a step, which
  -- is too short for a significand of 53 bits.
  rw [Option.isSome_iff_ne_none]
  intro missed
  have value : 0 < 4 * m * up := Nat.mul_pos (by omega) high
  have reached : down ≤ 4 * m * up * 10 ^ 399 :=
    (bounded.trans depthBelow).trans (Nat.le_mul_of_pos_left _ value)
  clear bounded units
  have leading := leadingBelow deep reached
  dsimp only at missed
  generalize leadingPower (4 * m * up) down = lead at leading missed
  have long := onGridNone (by exact deep)
    ⟨Nat.mul_le_mul_right up (Nat.sub_le _ _),
      Nat.mul_lt_mul_of_pos_right (Nat.lt_add_of_pos_right (by decide)) high⟩ missed
  obtain ⟨-, wide, power⟩ := powerFractionIs (lead - 16)
  dsimp only at long
  rw [← Nat.sub_mul, show 4 * m + 2 - (4 * m - b) = 2 + b by omega] at long
  have long' : (((2 + b) * up : Nat) : ℚ) * (powerFraction (lead - 16)).2 ≤
      (powerFraction (lead - 16)).1 * down := by exact_mod_cast long
  have steps : (10 : ℚ) ^ lead = 10 ^ (lead - 16) * 10 ^ 16 := by
    rw [← zpow_natCast (10 : ℚ) 16, ← zpow_add₀ (by norm_num)]
    congr 1
    omega
  have wide' : (0 : ℚ) < (powerFraction (lead - 16)).2 := by exact_mod_cast wide
  have length : (((2 + b) * up : Nat) : ℚ) ≤ 10 ^ (lead - 16) * down := by
    rw [← power] at long'
    refine le_of_mul_le_mul_right (long'.trans (le_of_eq ?_)) wide'
    ring
  have scaled : (((2 + b) * up : Nat) : ℚ) * 10 ^ 16 ≤ (4 * m * up : Nat) := by
    refine (mul_le_mul_of_nonneg_right length (by norm_num)).trans (le_trans (le_of_eq ?_) leading)
    rw [steps]
    ring
  have scaled' : (2 + b) * 10 ^ 16 * up ≤ 4 * m * up := by
    have cast : (2 + b) * up * 10 ^ 16 ≤ 4 * m * up := by exact_mod_cast scaled
    linarith
  have bound := Nat.le_of_mul_le_mul_right scaled' high
  rw [fractionSizeIs] at small whole
  omega

def Decimal.value (d : Decimal) : ℚ := d.digits * 10 ^ d.power

theorem dropZerosValue (fuel : Nat) (d : Decimal) : (dropZeros fuel d).value = d.value := by
  induction fuel generalizing d with
  | zero => rfl
  | succ fuel ih =>
    unfold dropZeros
    split
    · rename_i zero
      rw [ih]
      have digits : (d.digits : ℚ) = (d.digits / 10 : Nat) * 10 := by
        exact_mod_cast (Nat.div_mul_cancel (Nat.dvd_of_mod_eq_zero zero.2)).symm
      simp only [Decimal.value]
      rw [digits, zpow_add_one₀ (by norm_num)]
      ring
    · rfl

theorem shortestSpans (d : Double) : Spans d.magnitude d.shortest.value := by
  unfold shortest
  split
  · rename_i zero
    have zero' : d.magnitude = 0 := beq_iff_eq.mp zero
    have first : edge 0 = 0 := by decide
    rw [zero', Spans, if_pos rfl, Decimal.value, first]
    simp
  · rename_i other
    have positive : 0 < d.magnitude := Nat.pos_of_ne_zero fun zero => other (beq_iff_eq.mpr zero)
    dsimp only
    split
    · rename_i found hit
      obtain ⟨n, -, tried⟩ := List.exists_of_findSome?_eq_some hit
      obtain ⟨c, onGrid, same⟩ := Option.map_eq_some_iff.mp tried
      rw [dropZerosValue, ← same]
      exact holdsSpans positive (onGridHolds onGrid)
    · rename_i missed
      have last := List.findSome?_eq_none_iff.mp missed 16 (List.mem_range.mpr (by decide))
      have hit := gridHit positive
      rw [Option.map_eq_none_iff] at last
      rw [show ((16 : Nat) : Int) = 16 from rfl] at last
      rw [last] at hit
      cases hit

end Automation.Double
