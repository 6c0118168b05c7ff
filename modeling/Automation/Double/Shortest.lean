import Automation.Double
/-! The fewest decimal digits that read back as the same number. The decimals that round
to a number form an interval, closed iff its significand is even; for one digit, two
digits and so on the two grid points next to the number are tried, and the first grid
with a point in the interval gives the digits, the nearer point of two. -/
namespace Automation.Double

structure Decimal where
  digits : Nat
  power : Int
  deriving DecidableEq, Repr

/- A positive number and the ends of its interval over one denominator. -/
structure Interval where
  low : Nat
  value : Nat
  high : Nat
  denominator : Nat
  closed : Bool
  deriving DecidableEq, Repr

def interval (d : Double) : Interval :=
  let m := d.significand
  let below := if m = fractionSize ∧ 1 < d.biasedExponent then 1 else 2
  let q := d.exponent - 2
  let (up, down) := if 0 ≤ q then (Nat.pow 2 q.toNat, 1) else (1, Nat.pow 2 (-q).toNat)
  ⟨(4 * m - below) * up, 4 * m * up, (4 * m + 2) * up, down, m % 2 == 0⟩

def Interval.holds (i : Interval) (c num den : Nat) : Bool :=
  let x := c * num * i.denominator
  if i.closed then i.low * den ≤ x && x ≤ i.high * den
  else i.low * den < x && x < i.high * den

def leadingPower (num den : Nat) : Int :=
  if den ≤ num then ((Nat.toDigits 10 (num / den)).length : Int) - 1
  else
    let rec climb (fuel num : Nat) (k : Int) : Int :=
      match fuel with
      | 0 => k
      | fuel + 1 => if den ≤ num then k else climb fuel (num * 10) (k - 1)
    climb 400 num 0

def powerFraction (k : Int) : Nat × Nat :=
  if 0 ≤ k then (Nat.pow 10 k.toNat, 1) else (1, Nat.pow 10 (-k).toNat)

def Interval.onGrid (i : Interval) (power : Int) : Option Nat :=
  let (num, den) := powerFraction power
  let step := num * i.denominator
  let floor := i.value * den / step
  let past := i.value * den % step
  let lower := i.holds floor num den
  let upper := i.holds (floor + 1) num den
  match lower, upper with
  | false, false => none
  | true, false => some floor
  | false, true => some (floor + 1)
  | true, true =>
    if 2 * past > step ∨ (2 * past = step ∧ floor % 2 = 1) then some (floor + 1) else some floor

def dropZeros (fuel : Nat) (d : Decimal) : Decimal :=
  match fuel with
  | 0 => d
  | fuel + 1 =>
    if d.digits ≠ 0 ∧ d.digits % 10 = 0 then dropZeros fuel ⟨d.digits / 10, d.power + 1⟩ else d

def shortest (d : Double) : Decimal :=
  if d.isZero then ⟨0, 0⟩
  else
    let i := d.interval
    let lead := leadingPower i.value i.denominator
    let hit := (List.range 17).findSome? fun (n : Nat) =>
      (i.onGrid (lead - n)).map fun c => (⟨c, lead - n⟩ : Decimal)
    match hit with
    | some found => dropZeros 20 found
    | none => ⟨d.significand, 0⟩

end Automation.Double
