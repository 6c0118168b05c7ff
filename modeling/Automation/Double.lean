/-! Binary floating point numbers of 64 bits, kept as their bit pattern. A finite number
is `significand · 2 ^ exponent` with a sign; rounding to the nearest number, ties to the
even significand, is exact arithmetic on naturals, and so are the products and
quotients by powers of ten that reading a decimal needs. -/
namespace Automation

structure Double where
  bits : UInt64
  deriving DecidableEq, Repr, Inhabited

namespace Double

def signBit : Nat := Nat.pow 2 63
def fractionSize : Nat := Nat.pow 2 52

def isNegative (d : Double) : Bool := signBit ≤ d.bits.toNat

def magnitude (d : Double) : Nat := d.bits.toNat % signBit

def biasedExponent (d : Double) : Nat := d.magnitude / fractionSize

def fraction (d : Double) : Nat := d.magnitude % fractionSize

def isFinite (d : Double) : Bool := d.biasedExponent < 2047
def isNaN (d : Double) : Bool := d.biasedExponent == 2047 && d.fraction != 0
def isZero (d : Double) : Bool := d.magnitude == 0

def significand (d : Double) : Nat :=
  if d.biasedExponent = 0 then d.fraction else d.fraction + fractionSize

def exponent (d : Double) : Int :=
  (max d.biasedExponent 1 : Nat) - 1075

/- Equality of numbers: the two zeros are equal and a NaN equals nothing. -/
def same (a b : Double) : Bool :=
  !a.isNaN && !b.isNaN && (a.bits == b.bits || (a.isZero && b.isZero))

def ofMagnitude (negative : Bool) (m : Nat) : Double :=
  ⟨UInt64.ofNat (if negative then m + signBit else m)⟩

def zero (negative : Bool) : Double := ofMagnitude negative 0
def infinity (negative : Bool) : Double := ofMagnitude negative (2047 * fractionSize)
def nan : Double := ofMagnitude false (2047 * fractionSize + Nat.pow 2 51)

def neg (d : Double) : Double := ofMagnitude (!d.isNegative) d.magnitude

def roundEven (num den : Nat) : Nat :=
  let q := num / den
  let r := num % den
  if 2 * r > den ∨ (2 * r = den ∧ q % 2 = 1) then q + 1 else q

def scale (num den : Nat) (e : Int) : Nat × Nat :=
  if 0 ≤ e then (num, den * Nat.pow 2 e.toNat) else (num * Nat.pow 2 (-e).toNat, den)

/- The exponent at which `num / den` fills the significand, not below the least one. -/
def fittingExponent (num den : Nat) : Int :=
  let guess : Int := (num.log2 : Int) - den.log2 - 52
  let (n, d) := scale num den guess
  max (if n / d < fractionSize then guess - 1 else guess) (-1074)

def nearest (negative : Bool) (num den : Nat) : Double :=
  if num = 0 then zero negative
  else
    let e := fittingExponent num den
    let (n, d) := scale num den e
    let m := roundEven n d
    let pattern :=
      if m < fractionSize then m else (e + 1075).toNat * fractionSize + (m - fractionSize)
    if 2047 * fractionSize ≤ pattern then infinity negative else ofMagnitude negative pattern

def ofNat (n : Nat) : Double := nearest false n 1

def toFraction (d : Double) : Nat × Nat :=
  if 0 ≤ d.exponent then (d.significand * Nat.pow 2 d.exponent.toNat, 1)
  else (d.significand, Nat.pow 2 (-d.exponent).toNat)

def times (a b : Double) : Double :=
  let (an, ad) := a.toFraction
  let (bn, bd) := b.toFraction
  nearest false (an * bn) (ad * bd)

def quotient (a b : Double) : Double :=
  let (an, ad) := a.toFraction
  let (bn, bd) := b.toFraction
  nearest false (an * bd) (ad * bn)

def powerOfTen (k : Nat) : Double := ofNat (Nat.pow 10 k)

def ofDecimal (negative : Bool) (digits : Nat) (power : Int) : Double :=
  if digits = 0 then zero negative
  else if power > 400 then infinity negative
  else if power < -(400 + digits.log2 : Nat) then zero negative
  else if 0 ≤ power then nearest negative (digits * Nat.pow 10 power.toNat) 1
  else nearest negative digits (Nat.pow 10 (-power).toNat)

end Double
end Automation
