import Automation.Json
/-! Numbers as JSON texts spell them. A plain integer of 64 bits stays an integer. Any
other number keeps as many leading digits as fit 64 bits unsigned, and is that
significand times or over one power of ten, each step rounded to the nearest number;
powers beyond three hundred and eight are taken in portions of that size. A number too
large for a finite result has no value. -/
namespace Automation.Json.Number

def wordLimit : Nat := Nat.pow 2 64

def leading (acc : Nat) : List Nat → Nat × Nat
  | [] => (acc, 0)
  | d :: rest =>
    if acc * 10 + d < wordLimit then leading (acc * 10 + d) rest else (acc, rest.length + 1)

def shift (fuel : Nat) (value : Double) (power : Int) : Option Double :=
  match fuel with
  | 0 => some value
  | fuel + 1 =>
    if power.natAbs ≤ 308 then
      if 0 ≤ power then
        let product := value.times (Double.powerOfTen power.natAbs)
        if product.isFinite then some product else none
      else some (value.quotient (Double.powerOfTen power.natAbs))
    else if value.isZero then some value
    else if 0 ≤ power then none
    else shift fuel (value.quotient (Double.powerOfTen 308)) (power + 308)

def signed (negative : Bool) (d : Double) : Double := if negative then d.neg else d

def exponentLimit : Nat := Nat.pow 2 31

def floating (negative : Bool) (significand : Nat) (power : Int) : Option Json :=
  (shift 8 (Double.ofNat significand) power).map fun d => double (signed negative d)

def value (negative : Bool) (whole : List Nat) (behind : Option (List Nat))
    (exponent : Option (Bool × List Nat)) : Option Json :=
  let (kept, excess) := leading 0 whole
  match behind, exponent with
  | none, none =>
    if excess ≠ 0 then floating negative kept excess
    else if !negative then some (int kept)
    else if kept = 0 ∨ Nat.pow 2 63 < kept then some (double (signed true (Double.ofNat kept)))
    else some (int (-(kept : Int)))
  | _, _ =>
    let places := behind.getD []
    let (significand, dropped) := leading kept places
    let power : Int := (excess : Int) - ((places.length - dropped : Nat) : Int)
    match exponent with
    | none => floating negative significand power
    | some (down, digits) =>
      let e := digits.foldl (fun n d => n * 10 + d) 0
      if exponentLimit ≤ e then
        if significand ≠ 0 ∧ !down then none else some (double (Double.zero negative))
      else floating negative significand (if down then power - e else power + e)

end Automation.Json.Number
