/-! Digits: numbers written in a base, padded to a least width, and runs of digits read
back. Writing is `Nat.toDigits`; what is added here is padding, signs and reading. -/
namespace Automation.Text

def digitValue? (c : Char) : Option Nat :=
  let n := c.toNat
  if 48 ≤ n ∧ n ≤ 57 then some (n - 48)
  else if 97 ≤ n ∧ n ≤ 122 then some (n - 87)
  else if 65 ≤ n ∧ n ≤ 90 then some (n - 55)
  else none

def digitIn? (base : Nat) (c : Char) : Option Nat :=
  (digitValue? c).bind fun d => if d < base then some d else none

def isDecimal (c : Char) : Bool := 48 ≤ c.toNat && c.toNat ≤ 57

def isHex (c : Char) : Bool := (digitIn? 16 c).isSome

def decimal (n : Nat) : List Char := Nat.toDigits 10 n

def decimalInt (n : Int) : List Char :=
  if n < 0 then '-' :: decimal n.natAbs else decimal n.natAbs

def padded (base width n : Nat) : List Char :=
  let ds := Nat.toDigits base n
  List.replicate (width - ds.length) '0' ++ ds

def hexWord (width n : Nat) : String := String.ofList ('0' :: 'x' :: padded 16 width n)

def readDigits? (base : Nat) (cs : List Char) : Option Nat :=
  if cs.isEmpty then none
  else cs.foldl (fun acc c => acc.bind fun n => (digitIn? base c).map (n * base + ·)) (some 0)

end Automation.Text
