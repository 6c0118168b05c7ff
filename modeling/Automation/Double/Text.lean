import Automation.Double.Shortest
/-! Texts of floating point numbers. A style says which decimal exponents are written
positionally and how an exponent is written; every finite number has a point or an
exponent in its text, so it is never mistaken for an integer. -/
namespace Automation.Double

structure Style where
  least : Int
  most : Int
  plus : Bool
  deriving DecidableEq, Repr

def canonicalStyle : Style := ⟨-5, 15, true⟩

def plainStyle : Style := ⟨-5, 15, false⟩

def positionalStyle : Style := ⟨-400, 400, false⟩

def positional (digits : List Char) (power : Int) : List Char :=
  if 0 ≤ power then digits ++ List.replicate power.toNat '0' ++ ['.', '0']
  else
    let places := (-power).toNat
    if places < digits.length then
      let whole := digits.length - places
      digits.take whole ++ '.' :: digits.drop whole
    else '0' :: '.' :: List.replicate (places - digits.length) '0' ++ digits

def scientific (plus : Bool) (digits : List Char) (e : Int) : List Char :=
  let body := match digits with
    | [] => []
    | [d] => [d]
    | d :: rest => d :: '.' :: rest
  let sign := if e < 0 then ['-'] else if plus then ['+'] else []
  body ++ 'e' :: sign ++ Nat.toDigits 10 e.natAbs

def Style.write (style : Style) (d : Double) : List Char :=
  let decimal := d.shortest
  let digits := Nat.toDigits 10 decimal.digits
  let e : Int := decimal.power + digits.length - 1
  let body :=
    if style.least ≤ e ∧ e ≤ style.most then positional digits decimal.power
    else scientific style.plus digits e
  if d.isNegative then '-' :: body else body

def canonical (d : Double) : List Char := canonicalStyle.write d

end Automation.Double
