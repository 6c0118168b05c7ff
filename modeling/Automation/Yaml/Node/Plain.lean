import Automation.Yaml.Node
import Automation.Text.Digits
/-! The types of plain scalars. A plain scalar is null, a truth value, an integer in one of
four bases, a floating point number, or else a text. Digits behind a leading zero are a
text. An integer outside of 64 bits is no value if 128 bits would hold it, and a floating
point number if not. -/
namespace Automation.Yaml
open Automation.Text (isDecimal readDigits?)

def nullWords : List String := ["", "null", "Null", "NULL", "~"]

def truth? (s : String) : Option Bool :=
  if s == "true" || s == "True" || s == "TRUE" then some true
  else if s == "false" || s == "False" || s == "FALSE" then some false
  else none

def isSign (c : Char) : Bool := c == '+' || c == '-'

def startsSigned (cs : List Char) : Bool := cs.head?.any isSign

def dropSign (sign : Char) (cs : List Char) : List Char :=
  if cs.head? == some sign then cs.drop 1 else cs

def isPaddedNumber (cs : List Char) : Bool :=
  let cs := if startsSigned cs then cs.drop 1 else cs
  1 < cs.length && cs.head? == some '0' && cs.all isDecimal

def baseOf? (c : Char) : Option Nat :=
  if c == 'x' then some 16 else if c == 'o' then some 8 else if c == 'b' then some 2 else none

def readBased? : List Char → Option Nat
  | '0' :: c :: digits => (baseOf? c).bind fun base => readDigits? base digits
  | _ => none

def natural? (cs : List Char) : Option Nat :=
  let body := dropSign '+' cs
  match readBased? body with
  | some n => some n
  | none => if startsSigned body || isPaddedNumber cs then none else readDigits? 10 body

def negative? (cs : List Char) : Option Int :=
  match cs with
  | '-' :: body =>
    match readBased? body with
    | some n => some (-(n : Int))
    | none => if isPaddedNumber cs then none else (readDigits? 10 body).map fun n => -(n : Int)
  | _ => none

/- An integer; none inside if it is too large for 64 bits but not for 128. -/
def integer? (cs : List Char) : Option (Option Int) :=
  match natural? cs, negative? cs with
  | some n, _ => if n < Nat.pow 2 64 then some (some n) else if n < Nat.pow 2 128 then some none else none
  | none, some n =>
    if -Int.pow 2 63 ≤ n then some (some n) else if -Int.pow 2 127 ≤ n then some none else none
  | none, none => none

def readMantissa (cs : List Char) : Option (Nat × Int × List Char) :=
  let whole := cs.takeWhile isDecimal
  let rest := cs.dropWhile isDecimal
  let (places, rest) := match rest with
    | '.' :: rest => (rest.takeWhile isDecimal, rest.dropWhile isDecimal)
    | rest => ([], rest)
  (readDigits? 10 (whole ++ places)).map fun n => (n, -(places.length : Int), rest)

def readExponent : List Char → Option Int
  | [] => some 0
  | e :: rest =>
    if e == 'e' || e == 'E' then
      match rest with
      | '-' :: digits => (readDigits? 10 digits).map fun n => -(n : Int)
      | '+' :: digits => (readDigits? 10 digits).map fun n => (n : Int)
      | digits => (readDigits? 10 digits).map fun n => (n : Int)
    else none

def finite? (cs : List Char) : Option Double := do
  let negative := cs.head? == some '-'
  let (digits, power, rest) ← readMantissa (if startsSigned cs then cs.drop 1 else cs)
  let exponent ← readExponent rest
  let d := Double.ofDecimal negative digits (power + exponent)
  if d.isFinite then some d else none

def infinityWords : List String := [".inf", ".Inf", ".INF"]

def nanWords : List String := [".nan", ".NaN", ".NAN"]

def floating? (cs : List Char) : Option Double :=
  let body := dropSign '+' cs
  if cs.head? == some '+' && startsSigned body then none
  else if infinityWords.contains (String.ofList body) then some (Double.infinity false)
  else if cs.head? == some '-' && infinityWords.contains (String.ofList (cs.drop 1)) then
    some (Double.infinity true)
  else if nanWords.contains (String.ofList cs) then some Double.nan
  else finite? body

namespace Node

def ofPlain (s : String) : Except Fault Node :=
  let cs := s.toList
  if nullWords.contains s then .ok null
  else match truth? s with
    | some b => .ok (bool b)
    | none => match integer? cs with
      | some (some n) => .ok (int n)
      | some none => .error .misplaced
      | none =>
        if isPaddedNumber cs then .ok (str s)
        else match floating? cs with
          | some d => .ok (double d)
          | none => .ok (str s)

def typePart : String := "tag:yaml.org,2002:"

/- The value of a scalar under a tag that names a type: it has to be of the type. Any other
tag leaves a text. -/
def ofTyped (tag s : String) : Except Fault Node :=
  let cs := s.toList
  let fits (found : Option Node) : Except Fault Node :=
    match found with
    | some n => .ok n
    | none => .error .misplaced
  if tag == typePart ++ "bool" then fits ((truth? s).map bool)
  else if tag == typePart ++ "int" then fits ((integer? cs).join.map int)
  else if tag == typePart ++ "float" then fits ((floating? cs).map double)
  else if tag == typePart ++ "null" then
    fits (if s != "" && nullWords.contains s then some null else none)
  else .ok (str s)

end Node
end Automation.Yaml
