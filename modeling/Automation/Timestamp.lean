import Automation.Text.Blank
import Automation.Text.Digits
/-! Moments in universal time and their text after RFC 3339. Reading is lenient about
blanks: they may stand before every number and separator, a blank or `t` may stand for
`T`, and the offset may be `Z`, `UTC`, or a sign with hours and minutes. A leap second is
second sixty; it is kept as second fifty-nine with a billion or more nanoseconds. Writing
gives no fraction or three, six or nine places, whichever is exact. -/
namespace Automation
open Automation.Text

structure Timestamp where
  seconds : Int
  nanos : Nat
  deriving DecidableEq, Repr, Inhabited

namespace Timestamp

structure Date where
  year : Int
  month : Nat
  day : Nat
  deriving DecidableEq, Repr

def isLeapYear (y : Int) : Bool := y % 4 == 0 && (y % 100 != 0 || y % 400 == 0)

def daysIn (y : Int) (month : Nat) : Nat :=
  if month = 2 then (if isLeapYear y then 29 else 28)
  else if month = 4 ∨ month = 6 ∨ month = 9 ∨ month = 11 then 30
  else 31

/- Days since the start of 1970; years are taken to begin in March. -/
def Date.toDays (d : Date) : Int :=
  let y := if d.month ≤ 2 then d.year - 1 else d.year
  let shifted : Int := if d.month > 2 then d.month - 3 else d.month + 9
  let era := Int.fdiv y 400
  let yearOfEra := y - era * 400
  let dayOfYear := (153 * shifted + 2) / 5 + d.day - 1
  era * 146097 + yearOfEra * 365 + yearOfEra / 4 - yearOfEra / 100 + dayOfYear - 719468

def Date.ofDays (days : Int) : Date :=
  let z := days + 719468
  let era := Int.fdiv z 146097
  let dayOfEra := z - era * 146097
  let yearOfEra := (dayOfEra - dayOfEra / 1460 + dayOfEra / 36524 - dayOfEra / 146096) / 365
  let dayOfYear := dayOfEra - (365 * yearOfEra + yearOfEra / 4 - yearOfEra / 100)
  let shifted := (5 * dayOfYear + 2) / 153
  let day := (dayOfYear - (153 * shifted + 2) / 5 + 1).toNat
  let month := if shifted < 10 then (shifted + 3).toNat else (shifted - 9).toNat
  let y := yearOfEra + era * 400
  ⟨if month ≤ 2 then y + 1 else y, month, day⟩

def number (most : Nat) (cs : List Char) : Option (Nat × List Char) :=
  let ds := (cs.take most).takeWhile isDecimal
  (readDigits? 10 ds).map fun n => (n, cs.drop ds.length)

def pair (least most : Nat) (cs : List Char) : Option (Nat × List Char) :=
  (number 2 (trimLeft cs)).bind fun (n, rest) =>
    if least ≤ n ∧ n ≤ most then some (n, rest) else none

def year? (cs : List Char) : Option (Int × List Char) :=
  match trimLeft cs with
  | '-' :: rest => (number rest.length rest).map fun (n, rest) => (-(n : Int), rest)
  | '+' :: rest => (number rest.length rest).map fun (n, rest) => ((n : Int), rest)
  | rest => (number 4 rest).map fun (n, rest) => ((n : Int), rest)

def separator (mark : Char) (cs : List Char) : Option (List Char) :=
  match trimLeft cs with
  | c :: rest => if c = mark then some rest else none
  | [] => none

def date? (cs : List Char) : Option (Date × List Char) := do
  let (y, cs) ← year? cs
  let cs ← separator '-' cs
  let (m, cs) ← pair 1 12 cs
  let cs ← separator '-' cs
  let (d, cs) ← pair 1 31 cs
  if -262143 ≤ y ∧ y ≤ 262142 ∧ d ≤ daysIn y m then some (⟨y, m, d⟩, cs) else none

def fraction? : List Char → Option (Nat × List Char)
  | '.' :: cs =>
    let ds := (cs.take 9).takeWhile isDecimal
    (readDigits? 10 ds).map fun n =>
      (n * Nat.pow 10 (9 - ds.length), (cs.drop ds.length).dropWhile isDecimal)
  | cs => some (0, cs)

def timeOfDay? (cs : List Char) : Option (Nat × Nat × List Char) := do
  let (h, cs) ← pair 0 23 cs
  let cs ← separator ':' cs
  let (m, cs) ← pair 0 59 cs
  let cs ← separator ':' cs
  let (s, cs) ← pair 0 60 cs
  let (nanos, cs) ← fraction? cs
  let whole := h * 3600 + m * 60
  if s = 60 then some (whole + 59, nanos + 1000000000, cs) else some (whole + s, nanos, cs)

def hoursMinutes? (cs : List Char) : Option (Nat × List Char) := do
  match cs with
  | a :: b :: rest =>
    let a ← digitIn? 10 a
    let b ← digitIn? 10 b
    match rest.dropWhile fun c => c == ':' || isBlank c with
    | c :: d :: rest =>
      let c ← digitIn? 6 c
      let d ← digitIn? 10 d
      some ((a * 10 + b) * 3600 + (c * 10 + d) * 60, rest)
    | _ => none
  | _ => none

def offset? (cs : List Char) : Option (Int × List Char) :=
  let bounded (sign : Int) (rest : List Char) : Option (Int × List Char) :=
    (hoursMinutes? rest).bind fun (n, rest) =>
      if n < 86400 then some (sign * n, rest) else none
  match trimLeft cs with
  | c :: rest =>
    if c == 'Z' || c == 'z' then some (0, rest)
    else if c == '+' then bounded 1 rest
    else if c == '-' || c.toNat == 0x2212 then bounded (-1) rest
    else match c, rest with
      | c, t :: u :: rest =>
        if (c == 'U' || c == 'u') && (t == 'T' || t == 't') && (u == 'C' || u == 'c') then
          some (0, rest)
        else none
      | _, _ => none
  | [] => none

def leastSecond : Int := (⟨-262143, 1, 1⟩ : Date).toDays * 86400
def greatestSecond : Int := (⟨262142, 12, 31⟩ : Date).toDays * 86400 + 86399

def read? (text : String) : Option Timestamp := do
  let (date, cs) ← date? text.toList
  let cs ← match cs with
    | c :: rest => if c == 'T' || c == 't' || c == ' ' then some rest else none
    | [] => none
  let (second, nanos, cs) ← timeOfDay? cs
  let (east, cs) ← offset? cs
  if !(trimLeft cs).isEmpty then none
  let seconds := date.toDays * 86400 + second - east
  if leastSecond ≤ seconds ∧ seconds ≤ greatestSecond then some ⟨seconds, nanos⟩ else none

def yearText (y : Int) : List Char :=
  if 0 ≤ y ∧ y ≤ 9999 then padded 10 4 y.natAbs
  else (if y < 0 then '-' else '+') :: padded 10 4 y.natAbs

def fractionText (nanos : Nat) : List Char :=
  if nanos = 0 then []
  else if nanos % 1000000 = 0 then '.' :: padded 10 3 (nanos / 1000000)
  else if nanos % 1000 = 0 then '.' :: padded 10 6 (nanos / 1000)
  else '.' :: padded 10 9 nanos

def write (t : Timestamp) : String :=
  let days := Int.fdiv t.seconds 86400
  let second := (t.seconds - days * 86400).toNat
  let date := Date.ofDays days
  let leap := 1000000000 ≤ t.nanos
  let nanos := if leap then t.nanos - 1000000000 else t.nanos
  let s := second % 60 + (if leap then 1 else 0)
  String.ofList <|
    yearText date.year ++ '-' :: padded 10 2 date.month ++ '-' :: padded 10 2 date.day ++
    'T' :: padded 10 2 (second / 3600) ++ ':' :: padded 10 2 (second / 60 % 60) ++
    ':' :: padded 10 2 s ++ fractionText nanos ++ ['Z']

def millis (t : Timestamp) : Int := t.seconds * 1000 + (t.nanos / 1000000 : Nat)

end Timestamp
end Automation
