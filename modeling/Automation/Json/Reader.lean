import Automation.Json.Number
import Automation.Text.Digits
/-! Reading JSON text. Each reader takes the characters still ahead and gives what it
read with the characters behind it, or nothing when the text is malformed. Values nest,
so their readers carry a bound on the depth; `Json.read?` takes the length of the text,
which no nesting exceeds. -/
namespace Automation.Json
open Automation.Text (digitIn?)

def isSpace (c : Char) : Bool := c == ' ' || c == '\n' || c == '\t' || c == '\x0d'

def skipSpace (cs : List Char) : List Char := cs.dropWhile isSpace

def readUnit : List Char → Option (Nat × List Char)
  | a :: b :: c :: d :: rest => do
    let a ← digitIn? 16 a
    let b ← digitIn? 16 b
    let c ← digitIn? 16 c
    let d ← digitIn? 16 d
    some (((a * 16 + b) * 16 + c) * 16 + d, rest)
  | _ => none

def readUnits (cs : List Char) : Option (Char × List Char) :=
  match readUnit cs with
  | none => none
  | some (high, rest) =>
    if 0xDC00 ≤ high ∧ high ≤ 0xDFFF then none
    else if 0xD800 ≤ high ∧ high ≤ 0xDBFF then
      match rest with
      | '\\' :: 'u' :: rest =>
        match readUnit rest with
        | some (low, rest) =>
          if 0xDC00 ≤ low ∧ low ≤ 0xDFFF then
            some (Char.ofNat (0x10000 + (high - 0xD800) * 0x400 + (low - 0xDC00)), rest)
          else none
        | none => none
      | _ => none
    else some (Char.ofNat high, rest)

def readText (fuel : Nat) (cs : List Char) (done : List Char) : Option (String × List Char) :=
  match fuel with
  | 0 => none
  | fuel + 1 =>
    match cs with
    | [] => none
    | '\x22' :: rest => some (String.ofList done.reverse, rest)
    | '\\' :: 'u' :: rest =>
      match readUnits rest with
      | some (c, rest) => readText fuel rest (c :: done)
      | none => none
    | '\\' :: e :: rest =>
      let plain : Option Char :=
        if e == '\x22' || e == '\\' || e == '/' then some e
        else if e == 'b' then some '\x08'
        else if e == 'f' then some '\x0c'
        else if e == 'n' then some '\n'
        else if e == 'r' then some '\x0d'
        else if e == 't' then some '\t'
        else none
      match plain with
      | some c => readText fuel rest (c :: done)
      | none => none
    | c :: rest => if c.toNat < 0x20 then none else readText fuel rest (c :: done)

def takeDigits : List Char → List Nat × List Char
  | [] => ([], [])
  | c :: rest =>
    match digitIn? 10 c with
    | some d =>
      let (ds, behind) := takeDigits rest
      (d :: ds, behind)
    | none => ([], c :: rest)

def readFraction : List Char → Option (Option (List Nat) × List Char)
  | '.' :: rest =>
    let (ds, behind) := takeDigits rest
    if ds.isEmpty then none else some (some ds, behind)
  | cs => some (none, cs)

def readExponent (cs : List Char) : Option (Option (Bool × List Nat) × List Char) :=
  match cs with
  | e :: rest =>
    if e == 'e' || e == 'E' then
      let (down, rest) := match rest with
        | '-' :: rest => (true, rest)
        | '+' :: rest => (false, rest)
        | rest => (false, rest)
      let (ds, behind) := takeDigits rest
      if ds.isEmpty then none else some (some (down, ds), behind)
    else some (none, cs)
  | [] => some (none, [])

def readNumber (cs : List Char) : Option (Json × List Char) := do
  let (negative, cs) := match cs with
    | '-' :: rest => (true, rest)
    | cs => (false, cs)
  let (whole, cs) := takeDigits cs
  if whole.isEmpty || (whole.head? == some 0 && 1 < whole.length) then none
  let (behind, cs) ← readFraction cs
  let (exponent, cs) ← readExponent cs
  (Number.value negative whole behind exponent).map fun v => (v, cs)

def expect : List Char → List Char → Option (List Char)
  | [], cs => some cs
  | w :: word, c :: cs => if w = c then expect word cs else none
  | _ :: _, [] => none

mutual
def readValue (fuel : Nat) (cs : List Char) : Option (Json × List Char) :=
  match fuel with
  | 0 => none
  | fuel + 1 =>
    match skipSpace cs with
    | 'n' :: rest => (expect ['u', 'l', 'l'] rest).map fun cs => (null, cs)
    | 't' :: rest => (expect ['r', 'u', 'e'] rest).map fun cs => (bool true, cs)
    | 'f' :: rest => (expect ['a', 'l', 's', 'e'] rest).map fun cs => (bool false, cs)
    | '\x22' :: rest => (readText (rest.length + 1) rest []).map fun (s, cs) => (str s, cs)
    | '[' :: rest =>
      match skipSpace rest with
      | ']' :: rest => some (arr [], rest)
      | rest => (readItems fuel rest).map fun (items, cs) => (arr items, cs)
    | '\x7b' :: rest =>
      match skipSpace rest with
      | '\x7d' :: rest => some (obj [], rest)
      | rest => (readFields fuel rest).map fun (fields, cs) => (record fields, cs)
    | cs => readNumber cs

def readItems (fuel : Nat) (cs : List Char) : Option (List Json × List Char) :=
  match fuel with
  | 0 => none
  | fuel + 1 =>
    match readValue fuel cs with
    | none => none
    | some (item, rest) =>
      match skipSpace rest with
      | ']' :: rest => some ([item], rest)
      | ',' :: rest => (readItems fuel rest).map fun (items, cs) => (item :: items, cs)
      | _ => none

def readFields (fuel : Nat) (cs : List Char) : Option (List (String × Json) × List Char) :=
  match fuel with
  | 0 => none
  | fuel + 1 =>
    match skipSpace cs with
    | '\x22' :: rest =>
      match readText (rest.length + 1) rest [] with
      | none => none
      | some (name, rest) =>
        match skipSpace rest with
        | ':' :: rest =>
          match readValue fuel rest with
          | none => none
          | some (value, rest) =>
            match skipSpace rest with
            | '\x7d' :: rest => some ([(name, value)], rest)
            | ',' :: rest =>
              (readFields fuel rest).map fun (fields, cs) => ((name, value) :: fields, cs)
            | _ => none
        | _ => none
    | _ => none
end

def read? (text : String) : Option Json :=
  let cs := text.toList
  match readValue (2 * cs.length + 2) cs with
  | some (v, rest) => if (skipSpace rest).isEmpty then some v else none
  | none => none

end Automation.Json
