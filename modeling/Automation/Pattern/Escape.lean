import Automation.Pattern.Property
import Automation.Pattern.State
/-! Escapes: what a backslash stands for together with what follows it. It is a character, a
set of characters, or an assertion. -/
namespace Automation.Pattern
open Automation.Text (isBlank readDigits? isDecimal isHex)

inductive Escape where
  | char (c : Char)
  | set (s : CharSet)
  | place (a : Assertion)

def isMeta (c : Char) : Bool := "\\.+*?()|[]\x7b\x7d^$#&-~".toList.contains c

def isPlainEscaped (c : Char) : Bool :=
  isMeta c || (c.toNat < 128 && !c.isAlphanum && c != '<' && c != '>')

def codeChar? (n : Nat) : Option Char :=
  if n < 0xD800 ∨ (0xE000 ≤ n ∧ n < 0x110000) then some (Char.ofNat n) else none

def takeHex (st : State) : Nat → List Char → Option (List Char × List Char)
  | 0, cs => some ([], cs)
  | count + 1, c :: rest =>
    if isHex c then
      (takeHex st count (st.skipped rest)).map fun (ds, behind) => (c :: ds, behind)
    else none
  | _ + 1, [] => none

def takeBraced (st : State) (fuel : Nat) (cs : List Char) : Option (List Char × List Char) :=
  match fuel with
  | 0 => none
  | fuel + 1 =>
    match st.skipped cs with
    | '\x7d' :: rest => some ([], rest)
    | c :: rest =>
      if isHex c then (takeBraced st fuel rest).map fun (ds, behind) => (c :: ds, behind) else none
    | [] => none

def readCode (st : State) (width : Nat) (cs : List Char) : Option (Char × List Char) :=
  match st.skipped cs with
  | '\x7b' :: rest => do
    let (ds, behind) ← takeBraced st (rest.length + 1) rest
    let c ← (readDigits? 16 ds).bind codeChar?
    some (c, behind)
  | cs => do
    let (ds, behind) ← takeHex st width cs
    let c ← (readDigits? 16 ds).bind codeChar?
    if width = 2 ∧ !st.flags.unicode ∧ 0x7F < c.toNat then none
    some (c, behind)

def cutAt (mark : List Char) : List Char → Option (List Char × List Char)
  | [] => none
  | c :: rest =>
    if mark.isPrefixOf (c :: rest) then some ([], (c :: rest).drop mark.length)
    else (cutAt mark rest).map fun (before, behind) => (c :: before, behind)

def bracedProperty (name : List Char) : Option CharSet :=
  match cutAt ['!', '='] name with
  | some (key, value) => (namedValue? key value).map CharSet.complement
  | none =>
    match cutAt [':'] name with
    | some (key, value) => namedValue? key value
    | none =>
      match cutAt ['='] name with
      | some (key, value) => namedValue? key value
      | none => named? name

def readProperty (st : State) (negated : Bool) (cs : List Char) : Option (CharSet × List Char) := do
  if !st.flags.unicode then none
  let (set, behind) ← match st.skipped cs with
    | '\x7b' :: rest =>
      let name := rest.takeWhile (· != '\x7d')
      let plain := if st.flags.verbose then name.filter (!isBlank ·) else name
      if name.length < rest.length then
        (bracedProperty plain).map fun s => (s, rest.drop (name.length + 1))
      else none
    | c :: rest => if c = '\\' then none else (named? [c]).map fun s => (s, rest)
    | [] => none
  let set := if st.flags.caseless then set.folded else set
  some (if negated then set.complement else set, behind)

def perlSet? (unicode : Bool) (c : Char) : Option CharSet :=
  let (d, s, w) := if unicode then (CharSet.digit, CharSet.blank, CharSet.word)
    else (CharSet.asciiDigit, CharSet.asciiBlank, CharSet.asciiWord)
  if c == 'd' then some d
  else if c == 's' then some s
  else if c == 'w' then some w
  else if unicode && c == 'D' then some d.complement
  else if unicode && c == 'S' then some s.complement
  else if unicode && c == 'W' then some w.complement
  else none

def readBoundary (st : State) (cs : List Char) : Option (Assertion × List Char) :=
  let ascii := !st.flags.unicode
  let isNameChar (c : Char) : Bool := c.isAlpha || c == '-'
  match cs with
  | '\x7b' :: rest =>
    match st.skipped rest with
    | [] => none
    | c :: more =>
      if !isNameChar c then some (.boundary ascii, cs)
      else
        let name := (c :: more).takeWhile isNameChar
        match (c :: more).drop name.length with
        | '\x7d' :: behind =>
          if name = "start".toList then some (.wordStart ascii, behind)
          else if name = "end".toList then some (.wordEnd ascii, behind)
          else if name = "start-half".toList then some (.wordStartHalf ascii, behind)
          else if name = "end-half".toList then some (.wordEndHalf ascii, behind)
          else none
        | _ => none
  | cs => some (.boundary ascii, cs)

def readEscape (st : State) : List Char → Option (Escape × List Char)
  | [] => none
  | c :: rest =>
    let ascii := !st.flags.unicode
    if isDecimal c then none
    else if c == 'x' then (readCode st 2 rest).map fun (d, cs) => (.char d, cs)
    else if c == 'u' then (readCode st 4 rest).map fun (d, cs) => (.char d, cs)
    else if c == 'U' then (readCode st 8 rest).map fun (d, cs) => (.char d, cs)
    else if c == 'p' || c == 'P' then
      (readProperty st (c == 'P') rest).map fun (s, cs) => (.set s, cs)
    else if ['d', 's', 'w', 'D', 'S', 'W'].contains c then
      (perlSet? st.flags.unicode c).map fun s => (.set s, rest)
    else if isPlainEscaped c then some (.char c, rest)
    else if c == 'a' then some (.char '\x07', rest)
    else if c == 'f' then some (.char '\x0c', rest)
    else if c == 't' then some (.char '\t', rest)
    else if c == 'n' then some (.char '\n', rest)
    else if c == 'r' then some (.char '\x0d', rest)
    else if c == 'v' then some (.char '\x0b', rest)
    else if c == 'A' then some (.place .textStart, rest)
    else if c == 'z' then some (.place .textEnd, rest)
    else if c == 'b' then (readBoundary st rest).map fun (a, cs) => (.place a, cs)
    else if c == 'B' then some (.place (.noBoundary ascii), rest)
    else if c == '<' then some (.place (.wordStart ascii), rest)
    else if c == '>' then some (.place (.wordEnd ascii), rest)
    else none

end Automation.Pattern
