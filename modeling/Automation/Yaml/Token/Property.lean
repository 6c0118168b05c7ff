import Automation.Yaml.Token
import Automation.Yaml.Token.Scalar
/-! Properties of nodes and directives: anchors and aliases, tags in their three forms, and
the two directives that there are. -/
namespace Automation.Yaml
open Automation.Text (isDecimal readDigits?)

def readAnchor (p : Place) : Option (String × Place) :=
  let (name, p) := p.takeWhile isNameChar
  let ends := isGap p.head? || p.head?.any fun c => "?:,]\x7d%@`".toList.contains c
  if name.isEmpty || !ends then none else some (String.ofList name, p)

def isTagChar (verbatim : Bool) (c : Char) : Bool :=
  isNameChar c || ";/?:@&=+$.!~*'()".toList.contains c || (verbatim && ",[]".toList.contains c)

def utf8Width? (b : Nat) : Option Nat :=
  if b < 0x80 then some 1
  else if b / 0x20 == 6 then some 2
  else if b / 0x10 == 14 then some 3
  else if b / 0x08 == 30 then some 4
  else none

def readByte : List Char → Option (Nat × List Char)
  | '%' :: a :: b :: rest => (readDigits? 16 [a, b]).map fun n => (n, rest)
  | _ => none

def readTail : Nat → Nat → List Char → Option (Nat × List Char)
  | 0, acc, cs => some (acc, cs)
  | n + 1, acc, cs => do
    let (b, rest) ← readByte cs
    if b / 0x40 == 2 then readTail n (acc * 0x40 + b % 0x40) rest else none

def readEscapedChar (cs : List Char) : Option (Char × List Char) := do
  let (b, rest) ← readByte cs
  let width ← utf8Width? b
  let top := if width == 1 then b else b % Nat.pow 2 (7 - width)
  let (n, rest) ← readTail (width - 1) top rest
  let c ← charOf? n
  return (c, rest)

def readTagText (verbatim : Bool) : Nat → List Char → Option (List Char × List Char)
  | 0, cs => some ([], cs)
  | fuel + 1, cs =>
    match cs with
    | [] => some ([], [])
    | c :: rest =>
      if c == '%' then do
        let (d, rest) ← readEscapedChar cs
        let (more, rest) ← readTagText verbatim fuel rest
        return (d :: more, rest)
      else if isTagChar verbatim c then
        (readTagText verbatim fuel rest).map fun (more, rest) => (c :: more, rest)
      else some ([], cs)

def tagText (verbatim : Bool) (p : Place) : Option (List Char × Place) :=
  (readTagText verbatim (p.ahead.length + 1) p.ahead).map fun (text, rest) =>
    (text, p.advance (p.ahead.length - rest.length))

def readHandle (p : Place) : Option (List Char × Place) :=
  if p.head? != some '!' then none
  else
    let (name, q) := (p.advance 1).takeWhile isNameChar
    if q.head? == some '!' then some ('!' :: name ++ ['!'], q.advance 1)
    else some ('!' :: name, q)

def closeTag (inFlow : Bool) (tag : Token) (p : Place) : Option (Token × Place) :=
  if isGap p.head? || (inFlow && p.head? == some ',') then some (tag, p) else none

def readTag (inFlow : Bool) (p : Place) : Option (Token × Place) := do
  if p.peek 1 == some '<' then
    let (text, p) ← tagText true (p.advance 2)
    if text.isEmpty || p.head? != some '>' then none
    else closeTag inFlow (.tag "" (String.ofList text)) (p.advance 1)
  else
    let (handle, p) ← readHandle p
    let (text, p) ← tagText false p
    if handle.length > 1 && handle.getLast? == some '!' then
      if text.isEmpty then none
      else closeTag inFlow (.tag (String.ofList handle) (String.ofList text)) p
    else
      let suffix := handle.drop 1 ++ text
      if suffix.isEmpty then closeTag inFlow (.tag "" "!") p
      else closeTag inFlow (.tag "!" (String.ofList suffix)) p

/-! ### Directives -/

def longestNumber : Nat := 9

def readNumber (p : Place) : Option (Nat × Place) :=
  let (digits, p) := p.takeWhile isDecimal
  if digits.length > longestNumber then none
  else (readDigits? 10 digits).map fun n => (n, p)

def readVersion (p : Place) : Option (Token × Place) := do
  let (major, p) ← readNumber p.skipSpacing
  if p.head? != some '.' then none
  else
    let (minor, p) ← readNumber (p.advance 1)
    return (.versionDirective major minor, p)

def readTagDirective (p : Place) : Option (Token × Place) := do
  let (handle, p) ← readHandle p.skipSpacing
  if handle != ['!'] && handle.getLast? != some '!' then none
  else if !p.head?.any isSpacing then none
  else
    let (start, p) ← tagText true p.skipSpacing
    if start.isEmpty || !isGap p.head? then none
    else return (.tagDirective (String.ofList handle) (String.ofList start), p)

def readDirective (p : Place) : Option (Token × Place) := do
  let (name, p) := (p.advance 1).takeWhile isNameChar
  if name.isEmpty || !isGap p.head? then none
  else
    let (token, p) ←
      if name == "YAML".toList then readVersion p
      else if name == "TAG".toList then readTagDirective p
      else none
    let p ← p.endLine
    return (token, p)

end Automation.Yaml
