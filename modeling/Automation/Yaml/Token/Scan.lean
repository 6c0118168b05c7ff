import Automation.Yaml.Token.Property
/-! Splitting a text into tokens. Indentation opens and closes block collections. A key
without a mark of its own is known as a key only when its colon is met on the same line;
until then its start is a candidate, one on each level of flow collections. When the text
turns out to be faulty, the tokens that come before every open candidate are still known. -/
namespace Automation.Yaml

/- The start of something that may turn out to be a key. -/
structure Candidate where
  token : Nat
  place : Place
  required : Bool

def longestKey : Nat := 1024

structure Scanner where
  place : Place
  tokens : List Token := []
  count : Nat := 0
  indent : Int := -1
  indents : List Int := []
  candidate : Option Candidate := none
  outer : List (Option Candidate) := []
  keyAllowed : Bool := true

namespace Scanner

def inFlow (s : Scanner) : Bool := !s.outer.isEmpty

def add (s : Scanner) (t : Token) : Scanner :=
  { s with tokens := t :: s.tokens, count := s.count + 1 }

def addAt (s : Scanner) (n : Nat) (t : Token) : Scanner :=
  let later := s.count - n
  { s with
    tokens := s.tokens.take later ++ t :: s.tokens.drop later
    count := s.count + 1 }

def moveTo (s : Scanner) (p : Place) : Scanner := { s with place := p }

def skip (s : Scanner) (n : Nat) : Scanner := s.moveTo (s.place.advance n)

def allowKey (s : Scanner) (keyAllowed : Bool) : Scanner := { s with keyAllowed }

def indentTo (s : Scanner) (column : Nat) (opening : Token) (n : Nat) : Scanner :=
  if !s.inFlow && decide (s.indent < column) then
    { s with indents := s.indent :: s.indents, indent := column }.addAt n opening
  else s

def dedentLoop (column : Int) : List Int → Scanner → Scanner
  | [], s => s
  | outer :: rest, s =>
    if s.indent > column then
      dedentLoop column rest ({ s with indent := outer, indents := rest }.add .blockEnd)
    else s

def dedentTo (s : Scanner) (column : Int) : Scanner :=
  if s.inFlow then s else dedentLoop column s.indents s

def outOfReach (s : Scanner) (c : Candidate) : Bool :=
  decide (c.place.line < s.place.line) || decide (c.place.behind + longestKey < s.place.behind)

def expire (s : Scanner) : Option Candidate → Option (Option Candidate)
  | none => some none
  | some c => if s.outOfReach c then (if c.required then none else some none) else some (some c)

def expireAll (s : Scanner) : List (Option Candidate) → Option (List (Option Candidate))
  | [] => some []
  | c :: rest => do
    let c ← s.expire c
    let rest ← s.expireAll rest
    return c :: rest

def expireKeys (s : Scanner) : Option Scanner := do
  let candidate ← s.expire s.candidate
  let outer ← s.expireAll s.outer
  return { s with candidate, outer }

def dropKey (s : Scanner) : Option Scanner :=
  match s.candidate with
  | some c => if c.required then none else some { s with candidate := none }
  | none => some s

def noteKey (s : Scanner) : Option Scanner :=
  if s.keyAllowed then do
    let required := !s.inFlow && s.indent == s.place.column
    let s ← s.dropKey
    return { s with candidate := some ⟨s.count, s.place, required⟩ }
  else some s

/- Goes to the start of the next token. A new line outside of flow collections allows a
key; a tab is no indentation. -/
def skipSpace : Nat → Scanner → Scanner
  | 0, s => s
  | fuel + 1, s =>
    let tabs := s.inFlow || !s.keyAllowed
    let p := (s.place.skipOrderMark.skipWhile fun c => c == ' ' || (tabs && c == '\t')).skipComment
    if p.head?.any isBreak then
      skipSpace fuel { s with place := p.skipBreak, keyAllowed := s.keyAllowed || !s.inFlow }
    else s.moveTo p

/-! ### Tokens by their first characters -/

def streamEnd (s : Scanner) : Option Scanner := do
  let p := s.place
  let s := if p.column == 0 then s else s.moveTo { p with line := p.line + 1, column := 0 }
  let s ← (s.dedentTo (-1)).dropKey
  return (s.allowKey false).add .streamEnd

def directive (s : Scanner) : Option Scanner := do
  let s ← (s.dedentTo (-1)).dropKey
  let (token, p) ← readDirective s.place
  return ((s.allowKey false).moveTo p).add token

def documentBound (s : Scanner) (bound : Token) : Option Scanner := do
  let s ← (s.dedentTo (-1)).dropKey
  return ((s.allowKey false).skip 3).add bound

def flowStart (s : Scanner) (opening : Token) : Option Scanner := do
  let s ← s.noteKey
  let s := { s with outer := s.candidate :: s.outer, candidate := none }
  return ((s.allowKey true).skip 1).add opening

def flowEnd (s : Scanner) (closing : Token) : Option Scanner := do
  let s ← s.dropKey
  let s := match s.outer with
    | c :: rest => { s with outer := rest, candidate := c }
    | [] => s
  return ((s.allowKey false).skip 1).add closing

def flowEntry (s : Scanner) : Option Scanner := do
  let s ← s.dropKey
  return ((s.allowKey true).skip 1).add .flowEntry

def openBlock (s : Scanner) (opening : Token) : Option Scanner :=
  if s.inFlow then some s
  else if s.keyAllowed then some (s.indentTo s.place.column opening s.count)
  else none

def blockEntry (s : Scanner) : Option Scanner := do
  let s ← s.openBlock .blockSequenceStart
  let s ← s.dropKey
  return ((s.allowKey true).skip 1).add .blockEntry

def key (s : Scanner) : Option Scanner := do
  let s ← s.openBlock .blockMappingStart
  let s ← s.dropKey
  return ((s.allowKey !s.inFlow).skip 1).add .key

def value (s : Scanner) : Option Scanner :=
  match s.candidate with
  | some c =>
    let s := (s.addAt c.token .key).indentTo c.place.column .blockMappingStart c.token
    some (({ s with candidate := none }.allowKey false).skip 1 |>.add .value)
  | none => do
    let s ← s.openBlock .blockMappingStart
    return ((s.allowKey !s.inFlow).skip 1).add .value

def anchor (s : Scanner) (make : String → Token) : Option Scanner := do
  let s ← s.noteKey
  let (name, p) ← readAnchor (s.place.advance 1)
  return ((s.allowKey false).moveTo p).add (make name)

def tag (s : Scanner) : Option Scanner := do
  let s ← s.noteKey
  let (token, p) ← readTag s.inFlow s.place
  return ((s.allowKey false).moveTo p).add token

def block (s : Scanner) (literal : Bool) : Option Scanner := do
  let s ← s.dropKey
  let (text, p) ← readBlock literal s.indent (s.place.advance 1)
  return ((s.allowKey true).moveTo p).add (.scalar (String.ofList text) .block)

def quoted (s : Scanner) (single : Bool) : Option Scanner := do
  let s ← s.noteKey
  let p := s.place.advance 1
  let (text, p) ← readQuoted single (p.ahead.length + 1) p []
  return ((s.allowKey false).moveTo p).add (.scalar (String.ofList text) .quoted)

def plain (s : Scanner) : Option Scanner := do
  let s ← s.noteKey
  let p := s.place
  let (text, p, broken) ← readPlain s.inFlow (s.indent + 1) (p.ahead.length + 1) p [] {}
  return ((s.allowKey broken).moveTo p).add (.scalar (String.ofList text) .plain)

def marks : List Char := "-?:,[]\x7b\x7d#&*!|>'\x22%@`".toList

def token (s : Scanner) : Option Scanner :=
  let p := s.place
  let gapNext := isGap (p.peek 1)
  match p.head? with
  | none => s.streamEnd
  | some c =>
    if p.column == 0 && c == '%' then s.directive
    else if p.atMarks '-' then s.documentBound .documentStart
    else if p.atMarks '.' then s.documentBound .documentEnd
    else if c == '[' then s.flowStart .flowSequenceStart
    else if c == '\x7b' then s.flowStart .flowMappingStart
    else if c == ']' then s.flowEnd .flowSequenceEnd
    else if c == '\x7d' then s.flowEnd .flowMappingEnd
    else if c == ',' then s.flowEntry
    else if c == '-' && gapNext then s.blockEntry
    else if c == '?' && (s.inFlow || gapNext) then s.key
    else if c == ':' && (s.inFlow || gapNext) then s.value
    else if c == '*' then s.anchor .alias
    else if c == '&' then s.anchor .anchor
    else if c == '!' then s.tag
    else if c == '|' && !s.inFlow then s.block true
    else if c == '>' && !s.inFlow then s.block false
    else if c == '\x27' then s.quoted true
    else if c == '\x22' then s.quoted false
    else if (!isGap (some c) && !marks.contains c) || (c == '-' && !(p.peek 1).any isSpacing) ||
        (!s.inFlow && (c == '?' || c == ':') && !gapNext) then s.plain
    else none

def step (s : Scanner) : Option Scanner := do
  let s ← (skipSpace (s.place.ahead.length + 1) s).expireKeys
  let s ← (s.dedentTo s.place.column).token
  s.expireKeys

def settled (s : Scanner) : Nat :=
  (s.candidate :: s.outer).foldl (fun n c =>
    match c with
    | some c => min n c.token
    | none => n) s.count

def run : Nat → Scanner → List Token
  | 0, s => s.tokens.reverse
  | fuel + 1, s =>
    if s.tokens.head? == some .streamEnd then s.tokens.reverse
    else match s.step with
      | some next => run fuel next
      | none => s.tokens.reverse.take s.settled

end Scanner

def Token.scan (text : List Char) : List Token :=
  let text := match text with
    | '\uFEFF' :: rest => rest
    | text => text
  if text.all isAllowed then Scanner.run (text.length + 2) { place := { ahead := text } }
  else []

end Automation.Yaml
