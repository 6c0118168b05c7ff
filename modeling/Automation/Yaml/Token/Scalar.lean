import Automation.Yaml.Token.Place
import Automation.Text.Digits
/-! Scalars in the text of a document. Within plain and quoted scalars a single line break
is folded into a space, and further breaks are kept; a literal block keeps its breaks, and a
folded block folds those between lines that begin with no blank. -/
namespace Automation.Yaml
open Automation.Text (isDecimal readDigits?)

structure Gap where
  blanks : List Char := []
  broken : Bool := false
  firstBreak : List Char := []
  laterBreaks : List Char := []

namespace Gap

def folded (g : Gap) : List Char :=
  if g.broken then
    if g.firstBreak == ['\n'] then
      if g.laterBreaks.isEmpty then [' '] else g.laterBreaks
    else g.firstBreak ++ g.laterBreaks
  else g.blanks

def read (indent : Int) : Nat → Place → Gap → Option (Gap × Place)
  | 0, p, g => some (g, p)
  | fuel + 1, p, g =>
    match p.head? with
    | none => some (g, p)
    | some c =>
      if isSpacing c then
        if g.broken && c == '\t' && decide ((p.column : Int) < indent) then none
        else read indent fuel (p.advance 1)
          (if g.broken then g else { g with blanks := g.blanks ++ [c] })
      else if isBreak c then
        let (taken, p) := p.takeBreak
        read indent fuel p <|
          if g.broken then { g with laterBreaks := g.laterBreaks ++ taken }
          else ⟨[], true, taken, []⟩
      else some (g, p)

end Gap

/-! ### Plain scalars -/

def isFlowMark (c : Char) : Bool := c == ',' || c == '[' || c == ']' || c == '\x7b' || c == '\x7d'

/- The part of a plain scalar up to the next gap. In a flow collection its marks end it,
and a colon right before one of them is refused. -/
def plainWord (inFlow : Bool) : List Char → Option (List Char)
  | [] => some []
  | c :: rest =>
    if isGap (some c) then some []
    else if inFlow && c == ':' && rest.head?.any fun d => isFlowMark d || d == '?' then none
    else if (c == ':' && isGap rest.head?) || (inFlow && isFlowMark c) then some []
    else (plainWord inFlow rest).map (c :: ·)

def readPlain (inFlow : Bool) (indent : Int) :
    Nat → Place → List Char → Gap → Option (List Char × Place × Bool)
  | 0, _, _, _ => none
  | fuel + 1, p, text, gap =>
    if p.atDocumentBound || p.head? == some '#' then some (text, p, gap.broken)
    else do
      let word ← plainWord inFlow p.ahead
      let p := p.advance word.length
      let (text, gap) :=
        if word.isEmpty then (text, gap) else (text ++ gap.folded ++ word, ({} : Gap))
      if p.isEnd || !isGap p.head? then return (text, p, gap.broken)
      let (gap, p) ← Gap.read indent (p.ahead.length + 1) p gap
      if !inFlow && decide ((p.column : Int) < indent) then return (text, p, gap.broken)
      readPlain inFlow indent fuel p text gap

/-! ### Quoted scalars -/

def charOf? (n : Nat) : Option Char :=
  if n.isValidChar then some (Char.ofNat n) else none

def shortEscape? (c : Char) : Option Char :=
  match c with
  | '0' => some '\x00'
  | 'a' => some '\x07'
  | 'b' => some '\x08'
  | 't' | '\t' => some '\t'
  | 'n' => some '\n'
  | 'v' => some '\x0b'
  | 'f' => some '\x0c'
  | 'r' => some '\x0d'
  | 'e' => some '\x1b'
  | ' ' => some ' '
  | '\x22' => some '\x22'
  | '/' => some '/'
  | '\\' => some '\\'
  | 'N' => some '\u0085'
  | '_' => some '\u00a0'
  | 'L' => some '\u2028'
  | 'P' => some '\u2029'
  | _ => none

def codeWidth? (c : Char) : Option Nat :=
  match c with
  | 'x' => some 2
  | 'u' => some 4
  | 'U' => some 8
  | _ => none

def readEscape (cs : List Char) : Option (Char × Nat) := do
  let c ← cs.head?
  match codeWidth? c with
  | some width =>
    let digits := (cs.drop 1).take width
    if digits.length < width then none
    else
      let n ← readDigits? 16 digits
      let found ← charOf? n
      return (found, width + 1)
  | none => (shortEscape? c).map fun found => (found, 1)

inductive WordEnd where
  | gap
  | closing
  | escapedBreak
  deriving DecidableEq

def quotedWord (single : Bool) : Nat → List Char → Option (List Char × Nat × WordEnd)
  | 0, _ => none
  | fuel + 1, cs =>
    match cs with
    | [] => some ([], 0, .gap)
    | c :: rest =>
      let more (found : Char) (taken : Nat) : Option (List Char × Nat × WordEnd) :=
        (quotedWord single fuel (cs.drop taken)).map fun (word, n, e) =>
          (found :: word, n + taken, e)
      if isGap (some c) then some ([], 0, .gap)
      else if single then
        if c == '\x27' then
          if rest.head? == some '\x27' then more '\x27' 2 else some ([], 0, .closing)
        else more c 1
      else if c == '\x22' then some ([], 0, .closing)
      else if c == '\\' then
        if rest.head?.any isBreak then some ([], 0, .escapedBreak)
        else (readEscape rest).bind fun (found, taken) => more found (taken + 1)
      else more c 1

def readQuoted (single : Bool) : Nat → Place → List Char → Option (List Char × Place)
  | 0, _, _ => none
  | fuel + 1, p, text =>
    if p.atDocumentBound || p.isEnd then none
    else do
      let (word, taken, ending) ← quotedWord single (p.ahead.length + 1) p.ahead
      let p := p.advance taken
      let text := text ++ word
      let goOn (p : Place) (gap : Gap) : Option (List Char × Place) := do
        let (gap, p) ← Gap.read 0 (p.ahead.length + 1) p gap
        readQuoted single fuel p (text ++ gap.folded)
      match ending with
      | .closing => return (text, p.advance 1)
      | .gap => goOn p {}
      | .escapedBreak =>
        let p := (p.advance 1).skipBreak
        let quote := if single then '\x27' else '\x22'
        if p.head? == some quote then return (text, p.advance 1)
        goOn p ⟨[], true, [], []⟩

/-! ### Block scalars -/

inductive Chomping where
  | strip
  | clip
  | keep
  deriving DecidableEq

def chomping? (c : Char) : Option Chomping :=
  if c == '+' then some .keep else if c == '-' then some .strip else none

def blockMarks (p : Place) : Option (Chomping × Option Nat × Place) :=
  let indent? (p : Place) : Option (Option Nat × Place) :=
    match p.head? with
    | some c =>
      if isDecimal c then
        if c == '0' then none else some (readDigits? 10 [c], p.advance 1)
      else some (none, p)
    | none => some (none, p)
  match p.head?.bind chomping? with
  | some mode => (indent? (p.advance 1)).map fun (n, p) => (mode, n, p)
  | none => (indent? p).map fun (n, p) =>
    match n, p.head?.bind chomping? with
    | some n, some mode => (mode, some n, p.advance 1)
    | n, _ => (.clip, n, p)

def skipIndent (indent : Option Nat) (p : Place) : Place :=
  let spaces := (p.ahead.takeWhile (· == ' ')).length
  match indent with
  | some n => p.advance (min spaces (n - p.column))
  | none => p.advance spaces

/- Reads over empty lines: their breaks, the greatest indentation met, and the place of the
first line that is not empty. A tab where indentation is due is refused. -/
def blockBreaks (indent : Option Nat) :
    Nat → Place → Nat → List Char → Option (Nat × List Char × Place)
  | 0, p, widest, breaks => some (widest, breaks, p)
  | fuel + 1, p, widest, breaks =>
    let p := skipIndent indent p
    let widest := max widest p.column
    if p.head? == some '\t' && indent.all fun n => decide (p.column < n) then none
    else if p.head?.any isBreak then
      let (taken, p) := p.takeBreak
      blockBreaks indent fuel p widest (breaks ++ taken)
    else some (widest, breaks, p)

structure BlockText where
  text : List Char := []
  lineBreak : List Char := []
  emptyLines : List Char := []
  startsBlank : Bool := false

def BlockText.lines (literal : Bool) (indent : Nat) :
    Nat → Place → BlockText → Option (BlockText × Place)
  | 0, p, b => some (b, p)
  | fuel + 1, p, b =>
    if p.column == indent && !p.isEnd then
      let blank := p.head?.any isSpacing
      let folds := !literal && b.lineBreak == ['\n'] && !b.startsBlank && !blank
      let joint := if folds then (if b.emptyLines.isEmpty then [' '] else []) else b.lineBreak
      let (line, p) := p.takeWhile fun c => !isBreak c
      let (lineBreak, p) := p.takeBreak
      match blockBreaks (some indent) (p.ahead.length + 1) p 0 [] with
      | none => none
      | some (_, emptyLines, p) =>
        BlockText.lines literal indent fuel p
          ⟨b.text ++ joint ++ b.emptyLines ++ line, lineBreak, emptyLines, blank⟩
    else some (b, p)

def readBlock (literal : Bool) (outer : Int) (p : Place) : Option (List Char × Place) := do
  let (mode, given, p) ← blockMarks p
  let p ← p.endLine
  let known := given.map fun n => if outer ≥ 0 then outer.toNat + n else n
  let (widest, breaks, p) ← blockBreaks known (p.ahead.length + 1) p 0 []
  let indent := known.getD (max (max widest (outer + 1).toNat) 1)
  let (b, p) ← BlockText.lines literal indent (p.ahead.length + 1) p ⟨[], [], breaks, false⟩
  let ending := match mode with
    | .strip => []
    | .clip => b.lineBreak
    | .keep => b.lineBreak ++ b.emptyLines
  return (b.text ++ ending, p)

end Automation.Yaml
