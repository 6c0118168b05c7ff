/-! A place in a text: the characters ahead, and the line, the column and the number of
characters behind. Five kinds of line break count; all but two of them read as a line
feed. -/
namespace Automation.Yaml

def isSpacing (c : Char) : Bool := c == ' ' || c == '\t'

def isBreak (c : Char) : Bool :=
  c == '\x0d' || c == '\n' || c == '\u0085' || c == '\u2028' || c == '\u2029'

def isGap : Option Char → Bool
  | none => true
  | some c => isSpacing c || isBreak c

def isBreakOrEnd : Option Char → Bool
  | none => true
  | some c => isBreak c

def isNameChar (c : Char) : Bool := c.isAlphanum || c == '_' || c == '-'

def isAllowed (c : Char) : Bool :=
  let n := c.toNat
  n == 0x09 || n == 0x0A || n == 0x0D || (0x20 ≤ n && n ≤ 0x7E) || n == 0x85 ||
    (0xA0 ≤ n && n ≤ 0xFFFD) || 0x10000 ≤ n

structure Place where
  ahead : List Char
  line : Nat := 0
  column : Nat := 0
  behind : Nat := 0
  deriving DecidableEq, Repr

namespace Place

def head? (p : Place) : Option Char := p.ahead.head?

def peek (p : Place) (n : Nat) : Option Char := p.ahead[n]?

def isEnd (p : Place) : Bool := p.ahead.isEmpty

def advance (p : Place) (n : Nat) : Place :=
  let n := min n p.ahead.length
  { p with ahead := p.ahead.drop n, column := p.column + n, behind := p.behind + n }

def newLine (p : Place) (n : Nat) : Place :=
  ⟨p.ahead.drop n, p.line + 1, 0, p.behind + n⟩

def takeBreak (p : Place) : List Char × Place :=
  match p.ahead with
  | '\x0d' :: '\n' :: _ => (['\n'], p.newLine 2)
  | c :: _ =>
    if isBreak c then
      (if c == '\u2028' || c == '\u2029' then [c] else ['\n'], p.newLine 1)
    else ([], p)
  | [] => ([], p)

def skipBreak (p : Place) : Place := p.takeBreak.2

def takeWhile (p : Place) (f : Char → Bool) : List Char × Place :=
  let taken := p.ahead.takeWhile f
  (taken, p.advance taken.length)

def skipWhile (p : Place) (f : Char → Bool) : Place := (p.takeWhile f).2

def skipOrderMark (p : Place) : Place :=
  if p.column == 0 && p.head? == some '\uFEFF' then p.advance 1 else p

def skipSpacing (p : Place) : Place := p.skipWhile isSpacing

def skipComment (p : Place) : Place :=
  if p.head? == some '#' then p.skipWhile fun c => !isBreak c else p

def atMarks (p : Place) (mark : Char) : Bool :=
  p.column == 0 && p.ahead.take 3 == [mark, mark, mark] && isGap (p.peek 3)

def atDocumentBound (p : Place) : Bool := p.atMarks '-' || p.atMarks '.'

def endLine (p : Place) : Option Place :=
  let p := p.skipSpacing.skipComment
  if isBreakOrEnd p.head? then some p.skipBreak else none

end Place
end Automation.Yaml
