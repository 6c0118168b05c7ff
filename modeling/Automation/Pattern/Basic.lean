import Automation.Pattern.Property
/-! Patterns: expressions over characters with assertions about the place between two
characters. A pattern stands for a set of texts in a surrounding, `Pattern.Matches`; the
search in `Pattern.Search` decides whether some part of a text belongs to it. -/
namespace Automation

inductive Pattern.Assertion where
  | textStart
  | textEnd
  | lineStart (carriage : Bool)
  | lineEnd (carriage : Bool)
  | boundary (ascii : Bool)
  | noBoundary (ascii : Bool)
  | wordStart (ascii : Bool)
  | wordEnd (ascii : Bool)
  | wordStartHalf (ascii : Bool)
  | wordEndHalf (ascii : Bool)
  deriving DecidableEq, Repr

inductive Pattern where
  | empty
  | one (set : Pattern.CharSet)
  | at (place : Pattern.Assertion)
  | seq (first second : Pattern)
  | alt (left right : Pattern)
  | repeated (least : Nat) (most : Option Nat) (body : Pattern)
  deriving DecidableEq, Repr, Inhabited

namespace Pattern

def isWord (ascii : Bool) : Option Char → Bool
  | none => false
  | some c => if ascii then CharSet.asciiWord.holds c else CharSet.word.holds c

def Assertion.holds (before after : Option Char) : Assertion → Bool
  | textStart => before.isNone
  | textEnd => after.isNone
  | lineStart false => before.isNone || before == some '\n'
  | lineEnd false => after.isNone || after == some '\n'
  | lineStart true =>
    before.isNone || before == some '\n' || (before == some '\x0d' && after != some '\n')
  | lineEnd true =>
    after.isNone || after == some '\x0d' || (after == some '\n' && before != some '\x0d')
  | boundary ascii => isWord ascii before != isWord ascii after
  | noBoundary ascii => isWord ascii before == isWord ascii after
  | wordStart ascii => !isWord ascii before && isWord ascii after
  | wordEnd ascii => isWord ascii before && !isWord ascii after
  | wordStartHalf ascii => !isWord ascii before
  | wordEndHalf ascii => !isWord ascii after

/- `p.Matches before text after`: the pattern covers `text`, which stands between the
characters `before` and `after`. -/
inductive Matches : Pattern → Option Char → List Char → Option Char → Prop where
  | empty {b a} : Matches .empty b [] a
  | one {s b c a} : s.holds c = true → Matches (.one s) b [c] a
  | at {p b a} : Assertion.holds b a p = true → Matches (.at p) b [] a
  | seq {p q b xs ys a} : Matches p b xs (ys.head?.or a) → Matches q (xs.getLast?.or b) ys a →
      Matches (.seq p q) b (xs ++ ys) a
  | left {p q b xs a} : Matches p b xs a → Matches (.alt p q) b xs a
  | right {p q b xs a} : Matches q b xs a → Matches (.alt p q) b xs a
  | stop {p most b a} : Matches (.repeated 0 most p) b [] a
  | again {p least most b xs ys a} : most ≠ some 0 → Matches p b xs (ys.head?.or a) →
      Matches (.repeated (least - 1) (most.map (· - 1)) p) (xs.getLast?.or b) ys a →
      Matches (.repeated least most p) b (xs ++ ys) a

def coversNothing (before after : Option Char) : Pattern → Bool
  | empty => true
  | one _ => false
  | .at p => p.holds before after
  | seq p q => p.coversNothing before after && q.coversNothing before after
  | alt p q => p.coversNothing before after || q.coversNothing before after
  | repeated least most p =>
    least == 0 || (most.all (least ≤ ·) && p.coversNothing before after)

def andThen (p q : Pattern) : Pattern :=
  match p with
  | empty => q
  | p => seq p q

/- What may still follow once the pattern has covered `c`, the character after `before`. -/
def residuals (before : Option Char) (c : Char) : Pattern → List Pattern
  | empty => []
  | one s => if s.holds c then [empty] else []
  | .at _ => []
  | seq p q =>
    (p.residuals before c).map (·.andThen q) ++
      (if p.coversNothing before (some c) then q.residuals before c else [])
  | alt p q => p.residuals before c ++ q.residuals before c
  | repeated least most p =>
    let behind (used : Nat) : Pattern := repeated (least - used) (most.map (· - used)) p
    let allowed (used : Nat) : Bool := most.all (used ≤ ·)
    let skips := if p.coversNothing before (some c) then List.range (least + 1) else [0]
    let nexts := p.residuals before c
    (skips.filter fun k => allowed (k + 1)).flatMap fun k => nexts.map (·.andThen (behind (k + 1)))

def weight : Pattern → Nat
  | empty => 1
  | one s =>
    if s.isAscii then 1 + s.ranges.length / 4
    else s.ranges.foldl (fun n r => n + (if r.2 < 0x80 then 1 else if r.2 < 0x800 then 2 else 3)) 0
  | .at _ => 1
  | seq p q => p.weight + q.weight
  | alt p q => p.weight + q.weight + 1
  | repeated least none p => (max least 1) * p.weight + 1
  | repeated _ (some most) p => most * p.weight + 1

end Pattern
end Automation
