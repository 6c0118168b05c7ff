import Automation.Unicode.CategoryTable
import Automation.Unicode.Fold
/-! Sets of characters as ranges of code points, in ascending order and apart from one
another. Code points that are no characters may be in a range; no text has them. -/
namespace Automation.Pattern
open Automation.Unicode

structure CharSet where
  ranges : List (Nat × Nat)
  deriving DecidableEq, Repr, Inhabited

namespace CharSet

def greatest : Nat := 0x10FFFF

def empty : CharSet := ⟨[]⟩
def all : CharSet := ⟨[(0, greatest)]⟩

def holds (s : CharSet) (c : Char) : Bool :=
  s.ranges.any fun r => r.1 ≤ c.toNat && c.toNat ≤ r.2

def place (r : Nat × Nat) : List (Nat × Nat) → List (Nat × Nat)
  | [] => [r]
  | s :: rest =>
    if r.2 + 1 < s.1 then r :: s :: rest
    else if s.2 + 1 < r.1 then s :: place r rest
    else place (min r.1 s.1, max r.2 s.2) rest

def ofRanges (rs : List (Nat × Nat)) : CharSet := ⟨rs.foldr place []⟩

def one (c : Char) : CharSet := ⟨[(c.toNat, c.toNat)]⟩

def union (a b : CharSet) : CharSet := ⟨a.ranges.foldr place b.ranges⟩

def gaps (start : Nat) : List (Nat × Nat) → List (Nat × Nat)
  | [] => if start ≤ greatest then [(start, greatest)] else []
  | r :: rest =>
    if start < r.1 then (start, r.1 - 1) :: gaps (r.2 + 1) rest else gaps (r.2 + 1) rest

def complement (s : CharSet) : CharSet := ⟨gaps 0 s.ranges⟩

def inter (a b : CharSet) : CharSet := (a.complement.union b.complement).complement

def diff (a b : CharSet) : CharSet := a.inter b.complement

def symmDiff (a b : CharSet) : CharSet := (a.diff b).union (b.diff a)

def holdsCode (s : CharSet) (n : Nat) : Bool := s.ranges.any fun r => r.1 ≤ n && n ≤ r.2

def caseGroups : List (List Nat) :=
  groups ++ pairRuns.flatMap fun r =>
    (List.range r.count).map fun i => [r.first + i * r.step, r.first + i * r.step + r.distance]

def folded (s : CharSet) : CharSet :=
  let added := (caseGroups.filter fun g => g.any s.holdsCode).flatMap fun g => g.map fun n => (n, n)
  s.union (ofRanges added)

def foldedAscii (s : CharSet) : CharSet :=
  let lower := (List.range 26).filter fun i => s.holdsCode (65 + i)
  let upper := (List.range 26).filter fun i => s.holdsCode (97 + i)
  s.union (ofRanges (lower.map (fun i => (97 + i, 97 + i)) ++ upper.map fun i => (65 + i, 65 + i)))

def isAscii (s : CharSet) : Bool := s.ranges.all fun r => r.2 < 128

def ofCategories (keep : Category → Bool) : CharSet :=
  let rec go : List (Nat × Category) → List (Nat × Nat)
    | [] => []
    | [(start, cat)] => if keep cat then [(start, greatest)] else []
    | (start, cat) :: (next, other) :: rest =>
      let behind := go ((next, other) :: rest)
      if keep cat then
        match behind with
        | (a, b) :: more => if a = next then (start, b) :: more else (start, next - 1) :: behind
        | [] => [(start, next - 1)]
      else behind
  ⟨go categoryRuns.toList⟩

end CharSet
end Automation.Pattern
