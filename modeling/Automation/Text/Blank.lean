/-! White space as Unicode's White_Space property lists it, and the two cuts that go by
it: dropping it from both ends of a text, and splitting a text at its first blank. -/
namespace Automation.Text

def isBlank (c : Char) : Bool :=
  let n := c.toNat
  (9 ≤ n && n ≤ 13) || n == 0x20 || n == 0x85 || n == 0xA0 || n == 0x1680 ||
    (0x2000 ≤ n && n ≤ 0x200A) || n == 0x2028 || n == 0x2029 || n == 0x202F ||
    n == 0x205F || n == 0x3000

def trimLeft (cs : List Char) : List Char := cs.dropWhile isBlank

def trim (cs : List Char) : List Char :=
  ((cs.dropWhile isBlank).reverse.dropWhile isBlank).reverse

def splitAtBlank : List Char → Option (List Char × List Char)
  | [] => none
  | c :: rest =>
    if isBlank c then some ([], rest)
    else (splitAtBlank rest).map fun (before, behind) => (c :: before, behind)

theorem splitAtBlankParts {cs before behind : List Char}
    (cut : splitAtBlank cs = some (before, behind)) :
    ∃ b, isBlank b = true ∧ cs = before ++ b :: behind := by
  induction cs generalizing before behind with
  | nil => simp [splitAtBlank] at cut
  | cons c rest ih =>
    simp only [splitAtBlank] at cut
    split at cut
    · rename_i blank
      simp only [Option.some.injEq, Prod.mk.injEq] at cut
      obtain ⟨rfl, rfl⟩ := cut
      exact ⟨c, blank, rfl⟩
    · obtain ⟨⟨b, r⟩, hcut, heq⟩ := Option.map_eq_some_iff.1 cut
      simp only [Prod.mk.injEq] at heq
      obtain ⟨rfl, rfl⟩ := heq
      obtain ⟨w, blank, whole⟩ := ih hcut
      exact ⟨w, blank, by simp [whole]⟩

end Automation.Text
