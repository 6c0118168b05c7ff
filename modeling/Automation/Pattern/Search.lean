import Automation.Pattern.Basic
/-! Searching a text for a pattern. The search carries the set of everything that may
still follow after some start and adds the whole pattern at every place; it succeeds at
the first place where something in the set covers the empty text. -/
namespace Automation.Pattern

/- Whether one of `pending`, or `p` from here on, covers the characters ahead up to some place. -/
def searchFrom (p : Pattern) (pending : List Pattern) (before : Option Char) : List Char → Bool
  | [] => (p :: pending).any (coversNothing before none)
  | c :: rest =>
    let here := p :: pending
    here.any (coversNothing before (some c)) ||
      searchFrom p (here.flatMap (residuals before c)).eraseDups (some c) rest

def occursIn (p : Pattern) (text : String) : Bool := searchFrom p [] none text.toList

end Automation.Pattern
