/-! Cooperative scheduling of the runs of a dispatch in rounds. Something that takes turns on a
shared state is either over or wants another turn. Two of them side by side take one turn each per
round, the first of them first (`beside`); what is done between rounds is left to `finish`. -/
namespace Automation

inductive Rounds (σ : Type) where
  | ended (state : σ)
  | again (state : σ) (next : σ → Rounds σ)

namespace Rounds
variable {σ : Type}

def state : Rounds σ → σ
  | ended s | again s _ => s

/- The rest of a round: what has had its turn, and a second one that has yet to take its. -/
def thenTurn : Rounds σ → (σ → Rounds σ) → Rounds σ
  | ended s, second => second s
  | again s next, second =>
    match second s with
    | ended t => again t next
    | again t following => again t fun u => (next u).thenTurn following

def beside (first second : σ → Rounds σ) : σ → Rounds σ := fun s => (first s).thenTurn second

def all (turns : List (σ → Rounds σ)) : σ → Rounds σ := turns.foldr beside ended

def finish (between : σ → σ) : Rounds σ → σ
  | ended s => between s
  | again s next => (next (between s)).finish between

end Rounds
end Automation
