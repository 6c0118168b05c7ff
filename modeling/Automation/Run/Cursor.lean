import Automation.Run.Chain
import Automation.Run.Result
/-! The cursor of a run is its tracker (`AppletIndexer`), the place of a walk in a tree. Every flow
being evaluated has one level, a frame of the indexer: the child it is at, the chain among its
children, the result of its last child, and the target to restore. Levels outlive a suspension, and
a resumed walk enters them again instead of evaluating finished children anew. -/
namespace Automation

structure Level where
  index : Nat := 0
  chain : Chain := .idle
  last : Option AppletResult := none
  /- The target before this flow selected its own. -/
  saved : Option (Option Json) := none
  deriving DecidableEq, Repr

def Level.fresh : Level := {}

structure Cursor where
  levels : List Level := []
  depth : Nat := 0
  resuming : Bool := false
  deriving DecidableEq, Repr

namespace Cursor

def held (levels : List Level) : List AppletResult := levels.filterMap Level.last

def reenters (c : Cursor) : Bool := c.resuming && decide (c.depth < c.levels.length)

/- Enters a flow: a level saved for it is used again, else a new one is opened and all
levels from there on are dropped. -/
def enter (c : Cursor) : Cursor :=
  if c.reenters then { c with depth := c.depth + 1 }
  else ⟨c.levels.take c.depth ++ [Level.fresh], c.depth + 1, false⟩

def dropped (c : Cursor) : List Level := if c.reenters then [] else c.levels.drop c.depth

def exit (c : Cursor) (level : Nat) : Cursor :=
  { c with levels := c.levels.take level, depth := level }

/- Leaves a suspended flow and keeps its level. -/
def unwind (c : Cursor) (level : Nat) : Cursor := { c with depth := level }

def update (c : Cursor) (level : Nat) (f : Level → Level) : Cursor :=
  { c with levels := c.levels.modify level f }

def beginResume (c : Cursor) : Cursor := { c with depth := 0, resuming := !c.levels.isEmpty }

def endResume (c : Cursor) : Cursor := { c with resuming := false }

def position (c : Cursor) : List Nat := c.levels.map Level.index

def isEmpty (c : Cursor) : Bool := c.levels.isEmpty

end Cursor
end Automation
