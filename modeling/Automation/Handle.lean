/-! Cancel handles (`CancelHandle`), by which the owner of a run halts it. Copies of a handle are
one handle, and a cancelled handle stays cancelled. -/
namespace Automation

structure Handle where
  number : Nat
  deriving DecidableEq, Repr, Inhabited

structure Handles where
  issued : Nat
  cancelled : List Handle
  deriving Repr

namespace Handles

def none : Handles := ⟨0, []⟩

instance : Inhabited Handles := ⟨none⟩

def issue (hs : Handles) : Handle × Handles := (⟨hs.issued⟩, { hs with issued := hs.issued + 1 })

def isCancelled (hs : Handles) (h : Handle) : Bool := hs.cancelled.contains h

def cancel (hs : Handles) (h : Handle) : Handles :=
  if hs.isCancelled h then hs else { hs with cancelled := h :: hs.cancelled }

theorem isCancelledCancel (hs : Handles) (h g : Handle) :
    (hs.cancel h).isCancelled g = (hs.isCancelled g || decide (g = h)) := by
  unfold cancel
  split
  · rename_i already
    by_cases same : g = h
    · simp [same, already]
    · simp [same]
  · by_cases same : g = h <;> simp [isCancelled, same]

theorem isCancelledIssue (hs : Handles) (g : Handle) :
    hs.issue.2.isCancelled g = hs.isCancelled g := rfl

end Handles
end Automation
