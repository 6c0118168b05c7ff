import Automation.Event
/-! Batches: events in order of arrival, one of which triggered the dispatch. A batch is
never empty, since the place of its trigger is within it. -/
namespace Automation

structure Batch where
  events : List Event
  hit : Nat
  context : Context
  inside : hit < events.length

namespace Batch

def withHit? (events : List Event) (hit : Nat) (context : Context) : Option Batch :=
  if inside : hit < events.length then some ⟨events, hit, context, inside⟩ else none

def ofEvents? (events : List Event) (context : Context) : Option Batch :=
  withHit? events 0 context

def single (event : Event) (context : Context) : Batch := ⟨[event], 0, context, by simp⟩

def hitEvent (b : Batch) : Event := b.events.get ⟨b.hit, b.inside⟩

def size (b : Batch) : Nat := b.events.length

theorem sizePositive (b : Batch) : 0 < b.size := Nat.lt_of_le_of_lt (Nat.zero_le _) b.inside

theorem withHitSome {events : List Event} {hit : Nat} {context : Context} {b : Batch}
    (made : withHit? events hit context = some b) :
    b.events = events ∧ b.hit = hit ∧ b.context = context := by
  unfold withHit? at made
  split at made
  · cases Option.some.inj made
    exact ⟨rfl, rfl, rfl⟩
  · contradiction

theorem withHitNone (events : List Event) (hit : Nat) (context : Context) :
    withHit? events hit context = none ↔ events.length ≤ hit := by
  unfold withHit?
  split <;> simp_all

end Batch
end Automation
