/-! Processes over a shared state stand for asynchronous calls. A process runs in turns, each of
them up to the next await: it ends with a value, lets others go first and goes on from whatever
state they leave, waits for ever, or asks for everything else to be halted. -/
namespace Automation

inductive Process (σ ρ : Type) where
  | done (state : σ) (value : ρ)
  | yield (state : σ) (next : σ → Process σ ρ)
  | pend (state : σ)
  | haltAll (state : σ) (next : Nat → σ → Process σ ρ)

namespace Process
variable {σ ρ τ : Type}

def bind : Process σ ρ → (ρ → σ → Process σ τ) → Process σ τ
  | done s r, f => f r s
  | yield s next, f => yield s fun t => (next t).bind f
  | pend s, _ => pend s
  | haltAll s next, f => haltAll s fun n t => (next n t).bind f

/- The end of a process that runs by itself, with nothing else to halt: the last state and
the value, if it comes to one. -/
def alone : Process σ ρ → σ × Option ρ
  | done s r => (s, some r)
  | yield s next => (next s).alone
  | pend s => (s, none)
  | haltAll s next => (next 0 s).alone

theorem aloneBind (p : Process σ ρ) (f : ρ → σ → Process σ τ) :
    (p.bind f).alone = match p.alone with
      | (s, some r) => (f r s).alone
      | (s, none) => (s, none) := by
  induction p with
  | done s r => rfl
  | yield s next ih => exact ih s
  | pend s => rfl
  | haltAll s next ih => exact ih 0 s

end Process
end Automation
