import Automation.Run.Process
import Automation.Run.Scene
/-! Walks of trees: the calls `run`, `evaluate` and `trigger_wait_for` of a task runtime. Flows
evaluate their children depth first. A wait that finds no event suspends the walk: every flow around
it is left with its level kept, and a later batch walks the kept levels again down to that wait,
then goes on from there. Cancellation is noticed before each child of a flow and at the start of a
call, nowhere else. -/
namespace Automation

inductive Outcome where
  | completed
  | suspended
  deriving DecidableEq, Repr

inductive Stop where
  | cancelled
  | panicked
  deriving DecidableEq, Repr

def Walk (α : Type) : Type := Scene → Process Scene (Except Stop α)

namespace Walk

def pure {α : Type} (a : α) : Walk α := fun s => .done s (.ok a)

def bind {α β : Type} (w : Walk α) (f : α → Walk β) : Walk β := fun s =>
  (w s).bind fun r t => match r with
    | .ok a => f a t
    | .error e => .done t (.error e)

instance : Monad Walk where
  pure := pure
  bind := bind

def stop {α : Type} (e : Stop) : Walk α := fun s => .done s (.error e)

def act {α : Type} (f : Scene → α × Scene) : Walk α := fun s => .done (f s).2 (.ok (f s).1)

def change (f : Scene → Scene) : Walk Unit := fun s => .done (f s) (.ok ())

def read {α : Type} (f : Scene → α) : Walk α := fun s => .done s (.ok (f s))

def perform {α : Type} : Script α → Walk α
  | .done a, s => .done s (.ok a)
  | .panic, s => .done s (.error .panicked)
  | .yield next, s => .yield s fun t => perform next t
  | .pend, s => .pend s
  | .cancel handle next, s => perform next { s with world := s.world.cancel handle }
  | .haltAll next, s => .haltAll s fun n t => perform (next n) t
  | .global key type init next, s =>
    let (r, globals) := s.world.globals.obtain key type init
    perform (next r) { s with world := { s.world with globals } }
  | .argument id type init next, s =>
    let (r, arguments) := s.occasion.arguments.obtain id type init
    perform (next r) { s with occasion := { s.occasion with arguments } }
  | .pattern id text next, s =>
    let (r, arguments) := s.occasion.arguments.pattern id text
    perform (next r) { s with occasion := { s.occasion with arguments } }

def ensureActive : Walk Unit := fun s =>
  if s.isActive then .done s (.ok ()) else .done s (.error .cancelled)

def level (depth : Nat) : Walk Level := fun s =>
  match s.run.slate.cursor.levels[depth]? with
  | some l => .done s (.ok l)
  | none => .done s (.error .panicked)

def judge (path : List Nat) (info : AppletInfo) (check : Check) : Walk AppletResult := do
  match ← read fun s => s.run.expected? info with
  | none => return .empty false
  | some expected =>
    let input ← act fun s => s.beginCheck path info expected
    let outcome ← perform (check input)
    act fun s => s.endCheck path info outcome

def carryOut (path : List Nat) (info : AppletInfo) (action : Action) : Walk AppletResult := do
  let input ← act fun s => s.beginAction path info
  let outcome ← perform (action input)
  act fun s => s.endAction path outcome

mutual
def visit (mode : Mode) (path : List Nat) : Applet → Walk Outcome
  | .criterion info check => do
    change fun s => (s.start path info).reachLeaf info
    let result ← judge path info check
    change fun s => s.finish path info result
    return .completed
  | .action info action => do
    change fun s => (s.start path info).reachLeaf info
    let result ← carryOut path info action
    change fun s => s.finish path info result
    return .completed
  | .wait info wait => do
    change fun s => (s.start path info).reachLeaf info
    match ← act fun s => s.tryWait path info wait with
    | none => return .suspended
    | some result =>
      change fun s => s.finish path info result
      return .completed
  | .flow info spec children => do
    change fun s => s.start path info
    let (depth, saved) ← act Scene.enterFlow
    let available ← if saved then pure true else act fun s => s.choose path spec depth
    if available then
      match ← visitFrom (spec.kind.mode mode) path info depth 0 children with
      | .suspended =>
        change fun s => s.unwind depth
        return .suspended
      | .completed =>
        let result ← act fun s => s.leaveFlow spec depth
        change fun s => s.finish path info result
        return .completed
    else
      change fun s => (s.abandonFlow path children depth).finish path info (.empty false)
      return .completed

/- Goes through the children of a flow, the first of which stands at place `i`; those
before the place of the cursor were finished before a suspension. -/
def visitFrom (mode : Mode) (path : List Nat) (flow : AppletInfo) (depth i : Nat) :
    List Applet → Walk Outcome
  | [] => return .completed
  | child :: rest => do
    let here ← level depth
    if i < here.index then visitFrom mode path flow depth (i + 1) rest
    else
      ensureActive
      let resuming ← read fun s => s.run.slate.cursor.resuming
      match if resuming then Plan.evaluate else here.chain.plan child.flowKind? with
      | .skip =>
        change fun s => (s.tell .skipped (path ++ [i]) child.info).passOver depth here.chain
        visitFrom mode path flow depth (i + 1) rest
      | .orphan =>
        change fun s => (s.tell .skipped (path ++ [i]) child.info).passOver depth .idle
        visitFrom mode path flow depth (i + 1) rest
      | .evaluate =>
        change fun s => s.onRun fun r => r.setFlow flow
        match ← visit mode (path ++ [i]) child with
        | .suspended => return .suspended
        | .completed =>
          let _ ← level depth
          let successful ← act fun s => s.passOn depth child.flowKind?
          if mode == .guard && !successful && !child.flowKind?.any FlowKind.steersChain then
            change fun s => s.skipFrom path (i + 1) rest
            return .completed
          else visitFrom mode path flow depth (i + 1) rest
end

def evaluate (path : List Nat) (applet : Applet) : Walk Outcome := visit .aggregate path applet

def run : Walk Outcome := do
  ensureActive
  let tree ← read fun s => s.run.task.tree
  evaluate [] tree

/- Resumes with the batch of the occasion; nothing happens unless a wait is pending and one
of the events ends it. -/
def trigger : Walk (Option Outcome) := do
  if ← read fun s => s.run.qualifies s.occasion.batch.events then
    ensureActive
    change fun s => s.onRun fun r =>
      let r := { r with batch := s.occasion.batch }
      (r.setSuspending false).setCursor r.slate.cursor.beginResume
    let tree ← read fun s => s.run.task.tree
    let outcome ← evaluate [] tree
    return some outcome
  else return none

end Walk
end Automation
