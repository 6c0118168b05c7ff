import Automation.Proofs.Alone
import Automation.Proofs.Demand
import Automation.Proofs.Passage
/-! Walks in which the calls of criteria and actions stand out. A dialogue is either over, or at the
call of an executor and goes on with the answer from whatever scene it comes back in. Tours are to
dialogues what walks are to processes, step for step, and carrying out the scripts of a tour is the
walk (`visitWalk`, `runWalk`, `triggerWalk`). -/
namespace Automation

inductive Executor where
  | check
  | action
  deriving DecidableEq, Repr

namespace Executor

abbrev Answer : Executor → Type
  | check => Except ApplyError Checked
  | action => Except ApplyError Json

def answered (path : List Nat) : (e : Executor) → e.Answer → Entry
  | check, outcome => .checked path outcome
  | action, outcome => .performed path outcome

def result (info : AppletInfo) : (e : Executor) → e.Answer → AppletResult
  | check, .ok c => if c.matched != info.inverted then .passing c.actual else .failing c.actual
  | action, .ok returned => .passing returned
  | check, .error cause | action, .error cause => .failingBy cause

end Executor

/- What an executor's answer means to the walk: what is noted of it at the path of the applet, and
whether the applet succeeds. -/
structure Reply where
  path : List Nat
  entry : Entry
  successful : Bool

def Executor.reply (path : List Nat) (info : AppletInfo) (e : Executor) (answer : e.Answer) :
    Reply :=
  ⟨path, e.answered path answer, (e.result info answer).isSuccessful⟩

inductive Dialogue (α : Type) where
  | finished (scene : Scene) (ending : Except Stop α)
  | call (scene : Scene) (path : List Nat) (info : AppletInfo) (executor : Executor)
      (script : Script executor.Answer) (next : executor.Answer → Scene → Dialogue α)

namespace Dialogue
variable {α β : Type}

def bind : Dialogue α → (α → Scene → Dialogue β) → Dialogue β
  | finished s (.ok a), f => f a s
  | finished s (.error e), _ => finished s (.error e)
  | call s path info executor script next, f =>
    call s path info executor script fun answer t => (next answer t).bind f

def process : Dialogue α → Process Scene (Except Stop α)
  | finished s r => .done s r
  | call s _ _ _ script next =>
    (Walk.perform script s).bind fun r t => match r with
      | .ok answer => (next answer t).process
      | .error e => .done t (.error e)

end Dialogue

def Tour (α : Type) : Type := Scene → Dialogue α

namespace Tour

def pure {α : Type} (a : α) : Tour α := fun s => .finished s (.ok a)

def bind {α β : Type} (w : Tour α) (f : α → Tour β) : Tour β := fun s => (w s).bind f

instance : Monad Tour where
  pure := pure
  bind := bind

def act {α : Type} (f : Scene → α × Scene) : Tour α := fun s => .finished (f s).2 (.ok (f s).1)

def change (f : Scene → Scene) : Tour Unit := fun s => .finished (f s) (.ok ())

def read {α : Type} (f : Scene → α) : Tour α := fun s => .finished s (.ok (f s))

def ensureActive : Tour Unit := fun s =>
  if s.isActive then .finished s (.ok ()) else .finished s (.error .cancelled)

def level (depth : Nat) : Tour Level := fun s =>
  match s.run.slate.cursor.levels[depth]? with
  | some l => .finished s (.ok l)
  | none => .finished s (.error .panicked)

def call (path : List Nat) (info : AppletInfo) (executor : Executor)
    (script : Script executor.Answer) : Tour executor.Answer :=
  fun s => .call s path info executor script fun answer t => .finished t (.ok answer)

def judge (path : List Nat) (info : AppletInfo) (check : Check) : Tour AppletResult := do
  match ← read fun s => s.run.expected? info with
  | none => return .empty false
  | some expected =>
    let input ← act fun s => s.beginCheck path info expected
    let outcome ← call path info .check (check input)
    act fun s => s.endCheck path info outcome

def carryOut (path : List Nat) (info : AppletInfo) (action : Action) : Tour AppletResult := do
  let input ← act fun s => s.beginAction path info
  let outcome ← call path info .action (action input)
  act fun s => s.endAction path outcome

def findTarget (path : List Nat) (spec : FlowSpec) : Nat × Bool → Tour Bool
  | (_, true) => pure true
  | (depth, false) => act fun s => s.choose path spec depth

def closeFlow (path : List Nat) (info : AppletInfo) (spec : FlowSpec) (depth : Nat) :
    Outcome → Tour Outcome
  | .suspended => do
    change fun s => s.unwind depth
    return .suspended
  | .completed => do
    let result ← act fun s => s.leaveFlow spec depth
    change fun s => s.finish path info result
    return .completed

mutual
def visit (mode : Mode) (path : List Nat) : Applet → Tour Outcome
  | .criterion info check => do
    change fun s => (s.start path info).reachLeaf info
    let result ← judge path info check
    change fun s => s.finish path info result
    return .completed
  | .action info action => do
    change fun s => (s.start path info).reachLeaf info
    let result ← carryOut path info action
    change fun s => s.finish path info result
    return .completed
  | .wait info wait => do
    change fun s => (s.start path info).reachLeaf info
    match ← act fun s => s.tryWait path info wait with
    | none => return .suspended
    | some result =>
      change fun s => s.finish path info result
      return .completed
  | .flow info spec children => do
    change fun s => s.start path info
    let entered ← act Scene.enterFlow
    match ← findTarget path spec entered with
    | true =>
      let outcome ← visitFrom (spec.kind.mode mode) path info entered.1 0 children
      closeFlow path info spec entered.1 outcome
    | false =>
      change fun s => (s.abandonFlow path children entered.1).finish path info (.empty false)
      return .completed

def visitFrom (mode : Mode) (path : List Nat) (flow : AppletInfo) (depth i : Nat) :
    List Applet → Tour Outcome
  | [] => return .completed
  | child :: rest => do
    let here ← level depth
    if i < here.index then visitFrom mode path flow depth (i + 1) rest
    else
      ensureActive
      let resuming ← read fun s => s.run.slate.cursor.resuming
      match if resuming then Plan.evaluate else here.chain.plan child.flowKind? with
      | .skip =>
        change fun s => (s.tell .skipped (path ++ [i]) child.info).passOver depth here.chain
        visitFrom mode path flow depth (i + 1) rest
      | .orphan =>
        change fun s => (s.tell .skipped (path ++ [i]) child.info).passOver depth .idle
        visitFrom mode path flow depth (i + 1) rest
      | .evaluate =>
        change fun s => s.onRun fun r => r.setFlow flow
        match ← visit mode (path ++ [i]) child with
        | .suspended => return .suspended
        | .completed =>
          let _ ← level depth
          let successful ← act fun s => s.passOn depth child.flowKind?
          if mode == .guard && !successful && !child.flowKind?.any FlowKind.steersChain then
            change fun s => s.skipFrom path (i + 1) rest
            return .completed
          else visitFrom mode path flow depth (i + 1) rest
end

def goOn (mode : Mode) (path : List Nat) (flow : AppletInfo) (depth i : Nat) (child : Applet)
    (rest : List Applet) : Outcome → Tour Outcome
  | .suspended => return .suspended
  | .completed => do
    let _ ← level depth
    let successful ← act fun s => s.passOn depth child.flowKind?
    if mode == .guard && !successful && !child.flowKind?.any FlowKind.steersChain then
      change fun s => s.skipFrom path (i + 1) rest
      return .completed
    else visitFrom mode path flow depth (i + 1) rest

def run : Tour Outcome := do
  ensureActive
  let tree ← read fun s => s.run.task.tree
  visit .aggregate [] tree

def trigger : Tour (Option Outcome) := do
  if ← read fun s => s.run.qualifies s.occasion.batch.events then
    ensureActive
    change Scene.resume
    let tree ← read fun s => s.run.task.tree
    let outcome ← visit .aggregate [] tree
    return some outcome
  else return none

end Tour

namespace Process
variable {σ ρ τ υ : Type}

theorem bindDone (p : Process σ ρ) : (p.bind fun r t => .done t r) = p := by
  induction p with
  | done s r => rfl
  | yield s next ih => exact congrArg (yield s) (funext ih)
  | pend s => rfl
  | haltAll s next ih => exact congrArg (haltAll s) (funext fun n => funext (ih n))

theorem bindBind (p : Process σ ρ) (f : ρ → σ → Process σ τ) (g : τ → σ → Process σ υ) :
    (p.bind f).bind g = p.bind fun r t => (f r t).bind g := by
  induction p with
  | done s r => rfl
  | yield s next ih => exact congrArg (yield s) (funext ih)
  | pend s => rfl
  | haltAll s next ih => exact congrArg (haltAll s) (funext fun n => funext (ih n))

end Process

namespace Dialogue
variable {α β : Type}

theorem bindProcess (c : Dialogue α) (f : α → Scene → Dialogue β) :
    (c.bind f).process = c.process.bind fun r t => match r with
      | .ok a => (f a t).process
      | .error e => .done t (.error e) := by
  induction c with
  | finished s r => cases r <;> rfl
  | call s path info executor script next ih =>
    rw [bind, process, process, Process.bindBind]
    refine congrArg (Process.bind _) (funext fun r => funext fun t => ?_)
    cases r with
    | ok answer => exact ih answer t
    | error e => rfl

end Dialogue

namespace Tour
variable {α β : Type}

/- The walk that carries out the scripts of a tour. -/
def walk (w : Tour α) : Walk α := fun s => (w s).process

theorem thenWalk {w : Tour α} {v : Walk α} {f : α → Tour β} {g : α → Walk β}
    (first : w.walk = v) (second : ∀ a, (f a).walk = g a) : (w >>= f).walk = v >>= g := by
  funext s
  refine (Dialogue.bindProcess (w s) f).trans ?_
  subst first
  refine congrArg (Process.bind _) (funext fun r => funext fun t => ?_)
  cases r with
  | ok a => exact congrFun (second a) t
  | error e => rfl

theorem ensureActiveWalk : ensureActive.walk = Walk.ensureActive := by
  funext s
  change (ensureActive s).process = _
  unfold ensureActive Walk.ensureActive
  split <;> rfl

theorem levelWalk (depth : Nat) : (level depth).walk = Walk.level depth := by
  funext s
  change (level depth s).process = _
  unfold level Walk.level
  cases s.run.slate.cursor.levels[depth]? <;> rfl

theorem callWalk (path : List Nat) (info : AppletInfo) (executor : Executor)
    (script : Script executor.Answer) :
    (call path info executor script).walk = Walk.perform script := by
  funext s
  refine Eq.trans ?_ (Process.bindDone (Walk.perform script s))
  unfold walk call Dialogue.process
  refine congrArg (Process.bind _) (funext fun r => funext fun t => ?_)
  cases r <;> rfl

theorem judgeWalk (path : List Nat) (info : AppletInfo) (check : Check) :
    (judge path info check).walk = Walk.judge path info check := by
  refine thenWalk rfl fun expected => ?_
  cases expected with
  | none => rfl
  | some expected => exact thenWalk rfl fun input => thenWalk (callWalk ..) fun outcome => rfl

theorem carryOutWalk (path : List Nat) (info : AppletInfo) (action : Action) :
    (carryOut path info action).walk = Walk.carryOut path info action :=
  thenWalk rfl fun _ => thenWalk (callWalk ..) fun _ => rfl

theorem findTargetWalk (path : List Nat) (spec : FlowSpec) (entered : Nat × Bool) :
    (findTarget path spec entered).walk = Walk.findTarget path spec entered := by
  obtain ⟨depth, _ | _⟩ := entered <;> rfl

theorem closeFlowWalk (path : List Nat) (info : AppletInfo) (spec : FlowSpec) (depth : Nat)
    (outcome : Outcome) :
    (closeFlow path info spec depth outcome).walk =
      Walk.closeFlow path info spec depth outcome := by
  cases outcome with
  | suspended => exact thenWalk rfl fun _ => rfl
  | completed => exact thenWalk rfl fun _ => thenWalk rfl fun _ => rfl

theorem visitFromWalk {children : List Applet}
    (visits : ∀ c ∈ children, ∀ mode path, (visit mode path c).walk = Walk.visit mode path c)
    (mode : Mode) (path : List Nat) (flow : AppletInfo) (depth i : Nat) :
    (visitFrom mode path flow depth i children).walk =
      Walk.visitFrom mode path flow depth i children := by
  induction children generalizing i with
  | nil => rw [visitFrom, Walk.visitFrom]; rfl
  | cons child rest ih =>
    have onward := ih fun c inside => visits c (List.mem_cons_of_mem child inside)
    rw [visitFrom, Walk.visitFrom]
    refine thenWalk (levelWalk depth) fun here => ?_
    split
    · exact onward (i + 1)
    · refine thenWalk ensureActiveWalk fun _ => thenWalk rfl fun resuming => ?_
      cases (if resuming then Plan.evaluate else here.chain.plan child.flowKind?) with
      | skip => exact thenWalk rfl fun _ => onward (i + 1)
      | orphan => exact thenWalk rfl fun _ => onward (i + 1)
      | evaluate =>
        refine thenWalk rfl fun _ => ?_
        refine thenWalk (visits child List.mem_cons_self mode _) fun outcome => ?_
        cases outcome with
        | suspended => rfl
        | completed =>
          refine thenWalk (levelWalk depth) fun _ => thenWalk rfl fun successful => ?_
          split
          · exact thenWalk rfl fun _ => rfl
          · exact onward (i + 1)

theorem visitWalk (mode : Mode) (path : List Nat) (a : Applet) :
    (visit mode path a).walk = Walk.visit mode path a := by
  induction a using Applet.byChildren generalizing mode path with
  | criterion info check =>
    rw [visit, Walk.visit]
    exact thenWalk rfl fun _ => thenWalk (judgeWalk ..) fun _ => thenWalk rfl fun _ => rfl
  | action info action =>
    rw [visit, Walk.visit]
    exact thenWalk rfl fun _ => thenWalk (carryOutWalk ..) fun _ => thenWalk rfl fun _ => rfl
  | wait info wait =>
    rw [visit, Walk.visit]
    refine thenWalk rfl fun _ => thenWalk rfl fun result => ?_
    cases result with
    | none => rfl
    | some result => exact thenWalk rfl fun _ => rfl
  | flow info spec children ih =>
    rw [visit, Walk.visitFlow]
    refine thenWalk rfl fun _ => thenWalk rfl fun entered => ?_
    refine thenWalk (findTargetWalk path spec entered) fun available => ?_
    cases available with
    | false => exact thenWalk rfl fun _ => rfl
    | true =>
      have inner := visitFromWalk (fun c inside mode path => ih c inside mode path)
        (spec.kind.mode mode) path info entered.1 0
      exact thenWalk inner (closeFlowWalk path info spec entered.1)

theorem runWalk : run.walk = Walk.run :=
  thenWalk ensureActiveWalk fun _ => thenWalk rfl fun tree => visitWalk .aggregate [] tree

theorem triggerWalk : trigger.walk = Walk.trigger := by
  refine thenWalk rfl fun qualifies => ?_
  split
  · refine thenWalk ensureActiveWalk fun _ => thenWalk rfl fun _ => thenWalk rfl fun tree => ?_
    exact thenWalk (visitWalk .aggregate [] tree) fun _ => rfl
  · rfl

section
variable {mode : Mode} {path : List Nat} {info : AppletInfo} {spec : FlowSpec} {depth i : Nat}
  {child : Applet} {children rest : List Applet} {s : Scene} {here : Level}

theorem levelFound (found : s.run.slate.cursor.levels[depth]? = some here) :
    level depth s = .finished s (.ok here) := by
  simp only [level, found]

theorem visitFromPast (found : s.run.slate.cursor.levels[depth]? = some here)
    (past : i < here.index) :
    visitFrom mode path info depth i (child :: rest) s =
      visitFrom mode path info depth (i + 1) rest s := by
  rw [visitFrom]
  change (level depth s).bind _ = _
  rw [levelFound found]
  exact congrFun (if_pos past) s

theorem visitFromReached (before : List Applet)
    (found : s.run.slate.cursor.levels[depth]? = some here)
    (reached : here.index = i + before.length) :
    visitFrom mode path info depth i (before ++ rest) s =
      visitFrom mode path info depth (i + before.length) rest s := by
  induction before generalizing i with
  | nil => rfl
  | cons first before ih =>
    rw [List.length_cons] at reached
    have past : i < here.index := by omega
    rw [List.cons_append, visitFromPast found past, ih (by omega), List.length_cons,
      Nat.add_assoc, Nat.add_comm 1]

theorem visitFromCancelled (found : s.run.slate.cursor.levels[depth]? = some here)
    (reached : here.index ≤ i) (cancelled : s.isActive = false) :
    visitFrom mode path info depth i (child :: rest) s = .finished s (.error .cancelled) := by
  rw [visitFrom]
  change (level depth s).bind _ = _
  rw [levelFound found]
  refine (congrFun (if_neg (Nat.not_lt.mpr reached)) s).trans ?_
  change (ensureActive s).bind _ = _
  simp [ensureActive, cancelled, Dialogue.bind]

theorem visitFromNext (found : s.run.slate.cursor.levels[depth]? = some here)
    (reached : here.index ≤ i) (active : s.isActive = true) :
    visitFrom mode path info depth i (child :: rest) s =
      match if s.run.slate.cursor.resuming then Plan.evaluate else here.chain.plan child.flowKind?
      with
      | .skip => visitFrom mode path info depth (i + 1) rest
        ((s.tell .skipped (path ++ [i]) child.info).passOver depth here.chain)
      | .orphan => visitFrom mode path info depth (i + 1) rest
        ((s.tell .skipped (path ++ [i]) child.info).passOver depth .idle)
      | .evaluate => (visit mode (path ++ [i]) child (s.onRun fun r => r.setFlow info)).bind
        (goOn mode path info depth i child rest) := by
  rw [visitFrom]
  change (level depth s).bind _ = _
  rw [levelFound found]
  refine (congrFun (if_neg (Nat.not_lt.mpr reached)) s).trans ?_
  change (ensureActive s).bind _ = _
  simp only [ensureActive, active, if_true]
  change (match if s.run.slate.cursor.resuming then Plan.evaluate
    else here.chain.plan child.flowKind? with
    | .skip => _ | .orphan => _ | .evaluate => _ : Tour Outcome) s = _
  cases (if s.run.slate.cursor.resuming then Plan.evaluate
    else here.chain.plan child.flowKind?) with
  | skip => rfl
  | orphan => rfl
  | evaluate =>
    change (visit mode (path ++ [i]) child (s.onRun fun r => r.setFlow info)).bind _ = _
    refine congrArg (Dialogue.bind _) (funext fun outcome => ?_)
    cases outcome <;> rfl

theorem goOnPassed (found : s.run.slate.cursor.levels[depth]? = some here) :
    goOn mode path info depth i child rest .completed s =
      if mode == .guard && !(s.passOn depth child.flowKind?).1 &&
          !child.flowKind?.any FlowKind.steersChain then
        .finished ((s.passOn depth child.flowKind?).2.skipFrom path (i + 1) rest) (.ok .completed)
      else visitFrom mode path info depth (i + 1) rest (s.passOn depth child.flowKind?).2 := by
  change (level depth s).bind _ = _
  rw [levelFound found]
  change (if _ then _ else _ : Tour Outcome) (s.passOn depth child.flowKind?).2 = _
  split <;> rfl

theorem closeFlowCompleted : closeFlow path info spec depth .completed s =
    .finished ((s.leaveFlow spec depth).2.finish path info (s.leaveFlow spec depth).1)
      (.ok .completed) := rfl

theorem closeFlowSuspended : closeFlow path info spec depth .suspended s =
    .finished (s.unwind depth) (.ok .suspended) := rfl

theorem visitUnresolved {check : Check} {t : Scene}
    (reached : (s.start path info).reachLeaf info = t) (missing : t.run.expected? info = none) :
    visit mode path (.criterion info check) s =
      .finished (t.finish path info (.empty false)) (.ok .completed) := by
  rw [visit, ← reached]
  rw [← reached] at missing
  change ((match ((s.start path info).reachLeaf info).run.expected? info with
    | none => _ | some expected => _ : Tour AppletResult) _).bind _ = _
  rw [missing]
  rfl

theorem visitResolved {check : Check} {t : Scene} {expected : Option Json}
    (reached : (s.start path info).reachLeaf info = t)
    (found : t.run.expected? info = some expected) :
    visit mode path (.criterion info check) s =
      .call (t.beginCheck path info expected).2 path info .check
        (check (t.beginCheck path info expected).1) fun outcome u =>
          .finished
            ((u.endCheck path info outcome).2.finish path info (u.endCheck path info outcome).1)
            (.ok .completed) := by
  rw [visit, ← reached]
  rw [← reached] at found
  change ((match ((s.start path info).reachLeaf info).run.expected? info with
    | none => _ | some expected => _ : Tour AppletResult) _).bind _ = _
  rw [found]
  rfl

theorem visitAction {action : Action} {t : Scene}
    (reached : (s.start path info).reachLeaf info = t) :
    visit mode path (.action info action) s =
      .call (t.beginAction path info).2 path info .action (action (t.beginAction path info).1)
        fun outcome u =>
          .finished ((u.endAction path outcome).2.finish path info (u.endAction path outcome).1)
            (.ok .completed) := by
  rw [visit, ← reached]
  rfl

theorem visitWait {wait : Wait} {t : Scene} (reached : (s.start path info).reachLeaf info = t) :
    visit mode path (.wait info wait) s =
      (match (t.tryWait path info wait).1 with
        | none => .finished (t.tryWait path info wait).2 (.ok .suspended)
        | some r =>
          .finished ((t.tryWait path info wait).2.finish path info r) (.ok .completed)) := by
  rw [visit, ← reached]
  change (match (((s.start path info).reachLeaf info).tryWait path info wait).1 with
    | none => _ | some r => _ : Tour Outcome) _ = _
  cases (((s.start path info).reachLeaf info).tryWait path info wait).1 <;> rfl

theorem visitFlowAgain (entered : (s.start path info).enterFlow.1 = (depth, true)) :
    visit mode path (.flow info spec children) s =
      (visitFrom (spec.kind.mode mode) path info depth 0 children
        (s.start path info).enterFlow.2).bind (closeFlow path info spec depth) := by
  rw [visit]
  change ((findTarget path spec (s.start path info).enterFlow.1 >>= _ : Tour Outcome)
    (s.start path info).enterFlow.2) = _
  rw [entered]
  rfl

theorem visitFlowFirst (entered : (s.start path info).enterFlow.1 = (depth, false)) :
    visit mode path (.flow info spec children) s =
      match (s.start path info).enterFlow.2.choose path spec depth with
      | (true, t) => (visitFrom (spec.kind.mode mode) path info depth 0 children t).bind
        (closeFlow path info spec depth)
      | (false, t) =>
        .finished ((t.abandonFlow path children depth).finish path info (.empty false))
          (.ok .completed) := by
  rw [visit]
  change ((findTarget path spec (s.start path info).enterFlow.1 >>= _ : Tour Outcome)
    (s.start path info).enterFlow.2) = _
  rw [entered]
  change (Dialogue.finished _ _).bind _ = _
  dsimp only
  rcases (s.start path info).enterFlow.2.choose path spec depth with ⟨_ | _, t⟩ <;> rfl

theorem runInactive (cancelled : s.isActive = false) : run s = .finished s (.error .cancelled) := by
  change (ensureActive s).bind _ = _
  simp [ensureActive, cancelled, Dialogue.bind]

theorem runActive (active : s.isActive = true) :
    run s = visit .aggregate [] s.run.task.tree s := by
  change (ensureActive s).bind _ = _
  simp only [ensureActive, active, if_true]
  rfl

theorem triggerIdle (idle : s.run.qualifies s.occasion.batch.events = false) :
    trigger s = .finished s (.ok none) := by
  change (if s.run.qualifies s.occasion.batch.events = true then _ else _ : Tour (Option Outcome)) s
    = _
  rw [if_neg (by simp [idle])]
  rfl

theorem triggerInactive (qualifies : s.run.qualifies s.occasion.batch.events = true)
    (cancelled : s.isActive = false) : trigger s = .finished s (.error .cancelled) := by
  change (if s.run.qualifies s.occasion.batch.events = true then _ else _ : Tour (Option Outcome)) s
    = _
  rw [if_pos qualifies]
  change (ensureActive s).bind _ = _
  simp [ensureActive, cancelled, Dialogue.bind]

theorem triggerActive (qualifies : s.run.qualifies s.occasion.batch.events = true)
    (active : s.isActive = true) :
    trigger s = (visit .aggregate [] s.run.task.tree s.resume).bind
      fun outcome t => .finished t (.ok (some outcome)) := by
  change (if s.run.qualifies s.occasion.batch.events = true then _ else _ : Tour (Option Outcome)) s
    = _
  rw [if_pos qualifies]
  change (ensureActive s).bind _ = _
  simp only [ensureActive, active, if_true]
  rfl

end

end Tour

end Automation
