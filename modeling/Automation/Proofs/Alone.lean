import Automation.Run.Walk
/-! Walks that nothing else takes turns with: how one step of them follows the other, and what a
flow does before, between and after the visits of its children. Before that, what the calls of a run
come to once it is known whether they do anything. -/
namespace Automation

def Scene.resume (s : Scene) : Scene :=
  s.onRun fun r =>
    let r := { r with batch := s.occasion.batch }
    (r.setSuspending false).setCursor r.slate.cursor.beginResume

namespace Walk
variable {α β : Type}

theorem runInactive {s : Scene} (cancelled : s.isActive = false) :
    run s = .done s (.error .cancelled) := by
  change (ensureActive s).bind _ = _
  simp [ensureActive, cancelled, Process.bind]

theorem runActive {s : Scene} (active : s.isActive = true) :
    run s = visit .aggregate [] s.run.task.tree s := by
  change (ensureActive s).bind _ = _
  simp only [ensureActive, active, if_true]
  rfl

theorem triggerIdle {s : Scene} (idle : s.run.qualifies s.occasion.batch.events = false) :
    trigger s = .done s (.ok none) := by
  change (if s.run.qualifies s.occasion.batch.events = true then _ else _ : Walk (Option Outcome)) s
    = _
  rw [if_neg (by simp [idle])]
  rfl

theorem triggerInactive {s : Scene} (qualifies : s.run.qualifies s.occasion.batch.events = true)
    (cancelled : s.isActive = false) : trigger s = .done s (.error .cancelled) := by
  change (if s.run.qualifies s.occasion.batch.events = true then _ else _ : Walk (Option Outcome)) s
    = _
  rw [if_pos qualifies]
  change (ensureActive s).bind _ = _
  simp [ensureActive, cancelled, Process.bind]

theorem triggerActive {s : Scene} (qualifies : s.run.qualifies s.occasion.batch.events = true)
    (active : s.isActive = true) :
    trigger s = (visit .aggregate [] s.run.task.tree >>= fun o => return some o) s.resume := by
  change (if s.run.qualifies s.occasion.batch.events = true then _ else _ : Walk (Option Outcome)) s
    = _
  rw [if_pos qualifies]
  change (ensureActive s).bind _ = _
  simp only [ensureActive, active, if_true]
  rfl

@[simp] theorem aloneThen (w : Walk α) (f : α → Walk β) (s : Scene) :
    ((w >>= f) s).alone = match (w s).alone with
      | (t, some (.ok a)) => (f a t).alone
      | (t, some (.error e)) => (t, some (.error e))
      | (t, none) => (t, none) := by
  change (Walk.bind w f s).alone = _
  unfold Walk.bind
  rw [Process.aloneBind]
  rcases (w s).alone with ⟨t, _ | (_ | a)⟩ <;> rfl

def next (f : α → Walk β) : Scene × Option (Except Stop α) → Scene × Option (Except Stop β)
  | (t, some (.ok a)) => (f a t).alone
  | (t, some (.error e)) => (t, some (.error e))
  | (t, none) => (t, none)

theorem aloneNext (w : Walk α) (f : α → Walk β) (s : Scene) :
    ((w >>= f) s).alone = next f (w s).alone := aloneThen w f s

theorem nextNext {γ : Type} (f : α → Walk β) (g : β → Walk γ)
    (out : Scene × Option (Except Stop α)) :
    next g (next f out) = next (fun a => f a >>= g) out := by
  rcases out with ⟨t, _ | (_ | a)⟩
  · rfl
  · rfl
  · exact (aloneNext (f a) g t).symm

@[simp] theorem aloneReturn (a : α) (s : Scene) :
    (Walk.pure a s).alone = (s, some (.ok a)) := rfl

@[simp] theorem aloneChange (f : Scene → Scene) (s : Scene) :
    (change f s).alone = (f s, some (.ok ())) := rfl

@[simp] theorem aloneAct (f : Scene → α × Scene) (s : Scene) :
    (act f s).alone = ((f s).2, some (.ok (f s).1)) := rfl

@[simp] theorem aloneRead (f : Scene → α) (s : Scene) :
    (read f s).alone = (s, some (.ok (f s))) := rfl

def closeFlow (path : List Nat) (info : AppletInfo) (spec : FlowSpec) (depth : Nat) :
    Outcome → Walk Outcome
  | .suspended => do
    change fun s => s.unwind depth
    return .suspended
  | .completed => do
    let result ← act fun s => s.leaveFlow spec depth
    change fun s => s.finish path info result
    return .completed

def goOn (mode : Mode) (path : List Nat) (flow : AppletInfo) (depth i : Nat) (child : Applet)
    (rest : List Applet) : Outcome → Walk Outcome
  | .suspended => return .suspended
  | .completed => do
    let _ ← level depth
    let successful ← act fun s => s.passOn depth child.flowKind?
    if mode == .guard && !successful && !child.flowKind?.any FlowKind.steersChain then
      change fun s => s.skipFrom path (i + 1) rest
      return .completed
    else visitFrom mode path flow depth (i + 1) rest

theorem aloneActive (s : Scene) (active : s.isActive = true) :
    (ensureActive s).alone = (s, some (.ok ())) := by
  simp [ensureActive, active, Process.alone]

theorem aloneInactive (s : Scene) (cancelled : s.isActive = false) :
    (ensureActive s).alone = (s, some (.error .cancelled)) := by
  simp [ensureActive, cancelled, Process.alone]

theorem aloneLevel (depth : Nat) (s : Scene) (l : Level)
    (found : s.run.slate.cursor.levels[depth]? = some l) :
    (level depth s).alone = (s, some (.ok l)) := by
  simp [level, found, Process.alone]

variable {mode : Mode} {path : List Nat} {flow : AppletInfo} {depth i : Nat} {child : Applet}
  {rest : List Applet} {s : Scene} {here : Level}

theorem visitFromPast (found : s.run.slate.cursor.levels[depth]? = some here)
    (past : i < here.index) :
    (visitFrom mode path flow depth i (child :: rest) s).alone =
      (visitFrom mode path flow depth (i + 1) rest s).alone := by
  rw [visitFrom, aloneThen, aloneLevel depth s here found]
  simp only [past, if_true]

theorem visitFromCancelled (found : s.run.slate.cursor.levels[depth]? = some here)
    (reached : here.index ≤ i) (cancelled : s.isActive = false) :
    (visitFrom mode path flow depth i (child :: rest) s).alone =
      (s, some (.error .cancelled)) := by
  rw [visitFrom, aloneThen, aloneLevel depth s here found]
  simp only [Nat.not_lt.mpr reached, if_false, aloneThen, aloneInactive s cancelled]

theorem visitFromEvaluate (found : s.run.slate.cursor.levels[depth]? = some here)
    (reached : here.index ≤ i) (active : s.isActive = true)
    (evaluate : (if s.run.slate.cursor.resuming then Plan.evaluate
      else here.chain.plan child.flowKind?) = .evaluate) :
    (visitFrom mode path flow depth i (child :: rest) s).alone =
      ((visit mode (path ++ [i]) child >>= goOn mode path flow depth i child rest)
        (s.onRun fun r => r.setFlow flow)).alone := by
  rw [visitFrom, aloneThen, aloneLevel depth s here found]
  simp only [Nat.not_lt.mpr reached, if_false, aloneThen, aloneActive s active, aloneRead,
    evaluate, aloneChange]
  rcases (visit mode (path ++ [i]) child (s.onRun fun r => r.setFlow flow)).alone with
    ⟨t, _ | (_ | (_ | _))⟩ <;> rfl

theorem visitFromReached (before : List Applet)
    (found : s.run.slate.cursor.levels[depth]? = some here)
    (reached : here.index = i + before.length) :
    (visitFrom mode path flow depth i (before ++ rest) s).alone =
      (visitFrom mode path flow depth (i + before.length) rest s).alone := by
  induction before generalizing i with
  | nil => rfl
  | cons first before ih =>
    rw [List.length_cons] at reached
    have past : i < here.index := by omega
    rw [List.cons_append, visitFromPast found past, ih (by omega), List.length_cons,
      Nat.add_assoc, Nat.add_comm 1]

theorem visitFromSkip (found : s.run.slate.cursor.levels[depth]? = some here)
    (reached : here.index ≤ i) (active : s.isActive = true)
    (forward : s.run.slate.cursor.resuming = false)
    (skip : here.chain.plan child.flowKind? = .skip) :
    (visitFrom mode path flow depth i (child :: rest) s).alone =
      (visitFrom mode path flow depth (i + 1) rest
        ((s.tell .skipped (path ++ [i]) child.info).passOver depth here.chain)).alone := by
  rw [visitFrom, aloneThen, aloneLevel depth s here found]
  simp only [Nat.not_lt.mpr reached, if_false, aloneThen, aloneActive s active, aloneRead,
    forward, skip, aloneChange, Bool.false_eq_true]

theorem visitFromOrphan (found : s.run.slate.cursor.levels[depth]? = some here)
    (reached : here.index ≤ i) (active : s.isActive = true)
    (forward : s.run.slate.cursor.resuming = false)
    (orphan : here.chain.plan child.flowKind? = .orphan) :
    (visitFrom mode path flow depth i (child :: rest) s).alone =
      (visitFrom mode path flow depth (i + 1) rest
        ((s.tell .skipped (path ++ [i]) child.info).passOver depth .idle)).alone := by
  rw [visitFrom, aloneThen, aloneLevel depth s here found]
  simp only [Nat.not_lt.mpr reached, if_false, aloneThen, aloneActive s active, aloneRead,
    forward, orphan, aloneChange, Bool.false_eq_true]

variable {info : AppletInfo} {wait : Wait}

theorem visitWaitReleased {result : AppletResult}
    (released : (((s.start path info).reachLeaf info).tryWait path info wait).1 = some result) :
    (visit mode path (.wait info wait) s).alone =
      ((((s.start path info).reachLeaf info).tryWait path info wait).2.finish path info result,
        some (.ok .completed)) := by
  rw [visit]
  simp only [aloneThen, aloneChange, aloneAct, released]
  rfl

theorem visitWaitRefused
    (refused : (((s.start path info).reachLeaf info).tryWait path info wait).1 = none) :
    (visit mode path (.wait info wait) s).alone =
      ((((s.start path info).reachLeaf info).tryWait path info wait).2, some (.ok .suspended)) := by
  rw [visit]
  simp only [aloneThen, aloneChange, aloneAct, refused]
  rfl

variable {spec : FlowSpec} {children : List Applet}

def findTarget (path : List Nat) (spec : FlowSpec) : Nat × Bool → Walk Bool
  | (_, true) => pure true
  | (depth, false) => act fun s => s.choose path spec depth

def pursueFlow (mode : Mode) (path : List Nat) (info : AppletInfo) (spec : FlowSpec)
    (children : List Applet) (depth : Nat) : Bool → Walk Outcome
  | true => visitFrom (spec.kind.mode mode) path info depth 0 children >>=
      closeFlow path info spec depth
  | false => do
    change fun s => (s.abandonFlow path children depth).finish path info (.empty false)
    return .completed

theorem visitFlow : visit mode path (.flow info spec children) = (do
    change fun s => s.start path info
    let entered ← act Scene.enterFlow
    let available ← findTarget path spec entered
    pursueFlow mode path info spec children entered.1 available) := by
  have pursued (depth : Nat) (available : Bool) :
      pursueFlow mode path info spec children depth available =
        (if available = true then do
          match ← visitFrom (spec.kind.mode mode) path info depth 0 children with
          | .suspended =>
            change fun s => s.unwind depth
            return .suspended
          | .completed =>
            let result ← act fun s => s.leaveFlow spec depth
            change fun s => s.finish path info result
            return .completed
        else do
          change fun s => (s.abandonFlow path children depth).finish path info (.empty false)
          return Outcome.completed) := by
    cases available with
    | false => rfl
    | true =>
      refine congrArg (visitFrom (spec.kind.mode mode) path info depth 0 children >>= ·) ?_
      funext outcome
      cases outcome <;> rfl
  rw [visit]
  simp only [pursued]
  refine congrArg (change _ >>= ·) (funext fun _ => congrArg (act _ >>= ·) (funext fun entered => ?_))
  obtain ⟨depth, saved⟩ := entered
  cases saved <;> rfl
theorem visitFlowAgain (entered : (s.start path info).enterFlow.1 = (depth, true)) :
    (visit mode path (.flow info spec children) s).alone =
      ((visitFrom (spec.kind.mode mode) path info depth 0 children >>=
        closeFlow path info spec depth) (s.start path info).enterFlow.2).alone := by
  rw [visit]
  simp only [aloneThen, aloneChange, aloneAct, entered, if_true, aloneReturn]
  rcases (visitFrom (spec.kind.mode mode) path info depth 0 children
    (s.start path info).enterFlow.2).alone with ⟨t, _ | (_ | (_ | _))⟩ <;> rfl

theorem visitFlowFirst (entered : (s.start path info).enterFlow.1 = (depth, false)) :
    (visit mode path (.flow info spec children) s).alone =
      let chosen := (s.start path info).enterFlow.2.choose path spec depth
      if chosen.1 then
        ((visitFrom (spec.kind.mode mode) path info depth 0 children >>=
          closeFlow path info spec depth) chosen.2).alone
      else ((chosen.2.abandonFlow path children depth).finish path info (.empty false),
        some (.ok .completed)) := by
  rw [visit]
  simp only [aloneThen, aloneChange, aloneAct, entered, Bool.false_eq_true, if_false]
  rcases (s.start path info).enterFlow.2.choose path spec depth with ⟨available, t⟩
  cases available with
  | true =>
    simp only [if_true, aloneThen]
    rcases (visitFrom (spec.kind.mode mode) path info depth 0 children t).alone with
      ⟨u, _ | (_ | (_ | _))⟩ <;> rfl
  | false => rfl

end Walk
end Automation
