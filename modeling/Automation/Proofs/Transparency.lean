import Automation.Proofs.Keeping
import Automation.Proofs.Suspension
/-! Whole runs are transparent to suspension: the children of a flow, flows, trees, and then
the calls that the owner of a run makes, one for every batch. -/
namespace Automation

namespace Scene
variable {mode : Mode} {path : List Nat} {info : AppletInfo} {spec : FlowSpec}
  {before rest : List Applet} {child : Applet} {levels : List Level} {again : Scene → Ending}

theorem closeFollows {s : Scene} {l : Level} (forward : s.Forward (levels ++ [l]) none)
    (ahead : List Batch) :
    Follows again levels ahead
      (Walk.closeFlow path info spec levels.length .completed s).alone
      (Straight.closeFlow path info spec l.saved l.last (s.passage ahead)) := by
  obtain ⟨left, shown⟩ := leaveFlowForward forward spec
  rw [Straight.closeFlow, Straight.thenNext, shown, Straight.next, Straight.conclude,
    ← finishPassage]
  exact .completed (finishForward left path info _)

theorem goOnFollows {s : Scene} {l : Level} {r : AppletResult} {saved : Option (Option Json)}
    (forward : s.Forward (levels ++ [l]) (some r)) (reached : l.index = before.length)
    (same : l.saved = saved) (ahead : List Batch)
    (onward : ∀ t : Scene, t.Forward (levels ++
        [⟨before.length + 1, .after child.flowKind? r.isSuccessful, some r, saved⟩]) none →
      Follows again levels ahead
        (Walk.next (Walk.closeFlow path info spec levels.length)
          (Walk.visitFrom mode path info levels.length (before.length + 1) rest t).alone)
        (Straight.next (Straight.closeFlow path info spec saved)
          (Straight.visitFrom mode path (.after child.flowKind? r.isSuccessful) (some r)
            (before.length + 1) rest (t.passage ahead)))) :
    Follows again levels ahead
      (Walk.next (Walk.closeFlow path info spec levels.length)
        (Walk.goOn mode path info levels.length before.length child rest .completed s).alone)
      (Straight.next (Straight.closeFlow path info spec saved)
        (Straight.goOn mode path before.length child rest r (s.passage ahead))) := by
  have found : s.run.slate.cursor.levels[levels.length]? = some l := by
    rw [forwardCursor forward]
    simp [Cursor.standing]
  obtain ⟨success, moved⟩ := passOnForward forward child.flowKind?
  rw [reached, same] at moved
  have shown := passOnPassage s levels.length child.flowKind? ahead
  rw [Walk.goOn, Walk.aloneThen, Walk.aloneLevel levels.length s l found]
  simp only [Walk.aloneThen, Walk.aloneAct, success]
  unfold Straight.goOn
  rw [← shown]
  cases mode == .guard && !r.isSuccessful && !child.flowKind?.any FlowKind.steersChain with
  | false =>
    simp only [Bool.false_eq_true, if_false]
    exact onward _ moved
  | true =>
    simp only [if_true, Walk.aloneThen, Walk.aloneChange, Straight.thenAt, Straight.changeAt,
      ← skipFromPassage]
    exact closeFollows (skipFromForward moved path _ rest) ahead

theorem visitFromFollows (simulates : ∀ c ∈ rest, ∀ mode path, Simulates mode path c)
    {s : Scene} {chain : Chain} {last : Option AppletResult} {saved : Option (Option Json)}
    (forward : s.Forward (levels ++ [⟨before.length, chain, last, saved⟩]) none)
    (ahead : List Batch) :
    Follows (fun t => (Walk.visit mode path (.flow info spec (before ++ rest)) t).alone) levels
      ahead
      (Walk.next (Walk.closeFlow path info spec levels.length)
        (Walk.visitFrom (spec.kind.mode mode) path info levels.length before.length rest s).alone)
      (Straight.next (Straight.closeFlow path info spec saved)
        (Straight.visitFrom (spec.kind.mode mode) path chain last before.length rest
          (s.passage ahead))) := by
  -- By induction on the children ahead: what the level of the flow holds on the one side is what
  -- the passage hands down on the other.
  induction rest generalizing before s chain last ahead with
  | nil => exact closeFollows forward ahead
  | cons child rest ih =>
    have found : s.run.slate.cursor.levels[levels.length]? =
        some ⟨before.length, chain, last, saved⟩ := by
      rw [forwardCursor forward]
      simp [Cursor.standing]
    have resting : s.run.slate.cursor.resuming = false := by
      rw [forwardCursor forward]
      rfl
    have shift : before ++ child :: rest = (before ++ [child]) ++ rest := by simp
    have length : (before ++ [child]).length = before.length + 1 := by simp
    have later : ∀ c ∈ rest, ∀ mode path, Simulates mode path c :=
      fun c inside => simulates c (List.mem_cons_of_mem child inside)
    have onward (t : Scene) (chain : Chain) (last : Option AppletResult) (ahead : List Batch)
        (moved : t.Forward (levels ++ [⟨before.length + 1, chain, last, saved⟩]) none) :=
      have moved' : t.Forward (levels ++ [⟨(before ++ [child]).length, chain, last, saved⟩]) none :=
        by rwa [length]
      ih later moved' ahead
    simp only [← shift, length] at onward
    cases active : s.isActive with
    | false =>
      rw [Walk.visitFromCancelled found (Nat.le_refl _) active,
        Straight.visitFromCancelled (p := s.passage ahead) active]
      exact .stopped forward
    | true =>
      have active' : (s.passage ahead).isActive = true := active
      cases plan : chain.plan child.flowKind? with
      | skip =>
        rw [Walk.visitFromSkip found (Nat.le_refl _) active resting plan,
          Straight.visitFromSkip active' plan, ← tellPassage]
        exact onward _ _ _ ahead (passOverForward (s := s.tell .skipped _ _) forward chain)
      | orphan =>
        rw [Walk.visitFromOrphan found (Nat.le_refl _) active resting plan,
          Straight.visitFromOrphan active' plan, ← tellPassage]
        exact onward _ _ _ ahead (passOverForward (s := s.tell .skipped _ _) forward .idle)
      | evaluate =>
        have evaluate : (if s.run.slate.cursor.resuming then Plan.evaluate
            else chain.plan child.flowKind?) = .evaluate := by simp [plan]
        rw [Walk.visitFromEvaluate found (Nat.le_refl _) active evaluate,
          Straight.visitFromEvaluate active' plan, Walk.aloneNext, Walk.nextNext,
          Straight.nextNext]
        refine childFollows (simulates child List.mem_cons_self _ _ _ _ ahead
          (setFlowForward forward info) active (by simp)) rfl fun t r ahead' passed => ?_
        rw [Walk.next, Walk.aloneNext, Straight.thenNext]
        exact goOnFollows passed rfl rfl ahead' fun u moved => onward u _ _ ahead' moved

theorem flowSimulates (mode : Mode) (path : List Nat) (info : AppletInfo) (spec : FlowSpec)
    (children : List Applet) (simulates : ∀ c ∈ children, ∀ mode path, Simulates mode path c) :
    Simulates mode path (.flow info spec children) := by
  intro s levels ahead forward active _
  obtain ⟨started, shown⟩ := startForward forward path info
  obtain ⟨entered, opened⟩ := enterFlowForward started
  rw [Walk.visitFlowFirst entered]
  have told : (s.passage ahead).tell .started path info =
      (s.start path info).enterFlow.2.passage ahead :=
    (shown ahead).symm.trans (enterFlowPassage _ ahead).symm
  rcases chooseForward opened path spec with ⟨saved, available, chosen, same⟩ | ⟨unavailable, same⟩
  · simp only [available, if_true]
    have chose := (congrArg (Straight.choose path spec) told).trans (same ahead)
    rw [Straight.visitFlowChosen chose, Walk.aloneNext]
    have placed : Forward _ (levels ++ [⟨([] : List Applet).length, .idle, none, saved⟩]) none :=
      chosen
    exact visitFromFollows simulates placed ahead
  · simp only [unavailable, Bool.false_eq_true, if_false]
    have chose := (congrArg (Straight.choose path spec) told).trans (same ahead)
    rw [Straight.visitFlowUnavailable chose]
    obtain ⟨left, skipped⟩ := abandonFlowForward opened path children
    rw [Straight.conclude, ← skipped, ← finishPassage]
    exact .completed (finishForward left path info _)

theorem visitSimulates (mode : Mode) (path : List Nat) (a : Applet) : Simulates mode path a := by
  induction a using Applet.byChildren generalizing mode path with
  | criterion info check => exact criterionSimulates mode path info check
  | action info action => exact actionSimulates mode path info action
  | wait info wait => exact waitSimulates mode path info wait
  | flow info spec children ih =>
    exact flowSimulates mode path info spec children fun c inside mode path => ih c inside mode path

end Scene
end Automation
