import Automation.Proofs.Passage.Scene
/-! Flows on a walk that goes forward. Its cursor stands at the end of its levels, and every
step into, along and out of a flow changes the last of them in a way that the passage
carries down its recursion instead. -/
namespace Automation

namespace Cursor

def standing (levels below : List Level) (resuming : Bool) : Cursor :=
  ⟨levels ++ below, levels.length, resuming⟩

theorem enterForward (levels : List Level) :
    (standing levels [] false).enter = standing (levels ++ [Level.fresh]) [] false := by
  simp [enter, reenters, standing]

theorem reentersBack (levels below : List Level) (l : Level) :
    (standing levels (l :: below) true).reenters = true := by
  simp [reenters, standing]

theorem enterBack (levels below : List Level) (l : Level) :
    (standing levels (l :: below) true).enter = standing (levels ++ [l]) below true := by
  rw [enter, if_pos (reentersBack levels below l)]
  simp [standing]

theorem updateForward (levels : List Level) (l : Level) (f : Level → Level) :
    (standing (levels ++ [l]) [] false).update levels.length f =
      standing (levels ++ [f l]) [] false := by
  simp [update, standing, List.modify_eq_take_drop]

theorem exitForward (levels : List Level) (l : Level) :
    (standing (levels ++ [l]) [] false).exit levels.length = standing levels [] false := by
  simp [exit, standing]

theorem unwindHeld (levels below : List Level) (l : Level) :
    (standing (levels ++ [l]) below false).unwind levels.length =
      standing levels (l :: below) false := by
  simp [unwind, standing]

def resume (c : Cursor) : Cursor := { c with resuming := !c.levels.isEmpty }

theorem resumeStanding {levels below : List Level} (kept : levels ++ below ≠ []) :
    (standing levels below false).resume = standing levels below true := by
  simp only [resume, standing, List.isEmpty_eq_false_iff.mpr kept]
  rfl

end Cursor

namespace Scene

/- The walk goes forward below `levels`, with this result to hand up. -/
def Forward (s : Scene) (levels : List Level) (result : Option AppletResult) : Prop :=
  s.footing = ⟨.standing levels [] false, result, none, false, s.occasion.batch, s.occasion.task⟩

theorem forwardCursor {s : Scene} {levels result} (h : s.Forward levels result) :
    s.run.slate.cursor = .standing levels [] false := congrArg Footing.cursor h

theorem forwardResult {s : Scene} {levels result} (h : s.Forward levels result) :
    s.run.slate.result = result := congrArg Footing.result h

theorem forwardBatch {s : Scene} {levels result} (h : s.Forward levels result) :
    s.run.batch = s.occasion.batch := congrArg Footing.batch h

theorem forwardStays {s t : Scene} {levels result} (h : s.Forward levels result)
    (stays : s.Stays t) : t.Forward levels result := by
  unfold Forward
  rw [stays.footing, stays.batch, stays.task]
  exact h

theorem startForward {s : Scene} {levels result} (h : s.Forward levels result)
    (path : List Nat) (info : AppletInfo) :
    (s.start path info).Forward levels result ∧
      ∀ ahead, (s.start path info).passage ahead = (s.passage ahead).tell .started path info := by
  unfold start
  rw [forwardCursor h]
  exact ⟨h, fun ahead => tellPassage _ _ _ _ ahead⟩

theorem reachLeafForward {s : Scene} {levels result} (h : s.Forward levels result)
    (info : AppletInfo) : (s.reachLeaf info).Forward levels result := by
  change { s.footing with cursor := s.footing.cursor.endResume } = _
  rw [h]
  rfl

theorem tryWaitOccasion (s : Scene) (path : List Nat) (info : AppletInfo) (wait : Wait) :
    (s.tryWait path info wait).2.occasion = s.occasion := by
  unfold tryWait
  split <;> rfl

theorem tryWaitReleased {s : Scene} {wait : Wait} {event : Event}
    (found : wait.find? s.run.batch.events = some event) (path : List Nat) (info : AppletInfo) :
    (s.tryWait path info wait).1 = some (.passing event.passed) ∧
      (s.tryWait path info wait).2.footing =
        { s.footing with waiting := none, suspending := false } ∧
      ∀ ahead, (s.tryWait path info wait).2.passage ahead =
        (s.passage ahead).release path event := by
  unfold tryWait
  rw [found]
  refine ⟨congrArg some (succeededResult event.passed _), rfl, fun ahead => ?_⟩
  exact notePassage (s.onRun fun r => ((r.setWaiting none).setSuspending false).fold event.passed)
    (.released path event) ahead

theorem tryWaitRefused {s : Scene} {wait : Wait}
    (refused : wait.find? s.run.batch.events = none) (path : List Nat) (info : AppletInfo) :
    (s.tryWait path info wait).1 = none ∧
      (s.tryWait path info wait).2.footing =
        { s.footing with waiting := some (.wait info wait), suspending := true } ∧
      ∀ ahead, (s.tryWait path info wait).2.passage ahead = s.passage ahead := by
  unfold tryWait
  rw [refused]
  exact ⟨rfl, rfl, fun _ => rfl⟩

theorem finishForward {s : Scene} {levels old} (h : s.Forward levels old) (path : List Nat)
    (info : AppletInfo) (result : AppletResult) :
    (s.finish path info result).Forward levels (some result) := by
  unfold Forward
  rw [finishFooting, h]
  rfl

theorem enterFlowForward {s : Scene} {levels} (h : s.Forward levels none) :
    s.enterFlow.1 = (levels.length, false) ∧
      s.enterFlow.2.Forward (levels ++ [Level.fresh]) none := by
  have cursor := forwardCursor h
  constructor
  · simp only [enterFlow, cursor]
    rfl
  · change { s.footing with cursor := s.footing.cursor.enter } = _
    rw [h, Cursor.enterForward]
    rfl

theorem enterFlowPassage (s : Scene) (ahead : List Batch) :
    s.enterFlow.2.passage ahead = s.passage ahead := rfl

theorem setFlowForward {s : Scene} {levels result} (h : s.Forward levels result)
    (info : AppletInfo) : (s.onRun fun r => r.setFlow info).Forward levels result := h

theorem skipFromForward {s : Scene} {levels result} (h : s.Forward levels result)
    (path : List Nat) (i : Nat) (children : List Applet) :
    (s.skipFrom path i children).Forward levels result :=
  forwardStays h (skipFromStays s path i children)

theorem passOverForward {s : Scene} {levels l} (h : s.Forward (levels ++ [l]) none)
    (chain : Chain) : (s.passOver levels.length chain).Forward
      (levels ++ [{ l with index := l.index + 1, chain }]) none := by
  change { s.footing with
    cursor := s.footing.cursor.update levels.length
      fun l => { l with index := l.index + 1, chain } } = _
  rw [h, Cursor.updateForward]
  rfl

theorem passOnForward {s : Scene} {levels l r} (h : s.Forward (levels ++ [l]) (some r))
    (kind : Option FlowKind) :
    (s.passOn levels.length kind).1 = r.isSuccessful ∧
      (s.passOn levels.length kind).2.Forward
        (levels ++ [⟨l.index + 1, .after kind r.isSuccessful, some r, l.saved⟩]) none := by
  have result := forwardResult h
  constructor
  · simp only [passOn, result, Option.getD_some]
  · let r' := s.run.slate.result.getD (.empty true)
    change { s.footing with
      cursor := s.footing.cursor.update levels.length
        fun l => ⟨l.index + 1, .after kind r'.isSuccessful, some r', l.saved⟩
      result := none } = _
    rw [h, Cursor.updateForward, show r' = r from congrArg (Option.getD · _) result]
    rfl

theorem passOnPassage (s : Scene) (level : Nat) (kind : Option FlowKind) (ahead : List Batch) :
    (s.passOn level kind).2.passage ahead = s.passage ahead := rfl

theorem exitFlowForward {s : Scene} {levels l result} (h : s.Forward (levels ++ [l]) result) :
    (s.exitFlow levels.length).1 = l ∧
      (s.exitFlow levels.length).2.Forward levels result := by
  have cursor := forwardCursor h
  constructor
  · simp [exitFlow, cursor, Cursor.standing]
  · change { s.footing with cursor := s.footing.cursor.exit levels.length } = _
    rw [h, Cursor.exitForward]
    rfl

theorem chooseForward {s : Scene} {levels} (h : s.Forward (levels ++ [Level.fresh]) none)
    (path : List Nat) (spec : FlowSpec) :
    (∃ saved, (s.choose path spec levels.length).1 = true ∧
      (s.choose path spec levels.length).2.Forward (levels ++ [{ Level.fresh with saved }]) none ∧
      ∀ ahead, Straight.choose path spec (s.passage ahead) =
        (.ok (some saved), (s.choose path spec levels.length).2.passage ahead)) ∨
    s.choose path spec levels.length = (false, s) ∧
      ∀ ahead, Straight.choose path spec (s.passage ahead) = (.ok none, s.passage ahead) := by
  unfold choose Straight.choose
  cases spec.selector with
  | none => exact .inl ⟨none, rfl, h, fun _ => rfl⟩
  | some select =>
    cases chosen : select s.occasion.batch with
    | none => exact .inr ⟨by simp [chosen], fun ahead => by simp [passage, chosen]⟩
    | some target =>
      refine .inl ⟨some s.run.slate.target, ?_, ?_, fun ahead => ?_⟩
      · simp only [chosen]
      · simp only [chosen]
        let saved := some s.run.slate.target
        change { s.footing with
          cursor := s.footing.cursor.update levels.length fun l => { l with saved } } = _
        rw [h, Cursor.updateForward]
        rfl
      · have noted := notePassage (s.onRun fun r => (r.fold target).setTarget (some target))
          (.selected path target) ahead
        simp only [passage, chosen]
        exact congrArg _ noted.symm

theorem leaveFlowForward {s : Scene} {levels l} (h : s.Forward (levels ++ [l]) none)
    (spec : FlowSpec) :
    (s.leaveFlow spec levels.length).2.Forward levels none ∧
      ∀ ahead, Straight.leave spec l.saved l.last (s.passage ahead) =
        (.ok (s.leaveFlow spec levels.length).1,
          (s.leaveFlow spec levels.length).2.passage ahead) := by
  have same (ahead : List Batch) :
    s.passage ahead = (s.exitFlow levels.length).2.passage ahead := rfl
  have exited := exitFlowForward h
  unfold leaveFlow Straight.leave
  simp only [same]
  generalize s.exitFlow levels.length = exit at exited ⊢
  obtain ⟨left, t⟩ := exit
  obtain ⟨rfl, forward⟩ : left = l ∧ t.Forward levels none := exited
  cases left.saved with
  | none => exact ⟨forward, fun _ => rfl⟩
  | some old =>
    cases selected : t.run.slate.target with
    | none => exact ⟨forward, fun _ => by simp only [passage, selected]; rfl⟩
    | some target =>
      cases succeeded : left.last.all AppletResult.isSuccessful with
      | false =>
        simp only [passage, selected]
        exact ⟨forward, fun _ => rfl⟩
      | true =>
        simp only [passage, selected]
        exact ⟨forward, fun _ => rfl⟩

theorem abandonFlowForward {s : Scene} {levels l} (h : s.Forward (levels ++ [l]) none)
    (path : List Nat) (children : List Applet) :
    (s.abandonFlow path children levels.length).Forward levels none ∧
      ∀ ahead, (s.abandonFlow path children levels.length).passage ahead =
        (s.passage ahead).skipFrom path 0 children :=
  ⟨(exitFlowForward (skipFromForward h path 0 children)).2,
    fun ahead => skipFromPassage s path 0 children ahead⟩

end Scene
end Automation
