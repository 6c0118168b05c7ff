import Automation.Proofs.Chronicle
import Automation.Proofs.Moments
import Automation.Proofs.Passage.Flow
import Automation.Proofs.Keeping
/-! Where the tracker of a walk stands, and what the steps of the walk write into the journal. A
walk that goes forward stands below its levels, at a target, with what it has written so far; a step
is given by where it stands afterwards, and by the part of a chronicle that it writes. -/
namespace Automation

def Entry.closing : Entry → Bool
  | .notice _ phase _ _ _ => phase != .started
  | _ => false

namespace Scene

structure Stands (s : Scene) (levels : List Level) (result : Option AppletResult)
    (target : Option Json) (journal : Journal) : Prop where
  forward : s.Forward levels result
  target : s.run.slate.target = target
  journal : s.journal = journal

variable {s t : Scene} {levels : List Level} {l : Level} {result : Option AppletResult}
  {target inside : Option Json} {journal : Journal}

theorem frameAlike (same : t.frame = s.frame) : t.isActive = s.isActive := by
  have handle : t.run.handle = s.run.handle := congrArg Frame.handle same
  have handles : t.world.handles = s.world.handles := congrArg Frame.handles same
  rw [isActive, isActive, Run.isActive, Run.isActive, handle, handles]

theorem standsIdle (stands : s.Stands levels result target journal) :
    s.run.slate.waiting = none := congrArg Footing.waiting stands.forward

theorem standsOthers (stands : s.Stands levels result target journal) (others : s.Others t) :
    t.Stands levels result target journal where
  forward := by
    have footing : t.footing = s.footing := by rw [Scene.footing, Scene.footing, others.run]
    exact forwardStays stands.forward ⟨footing, others.batch, others.task⟩
  target := by rw [others.run, stands.target]
  journal := by rw [others.journal, stands.journal]

structure AtLeaf (s : Scene) (run : Run) : Prop where
  target : s.run.slate.target = run.slate.target
  referents : s.run.slate.referents = run.slate.referents
  batch : s.run.batch = run.batch

theorem atLeafExpected {run : Run} (leaf : s.AtLeaf run) (info : AppletInfo) :
    s.run.expected? info = run.expected? info := by
  simp only [Run.expected?, Run.argument?, leaf.referents]

theorem atLeafArguments {run : Run} (leaf : s.AtLeaf run) (info : AppletInfo) :
    s.run.arguments info = run.arguments info := by
  have same : s.run.argument? info = run.argument? info := by
    funext slot
    simp only [Run.argument?, leaf.referents]
  simp only [Run.arguments, same]

theorem startStands (stands : s.Stands levels result target journal) (path : List Nat)
    (info : AppletInfo) :
    ∃ heard run, run.slate.target = target ∧ (s.start path info).AtLeaf run ∧
      (s.start path info).Stands levels result target
        (journal ++ [.notice heard .started path info run]) := by
  refine ⟨s.run.slate.observer, s.run.setApplet info, stands.target, ?_, ?_, ?_, ?_⟩
  · unfold start
    rw [forwardCursor stands.forward]
    exact ⟨rfl, rfl, rfl⟩
  · exact (startForward stands.forward path info).1
  · unfold start
    rw [forwardCursor stands.forward]
    exact stands.target
  · unfold start
    rw [forwardCursor stands.forward, ← stands.journal]
    rfl

theorem reachLeafStands (stands : s.Stands levels result target journal) (info : AppletInfo) :
    (s.reachLeaf info).Stands levels result target journal :=
  ⟨reachLeafForward stands.forward info, stands.target, stands.journal⟩

theorem reachStands (stands : s.Stands levels result target journal) (path : List Nat)
    (info : AppletInfo) :
    ∃ heard run, run.slate.target = target ∧ ((s.start path info).reachLeaf info).AtLeaf run ∧
      ((s.start path info).reachLeaf info).Stands levels result target
        (journal ++ [.notice heard .started path info run]) := by
  obtain ⟨heard, run, started, leaf, stands⟩ := startStands stands path info
  exact ⟨heard, run, started, ⟨leaf.target, leaf.referents, leaf.batch⟩,
    reachLeafStands stands info⟩

theorem beginCheckStands (stands : s.Stands levels none target journal) {run : Run}
    (leaf : s.AtLeaf run) (path : List Nat) (info : AppletInfo) (expected : Option Json) :
    (s.beginCheck path info expected).2.Stands levels none target
      (journal ++ [.checking path ⟨info, run.slate.target, expected, run.batch⟩]) where
  forward := forwardStays stands.forward ((beginCheckMirrors path info expected).stays s)
  target := by
    simp only [beginCheck, note, onRun, foldAllRun]
    exact stands.target
  journal := by
    have batch := (forwardBatch stands.forward).symm.trans leaf.batch
    simp only [beginCheck, note, onRun, foldAllRun, stands.journal, leaf.target, batch]

theorem beginActionStands (stands : s.Stands levels none target journal) {run : Run}
    (leaf : s.AtLeaf run) (path : List Nat) (info : AppletInfo) :
    (s.beginAction path info).2.Stands levels none target
      (journal ++ [.performing path ⟨info, run.arguments info, run.slate.target, run.batch⟩]) where
  forward := forwardStays stands.forward ((beginActionMirrors path info).stays s)
  target := by
    simp only [beginAction, note, onRun, foldAllRun]
    exact stands.target
  journal := by
    have batch := (forwardBatch stands.forward).symm.trans leaf.batch
    simp only [beginAction, note, onRun, foldAllRun, stands.journal, leaf.target, batch,
      atLeafArguments leaf]

theorem endCheckStands (stands : s.Stands levels none target journal) (path : List Nat)
    (info : AppletInfo) (outcome : Except ApplyError Checked) :
    (s.endCheck path info outcome).1 = Executor.check.result info outcome ∧
      (s.endCheck path info outcome).2.Stands levels none target
        (journal ++ [Executor.check.answered path outcome]) := by
  have forward := forwardStays stands.forward ((endCheckMirrors path info outcome).stays s)
  cases outcome with
  | error cause =>
    exact ⟨rfl, forward, stands.target, congrArg (· ++ [_]) stands.journal⟩
  | ok c =>
    revert forward
    simp only [endCheck, Executor.result, Executor.answered]
    split
    · exact fun forward => ⟨succeededResult c.actual _, forward, stands.target,
        congrArg (· ++ [_]) stands.journal⟩
    · exact fun forward => ⟨failedResult c.actual _, forward, stands.target,
        congrArg (· ++ [_]) stands.journal⟩

theorem endActionStands (stands : s.Stands levels none target journal) (path : List Nat)
    (info : AppletInfo) (outcome : Except ApplyError Json) :
    (s.endAction path outcome).1 = Executor.action.result info outcome ∧
      (s.endAction path outcome).2.Stands levels none target
        (journal ++ [Executor.action.answered path outcome]) := by
  have forward := forwardStays stands.forward ((endActionMirrors path outcome).stays s)
  cases outcome with
  | error cause => exact ⟨rfl, forward, stands.target, congrArg (· ++ [_]) stands.journal⟩
  | ok returned =>
    exact ⟨succeededResult returned _, forward, stands.target,
      congrArg (· ++ [_]) stands.journal⟩

theorem finishTarget (s : Scene) (path : List Nat) (info : AppletInfo) (result : AppletResult) :
    (s.finish path info result).run.slate.target = s.run.slate.target := by
  unfold finish Run.register
  cases result.published? <;> rfl

theorem finishJournal (s : Scene) (path : List Nat) (info : AppletInfo) (result : AppletResult) :
    (s.finish path info result).journal = s.journal ++
      [.notice s.run.slate.observer .terminated path info (s.finish path info result).run] := by
  unfold finish Run.register
  cases result.published? <;> rfl

theorem finishStands {old : Option AppletResult} (stands : s.Stands levels old target journal)
    (path : List Nat) (info : AppletInfo) (r : AppletResult) :
    ∃ heard run, Ended target r run ∧ run.batch = s.run.batch ∧
      (s.finish path info r).Stands levels (some r) target
        (journal ++ [.notice heard .terminated path info run]) := by
  have forward := finishForward stands.forward path info r
  have batch : (s.finish path info r).run.batch = s.run.batch := by
    unfold finish Run.register
    cases r.published? <;> rfl
  have aims := (finishTarget s path info r).trans stands.target
  exact ⟨_, _, ⟨aims, forwardResult forward⟩, batch, forward, aims,
    (finishJournal s path info r).trans (congrArg (· ++ [_]) stands.journal)⟩

theorem enterFlowStands (stands : s.Stands levels none target journal) :
    s.enterFlow.1 = (levels.length, false) ∧
      s.enterFlow.2.Stands (levels ++ [Level.fresh]) none target journal :=
  ⟨(enterFlowForward stands.forward).1, (enterFlowForward stands.forward).2, stands.target,
    stands.journal⟩

theorem chooseStands {path : List Nat} {info : AppletInfo} {heard : Option Observer} {run : Run}
    (stands : s.Stands (levels ++ [Level.fresh]) none target
      (journal ++ [.notice heard .started path info run]))
    (started : run.slate.target = target) (batch : s.run.batch = run.batch) (spec : FlowSpec) :
    (∃ opening inside, Opens target path info spec opening inside ∧
      (s.choose path spec levels.length).1 = true ∧
      (s.choose path spec levels.length).2.Stands
        (levels ++ [{ Level.fresh with saved := spec.selector.map fun _ => target }]) none inside
        (journal ++ opening)) ∨
    ∃ select, spec.selector = some select ∧ select run.batch = none ∧
      s.choose path spec levels.length = (false, s) := by
  have same : s.occasion.batch = run.batch := (forwardBatch stands.forward).symm.trans batch
  cases selector : spec.selector with
  | none =>
    have made : s.choose path spec levels.length = (true, s) := by simp only [choose, selector]
    rw [made]
    exact .inl ⟨_, _, .plain started selector, rfl, stands⟩
  | some select =>
    cases found : select run.batch with
    | none =>
      refine .inr ⟨select, rfl, found, ?_⟩
      simp only [choose, selector, same, found]
    | some v =>
      have made : s.choose path spec levels.length =
          (true, (s.onRun fun r => ((r.fold v).setTarget (some v)).setCursor
            (s.run.slate.cursor.update levels.length fun l =>
              { l with saved := some s.run.slate.target })).note (.selected path v)) := by
        simp only [choose, selector, same, found]
      rw [made, stands.target]
      refine .inl ⟨[.notice heard .started path info run, .selected path v], some v,
        .chosen started selector found, rfl, ?_, rfl, ?_⟩
      · let saved := some target
        change { s.footing with
          cursor := s.footing.cursor.update levels.length fun l => { l with saved } } = _
        rw [stands.forward, Cursor.updateForward]
        rfl
      · change s.journal ++ _ = _
        rw [stands.journal, List.append_assoc]
        rfl

theorem resultSuccess {spec : FlowSpec} {last : Option AppletResult} {good : Bool}
    (successful : last.map AppletResult.isSuccessful = some good) :
    (spec.result target last).isSuccessful = good := by
  obtain ⟨r, rfl, rfl⟩ := Option.map_eq_some_iff.mp successful
  unfold FlowSpec.result
  split
  · cases passed : r.isSuccessful with
    | true => rw [if_pos (by simpa using passed)]; rfl
    | false => rw [if_neg (by simpa using passed)]; exact passed
  · rfl

theorem leaveFlowStands {path : List Nat} {info : AppletInfo} {spec : FlowSpec} {opening : Journal}
    (stands : s.Stands (levels ++ [l]) none inside journal)
    (opens : Opens target path info spec opening inside)
    (saved : l.saved = spec.selector.map fun _ => target) :
    (s.leaveFlow spec levels.length).1 = spec.result inside l.last ∧
      (s.leaveFlow spec levels.length).2.Stands levels none target journal := by
  have forward := (leaveFlowForward stands.forward spec).1
  have left := (exitFlowForward stands.forward).1
  have aims : (s.exitFlow levels.length).2.run.slate.target = inside := stands.target
  have writes : (s.exitFlow levels.length).2.journal = journal := stands.journal
  revert forward
  unfold leaveFlow
  generalize s.exitFlow levels.length = exit at left aims writes ⊢
  obtain ⟨l', t⟩ := exit
  obtain rfl : l' = l := left
  change t.run.slate.target = inside at aims
  cases opens with
  | plain started plain =>
    rw [plain] at saved
    have passed : spec.result target l'.last = l'.last.getD (.empty true) := by
      simp only [FlowSpec.result, plain]
    rw [passed]
    simp only [saved, Option.map_none]
    exact fun forward => ⟨trivial, forward, aims, writes⟩
  | chosen started selector selected =>
    rw [selector] at saved
    simp only [FlowSpec.result, selector, saved, Option.map_some, aims]
    cases l'.last.all AppletResult.isSuccessful with
    | true => exact fun forward => ⟨rfl, forward, rfl, writes⟩
    | false => exact fun forward => ⟨rfl, forward, rfl, writes⟩

theorem skipFromStands (stands : s.Stands levels result target journal) (path : List Nat) (i : Nat)
    (children : List Applet) :
    ∃ part, (s.skipFrom path i children).Stands levels result target (journal ++ part) ∧
      (∀ inside last, Chapters inside path last i children part (some last)) ∧
      ∀ e ∈ part, e.closing = true := by
  induction children generalizing s i journal with
  | nil => exact ⟨[], by rwa [List.append_nil], fun inside last => .done, by simp⟩
  | cons child rest ih =>
    have told : (s.tell .skipped (path ++ [i]) child.info).Stands levels result target
        (journal ++ [.notice s.run.slate.observer .skipped (path ++ [i]) child.info s.run]) :=
      ⟨stands.forward, stands.target, congrArg (· ++ [_]) stands.journal⟩
    obtain ⟨part, stands, chapters, closing⟩ := ih told (i + 1)
    rw [List.append_assoc] at stands
    exact ⟨_, stands, fun inside last => .skipped (chapters inside last),
      List.forall_mem_cons.mpr ⟨rfl, closing⟩⟩

theorem abandonFlowStands (stands : s.Stands (levels ++ [l]) none target journal) (path : List Nat)
    (children : List Applet) :
    ∃ part, (s.abandonFlow path children levels.length).Stands levels none target
        (journal ++ part) ∧
      Chapters target path none 0 children part (some none) := by
  obtain ⟨part, skipped, chapters, -⟩ := skipFromStands stands path 0 children
  exact ⟨part, ⟨(abandonFlowForward stands.forward path children).1, skipped.target,
    skipped.journal⟩, chapters target none⟩

theorem passOverStands (stands : s.Stands (levels ++ [l]) none target journal) (path : List Nat)
    (i : Nat) (info : AppletInfo) (chain : Chain) :
    ∃ heard run, ((s.tell .skipped (path ++ [i]) info).passOver levels.length chain).Stands
      (levels ++ [{ l with index := l.index + 1, chain }]) none target
      (journal ++ [.notice heard .skipped (path ++ [i]) info run]) :=
  ⟨s.run.slate.observer, s.run,
    passOverForward (s := s.tell .skipped (path ++ [i]) info) stands.forward chain, stands.target,
    congrArg (· ++ [_]) stands.journal⟩

theorem passOnStands {r : AppletResult}
    (stands : s.Stands (levels ++ [l]) (some r) target journal) (kind : Option FlowKind) :
    (s.passOn levels.length kind).1 = r.isSuccessful ∧
      (s.passOn levels.length kind).2.Stands
        (levels ++ [⟨l.index + 1, .after kind r.isSuccessful, some r, l.saved⟩]) none target
        journal :=
  ⟨(passOnForward stands.forward kind).1, (passOnForward stands.forward kind).2, stands.target,
    stands.journal⟩

theorem standsLevel (stands : s.Stands (levels ++ [l]) result target journal) :
    s.run.slate.cursor.levels[levels.length]? = some l := by
  rw [forwardCursor stands.forward]
  simp [Cursor.standing]

end Scene
end Automation
