import Automation.Proofs.Sessions
/-! The posture of a walk is what the calls of a task runtime leave for each other: its tracker's
cursor and its target, the wait that is pending (`waiting_for`) with the flag of a walk that is
being suspended, its batch, and how many waits have been released. Every step of a walk is given by
what it does to the posture. The cursor stands below the levels of the flows around; those behind
its place were left by a suspension. -/
namespace Automation

def Entry.releases : Entry → Bool
  | .released .. => true
  | _ => false

def Journal.released (j : Journal) : Nat := j.countP Entry.releases

structure Posture where
  cursor : Cursor
  target : Option Json
  waiting : Option Applet
  suspending : Bool
  batch : Batch
  released : Nat

namespace Cursor
variable {levels below : List Level} {l : Level} {resuming : Bool}

theorem updateStanding (f : Level → Level) :
    (standing (levels ++ [l]) below resuming).update levels.length f =
      standing (levels ++ [f l]) below resuming := by
  simp [update, standing, List.modify_eq_take_drop]

theorem exitStanding :
    (standing (levels ++ [l]) below resuming).exit levels.length = standing levels [] resuming := by
  simp [exit, standing]

theorem unwindStanding :
    (standing (levels ++ [l]) below resuming).unwind levels.length =
      standing levels (l :: below) resuming := by
  simp [unwind, standing]

theorem enterAnew (fresh : resuming = true → below = []) :
    (standing levels below resuming).reenters = false ∧
      (standing levels below resuming).enter = standing (levels ++ [Level.fresh]) [] false := by
  have anew : (standing levels below resuming).reenters = false := by
    cases resuming with
    | false => rfl
    | true => simp [reenters, standing, fresh rfl]
  refine ⟨anew, ?_⟩
  rw [enter, anew]
  simp [standing]

theorem standingLevel :
    (standing (levels ++ [l]) below resuming).levels[levels.length]? = some l := by
  simp [standing]

theorem standingAny (c : Cursor) (within : c.depth ≤ c.levels.length) :
    c = standing (c.levels.take c.depth) (c.levels.drop c.depth) c.resuming := by
  simp [standing, List.length_take, Nat.min_eq_left within]

end Cursor

namespace Scene

def posture (s : Scene) : Posture where
  cursor := s.run.slate.cursor
  target := s.run.slate.target
  waiting := s.run.slate.waiting
  suspending := s.run.slate.suspending
  batch := s.run.batch
  released := s.journal.released

variable {s t : Scene} {path : List Nat} {info : AppletInfo} {levels below : List Level} {l : Level}
  {resuming : Bool}

theorem othersPosture (others : s.Others t) : t.posture = s.posture := by
  rw [posture, posture, others.run, others.journal]

theorem notePosture (s : Scene) (entry : Entry) :
    (s.note entry).posture =
      { s.posture with released := s.posture.released + if entry.releases then 1 else 0 } := by
  simp [posture, note, Journal.released, List.countP_append, List.countP_cons]

theorem tellPosture (s : Scene) (phase : Phase) (path : List Nat) (info : AppletInfo) :
    (s.tell phase path info).posture = s.posture := notePosture s _

theorem startPosture (s : Scene) (path : List Nat) (info : AppletInfo) :
    (s.start path info).posture = s.posture := by
  unfold start
  split
  · rfl
  · exact tellPosture (s.onRun fun r => r.setApplet info) .started path info

theorem reachPosture (s : Scene) (path : List Nat) (info : AppletInfo) :
    ((s.start path info).reachLeaf info).posture =
      { s.posture with cursor := s.posture.cursor.endResume } := by
  rw [← startPosture s path info]
  rfl

theorem finishPosture (s : Scene) (path : List Nat) (info : AppletInfo) (result : AppletResult) :
    (s.finish path info result).posture = s.posture := by
  unfold finish
  rw [tellPosture]
  unfold Run.register
  cases result.published? <;> rfl

theorem skipFromPosture (s : Scene) (path : List Nat) (i : Nat) (children : List Applet) :
    (s.skipFrom path i children).posture = s.posture := by
  induction children generalizing s i with
  | nil => rfl
  | cons child rest ih => exact (ih _ (i + 1)).trans (tellPosture ..)

theorem foldAllPosture (s : Scene) (vs : List Json) :
    (s.onRun fun r => r.foldAll vs).posture = s.posture := by
  simp only [onRun, foldAllRun]
  rfl

theorem beginCheckPosture (s : Scene) (path : List Nat) (info : AppletInfo)
    (expected : Option Json) : (s.beginCheck path info expected).2.posture = s.posture :=
  (notePosture (s.onRun fun r => r.foldAll expected.toList) _).trans (foldAllPosture s _)

theorem beginActionPosture (s : Scene) (path : List Nat) (info : AppletInfo) :
    (s.beginAction path info).2.posture = s.posture :=
  (notePosture (s.onRun fun r => r.foldAll ((s.run.arguments info).filterMap id)) _).trans
    (foldAllPosture s _)

theorem endCheckPosture (s : Scene) (path : List Nat) (info : AppletInfo)
    (outcome : Except ApplyError Checked) :
    (s.endCheck path info outcome).2.posture = s.posture := by
  refine Eq.trans ?_ (notePosture s (.checked path outcome))
  cases outcome with
  | ok c =>
    simp only [endCheck]
    split <;> rfl
  | error cause => rfl

theorem endActionPosture (s : Scene) (path : List Nat) (outcome : Except ApplyError Json) :
    (s.endAction path outcome).2.posture = s.posture := by
  refine Eq.trans ?_ (notePosture s (.performed path outcome))
  cases outcome <;> rfl

theorem waitReleasedPosture {wait : Wait} {event : Event}
    (found : wait.find? s.run.batch.events = some event) (path : List Nat) (info : AppletInfo) :
    (s.tryWait path info wait).1.isSome = true ∧
      (s.tryWait path info wait).2.posture =
        { s.posture with
          waiting := none, suspending := false, released := s.posture.released + 1 } := by
  unfold tryWait
  rw [found]
  exact ⟨rfl, notePosture (s.onRun fun r =>
    ((r.setWaiting none).setSuspending false).fold event.passed) (.released path event)⟩

theorem waitRefusedPosture {wait : Wait} (refused : wait.find? s.run.batch.events = none)
    (path : List Nat) (info : AppletInfo) :
    (s.tryWait path info wait).1 = none ∧
      (s.tryWait path info wait).2.posture =
        { s.posture with waiting := some (.wait info wait), suspending := true } := by
  unfold tryWait
  rw [refused]
  exact ⟨rfl, rfl⟩

theorem enterFlowPosture (s : Scene) :
    s.enterFlow.2.posture = { s.posture with cursor := s.posture.cursor.enter } := rfl

theorem enterAgain (cursor : s.run.slate.cursor = .standing levels (l :: below) true) :
    s.enterFlow.1 = (levels.length, true) ∧
      s.enterFlow.2.run.slate.cursor = .standing (levels ++ [l]) below true := by
  constructor
  · simp only [enterFlow, cursor, Cursor.reentersBack]
    rfl
  · rw [← Cursor.enterBack, ← cursor]
    rfl

theorem enterFirst (fresh : resuming = true → below = [])
    (cursor : s.run.slate.cursor = .standing levels below resuming) :
    s.enterFlow.1 = (levels.length, false) ∧
      s.enterFlow.2.run.slate.cursor = .standing (levels ++ [Level.fresh]) [] false := by
  obtain ⟨anew, enters⟩ : (Cursor.standing levels below resuming).reenters = false ∧ _ :=
    Cursor.enterAnew fresh
  constructor
  · simp only [enterFlow, cursor, anew]
    rfl
  · rw [← enters, ← cursor]
    rfl

theorem choosePosture (cursor : s.run.slate.cursor = .standing (levels ++ [Level.fresh]) below resuming)
    (path : List Nat) (spec : FlowSpec) :
    s.choose path spec levels.length = (false, s) ∨
      (s.choose path spec levels.length).1 = true ∧ ∃ l target,
        l.saved.getD target = s.run.slate.target ∧
        (s.choose path spec levels.length).2.posture =
          { s.posture with cursor := .standing (levels ++ [l]) below resuming, target } := by
  unfold choose
  cases spec.selector with
  | none =>
    refine .inr ⟨rfl, Level.fresh, s.run.slate.target, rfl, ?_⟩
    rw [← cursor]
    rfl
  | some select =>
    cases found : select s.occasion.batch with
    | none => exact .inl (by simp only [found])
    | some target =>
      simp only [found]
      refine .inr
        ⟨trivial, { Level.fresh with saved := some s.run.slate.target }, some target, rfl, ?_⟩
      simp only [cursor, Cursor.updateStanding]
      exact notePosture (s.onRun fun r => ((r.fold target).setTarget (some target)).setCursor _)
        (.selected path target)

theorem abandonFlowPosture (cursor : s.run.slate.cursor = .standing (levels ++ [l]) below resuming)
    (path : List Nat) (children : List Applet) :
    (s.abandonFlow path children levels.length).posture =
      { s.posture with cursor := .standing levels [] resuming } := by
  have skipped := skipFromPosture s path 0 children
  rw [← skipped, ← Cursor.exitStanding, ← cursor, ← show
    (s.skipFrom path 0 children).run.slate.cursor = s.run.slate.cursor from
    congrArg Posture.cursor skipped]
  rfl

theorem leaveFlowPosture (cursor : s.run.slate.cursor = .standing (levels ++ [l]) below resuming)
    (spec : FlowSpec) :
    (s.leaveFlow spec levels.length).2.posture =
      { s.posture with
        cursor := .standing levels [] resuming, target := l.saved.getD s.posture.target } := by
  have left : (s.exitFlow levels.length).1 = l := by
    unfold exitFlow
    rw [cursor]
    simp [Cursor.standing]
  have exited : (s.exitFlow levels.length).2.posture =
      { s.posture with cursor := .standing levels [] resuming } := by
    have exits : (Cursor.standing (levels ++ [l]) below resuming).exit levels.length = _ :=
      Cursor.exitStanding
    rw [← exits, ← cursor]
    rfl
  unfold leaveFlow
  generalize s.exitFlow levels.length = exit at left exited ⊢
  obtain ⟨l', t⟩ := exit
  obtain rfl : l' = l := left
  dsimp only at exited ⊢
  cases l'.saved with
  | none => exact exited
  | some old =>
    have restored : (t.onRun fun r => r.setTarget old).posture =
        { s.posture with cursor := .standing levels [] resuming, target := old } := by
      change { t.posture with target := old } = _
      rw [exited]
    cases t.run.slate.target with
    | none => exact restored
    | some target =>
      dsimp only
      split <;> exact restored

theorem passOverPosture (cursor : s.run.slate.cursor = .standing (levels ++ [l]) below resuming)
    (path : List Nat) (info : AppletInfo) (chain : Chain) :
    ((s.tell .skipped path info).passOver levels.length chain).posture =
      { s.posture with
        cursor := .standing (levels ++ [{ l with index := l.index + 1, chain }]) below resuming } := by
  rw [← tellPosture s .skipped path info,
    ← Cursor.updateStanding fun l => { l with index := l.index + 1, chain }, ← cursor]
  rfl

theorem passOnPosture (cursor : s.run.slate.cursor = .standing (levels ++ [l]) below resuming)
    (kind : Option FlowKind) :
    ∃ chain last, (s.passOn levels.length kind).2.posture =
      { s.posture with
        cursor := .standing (levels ++ [⟨l.index + 1, chain, last, l.saved⟩]) below resuming } := by
  let result := s.run.slate.result.getD (.empty true)
  let chain : Chain := .after kind result.isSuccessful
  refine ⟨chain, some result, ?_⟩
  have moved : (Cursor.standing (levels ++ [l]) below resuming).update levels.length _ = _ :=
    Cursor.updateStanding fun l => { l with index := l.index + 1, chain, last := some result }
  rw [← moved, ← cursor]
  rfl

theorem unwindPosture (cursor : s.run.slate.cursor = .standing (levels ++ [l]) below resuming) :
    (s.unwind levels.length).posture =
      { s.posture with cursor := .standing levels (l :: below) resuming } := by
  rw [← Cursor.unwindStanding, ← cursor]
  rfl

end Scene
end Automation
