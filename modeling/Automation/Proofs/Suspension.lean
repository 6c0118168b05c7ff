import Automation.Proofs.Passage.Flow
/-! Suspension is transparent. A run that is suspended and resumed as batches come in does what
a passage does that looks through the same batches at its waits. -/
namespace Automation

def Stop.halt : Stop → Halt
  | .cancelled => .cancelled
  | .panicked => .panicked

abbrev Ending := Scene × Option (Except Stop Outcome)

namespace Scene

structure Held (s : Scene) (levels : List Level) (info : AppletInfo) (wait : Wait) : Prop where
  footing : ∃ below, s.footing = ⟨.standing levels below false, none, some (.wait info wait), true,
    s.occasion.batch, s.occasion.task⟩
  active : s.isActive = true

structure Resumes (s t : Scene) (batch : Batch) : Prop where
  footing : t.footing =
    { s.footing with cursor := s.footing.cursor.resume, suspending := false, batch }
  passage (ahead : List Batch) :
    t.passage ahead = { s.passage ahead with occasion := .ofBatch s.occasion.task batch }

/- A walk has ended below `levels`, and handing the batches in turn to `again` whenever it is
suspended, it comes to what the passage comes to. -/
inductive Follows (again : Scene → Ending) (levels : List Level) :
    List Batch → Ending → Except Halt AppletResult × Passage → Prop where
  | completed {s r ahead} (forward : s.Forward levels (some r)) :
      Follows again levels ahead (s, some (.ok .completed)) (.ok r, s.passage ahead)
  | stopped {s stop ahead below} (forward : s.Forward below none) :
      Follows again levels ahead (s, some (.error stop)) (.error stop.halt, s.passage ahead)
  | stuck {s ahead below} (forward : s.Forward below none) :
      Follows again levels ahead (s, none) (.error .stuck, s.passage ahead)
  | outOfBatches {s path info wait} (held : s.Held levels info wait) :
      Follows again levels [] (s, some (.ok .suspended))
        (.error (.outOfBatches path info wait), s.passage [])
  | refused {s info wait batch rest ref} (held : s.Held levels info wait)
      (refuse : wait.find? batch.events = none)
      (later : Follows again levels rest (s, some (.ok .suspended)) ref) :
      Follows again levels (batch :: rest) (s, some (.ok .suspended)) ref
  | resumed {s info wait batch event rest ref} (held : s.Held levels info wait)
      (accept : wait.find? batch.events = some event)
      (later : ∀ t, s.Resumes t batch → Follows again levels rest (again t) ref) :
      Follows again levels (batch :: rest) (s, some (.ok .suspended)) ref

/- A visit does what the same visit of the passage does, however often it is suspended. A wait
that stands in no flow would be started anew every time. -/
def Simulates (mode : Mode) (path : List Nat) (a : Applet) : Prop :=
  ∀ (s : Scene) (levels : List Level) (ahead : List Batch),
    s.Forward levels none → s.isActive = true → (a.flowKind? = none → levels ≠ []) →
    Follows (fun t => (Walk.visit mode path a t).alone) levels ahead
      (Walk.visit mode path a s).alone (Straight.visit mode path a (s.passage ahead))

theorem leafFollows {again : Scene → Ending} {levels : List Level} {s : Scene}
    (forward : s.Forward levels none) (ahead : List Batch) (path : List Nat)
    (info : AppletInfo) {w : Walk AppletResult} {m : Straight AppletResult} (obeys : w.Obeys m) :
    Follows again levels ahead
      ((w >>= fun r => do
        Walk.change fun s => s.finish path info r
        return Outcome.completed) s).alone
      ((m >>= Straight.conclude path info) (s.passage ahead)) := by
  have h := obeys s ahead
  rw [Walk.aloneThen, Straight.thenAt]
  generalize (w s).alone = out, m (s.passage ahead) = ref at h
  cases h with
  | ended stays =>
    simp only [Straight.conclude, ← finishPassage]
    exact .completed (finishForward (forwardStays forward stays) path info _)
  | panicked stays => exact .stopped (forwardStays forward stays)
  | stuck stays => exact .stuck (forwardStays forward stays)

theorem criterionSimulates (mode : Mode) (path : List Nat) (info : AppletInfo) (check : Check) :
    Simulates mode path (.criterion info check) := by
  intro s levels ahead forward active within
  obtain ⟨started, shown⟩ := startForward forward path info
  have reached := reachLeafForward started info
  generalize (fun t => (Walk.visit mode path (.criterion info check) t).alone) = again
  rw [Walk.visit, Straight.visit]
  rw [Walk.aloneThen, Walk.aloneChange, Straight.thenAt, Straight.changeAt, ← shown]
  exact leafFollows reached ahead path info (Walk.judgeObeys path info check)

theorem actionSimulates (mode : Mode) (path : List Nat) (info : AppletInfo) (action : Action) :
    Simulates mode path (.action info action) := by
  intro s levels ahead forward active within
  obtain ⟨started, shown⟩ := startForward forward path info
  have reached := reachLeafForward started info
  generalize (fun t => (Walk.visit mode path (.action info action) t).alone) = again
  rw [Walk.visit, Straight.visit]
  rw [Walk.aloneThen, Walk.aloneChange, Straight.thenAt, Straight.changeAt, ← shown]
  exact leafFollows reached ahead path info (Walk.carryOutObeys path info action)

theorem waitReleased {mode : Mode} {path : List Nat} {info : AppletInfo} {wait : Wait}
    {again : Scene → Ending} {levels : List Level} {s u : Scene} {event : Event} {waiting suspending}
    (reached : (s.start path info).reachLeaf info = u)
    (footing : u.footing = ⟨.standing levels [] false, none, waiting, suspending,
      u.occasion.batch, u.occasion.task⟩)
    (found : wait.find? u.occasion.batch.events = some event) (ahead : List Batch) :
    Follows again levels ahead (Walk.visit mode path (.wait info wait) s).alone
      (Straight.conclude path info (.passing event.passed)
        ((u.passage ahead).release path event)) := by
  subst reached
  have batch : ((s.start path info).reachLeaf info).run.batch =
      ((s.start path info).reachLeaf info).occasion.batch := congrArg Footing.batch footing
  rw [← batch] at found
  obtain ⟨made, stood, shown⟩ := tryWaitReleased found path info
  rw [Walk.visitWaitReleased made, Straight.conclude, ← shown, ← finishPassage]
  have forward : (((s.start path info).reachLeaf info).tryWait path info wait).2.Forward levels
      none := by
    rw [Forward, stood, footing, tryWaitOccasion]
  exact .completed (finishForward forward path info _)

theorem resumedWait {path : List Nat} {info : AppletInfo} {wait : Wait} {levels : List Level}
    {s t : Scene} {batch : Batch} {event : Event}
    (footing : s.footing = ⟨.standing levels [] false, none, some (.wait info wait), true,
      s.occasion.batch, s.occasion.task⟩) (within : levels ≠ [])
    (resumes : s.Resumes t batch) (found : wait.find? batch.events = some event) :
    t.start path info = t ∧
      (t.reachLeaf info).footing = ⟨.standing levels [] false, none, some (.wait info wait), false,
        t.occasion.batch, t.occasion.task⟩ ∧
      wait.find? (t.reachLeaf info).occasion.batch.events = some event := by
  have occasion : t.occasion = .ofBatch s.occasion.task batch :=
    congrArg Passage.occasion (resumes.passage [])
  refine ⟨?_, ?_, ?_⟩
  · rw [start, if_pos]
    refine (congrArg (fun f => f.cursor.resuming) resumes.footing).trans ?_
    rw [footing, Cursor.resumeStanding (by simpa using within)]
    rfl
  · change { t.footing with cursor := t.footing.cursor.endResume } = _
    rw [resumes.footing, footing, occasion]
    rfl
  · rw [show (t.reachLeaf info).occasion = t.occasion from rfl, occasion]
    exact found

theorem heldFollows {mode : Mode} {path : List Nat} {info : AppletInfo} {wait : Wait}
    {levels : List Level} {s : Scene}
    (footing : s.footing = ⟨.standing levels [] false, none, some (.wait info wait), true,
      s.occasion.batch, s.occasion.task⟩) (active : s.isActive = true)
    (refused : wait.find? s.occasion.batch.events = none) (within : levels ≠ [])
    (ahead : List Batch) :
    Follows (fun t => (Walk.visit mode path (.wait info wait) t).alone) levels ahead
      (s, some (.ok .suspended))
      ((Straight.await path info wait >>= Straight.conclude path info) (s.passage ahead)) := by
  have held : s.Held levels info wait := ⟨⟨[], footing⟩, active⟩
  have refused' (ahead : List Batch) :
      wait.find? (s.passage ahead).occasion.batch.events = none := refused
  induction ahead with
  | nil =>
    simp only [Straight.thenAt, Straight.await, refused']
    exact .outOfBatches held
  | cons batch rest ih =>
    cases found : wait.find? batch.events with
    | none =>
      refine .refused held found ?_
      have same : Straight.await path info wait (s.passage (batch :: rest)) =
          Straight.await path info wait (s.passage rest) := by
        simp only [Straight.await, refused, passage, Passage.seek, found]
      rw [Straight.thenAt, same]
      exact ih
    | some event =>
      refine .resumed held found fun t resumes => ?_
      have shown := resumes.passage rest
      obtain ⟨back, stood, found'⟩ := resumedWait footing within resumes found
      have same : Straight.await path info wait (s.passage (batch :: rest)) =
          (.ok (.passing event.passed), (t.passage rest).release path event) := by
        rw [shown]
        simp only [Straight.await, refused, passage, Passage.seek, found]
      rw [Straight.thenAt, same]
      exact waitReleased (congrArg (reachLeaf · info) back) stood found' rest

theorem waitSimulates (mode : Mode) (path : List Nat) (info : AppletInfo) (wait : Wait) :
    Simulates mode path (.wait info wait) := by
  intro s levels ahead forward active within
  obtain ⟨started, shown⟩ := startForward forward path info
  have reached := reachLeafForward started info
  rw [Straight.visit, Straight.thenAt, Straight.changeAt, ← shown]
  cases found : wait.find? ((s.start path info).reachLeaf info).occasion.batch.events with
  | some event =>
    have same : Straight.await path info wait ((s.start path info).passage ahead) =
        (.ok (.passing event.passed),
          (((s.start path info).reachLeaf info).passage ahead).release path event) := by
      change wait.find? (s.start path info).occasion.batch.events = some event at found
      simp only [Straight.await, passage, found]
      rfl
    simp only [Straight.thenAt, same]
    exact waitReleased rfl reached found ahead
  | none =>
    have refused := found
    rw [← forwardBatch reached] at refused
    obtain ⟨made, stood, same⟩ := tryWaitRefused refused path info
    have visible : (s.start path info).passage ahead = _ := (same ahead).symm
    rw [Walk.visitWaitRefused made, visible]
    refine heldFollows ?_ ?_ ?_ (within rfl) ahead
    · rw [stood, reached, tryWaitOccasion]
    · exact (congrArg Passage.isActive ((same []).trans (shown []))).trans active
    · rw [tryWaitOccasion]
      exact found

theorem visitFlowBack {mode : Mode} {path : List Nat} {info : AppletInfo} {spec : FlowSpec}
    {before rest : List Applet} {child : Applet} {levels below : List Level} {l : Level} {t : Scene}
    (cursor : t.run.slate.cursor = .standing levels (l :: below) true) (active : t.isActive = true)
    (reached : l.index = before.length) :
    (Walk.visit mode path (.flow info spec (before ++ child :: rest)) t).alone =
      Walk.next (fun o =>
          Walk.goOn (spec.kind.mode mode) path info levels.length before.length child rest o >>=
            Walk.closeFlow path info spec levels.length)
        (Walk.visit (spec.kind.mode mode) (path ++ [before.length]) child
          (t.enterFlow.2.onRun fun r => r.setFlow info)).alone := by
  have back : t.start path info = t := by
    rw [start, if_pos]
    exact congrArg Cursor.resuming cursor
  have entered : t.enterFlow.1 = (levels.length, true) := by
    simp only [enterFlow, cursor, Cursor.reentersBack]
    rfl
  have stands : t.enterFlow.2.run.slate.cursor = .standing (levels ++ [l]) below true := by
    rw [← Cursor.enterBack, ← cursor]
    rfl
  have found : t.enterFlow.2.run.slate.cursor.levels[levels.length]? = some l := by
    rw [stands]
    simp [Cursor.standing]
  have reached' : l.index = 0 + before.length := by omega
  have evaluate : (if t.enterFlow.2.run.slate.cursor.resuming then Plan.evaluate
      else l.chain.plan child.flowKind?) = .evaluate := by
    rw [stands]
    rfl
  rw [← back] at entered
  rw [Walk.visitFlowAgain entered, back, Walk.aloneNext,
    Walk.visitFromReached before found reached', Nat.zero_add,
    Walk.visitFromEvaluate found (Nat.le_of_eq reached) active evaluate, Walk.aloneNext,
    Walk.nextNext]

variable {mode : Mode} {path : List Nat} {info : AppletInfo} {spec : FlowSpec}
  {before rest : List Applet} {child : Applet} {levels : List Level} {l : Level}

theorem unwindHeld {s : Scene} {info : AppletInfo} {wait : Wait}
    (held : s.Held (levels ++ [l]) info wait) : (s.unwind levels.length).Held levels info wait := by
  obtain ⟨⟨below, footing⟩, active⟩ := held
  refine ⟨⟨l :: below, ?_⟩, active⟩
  change { s.footing with cursor := s.footing.cursor.unwind levels.length } = _
  rw [footing, Cursor.unwindHeld]
  rfl

theorem enterResumes {s t : Scene} {held : AppletInfo} {wait : Wait} {batch : Batch}
    (suspended : s.Held (levels ++ [l]) held wait)
    (resumes : (s.unwind levels.length).Resumes t batch) (info : AppletInfo) :
    (∃ below, t.run.slate.cursor = .standing levels (l :: below) true) ∧
      s.Resumes (t.enterFlow.2.onRun fun r => r.setFlow info) batch := by
  obtain ⟨⟨below, footing⟩, -⟩ := suspended
  have unwound : (s.unwind levels.length).footing =
      { s.footing with cursor := s.footing.cursor.unwind levels.length } := rfl
  have stood := resumes.footing
  rw [unwound, footing, Cursor.unwindHeld, Cursor.resumeStanding (by simp)] at stood
  have cursor : t.run.slate.cursor = .standing levels (l :: below) true :=
    congrArg Footing.cursor stood
  refine ⟨⟨below, cursor⟩, ?_, resumes.passage⟩
  change { t.footing with cursor := t.footing.cursor.enter } = _
  rw [stood, footing, Cursor.resumeStanding (by simp)]
  simp only [Cursor.enterBack]

theorem childFollows {ahead : List Batch} {out : Ending} {ref : Except Halt AppletResult × Passage}
    {after : AppletResult → Straight AppletResult}
    (follows : Follows
      (fun t => (Walk.visit (spec.kind.mode mode) (path ++ [before.length]) child t).alone)
      (levels ++ [l]) ahead out ref)
    (reached : l.index = before.length)
    (onward : ∀ (s : Scene) (r : AppletResult) (ahead : List Batch),
      s.Forward (levels ++ [l]) (some r) →
      Follows (fun t => (Walk.visit mode path (.flow info spec (before ++ child :: rest)) t).alone)
        levels ahead
        (Walk.next (fun o =>
            Walk.goOn (spec.kind.mode mode) path info levels.length before.length child rest o >>=
              Walk.closeFlow path info spec levels.length)
          (s, some (.ok .completed)))
        (after r (s.passage ahead))) :
    Follows (fun t => (Walk.visit mode path (.flow info spec (before ++ child :: rest)) t).alone)
      levels ahead
      (Walk.next (fun o =>
          Walk.goOn (spec.kind.mode mode) path info levels.length before.length child rest o >>=
            Walk.closeFlow path info spec levels.length) out)
      (Straight.next after ref) := by
  induction follows with
  | completed forward => exact onward _ _ _ forward
  | stopped forward => exact .stopped forward
  | stuck forward => exact .stuck forward
  | outOfBatches held => exact .outOfBatches (unwindHeld held)
  | refused held refuse later ih => exact .refused (unwindHeld held) refuse ih
  | @resumed s info' wait batch event rest ref held accept later ih =>
    refine .resumed (unwindHeld held) accept fun t resumes => ?_
    obtain ⟨⟨below, cursor⟩, back⟩ := enterResumes held resumes info
    have active : t.isActive = true :=
      (congrArg Passage.isActive (resumes.passage [])).trans held.active
    rw [visitFlowBack cursor active reached]
    exact ih _ back

end Scene
end Automation
