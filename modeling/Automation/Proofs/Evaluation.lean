import Automation.Proofs.Endings
import Automation.Proofs.Lone
/-! Evaluating a part of a tree. The levels that such a walk leaves when it is suspended are those
below its own applet, but a trigger walks them again from the root of the task. So a suspended
evaluation is gone on with only if the applet is the root. -/
namespace Automation

namespace Straight
variable {mode : Mode} {path : List Nat} {a : Applet} {p q : Passage} {r : AppletResult}

theorem visitConcludes (done : visit mode path a p = (.ok r, q)) :
    ∃ before : Passage, q = before.conclude path a.info r := by
  have leaf {info : AppletInfo} {m : Except Halt AppletResult × Passage}
      (done : next (conclude path info) m = (.ok r, q)) :
      ∃ before : Passage, q = before.conclude path info r := by
    obtain ⟨r', before, -, concluded⟩ := nextOk done
    cases concluded
    exact ⟨before, rfl⟩
  cases a with
  | criterion info check =>
    rw [visit, leafAt] at done
    exact leaf done
  | action info action =>
    rw [visit, leafAt] at done
    exact leaf done
  | wait info wait =>
    rw [visit, leafAt] at done
    exact leaf done
  | flow info spec children =>
    rcases chose : choose path spec (p.tell .started path info) with ⟨_ | (_ | saved), t⟩
    · unfold choose at chose
      split at chose
      · cases chose
      · split at chose <;> cases chose
    · rw [visitFlowUnavailable chose] at done
      cases done
      exact ⟨t.skipFrom path 0 children, rfl⟩
    · rw [visitFlowChosen chose] at done
      obtain ⟨last, u, -, closed⟩ := nextOk done
      rw [closeFlow, thenNext] at closed
      exact leaf closed

end Straight

namespace Lone
variable {task : Task} {l : Lone} {batch : Batch} {rest : List Batch}

/- Evaluates the applet on the first batch and is triggered by each of the later ones. -/
def evaluate (l : Lone) (path : List Nat) (a : Applet) (first : Batch) (later : List Batch) :
    Lone × List Return :=
  onward (Walk.evaluate path a (l.scene first)).alone later

def RootEnded (task : Task) (l : Lone) : Prop :=
  ∃ before observer, l.journal = before ++ [.notice observer .terminated [] task.tree.info l.run]

theorem triggerEnds (same : l.run.task = task) (batches : List Batch) :
    let out := l.triggerAll batches
    out.2 = [] ∧ out.1 = l ∨
      out.2 ≠ [] ∧ (out.2.getLast? = some (some (.ok .completed)) → RootEnded task out.1) := by
  induction batches generalizing l with
  | nil => exact .inl ⟨rfl, rfl⟩
  | cons batch rest ih =>
    -- What a return comes to in front of the later ones.
    have before {t : Lone} (first : Return) (same : t.run.task = task)
        (ended : first = some (.ok .completed) → RootEnded task t) :
        (first :: (t.triggerAll rest).2).getLast? = some (some (.ok .completed)) →
          RootEnded task (t.triggerAll rest).1 := by
      intro last
      rcases ih same with ⟨silent, unmoved⟩ | ⟨told, later⟩
      · rw [silent] at last
        rw [unmoved]
        exact ended (by simpa using last)
      · rw [List.getLast?_cons_of_ne_nil told] at last
        exact later last
    cases qualifies : l.run.qualifies batch.events with
    | false =>
      rw [triggerAll, Walk.triggerIdle (s := l.scene batch) qualifies]
      exact ih same
    | true =>
      cases active : (l.scene batch).isActive with
      | false =>
        rw [triggerAll, Walk.triggerInactive (s := l.scene batch) qualifies active]
        exact .inr ⟨List.cons_ne_nil _ _, before _ same fun completed => by cases completed⟩
      | true =>
        have visited := Walk.visitFinishes .aggregate [] l.run.task.tree (l.scene batch).resume
        have kept := visitTask task .aggregate [] l.run.task.tree (l.scene batch).resume same
        rw [triggerQualifies qualifies active]
        generalize walked : (Walk.visit _ _ _ _).alone = out at kept
        obtain ⟨t, _ | r⟩ := out
        · exact .inr ⟨by simp [onward], fun last => by simp [onward] at last⟩
        · refine .inr ⟨by simp [onward], before (some r) kept fun completed => ?_⟩
          cases completed
          obtain ⟨u, result, rfl⟩ := Process.endsAlone visited walked rfl
          rw [same]
          exact ⟨u.journal, _, rfl⟩

theorem obtainTask (world : World) (task : Task) (handle : Handle) (observer : Option Observer)
    (batch : Batch) : (obtain world task handle observer batch).run.task = task := by
  unfold obtain World.obtain
  rfl

theorem evaluateEnds {path : List Nat} {a : Applet} {first : Batch} {later : List Batch}
    (same : l.run.task = task)
    (suspended : (l.evaluate path a first later).2.head? = some (some (.ok .suspended)))
    (completed : (l.evaluate path a first later).2.getLast? = some (some (.ok .completed))) :
    RootEnded task (l.evaluate path a first later).1 := by
  have kept := visitTask task .aggregate path a (l.scene first) same
  unfold evaluate Walk.evaluate at suspended completed ⊢
  generalize (Walk.visit .aggregate path a (l.scene first)).alone = out at suspended completed kept ⊢
  obtain ⟨t, _ | r⟩ := out
  · simp [onward] at suspended
  · simp only [onward, List.head?_cons, Option.some.injEq] at suspended
    subst suspended
    rcases triggerEnds (l := ofScene t) kept later with ⟨silent, unmoved⟩ | ⟨told, ended⟩
    · simp [onward, silent] at completed
    · simp only [onward, List.getLast?_cons_of_ne_nil told] at completed
      exact ended completed

theorem evaluateRootAgrees {world : World} (clean : world.slates.Clean) (task : Task)
    (handle : Handle) (observer : Option Observer) (first : Batch) (later : List Batch)
    (live : world.handles.isCancelled handle = false) :
    Agrees ((obtain world task handle observer first).evaluate [] task.tree first later)
      (Straight.visit .aggregate [] task.tree (.start task handle observer world first later)) := by
  obtain ⟨forward, shown⟩ := obtainForward clean task handle observer first later
  have same := obtainTask world task handle observer first
  have active : ((obtain world task handle observer first).scene first).isActive = true := by
    refine (congrArg Passage.isActive shown).trans ?_
    simp [Passage.isActive, Passage.start, live]
  have nested : task.tree.flowKind? = none → ([] : List Level) ≠ [] := by simp [task.rooted]
  have follows := Scene.visitSimulates .aggregate [] task.tree _ [] later forward active nested
  rw [shown] at follows
  exact followsAgrees follows (visitTask task _ _ _ _ same)

/- An evaluation that was suspended is gone on with in place if it is that of the root. That of any
other applet never comes to its end: when a run of triggers completes, it is the root that ended. -/
theorem evaluationContinued {world : World} (clean : world.slates.Clean) (task : Task)
    (handle : Handle) (observer : Option Observer) (first : Batch) (later : List Batch)
    (live : world.handles.isCancelled handle = false) {path : List Nat} {a : Applet}
    (located : task.tree.at? path = some a) :
    let out := (obtain world task handle observer first).evaluate path a first later
    let ref := Straight.visit .aggregate path a (.start task handle observer world first later)
    (path = [] → Agrees out ref) ∧
      (out.2.head? = some (some (.ok .suspended)) →
        (out.2.getLast? = some (some (.ok .completed)) → RootEnded task out.1) ∧
          ((∃ r, ref.1 = .ok r) → (Agrees out ref ↔ path = []))) := by
  intro out ref
  have same := obtainTask world task handle observer first
  have root (top : path = []) : Agrees out ref := by
    subst top
    cases located
    exact evaluateRootAgrees clean task handle observer first later live
  refine ⟨root, fun suspended => ⟨evaluateEnds same suspended, fun ⟨r, done⟩ => ?_⟩⟩
  refine ⟨fun agrees => ?_, root⟩
  have completed : out.2.getLast? = some (some (.ok .completed)) := by
    obtain ⟨n, returns⟩ := agrees.returns
    simp [returns, done, told]
  -- Both records end with the end of an applet: of the root here, of `a` there.
  obtain ⟨before, heard, journal⟩ := evaluateEnds same suspended completed
  have visited : Straight.visit .aggregate path a (.start task handle observer world first later) =
      (.ok r, ref.2) := Prod.ext done rfl
  obtain ⟨p, concluded⟩ := Straight.visitConcludes visited
  have record := agrees.record
  rw [journal, concluded, Passage.conclude, Passage.tell, Passage.note, List.map_append] at record
  have last := List.append_inj_right' record rfl
  simp only [List.map_cons, List.map_nil, Entry.mark, List.cons.injEq, Mark.notice.injEq] at last
  exact last.1.2.2.1.symm

def partTask : Task :=
  ⟨{ title := "Part" },
    Sample.flow .root
      [.action { id := .unregistered, title := some "before" } fun _ => .done (.ok .null),
       Sample.flow .container
        [.wait { id := .unregistered } (Wait.ofType ⟨"new_window"⟩),
         .action { id := .unregistered, title := some "behind" } fun _ => .done (.ok .null)]],
    rfl, rfl⟩

/- The part would be complete on the second batch. What is complete then is the root, and not in
agreement with the part. -/
theorem evaluationContinuedPart :
    ∃ a, partTask.tree.at? [1] = some a ∧ World.fresh.slates.Clean ∧
      World.fresh.handles.isCancelled ⟨0⟩ = false ∧
      let out := (obtain World.fresh partTask ⟨0⟩ none launcherBatch).evaluate [1] a launcherBatch
        launcherBatches
      let ref := Straight.visit .aggregate [1] a
        (.start partTask ⟨0⟩ none World.fresh launcherBatch launcherBatches)
      out.2 = [some (.ok .suspended), some (.ok .completed)] ∧ RootEnded partTask out.1 ∧
        (∃ r, ref.1 = .ok r) ∧ ¬ Agrees out ref := by
  have clean : World.fresh.slates.Clean := fun a inside => nomatch inside
  obtain ⟨a, located⟩ : ∃ a, partTask.tree.at? [1] = some a := ⟨_, rfl⟩
  have continued := evaluationContinued clean partTask ⟨0⟩ none launcherBatch launcherBatches rfl
    located
  cases located
  have done := continued.2 rfl
  refine ⟨_, rfl, clean, rfl, rfl, done.1 rfl, ⟨_, rfl⟩, fun agrees => ?_⟩
  exact absurd ((done.2 ⟨_, rfl⟩).mp agrees) (by decide)

end Lone
end Automation
