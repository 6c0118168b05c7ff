import Automation.Proofs.Lone
import Automation.Proofs.Traversal
/-! What an observer is told in a walk: a traversal of the tree, as far as the walk goes. This is
shown of the passage and holds of runs since suspension is transparent. -/
namespace Automation
variable {o : Observer}

def Mark.call? (o : Observer) : Mark → Option Call
  | .notice heard phase path applet => if heard = some o then some ⟨phase, path, applet⟩ else none
  | _ => none

namespace Passage

def calls (o : Observer) (p : Passage) : List Call := p.record.filterMap (Mark.call? o)

/- If `o` is the observer at `p`, then it still is at `q` and has been told `calls` in between. -/
def Reports (o : Observer) (p : Passage) (calls : List Call) (q : Passage) : Prop :=
  p.observer = some o → q.observer = some o ∧ q.calls o = p.calls o ++ calls

theorem reportsNothing {p q : Passage} (observer : q.observer = p.observer)
    (calls : q.calls o = p.calls o) : p.Reports o [] q :=
  fun heard => ⟨observer.trans heard, by rw [calls, List.append_nil]⟩

theorem reportsThen {p q r : Passage} {first second : List Call} (left : p.Reports o first q)
    (right : q.Reports o second r) : p.Reports o (first ++ second) r := by
  intro heard
  obtain ⟨heard', calls⟩ := left heard
  obtain ⟨heard'', calls'⟩ := right heard'
  exact ⟨heard'', by rw [calls', calls, List.append_assoc]⟩

theorem tellReports (p : Passage) (phase : Phase) (path : List Nat) (a : Applet) :
    p.Reports o [a.call phase path] (p.tell phase path a.info) := by
  intro heard
  refine ⟨heard, ?_⟩
  simp [calls, tell, note, Mark.call?, heard, Applet.call]

theorem foldAllReports (p : Passage) (vs : List Json) : p.Reports o [] (p.foldAll vs) := by
  induction vs generalizing p with
  | nil => exact reportsNothing rfl rfl
  | cons v rest ih => exact ih (p.fold v)

theorem noteReports (p : Passage) (mark : Mark) (silent : mark.call? o = none) :
    p.Reports o [] (p.note mark) :=
  reportsNothing rfl (by simp [calls, note, silent])

theorem skipFromReports (p : Passage) (path : List Nat) (i : Nat) (children : List Applet) :
    ∃ calls, Members path i children calls ∧ p.Reports o calls (p.skipFrom path i children) := by
  induction children generalizing p i with
  | nil => exact ⟨[], .none, reportsNothing rfl rfl⟩
  | cons child rest ih =>
    obtain ⟨calls, members, reports⟩ := ih (p.tell .skipped (path ++ [i]) child.info) (i + 1)
    exact ⟨_, .skipped members, reportsThen (tellReports p .skipped (path ++ [i]) child) reports⟩

theorem concludeReports (p : Passage) (path : List Nat) (a : Applet) (result : AppletResult) :
    p.Reports o [a.call .terminated path] (p.conclude path a.info result) := by
  unfold conclude
  cases result.published? with
  | none => exact tellReports _ .terminated path a
  | some payload => exact tellReports _ .terminated path a

end Passage

def Halt.StandsAt (path : List Nat) (a : Applet) (stood : List Nat) : Halt → Prop
  | .outOfBatches at' info wait => at' = path ++ stood ∧ a.at? stood = some (.wait info wait)
  | _ => True

namespace Straight
variable {α β : Type}

structure Quiet (o : Observer) (m : Straight α) : Prop where
  reports (p : Passage) : p.Reports o [] (m p).2
  halts (p : Passage) (path info wait) : (m p).1 ≠ .error (.outOfBatches path info wait)

theorem quietThen {m : Straight α} {f : α → Straight β} (first : Quiet o m)
    (second : ∀ a, Quiet o (f a)) : Quiet o (m >>= f) where
  reports p := by
    have told := first.reports p
    rw [thenNext]
    generalize m p = ref at told ⊢
    rcases ref with ⟨_ | a, q⟩
    · exact told
    · exact Passage.reportsThen told ((second a).reports q)
  halts p path info wait := by
    have never := first.halts p path info wait
    rw [thenNext]
    generalize m p = ref at never ⊢
    rcases ref with ⟨_ | a, q⟩
    · exact fun same => never (congrArg Except.error (Except.error.inj same))
    · exact (second a).halts q path info wait

theorem quietAct {f : Passage → α × Passage} (reports : ∀ p, Passage.Reports o p [] (f p).2) :
    Quiet o (act f) := ⟨reports, fun _ _ _ _ => nofun⟩

theorem quietRead (f : Passage → α) : Quiet o (read f) :=
  ⟨fun _ => Passage.reportsNothing rfl rfl, fun _ _ _ _ => nofun⟩

theorem quietPure (a : α) : Quiet o (Pure.pure a : Straight α) :=
  ⟨fun _ => Passage.reportsNothing rfl rfl, fun _ _ _ _ => nofun⟩

theorem performQuiet (script : Script α) : Quiet o (perform script) := by
  have both (p : Passage) : p.Reports o [] (perform script p).2 ∧
      ∀ path info wait, (perform script p).1 ≠ .error (.outOfBatches path info wait) := by
    induction script generalizing p with
    | done a => exact ⟨Passage.reportsNothing rfl rfl, nofun⟩
    | panic => exact ⟨Passage.reportsNothing rfl rfl, nofun⟩
    | yield next ih => exact ih p
    | pend => exact ⟨Passage.reportsNothing rfl rfl, nofun⟩
    | cancel handle next ih => exact ih { p with handles := p.handles.cancel handle }
    | haltAll next ih => exact ih 0 p
    | global key type init next ih =>
      simp only [perform]
      rcases p.globals.obtain key type init with ⟨r, globals⟩
      exact ih r { p with globals }
    | argument id type init next ih =>
      simp only [perform]
      rcases p.occasion.arguments.obtain id type init with ⟨r, arguments⟩
      exact ih r { p with occasion := { p.occasion with arguments } }
    | pattern id text next ih =>
      simp only [perform]
      rcases p.occasion.arguments.pattern id text with ⟨r, arguments⟩
      exact ih r { p with occasion := { p.occasion with arguments } }
  exact ⟨fun p => (both p).1, fun p => (both p).2⟩

theorem judgeQuiet (path : List Nat) (info : AppletInfo) (check : Check) :
    Quiet o (judge path info check) := by
  refine quietThen (quietRead _) fun expected => ?_
  cases expected with
  | none => exact quietPure _
  | some expected =>
    refine quietThen (quietAct fun p => ?_) fun input =>
      quietThen (performQuiet (check input)) fun outcome => quietAct fun p => ?_
    · exact Passage.reportsThen (Passage.foldAllReports p expected.toList) (Passage.noteReports _ _ rfl)
    · have noted := Passage.noteReports (o := o) p (.checked path outcome) rfl
      cases outcome with
      | ok c => exact noted
      | error cause => exact noted

theorem carryOutQuiet (path : List Nat) (info : AppletInfo) (action : Action) :
    Quiet o (carryOut path info action) := by
  refine quietThen (quietAct fun p => ?_) fun input =>
    quietThen (performQuiet (action input)) fun outcome => quietAct fun p => ?_
  · exact Passage.reportsThen (Passage.foldAllReports p _) (Passage.noteReports _ _ rfl)
  · have noted := Passage.noteReports (o := o) p (.performed path outcome) rfl
    cases outcome with
    | ok returned => exact noted
    | error cause => exact noted

theorem awaitReports (path : List Nat) (info : AppletInfo) (wait : Wait) (p : Passage) :
    p.Reports o [] (await path info wait p).2 ∧
      ∀ halt, (await path info wait p).1 = .error halt → halt = .outOfBatches path info wait := by
  have released (q : Passage) (event : Event) : q.Reports o [] (q.release path event) :=
    Passage.noteReports (q.fold event.passed) (.released path event) rfl
  unfold await
  cases wait.find? p.occasion.batch.events with
  | some event => exact ⟨released p event, nofun⟩
  | none =>
    cases Passage.seek wait p.ahead with
    | some found =>
      obtain ⟨event, batch, ahead⟩ := found
      exact ⟨released { p with occasion := .ofBatch p.occasion.task batch, ahead } event, nofun⟩
    | none => exact ⟨Passage.reportsNothing rfl rfl, fun halt same => (Except.error.inj same).symm⟩

theorem chooseReports (path : List Nat) (spec : FlowSpec) (p : Passage) :
    ∃ chosen q, choose path spec p = (.ok chosen, q) ∧ p.Reports o [] q := by
  unfold choose
  cases spec.selector with
  | none => exact ⟨_, _, rfl, Passage.reportsNothing rfl rfl⟩
  | some select =>
    dsimp only
    cases select p.occasion.batch with
    | none => exact ⟨_, _, rfl, Passage.reportsNothing rfl rfl⟩
    | some target => exact ⟨_, _, rfl, Passage.noteReports _ (.selected path target) rfl⟩

theorem leaveReports (spec : FlowSpec) (saved : Option (Option Json)) (last : Option AppletResult)
    (p : Passage) : ∃ r q, leave spec saved last p = (.ok r, q) ∧ p.Reports o [] q := by
  unfold leave
  cases saved with
  | none => exact ⟨_, _, rfl, Passage.reportsNothing rfl rfl⟩
  | some old =>
    cases p.target with
    | none => exact ⟨_, _, rfl, Passage.reportsNothing rfl rfl⟩
    | some target =>
      dsimp only
      split <;> exact ⟨_, _, rfl, Passage.reportsNothing rfl rfl⟩

inductive Visits (o : Observer) (path : List Nat) (a : Applet) (p : Passage) :
    Except Halt AppletResult × Passage → Prop where
  | whole {r q calls} (reports : p.Reports o calls q) (traversal : Traversal path a calls) :
      Visits o path a p (.ok r, q)
  | broken {halt q calls stood} (reports : p.Reports o calls q) (cut : Cut path a calls stood)
      (stands : halt.StandsAt path a stood) : Visits o path a p (.error halt, q)

variable {mode : Mode} {path : List Nat} {a child : Applet} {before rest : List Applet}
  {spec : FlowSpec} {saved : Option (Option Json)} {inner : List Call} {p q : Passage}

theorem leafVisits (m : Straight AppletResult) (leaf : a.children = [])
    (reports : ∀ q, Passage.Reports o q [] (m q).2)
    (stands : ∀ q halt, (m q).1 = .error halt → halt.StandsAt path a []) :
    Visits o path a p (next (conclude path a.info) (m (p.tell .started path a.info))) := by
  have members : Members path 0 ([] : List Applet) [] := .none
  have started := Passage.reportsThen (Passage.tellReports (o := o) p .started path a)
    (reports (p.tell .started path a.info))
  have halts := stands (p.tell .started path a.info)
  generalize m (p.tell .started path a.info) = ref at started halts
  rcases ref with ⟨halt | r, q⟩
  · exact .broken started (.here leaf members) (halts halt rfl)
  · exact .whole (Passage.reportsThen started (Passage.concludeReports q path a r))
      ⟨by rwa [leaf]⟩

theorem closeVisits {last : Option AppletResult} (reports : p.Reports o (a.call .started path :: inner) q)
    (members : Members path 0 a.children inner) :
    Visits o path a p (closeFlow path a.info spec saved last q) := by
  obtain ⟨r, t, left, quiet⟩ := leaveReports (o := o) spec saved last q
  rw [closeFlow, thenNext, left]
  have ended := Passage.reportsThen (Passage.reportsThen reports quiet)
    (Passage.concludeReports t path a r)
  rw [List.append_nil] at ended
  exact .whole ended ⟨members⟩

theorem goOnVisits {r : AppletResult} (children : a.children = before ++ child :: rest)
    (reports : p.Reports o (a.call .started path :: inner) q)
    (members : Members path 0 (before ++ [child]) inner)
    (onward : Visits o path a p (next (closeFlow path a.info spec saved)
      (visitFrom mode path (.after child.flowKind? r.isSuccessful) (some r) (before.length + 1)
        rest q))) :
    Visits o path a p (next (closeFlow path a.info spec saved)
      (goOn mode path before.length child rest r q)) := by
  unfold goOn
  split
  · obtain ⟨calls, skipped, told⟩ := Passage.skipFromReports (o := o) q path (before.length + 1) rest
    have whole := membersAppend members (by simpa using skipped)
    rw [List.append_assoc, List.singleton_append, ← children] at whole
    exact closeVisits (Passage.reportsThen reports told) whole
  · exact onward

theorem visitFromVisits {chain : Chain} {last : Option AppletResult}
    (visits : ∀ c ∈ rest, ∀ mode path p, Visits o path c p (visit mode path c p))
    (children : a.children = before ++ rest)
    (reports : p.Reports o (a.call .started path :: inner) q)
    (members : Members path 0 before inner) :
    Visits o path a p (next (closeFlow path a.info spec saved)
      (visitFrom mode path chain last before.length rest q)) := by
  -- By induction on the children ahead; `inner` is what was told of those behind.
  induction rest generalizing before inner q chain last with
  | nil =>
    rw [List.append_nil] at children
    exact closeVisits reports (by rwa [children])
  | cons child rest ih =>
    have later : ∀ c ∈ rest, ∀ mode path p, Visits o path c p (visit mode path c p) :=
      fun c inside => visits c (List.mem_cons_of_mem child inside)
    have shift : a.children = (before ++ [child]) ++ rest := by simpa using children
    have length : (before ++ [child]).length = before.length + 1 := by simp
    have onward {more : List Call} {u : Passage} (chain : Chain) (last : Option AppletResult)
        (told : q.Reports o more u) (member : Members path (0 + before.length) [child] more) :
        Visits o path a p (next (closeFlow path a.info spec saved)
          (visitFrom mode path chain last (before.length + 1) rest u)) := by
      have moved : Visits o path a p (next (closeFlow path a.info spec saved)
          (visitFrom mode path chain last (before ++ [child]).length rest u)) :=
        ih later shift (Passage.reportsThen reports told) (membersAppend members member)
      rwa [length] at moved
    cases active : q.isActive with
    | false =>
      rw [visitFromCancelled active]
      exact .broken reports (.here children members) trivial
    | true =>
      have skipped : Members path (0 + before.length) [child]
          [child.call .skipped (path ++ [before.length])] := by
        rw [Nat.zero_add]
        exact .skipped .none
      have told := Passage.tellReports (o := o) q .skipped (path ++ [before.length]) child
      cases plan : chain.plan child.flowKind? with
      | skip =>
        rw [visitFromSkip active plan]
        exact onward _ _ told skipped
      | orphan =>
        rw [visitFromOrphan active plan]
        exact onward _ _ told skipped
      | evaluate =>
        rw [visitFromEvaluate active plan, nextNext]
        have visited := visits child List.mem_cons_self mode (path ++ [before.length]) q
        generalize visit mode (path ++ [before.length]) child q = ref at visited
        cases visited with
        | @broken halt u calls stood told cut stands =>
          refine .broken (Passage.reportsThen reports told) (.inside children members cut) ?_
          cases halt with
          | outOfBatches at' info wait =>
            obtain ⟨rfl, located⟩ := stands
            refine ⟨by simp, ?_⟩
            rw [Applet.at?, children]
            simpa using located
          | _ => trivial
        | @whole r u calls told traversal =>
          have member : Members path (0 + before.length) [child] calls := by
            rw [Nat.zero_add]
            simpa using membersVisited traversal Members.none
          rw [next, thenNext]
          exact goOnVisits children (Passage.reportsThen reports told)
            (membersAppend members member) (onward _ _ told member)

theorem visitVisits (o : Observer) (mode : Mode) (path : List Nat) (a : Applet) (p : Passage) :
    Visits o path a p (visit mode path a p) := by
  induction a using Applet.byChildren generalizing mode path p with
  | criterion info check =>
    have quiet := judgeQuiet (o := o) path info check
    rw [visit, leafAt]
    refine leafVisits (a := .criterion info check) _ rfl quiet.reports fun q halt same => ?_
    cases halt with
    | outOfBatches at' info wait => exact absurd same (quiet.halts q at' info wait)
    | _ => trivial
  | action info action =>
    have quiet := carryOutQuiet (o := o) path info action
    rw [visit, leafAt]
    refine leafVisits (a := .action info action) _ rfl quiet.reports fun q halt same => ?_
    cases halt with
    | outOfBatches at' info wait => exact absurd same (quiet.halts q at' info wait)
    | _ => trivial
  | wait info wait =>
    rw [visit, leafAt]
    refine leafVisits (a := .wait info wait) _ rfl
      (fun q => (awaitReports path info wait q).1) fun q halt same => ?_
    rw [(awaitReports (o := o) path info wait q).2 halt same]
    exact ⟨(List.append_nil path).symm, rfl⟩
  | flow info spec children ih =>
    have told := Passage.tellReports (o := o) p .started path (.flow info spec children)
    obtain ⟨chosen, q, chose, quiet⟩ :=
      chooseReports (o := o) path spec (p.tell .started path info)
    have started := Passage.reportsThen told quiet
    cases chosen with
    | some saved =>
      rw [visitFlowChosen chose]
      exact visitFromVisits (a := .flow info spec children) ih rfl started .none
    | none =>
      rw [visitFlowUnavailable chose]
      obtain ⟨calls, skipped, told⟩ := Passage.skipFromReports (o := o) q path 0 children
      have ended := Passage.reportsThen (Passage.reportsThen started told)
        (Passage.concludeReports _ path (.flow info spec children) (.empty false))
      exact .whole ended ⟨skipped⟩

theorem walkVisits (task : Task) {p : Passage} (heard : p.observer = some o) (new : p.record = []) :
    (∃ r, (walk task p).1 = .ok r ∧ Traversal [] task.tree ((walk task p).2.calls o)) ∨
    (∃ halt stood, (walk task p).1 = .error halt ∧ halt.StandsAt [] task.tree stood ∧
      Cut [] task.tree ((walk task p).2.calls o) stood) ∨
    walk task p = (.error .cancelled, p) := by
  have silent : p.calls o = [] := by rw [Passage.calls, new, List.filterMap_nil]
  rw [walk, thenNext]
  unfold ensureActive
  cases p.isActive with
  | false => exact .inr (.inr rfl)
  | true =>
    simp only [if_true, next]
    have visited := visitVisits o .aggregate [] task.tree p
    generalize visit .aggregate [] task.tree p = ref at visited
    cases visited with
    | @whole r q calls reports traversal =>
      rw [← List.nil_append calls, ← silent, ← (reports heard).2] at traversal
      exact .inl ⟨r, rfl, traversal⟩
    | @broken halt q calls stood reports cut stands =>
      rw [← List.nil_append calls, ← silent, ← (reports heard).2] at cut
      exact .inr (.inl ⟨halt, stood, rfl, stands, cut⟩)

end Straight

namespace Lone

def calls (o : Observer) (l : Lone) : List Call := l.journal.filterMap fun e => e.mark.call? o

def cancel (l : Lone) : Lone := { l with world := l.world.cancel l.run.handle }

theorem triggerCancelled {l : Lone} (cancelled : l.run.isActive l.world = false)
    (batches : List Batch) : (l.triggerAll batches).1 = l := by
  induction batches with
  | nil => rfl
  | cons batch rest ih =>
    have inactive : (l.scene batch).isActive = false := cancelled
    cases qualifies : (l.scene batch).run.qualifies (l.scene batch).occasion.batch.events with
    | false =>
      rw [triggerAll, Walk.triggerIdle qualifies]
      exact ih
    | true =>
      rw [triggerAll, Walk.triggerInactive qualifies inactive]
      exact ih

theorem cancelInactive (l : Lone) : l.cancel.run.isActive l.cancel.world = false := by
  simp [cancel, Run.isActive, World.cancel, Handles.isCancelledCancel]

/- The observer protocol. A run that completes has told a traversal. One that is left suspended
has told the beginning of one, in which the wait and what is above it have not ended; and one
that was cancelled has told the beginning of one, in which what has not ended lies on one
path. A run that its owner halts between two calls tells no more. -/
theorem observerProtocol {world : World} (clean : world.slates.Clean) (task : Task)
    (handle : Handle) (o : Observer) (first : Batch) (later : List Batch) :
    let out := drive (obtain world task handle (some o) first) first later
    (some (.ok .completed) ∈ out.2 → WellTold task.tree (out.1.calls o)) ∧
    (out.2.getLast? = some (some (.ok .suspended)) →
      (∃ rest, WellTold task.tree (out.1.calls o ++ rest)) ∧
      ∃ path info wait, task.tree.at? path = some (.wait info wait) ∧
        out.1.run.slate.waiting = some (.wait info wait) ∧
        unclosed (out.1.calls o) = path.inits) ∧
    (some (.error .cancelled) ∈ out.2 →
      (∃ rest, WellTold task.tree (out.1.calls o ++ rest)) ∧
      ∃ path, (task.tree.at? path).isSome ∧ ∀ q ∈ unclosed (out.1.calls o), q <+: path) ∧
    ∀ batches, (out.1.cancel.triggerAll batches).1.calls o = out.1.calls o := by
  intro out
  have agrees : Agrees out _ := driveAgrees clean task handle (some o) first later
  have visits := Straight.walkVisits (o := o) task
    (p := .start task handle (some o) world first later) rfl rfl
  generalize Straight.walk task (.start task handle (some o) world first later) = ref
    at agrees visits
  have same : out.1.calls o = ref.2.calls o := by
    rw [Passage.calls, ← agrees.record, List.filterMap_map]
    rfl
  rw [same]
  refine ⟨fun completed => ?_, fun suspended => ?_, fun cancelled => ?_, fun batches => ?_⟩
  · obtain ⟨r, result⟩ := (agreesCompleted agrees).mp completed
    rcases visits with ⟨_, _, traversal⟩ | ⟨halt, stood, broke, -, -⟩ | stopped
    · exact traversalWellTold traversal
    · cases result.symm.trans broke
    · cases result.symm.trans (congrArg Prod.fst stopped)
  · obtain ⟨path, info, wait, result⟩ := (agreesSuspended agrees).mp suspended
    have waiting : out.1.run.slate.waiting = some (.wait info wait) := by
      rw [agrees.waiting, result, pending?]
    rcases visits with ⟨_, done, -⟩ | ⟨halt, stood, broke, stands, cut⟩ | stopped
    · cases result.symm.trans done
    · cases result.symm.trans broke
      obtain ⟨rest, traversal⟩ := cutCompletes cut
      refine ⟨⟨rest, traversalWellTold traversal⟩, stood, info, wait, stands.2, waiting, ?_⟩
      simpa using cutUnclosed cut
    · cases result.symm.trans (congrArg Prod.fst stopped)
  · have result := (agreesCancelled agrees).mp cancelled
    rcases visits with ⟨_, done, -⟩ | ⟨halt, stood, broke, stands, cut⟩ | stopped
    · cases result.symm.trans done
    · obtain ⟨rest, traversal⟩ := cutCompletes cut
      refine ⟨⟨rest, traversalWellTold traversal⟩, stood, cutLocated cut, fun q open' => ?_⟩
      rw [cutUnclosed cut] at open'
      simpa using open'
    · rw [stopped]
      obtain ⟨rest, traversal⟩ := traversalExists [] task.tree
      exact ⟨⟨rest, traversalWellTold traversal⟩, [], rfl, fun q open' => nomatch open'⟩
  · rw [triggerCancelled (cancelInactive out.1), ← same]
    rfl

theorem observerProtocolLauncher :
    World.fresh.slates.Clean ∧
      let lone := obtain World.fresh launcherTask ⟨0⟩ (some ⟨"watch"⟩) launcherBatch
      let whole := drive lone launcherBatch launcherBatches
      let part := drive lone launcherBatch (launcherBatches.take 1)
      WellTold launcherTask.tree (whole.1.calls ⟨"watch"⟩) ∧
        unclosed (part.1.calls ⟨"watch"⟩) = [[], [1], [1, 0]] ∧
        ∃ path info wait, launcherTask.tree.at? path = some (.wait info wait) ∧
          part.1.run.slate.waiting = some (.wait info wait) ∧
          unclosed (part.1.calls ⟨"watch"⟩) = path.inits := by
  have clean : World.fresh.slates.Clean := fun a inside => nomatch inside
  have whole := (observerProtocol clean launcherTask ⟨0⟩ ⟨"watch"⟩ launcherBatch launcherBatches).1
  have part := (observerProtocol clean launcherTask ⟨0⟩ ⟨"watch"⟩ launcherBatch
    (launcherBatches.take 1)).2.1
  exact ⟨clean, whole (.tail _ (.head _)), rfl, (part rfl).2⟩

end Lone
end Automation
