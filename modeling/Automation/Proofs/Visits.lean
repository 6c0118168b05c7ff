import Automation.Proofs.Standing
/-! What visits of applets come to, whatever their executors do and others between their turns. A
visit writes a chronicle of its node, and is complete, suspended at a wait, or broken off. A node is
visited going forward, or on the way back to the wait it was suspended at. When the run is cancelled
by the time an executor is back, the walk only ends what has nothing left to do. -/
namespace Automation

def Mode.stops (mode : Mode) (child : Applet) (good : Bool) : Bool :=
  mode == .guard && !good && !child.flowKind?.any FlowKind.steersChain

namespace Applet

def calls : Applet → Bool
  | criterion .. | action .. => true
  | wait .. | flow .. => false

/- Whether no flow has another child left to look at on the way up from the node at this path,
once that has ended with a success or not: each flow is past its last child, or stops at a
failure. -/
def runsOut (good : Bool) : Mode → Applet → List Nat → Bool
  | mode, flow _ spec children, k :: path =>
    (children[k]?).any fun child =>
      child.runsOut good (spec.kind.mode mode) path &&
        (k + 1 == children.length || (spec.kind.mode mode).stops child good)
  | _, _, _ => true

variable {info : AppletInfo} {spec : FlowSpec} {children : List Applet} {k : Nat} {child : Applet}
  {path : List Nat}

theorem callsBelow (here : children[k]? = some child) (calls : (child.at? path).any calls = true) :
    ((flow info spec children).at? (k :: path)).any Applet.calls = true := by
  rw [at?, Applet.children, here]
  exact calls

theorem runsOutBelow (here : children[k]? = some child) (good : Bool) (mode : Mode) :
    (flow info spec children).runsOut good mode (k :: path) =
      (child.runsOut good (spec.kind.mode mode) path &&
        (k + 1 == children.length || (spec.kind.mode mode).stops child good)) := by
  rw [runsOut, here]
  rfl

end Applet

namespace Scene

structure Stalls (s : Scene) (levels below : List Level) (info : AppletInfo) (wait : Wait)
    (target : Option Json) (journal : Journal) : Prop where
  footing : s.footing = ⟨.standing levels below false, none, some (.wait info wait), true,
    s.occasion.batch, s.occasion.task⟩
  target : s.run.slate.target = target
  journal : s.journal = journal

structure Returns (s : Scene) (levels below : List Level) (info : AppletInfo) (wait : Wait)
    (target : Option Json) (journal : Journal) : Prop where
  footing : s.footing = ⟨.standing levels below true, none, some (.wait info wait), false,
    s.occasion.batch, s.occasion.task⟩
  target : s.run.slate.target = target
  journal : s.journal = journal
  active : s.isActive = true
  accepts : (wait.find? s.occasion.batch.events).isSome = true

/- How a visit leaves the scene, if the journal held `journal` before the node started. -/
inductive Leaves (levels : List Level) (journal : Journal) (target : Option Json) (path : List Nat)
    (a : Applet) : Scene → Except Stop Outcome → Prop where
  | completed {u part r} (chronicle : Chronicle target path a part (some r))
      (stands : u.Stands levels (some r) target (journal ++ part)) :
      Leaves levels journal target path a u (.ok .completed)
  | suspended {u part below aim info wait}
      (pending : Pending target path a part below aim info wait)
      (stalls : u.Stalls levels below info wait aim (journal ++ part)) :
      Leaves levels journal target path a u (.ok .suspended)
  | stopped {u e part} (chronicle : Chronicle target path a part none)
      (writes : u.journal = journal ++ part) (idle : u.run.slate.waiting = none) :
      Leaves levels journal target path a u (.error e)

inductive Through (levels : List Level) (journal : Journal) (target : Option Json)
    (saved : Option (Option Json)) (path : List Nat) (children : List Applet) :
    Scene → Except Stop Outcome → Prop where
  | completed {u part l} (chapters : Chapters target path none 0 children part (some l.last))
      (restores : l.saved = saved)
      (stands : u.Stands (levels ++ [l]) none target (journal ++ part)) :
      Through levels journal target saved path children u (.ok .completed)
  | suspended {u before child rest front part l below aim info wait}
      (split : children = before ++ child :: rest)
      (done : Chapters target path none 0 before front (some l.last))
      (index : l.index = before.length) (restores : l.saved = saved)
      (pending : Pending target (path ++ [before.length]) child part below aim info wait)
      (stalls : u.Stalls (levels ++ [l]) below info wait aim (journal ++ (front ++ part))) :
      Through levels journal target saved path children u (.ok .suspended)
  | stopped {u e part} (chapters : Chapters target path none 0 children part none)
      (writes : u.journal = journal ++ part) (idle : u.run.slate.waiting = none) :
      Through levels journal target saved path children u (.error e)

/- The walk goes from `t`, where an executor came back with this reply and the run cancelled, to
`u` without evaluating anything more. It is complete if it runs out, with a result that is a
success if the reply says so. -/
structure Quits (reply : Reply) (out : Bool) (t u : Scene) (r : Except Stop Outcome)
    (passed : Option AppletResult) : Prop where
  cancelled : u.isActive = false
  closing : ∃ tail, u.journal = t.journal ++ reply.entry :: tail ∧ ∀ e ∈ tail, e.closing = true
  ending : r = if out then .ok .completed else .error .cancelled
  success : out = true → passed.map AppletResult.isSuccessful = some reply.successful

def VisitQuits (mode : Mode) (path : List Nat) (a : Applet) (reply : Reply) (t u : Scene)
    (r : Except Stop Outcome) : Prop :=
  ∃ p, reply.path = path ++ p ∧ (a.at? p).any Applet.calls = true ∧
    Quits reply (a.runsOut reply.successful mode p) t u r u.run.slate.result

def ThroughQuits (mode : Mode) (path : List Nat) (children : List Applet) (depth : Nat)
    (reply : Reply) (t u : Scene) (r : Except Stop Outcome) : Prop :=
  ∃ k p child, reply.path = path ++ k :: p ∧ children[k]? = some child ∧
    (child.at? p).any Applet.calls = true ∧
    Quits reply (child.runsOut reply.successful mode p &&
        (k + 1 == children.length || mode.stops child reply.successful))
      t u r ((u.run.slate.cursor.levels[depth]?).bind Level.last)

end Scene

namespace Tour
open Scene

variable {mode : Mode} {path : List Nat} {a : Applet} {info : AppletInfo} {s u v : Scene}
  {levels : List Level} {target : Option Json} {journal : Journal}

abbrev Visits (mode : Mode) (path : List Nat) (a : Applet) (levels : List Level)
    (target : Option Json) (journal : Journal) (c : Dialogue Outcome) : Prop :=
  c.Honours (Leaves levels journal target path a) (VisitQuits mode path a)

theorem callVisits {asked : Journal} {heard : Option Observer} {run : Run} {executor : Executor}
    {script : Script executor.Answer} {close : executor.Answer → Scene → AppletResult × Scene}
    (calls : a.calls = true) (started : run.slate.target = target)
    (asks : v.Stands levels none target
      (journal ++ .notice heard .started path a.info run :: asked))
    (asking : Deed path run run.batch a asked none)
    (answers : ∀ answer batch, Deed path run batch a (asked ++ [executor.answered path answer])
      (some (executor.result a.info answer)))
    (closes : ∀ answer (t : Scene) written, t.Stands levels none target written →
      (close answer t).1 = executor.result a.info answer ∧
        (close answer t).2.Stands levels none target
          (written ++ [executor.answered path answer]))
    (frame : ∀ answer t, (close answer t).2.frame = t.frame) :
    Visits mode path a levels target journal
      (.call v path a.info executor script fun answer t =>
        .finished ((close answer t).2.finish path a.info (close answer t).1) (.ok .completed)) := by
  refine ⟨fun t others => ?_, fun answer t others => ?_⟩
  · have stands := standsOthers asks others
    exact .stopped (.leafOpen started asking) stands.journal (standsIdle stands)
  · have stands := standsOthers asks others
    obtain ⟨made, closed⟩ := closes answer t _ stands
    obtain ⟨heard', run', ended, -, finished⟩ := finishStands closed path a.info (close answer t).1
    refine ⟨?_, fun cancelled => ⟨_, _, rfl, ?_⟩⟩
    · change Leaves levels journal target path a ((close answer t).2.finish path a.info _) _
      rw [made] at ended finished ⊢
      have shape (first last entry : Entry) : journal ++ first :: asked ++ [entry] ++ [last] =
          journal ++ (first :: (asked ++ [entry]) ++ [last]) := by simp
      rw [shape] at finished
      exact .completed (.leaf started (answers answer _) ended) finished
    · refine ⟨[], (List.append_nil path).symm, by simpa [Applet.at?] using calls, ?_, ?_, ?_, ?_⟩
      · rw [← cancelled]
        exact frameAlike ((finishFrame _ path a.info _).trans (frame answer t))
      · refine ⟨[.notice heard' .terminated path a.info run'], ?_, by simp [Entry.closing]⟩
        rw [finished.journal, stands.journal, List.append_assoc]
        rfl
      · cases a <;> rfl
      · intro _
        rw [forwardResult finished.forward, made]
        rfl

theorem criterionVisits (stands : s.Stands levels none target journal) (check : Check) :
    Visits mode path (.criterion info check) levels target journal
      (visit mode path (.criterion info check) s) := by
  obtain ⟨heard, run, started, leaf, reached⟩ := reachStands stands path info
  have same := atLeafExpected leaf info
  cases found : run.expected? info with
  | none =>
    obtain ⟨heard', run', ended, -, finished⟩ := finishStands reached path info (.empty false)
    rw [visitUnresolved rfl (same.trans found)]
    rw [List.append_assoc] at finished
    exact .completed (.leaf (a := .criterion ..) started (.unresolved found) ended) finished
  | some expected =>
    rw [visitResolved rfl (same.trans found)]
    have asks := beginCheckStands reached leaf path info expected
    rw [List.append_assoc] at asks
    exact callVisits (a := .criterion info check) rfl started asks (.checking found)
      (fun outcome batch => .checked found outcome)
      (fun outcome t written stands => endCheckStands stands path info outcome)
      (fun outcome t => endCheckFrame t path info outcome)

theorem actionVisits (stands : s.Stands levels none target journal) (action : Action) :
    Visits mode path (.action info action) levels target journal
      (visit mode path (.action info action) s) := by
  obtain ⟨heard, run, started, leaf, reached⟩ := reachStands stands path info
  have asks := beginActionStands reached leaf path info
  rw [List.append_assoc] at asks
  rw [visitAction rfl]
  exact callVisits (a := .action info action) rfl started asks .performing
    (fun outcome batch => .performed outcome)
    (fun outcome t written stands => endActionStands stands path info outcome)
    (fun outcome t => endActionFrame t path outcome)

theorem releasedVisits {t : Scene} {heard : Option Observer} {run : Run} {wait : Wait}
    {event : Event} {waiting : Option Applet} {suspending : Bool}
    (reached : (s.start path info).reachLeaf info = t) (started : run.slate.target = target)
    (footing : t.footing = ⟨.standing levels [] false, none, waiting, suspending,
      t.occasion.batch, t.occasion.task⟩)
    (aims : t.run.slate.target = target)
    (writes : t.journal = journal ++ [.notice heard .started path info run])
    (found : wait.find? t.occasion.batch.events = some event) :
    Visits mode path (.wait info wait) levels target journal
      (visit mode path (.wait info wait) s) := by
  have batch : t.run.batch = t.occasion.batch := congrArg Footing.batch footing
  rw [← batch] at found
  obtain ⟨made, stood, -⟩ := tryWaitReleased found path info
  have released : (t.tryWait path info wait).2.Stands levels none target
      (journal ++ [.notice heard .started path info run] ++ [.released path event]) := by
    constructor
    · rw [Forward, stood, footing, tryWaitOccasion]
    · rw [← aims]
      unfold tryWait
      rw [found]
      rfl
    · rw [← writes]
      unfold tryWait
      rw [found]
      rfl
  have kept : (t.tryWait path info wait).2.run.batch = t.run.batch :=
    congrArg Footing.batch stood
  obtain ⟨heard', run', ended, same, finished⟩ :=
    finishStands released path info (.passing event.passed)
  rw [← kept, ← same] at found
  rw [visitWait reached, made]
  rw [List.append_assoc, List.append_assoc] at finished
  exact .completed (.leaf (a := .wait info wait) started (.released found) ended) finished

theorem waitVisits (stands : s.Stands levels none target journal) (wait : Wait) :
    Visits mode path (.wait info wait) levels target journal
      (visit mode path (.wait info wait) s) := by
  obtain ⟨heard, run, started, leaf, reached⟩ := reachStands stands path info
  cases found : wait.find? ((s.start path info).reachLeaf info).occasion.batch.events with
  | some event =>
    exact releasedVisits rfl started reached.forward reached.target reached.journal found
  | none =>
    rw [← forwardBatch reached.forward] at found
    obtain ⟨made, stood, -⟩ := tryWaitRefused found path info
    rw [visitWait rfl, made]
    have stalls : Stalls (((s.start path info).reachLeaf info).tryWait path info wait).2 levels []
        info wait target (journal ++ [.notice heard .started path info run]) := by
      constructor
      · rw [stood, reached.forward, tryWaitOccasion]
      · rw [← reached.target]
        unfold tryWait
        rw [found]
        rfl
      · rw [← reached.journal]
        unfold tryWait
        rw [found]
        rfl
    exact .suspended (.wait started) stalls

section
variable {before rest children : List Applet} {child : Applet} {saved : Option (Option Json)}

def Along (levels : List Level) (journal : Journal) (target : Option Json)
    (saved : Option (Option Json)) (path : List Nat) (before : List Applet) (s : Scene) : Prop :=
  ∃ front l, Chapters target path none 0 before front (some l.last) ∧ l.index = before.length ∧
    l.saved = saved ∧ s.Stands (levels ++ [l]) none target (journal ++ front)

abbrev Throughs (mode : Mode) (path : List Nat) (children : List Applet) (levels : List Level)
    (target : Option Json) (saved : Option (Option Json)) (journal : Journal)
    (c : Dialogue Outcome) : Prop :=
  c.Honours (Through levels journal target saved path children)
    (ThroughQuits mode path children levels.length)

theorem alongAll (along : Along levels journal target saved path children s) :
    Through levels journal target saved path children s (.ok .completed) := by
  obtain ⟨front, l, chapters, index, restores, stands⟩ := along
  exact .completed chapters restores stands

theorem chaptersUp {front part : Journal} {last : Option AppletResult}
    {out : Option (Option AppletResult)}
    (done : Chapters target path none 0 before front (some last))
    (next : Chapters target path last before.length rest part out) :
    Chapters target path none 0 (before ++ rest) (front ++ part) out := by
  rw [← Nat.zero_add before.length] at next
  exact chaptersAppend done next

variable {front : Journal} {l : Level}

theorem goOnQuits {reply : Reply} {t u : Scene} {r : AppletResult} {p : List Nat}
    (split : children = before ++ child :: rest) (index : l.index = before.length)
    (stands : u.Stands (levels ++ [l]) (some r) target journal)
    (located : reply.path = path ++ before.length :: p)
    (calls : (child.at? p).any Applet.calls = true)
    (runs : child.runsOut reply.successful mode p = true)
    (quits : Quits reply true t u (.ok .completed) u.run.slate.result) :
    ∃ v q, goOn mode path info levels.length before.length child rest .completed u = .finished v q ∧
      ThroughQuits mode path children levels.length reply t v q := by
  have found := standsLevel stands
  obtain ⟨good, passed⟩ := passOnStands stands child.flowKind?
  have here : children[before.length]? = some child := by simp [split]
  have successful : r.isSuccessful = reply.successful := by
    have success := quits.success rfl
    rw [forwardResult stands.forward] at success
    exact Option.some.inj success
  have cancelled : (u.passOn levels.length child.flowKind?).2.isActive = false := quits.cancelled
  obtain ⟨tail, writes, closing⟩ := quits.closing
  have written : (u.passOn levels.length child.flowKind?).2.journal =
    t.journal ++ reply.entry :: tail := writes
  have last {v : Scene} {l' : Level} {journal' : Journal} (kept : l'.last = some r)
      (behind : v.Stands (levels ++ [l']) none target journal') :
      ((v.run.slate.cursor.levels[levels.length]?).bind Level.last).map AppletResult.isSuccessful =
        some reply.successful := by
    rw [standsLevel behind, Option.bind_some, kept, Option.map_some, successful]
  rw [goOnPassed found, good, successful]
  -- A flow that stops at the child skips the others; one that does not sees the cancellation
  -- when it looks at the next child, whether that would be skipped or not.
  cases stops : mode.stops child reply.successful with
  | true =>
    obtain ⟨part, skipped, -, skips⟩ := skipFromStands passed path (before.length + 1) rest
    refine ⟨_, _, if_pos stops, before.length, p, child, located, here, calls, ?_⟩
    rw [runs, stops]
    constructor
    · rw [← cancelled]
      exact frameAlike (skipFromFrame _ path (before.length + 1) rest)
    · refine ⟨tail ++ part, ?_, List.forall_mem_append.mpr ⟨closing, skips⟩⟩
      rw [skipped.journal, ← passed.journal, written, List.append_assoc]
      rfl
    · simp
    · exact fun _ => last rfl skipped
  | false =>
    rw [if_neg (by rw [← Mode.stops, stops]; simp)]
    cases rest with
    | nil =>
      refine ⟨_, _, by rw [visitFrom]; rfl, before.length, p, child, located, here, calls, ?_⟩
      rw [runs, stops]
      refine ⟨cancelled, ⟨tail, written, closing⟩, by simp [split], fun _ => last rfl passed⟩
    | cons next rest =>
      have behind : l.index + 1 ≤ before.length + 1 := by omega
      refine ⟨_, _, visitFromCancelled (standsLevel passed) behind cancelled, before.length, p,
        child, located, here, calls, ?_⟩
      rw [runs, stops]
      refine ⟨cancelled, ⟨tail, written, closing⟩, by simp [split], fun out => ?_⟩
      simp [split] at out

theorem goOnVisits {c : Dialogue Outcome} (split : children = before ++ child :: rest)
    (done : Chapters target path none 0 before front (some l.last))
    (index : l.index = before.length) (restores : l.saved = saved)
    (visited : Visits mode (path ++ [before.length]) child (levels ++ [l]) target
      (journal ++ front) c)
    (onward : ∀ s, Along levels journal target saved path (before ++ [child]) s →
      Throughs mode path children levels target saved journal
        (visitFrom mode path info levels.length (before.length + 1) rest s)) :
    Throughs mode path children levels target saved journal
      (c.bind (goOn mode path info levels.length before.length child rest)) := by
  have whole {part : Journal} {out : Option (Option AppletResult)}
      (next : Chapters target path l.last before.length (child :: rest) part out) :
      Chapters target path none 0 children (front ++ part) out := by
    rw [split]
    exact chaptersUp done next
  refine Dialogue.honoursBind visited (fun s outcome leaves => ?_) (fun s e leaves => ?_)
    (fun reply t u outcome quits leaves => ?_) fun reply t u e quits => ?_
  · cases leaves with
    | @completed part r chronicle stands =>
      obtain ⟨-, passed⟩ := passOnStands stands child.flowKind?
      let l' : Level := ⟨l.index + 1, .after child.flowKind? r.isSuccessful, some r, l.saved⟩
      rw [goOnPassed (standsLevel stands)]
      split
      · obtain ⟨skips, skipped, chapters, -⟩ := skipFromStands passed path (before.length + 1) rest
        rw [List.append_assoc, List.append_assoc] at skipped
        exact .completed (l := l') (whole (.visited chronicle (chapters target (some r)))) restores
          skipped
      · rw [List.append_assoc] at passed
        refine onward _ ⟨_, l', chaptersUp done (.visited chronicle .done), ?_, restores, ?_⟩
        · simp [l', index]
        · rwa [List.append_nil]
    | suspended pending stalls =>
      rw [List.append_assoc] at stalls
      exact .suspended split done index restores pending stalls
  · cases leaves with
    | stopped chronicle writes idle =>
      rw [List.append_assoc] at writes
      exact .stopped (whole (.visiting chronicle)) writes idle
  · -- Cancelled within the child, which is complete all the same: it has run out.
    obtain ⟨p, located, calls, quits⟩ := quits
    rw [List.append_assoc] at located
    cases runs : child.runsOut reply.successful mode p with
    | false =>
      rw [runs] at quits
      cases quits.ending
    | true =>
      rw [runs] at quits
      cases leaves with
      | completed chronicle stands =>
        exact goOnQuits split index stands located calls runs quits
      | suspended pending stalls => cases quits.ending
  · -- Cancelled within the child, which has been broken off: so is the flow.
    obtain ⟨p, located, calls, quits⟩ := quits
    rw [List.append_assoc] at located
    have here : children[before.length]? = some child := by simp [split]
    refine ⟨before.length, p, child, located, here, calls, ?_⟩
    cases runs : child.runsOut reply.successful mode p with
    | false =>
      rw [runs] at quits
      exact ⟨quits.cancelled, quits.closing, quits.ending, fun absurd => by cases absurd⟩
    | true =>
      rw [runs] at quits
      cases quits.ending

theorem visitFromVisits
    (visits : ∀ c ∈ children, ∀ mode path s levels target journal,
      s.Stands levels none target journal → Visits mode path c levels target journal
        (visit mode path c s))
    (split : children = before ++ rest) (along : Along levels journal target saved path before s) :
    Throughs mode path children levels target saved journal
      (visitFrom mode path info levels.length before.length rest s) := by
  -- By induction on the children ahead; `Along` says what is so of those behind.
  induction rest generalizing before s with
  | nil =>
    rw [visitFrom]
    rw [List.append_nil] at split
    exact alongAll (split ▸ along)
  | cons child rest ih =>
    obtain ⟨front, l, done, index, restores, stands⟩ := along
    have onward (s : Scene) (along : Along levels journal target saved path (before ++ [child]) s) :
        Throughs mode path children levels target saved journal
          (visitFrom mode path info levels.length (before.length + 1) rest s) := by
      have later := ih (by simp [split]) along
      rwa [List.length_append, List.length_singleton] at later
    cases active : s.isActive with
    | false =>
      rw [visitFromCancelled (standsLevel stands) (Nat.le_of_eq index) active]
      rw [split]
      exact .stopped (chaptersUp done .ahead) (by rw [stands.journal, List.append_nil])
        (standsIdle stands)
    | true =>
      have forward : s.run.slate.cursor.resuming = false := by
        rw [forwardCursor stands.forward]
        rfl
      have skips (chain : Chain) : Along levels journal target saved path (before ++ [child])
          ((s.tell .skipped (path ++ [before.length]) child.info).passOver levels.length
            chain) := by
        obtain ⟨heard, run, passed⟩ := passOverStands stands path before.length child.info chain
        rw [List.append_assoc] at passed
        exact ⟨_, { l with index := l.index + 1, chain }, chaptersUp done (.skipped .done),
          by simp [index], restores, passed⟩
      rw [visitFromNext (standsLevel stands) (Nat.le_of_eq index) active, forward]
      simp only [Bool.false_eq_true, if_false]
      cases l.chain.plan child.flowKind? with
      | skip => exact onward _ (skips l.chain)
      | orphan => exact onward _ (skips .idle)
      | evaluate =>
        have inside : child ∈ children := by simp [split]
        have visited := visits child inside mode (path ++ [before.length])
          (s.onRun fun r => r.setFlow info) (levels ++ [l]) target (journal ++ front)
          ⟨stands.forward, stands.target, stands.journal⟩
        exact goOnVisits split done index restores visited onward

variable {spec : FlowSpec} {opening : Journal} {inside : Option Json}

theorem unwindStalls {below : List Level} {held : AppletInfo} {wait : Wait} {aim : Option Json}
    (stalls : s.Stalls (levels ++ [l]) below held wait aim journal) :
    (s.unwind levels.length).Stalls levels (l :: below) held wait aim journal := by
  refine ⟨?_, stalls.target, stalls.journal⟩
  change { s.footing with cursor := s.footing.cursor.unwind levels.length } = _
  rw [stalls.footing, Cursor.unwindHeld]
  rfl

theorem closeVisits {c : Dialogue Outcome} (opens : Opens target path info spec opening inside)
    (through : Throughs (spec.kind.mode mode) path children levels inside
      (spec.selector.map fun _ => target) (journal ++ opening) c) :
    Visits mode path (.flow info spec children) levels target journal
      (c.bind (closeFlow path info spec levels.length)) := by
  refine Dialogue.honoursBind through (fun s outcome ends => ?_) (fun s e ends => ?_)
    (fun reply t u outcome quits ends => ?_) fun reply t u e quits => ?_
  · cases ends with
    | completed chapters restores stands =>
      obtain ⟨made, left⟩ := leaveFlowStands stands opens restores
      obtain ⟨heard, run, ended, -, finished⟩ :=
        finishStands left path info (s.leaveFlow spec levels.length).1
      rw [closeFlowCompleted]
      rw [made] at ended finished ⊢
      rw [List.append_assoc, List.append_assoc, ← List.append_assoc opening] at finished
      exact .completed (.flow opens chapters ended) finished
    | suspended split done index restores pending stalls =>
      rw [List.append_assoc] at stalls
      subst split
      rw [closeFlowSuspended]
      exact .suspended (.flow opens done index restores pending) (unwindStalls stalls)
  · cases ends with
    | stopped chapters writes idle =>
      rw [List.append_assoc] at writes
      exact .stopped (.flowOpen opens chapters) writes idle
  · obtain ⟨k, p, child, located, here, calls, quits⟩ := quits
    cases ends with
    | suspended split done index restores pending stalls =>
      -- Cancelled, a walk completes or breaks off, and is not suspended.
      have ending := quits.ending
      split at ending <;> cases ending
    | completed chapters restores stands =>
      obtain ⟨made, left⟩ := leaveFlowStands stands opens restores
      obtain ⟨heard, run, -, -, finished⟩ :=
        finishStands left path info (s := (u.leaveFlow spec levels.length).2)
          (u.leaveFlow spec levels.length).1
      obtain ⟨tail, writes, closing⟩ := quits.closing
      refine ⟨_, _, closeFlowCompleted, k :: p, located, Applet.callsBelow here calls, ?_⟩
      rw [Applet.runsOutBelow here]
      refine ⟨?_, ?_, quits.ending, fun out => ?_⟩
      · rw [← quits.cancelled]
        exact frameAlike ((Scene.finishFrame _ path info _).trans
          (Scene.leaveFlowFrame u spec levels.length))
      · refine ⟨tail ++ [.notice heard .terminated path info run], ?_, ?_⟩
        · rw [finished.journal, ← stands.journal, writes, List.append_assoc]
          rfl
        · exact List.forall_mem_append.mpr ⟨closing, by simp [Entry.closing]⟩
      · have success := quits.success out
        rw [standsLevel stands] at success
        rw [forwardResult finished.forward, made]
        exact congrArg some (resultSuccess success)
  · obtain ⟨k, p, child, located, here, calls, quits⟩ := quits
    refine ⟨k :: p, located, Applet.callsBelow here calls, ?_⟩
    rw [Applet.runsOutBelow here]
    refine ⟨quits.cancelled, quits.closing, quits.ending, fun out => ?_⟩
    have ending := quits.ending
    rw [out] at ending
    cases ending

theorem flowVisits
    (visits : ∀ c ∈ children, ∀ mode path s levels target journal,
      s.Stands levels none target journal → Visits mode path c levels target journal
        (visit mode path c s))
    (stands : s.Stands levels none target journal) :
    Visits mode path (.flow info spec children) levels target journal
      (visit mode path (.flow info spec children) s) := by
  obtain ⟨heard, run, started, leaf, told⟩ := startStands stands path info
  obtain ⟨entered, stood⟩ := enterFlowStands told
  rw [visitFlowFirst entered]
  rcases chooseStands stood started leaf.batch spec with
    ⟨opening, inside, opens, available, chosen⟩ | ⟨select, selector, missing, unavailable⟩
  · generalize (s.start path info).enterFlow.2.choose path spec levels.length = found
      at available chosen
    obtain ⟨_, t⟩ := found
    obtain rfl := available
    have along : Along levels (journal ++ opening) inside (spec.selector.map fun _ => target) path
        [] t := by
      rw [← List.append_nil (journal ++ opening)] at chosen
      exact ⟨[], _, .done, rfl, rfl, chosen⟩
    exact closeVisits opens (visitFromVisits visits rfl along)
  · rw [unavailable]
    obtain ⟨part, left, skips⟩ := abandonFlowStands stood path children
    obtain ⟨heard', run', ended, -, finished⟩ := finishStands left path info (.empty false)
    rw [List.append_assoc, List.append_assoc] at finished
    exact .completed (.unavailable started selector missing skips ended) finished

theorem flowVisitsAgain {below : List Level} {held : AppletInfo} {wait : Wait} {aim : Option Json}
    {part : Journal}
    (visits : ∀ c ∈ children, ∀ mode path s levels target journal,
      s.Stands levels none target journal → Visits mode path c levels target journal
        (visit mode path c s))
    (split : children = before ++ child :: rest)
    (visitsAgain : ∀ mode s levels journal,
      s.Returns levels below held wait aim (journal ++ part) →
        Visits mode (path ++ [before.length]) child levels inside journal
          (visit mode (path ++ [before.length]) child s))
    (opens : Opens target path info spec opening inside)
    (done : Chapters inside path none 0 before front (some l.last))
    (index : l.index = before.length) (restores : l.saved = spec.selector.map fun _ => target)
    (returns : s.Returns levels (l :: below) held wait aim
      (journal ++ (opening ++ (front ++ part)))) :
    Visits mode path (.flow info spec children) levels target journal
      (visit mode path (.flow info spec children) s) := by
  have cursor : s.run.slate.cursor = .standing levels (l :: below) true :=
    congrArg Footing.cursor returns.footing
  -- On the way back the flow is not started anew but finds its level, which says what is behind it.
  have back : s.start path info = s := by
    rw [start, if_pos]
    exact congrArg Cursor.resuming cursor
  have entered : s.enterFlow.1 = (levels.length, true) := by
    simp only [enterFlow, cursor, Cursor.reentersBack]
    rfl
  have stood : s.enterFlow.2.footing = { s.footing with cursor := s.footing.cursor.enter } := rfl
  rw [returns.footing] at stood
  simp only [Cursor.enterBack] at stood
  have stands : s.enterFlow.2.run.slate.cursor = .standing (levels ++ [l]) below true :=
    congrArg Footing.cursor stood
  have found : s.enterFlow.2.run.slate.cursor.levels[levels.length]? = some l := by
    rw [stands]
    simp [Cursor.standing]
  have active : s.enterFlow.2.isActive = true := returns.active
  have resuming : s.enterFlow.2.run.slate.cursor.resuming = true := by rw [stands]; rfl
  have inner : (s.enterFlow.2.onRun fun r => r.setFlow info).Returns (levels ++ [l]) below held wait
      aim (journal ++ opening ++ front ++ part) := by
    refine ⟨stood, returns.target, ?_, returns.active, returns.accepts⟩
    rw [List.append_assoc, List.append_assoc]
    exact returns.journal
  rw [← back] at entered
  rw [visitFlowAgain entered, back]
  refine closeVisits opens ?_
  rw [split, visitFromReached before found (by omega), Nat.zero_add,
    visitFromNext found (Nat.le_of_eq index) active, resuming, ← split]
  refine goOnVisits split done index restores (visitsAgain _ _ _ _ inner) fun t along => ?_
  have behind : before.length + 1 = (before ++ [child]).length := by simp
  rw [behind]
  exact visitFromVisits visits (by simp [split]) along

end

structure Sound (a : Applet) : Prop where
  forward : ∀ mode path s levels target journal, s.Stands levels none target journal →
    Visits mode path a levels target journal (visit mode path a s)
  again : ∀ mode path s levels target journal part below aim held wait,
    Pending target path a part below aim held wait →
      s.Returns levels below held wait aim (journal ++ part) →
        Visits mode path a levels target journal (visit mode path a s)

theorem visitSound (a : Applet) : Sound a := by
  induction a using Applet.byChildren with
  | criterion info check =>
    refine ⟨fun mode path s levels target journal stands => criterionVisits stands check, ?_⟩
    intro mode path s levels target journal part below aim held wait pending
    cases pending
  | action info action =>
    refine ⟨fun mode path s levels target journal stands => actionVisits stands action, ?_⟩
    intro mode path s levels target journal part below aim held wait pending
    cases pending
  | wait info wait =>
    refine ⟨fun mode path s levels target journal stands => waitVisits stands wait, ?_⟩
    intro mode path s levels target journal part below aim held wait pending returns
    cases pending with
    | wait started =>
      have back : s.start path info = s := by
        rw [start, if_pos]
        exact congrArg (fun f => f.cursor.resuming) returns.footing
      obtain ⟨event, found⟩ := Option.isSome_iff_exists.mp returns.accepts
      have stood : (s.reachLeaf info).footing = ⟨.standing levels [] false, none,
          some (.wait info wait), false, s.occasion.batch, s.occasion.task⟩ := by
        change { s.footing with cursor := s.footing.cursor.endResume } = _
        rw [returns.footing]
        rfl
      exact releasedVisits (congrArg (reachLeaf · info) back) started stood returns.target
        returns.journal found
  | flow info spec children ih =>
    have visits (c : Applet) (inside : c ∈ children) := (ih c inside).forward
    refine ⟨fun mode path s levels target journal stands => flowVisits visits stands, ?_⟩
    intro mode path s levels target journal part below aim held wait pending returns
    cases pending with
    | flow opens done index saved inner =>
      have inside := ih _ (List.mem_append_right _ List.mem_cons_self)
      refine flowVisitsAgain visits rfl (fun mode s levels journal returns => ?_) opens done
        index saved returns
      exact inside.again _ _ _ _ _ _ _ _ _ _ _ inner returns

end Tour
end Automation
