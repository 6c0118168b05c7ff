import Automation.Proofs.Tale
import Automation.Proofs.Lone
/-! What runs tell their observers. Whatever a run tells, over all its suspensions, is a tale of its
tree: each flow keeps the chain among its children, and hands up the result of the last one. -/
namespace Automation

namespace Scene

def told (s : Scene) : List Told := s.journal.told

theorem noteTold (s : Scene) (entry : Entry) :
    (s.note entry).told = s.told ++ entry.told?.toList := by
  unfold told note Journal.told
  cases told : entry.told? <;> simp [told]

theorem startTold {s : Scene} {levels result} (forward : s.Forward levels result) (path : List Nat)
    (info : AppletInfo) : (s.start path info).told = s.told ++ [.started path] := by
  unfold start
  rw [forwardCursor forward]
  exact noteTold _ _

theorem finishTold (s : Scene) (path : List Nat) (info : AppletInfo) (result : AppletResult) :
    (s.finish path info result).told = s.told ++ [.ended path result] := by
  unfold finish Run.register
  cases result.published? <;> exact noteTold _ _

theorem skipFromTold (s : Scene) (path : List Nat) (i : Nat) (children : List Applet) :
    (s.skipFrom path i children).told = s.told ++ skips path i children := by
  induction children generalizing s i with
  | nil => simp [skipFrom, skips]
  | cons child rest ih =>
    have first : (s.tell .skipped (path ++ [i]) child.info).told =
        s.told ++ [.skipped (path ++ [i])] := noteTold s _
    simp [skipFrom, skips, ih, first]

theorem tryWaitTold (s : Scene) (path : List Nat) (info : AppletInfo) (wait : Wait) :
    (s.tryWait path info wait).2.told = s.told := by
  unfold tryWait
  split
  · exact (noteTold _ _).trans (List.append_nil _)
  · rfl

theorem chooseTold (s : Scene) (path : List Nat) (spec : FlowSpec) (level : Nat) :
    (s.choose path spec level).2.told = s.told := by
  unfold choose
  split
  · rfl
  · split
    · rfl
    · exact (noteTold _ _).trans (List.append_nil _)

theorem leaveFlowTold (s : Scene) (spec : FlowSpec) (level : Nat) :
    (s.leaveFlow spec level).2.told = s.told := by
  unfold leaveFlow
  dsimp only
  split
  · rfl
  · split
    · split <;> rfl
    · rfl

end Scene

namespace Walk
variable {α β : Type}

def Quiet (w : Walk α) : Prop := ∀ s, (w s).alone.1.told = s.told

theorem quietThen {w : Walk α} {f : α → Walk β} (first : w.Quiet) (second : ∀ a, (f a).Quiet) :
    (w >>= f).Quiet := by
  intro s
  have before := first s
  rw [aloneThen]
  rcases came : (w s).alone with ⟨t, _ | (_ | a)⟩ <;> rw [came] at before
  · exact before
  · exact before
  · exact (second a t).trans before

theorem performQuiet (script : Script α) : (perform script).Quiet := by
  intro s
  induction script generalizing s with
  | done a => rfl
  | panic => rfl
  | yield next ih => exact ih s
  | pend => rfl
  | cancel handle next ih => exact ih { s with world := s.world.cancel handle }
  | haltAll next ih => exact ih 0 s
  | global key type init next ih => exact ih _ { s with world := _ }
  | argument id type init next ih => exact ih _ { s with occasion := _ }
  | pattern id text next ih => exact ih _ { s with occasion := _ }

theorem actQuiet {f : Scene → α × Scene} (quiet : ∀ s, (f s).2.told = s.told) : (act f).Quiet :=
  quiet

theorem judgeQuiet (path : List Nat) (info : AppletInfo) (check : Check) :
    (judge path info check).Quiet := by
  refine quietThen (fun _ => rfl) fun expected => ?_
  cases expected with
  | none => exact fun _ => rfl
  | some expected =>
    refine quietThen (actQuiet fun s => ?_) fun input =>
      quietThen (performQuiet _) fun outcome => actQuiet fun s => ?_
    · unfold Scene.beginCheck
      exact (Scene.noteTold _ _).trans (List.append_nil _)
    · have noted := (Scene.noteTold s (.checked path outcome)).trans (List.append_nil _)
      cases outcome with
      | ok c =>
        simp only [Scene.endCheck]
        split <;> exact noted
      | error cause => exact noted

theorem carryOutQuiet (path : List Nat) (info : AppletInfo) (action : Action) :
    (carryOut path info action).Quiet := by
  refine quietThen (actQuiet fun s => ?_) fun input =>
    quietThen (performQuiet _) fun outcome => actQuiet fun s => ?_
  · unfold Scene.beginAction
    exact (Scene.noteTold _ _).trans (List.append_nil _)
  · have noted := (Scene.noteTold s (.performed path outcome)).trans (List.append_nil _)
    cases outcome <;> exact noted

end Walk

def Adds (before : List Told) (mode : Mode) (path : List Nat) (a : Applet) (ts : List Told)
    (r : Option AppletResult) : Prop := ∃ more, ts = before ++ more ∧ Tale mode path a more r

namespace Scene

/- A walk has ended below `levels`, and handing the batches in turn to `again` whenever it is
suspended, what it has told in the end is so, be it at an end or not. -/
inductive Tells (again : Scene → Ending) (levels : List Level)
    (P : List Told → Option AppletResult → Prop) : List Batch → Ending → Prop where
  | completed {s r ahead} (forward : s.Forward levels (some r)) (told : P s.told (some r)) :
      Tells again levels P ahead (s, some (.ok .completed))
  | stopped {s stop ahead below} (forward : s.Forward below none) (told : P s.told none) :
      Tells again levels P ahead (s, some (.error stop))
  | stuck {s ahead} (told : P s.told none) : Tells again levels P ahead (s, none)
  | outOfBatches {s info wait} (held : s.Held levels info wait) (told : P s.told none) :
      Tells again levels P [] (s, some (.ok .suspended))
  | refused {s info wait batch rest} (held : s.Held levels info wait)
      (refuse : wait.find? batch.events = none)
      (later : Tells again levels P rest (s, some (.ok .suspended))) :
      Tells again levels P (batch :: rest) (s, some (.ok .suspended))
  | resumed {s info wait batch event rest} (held : s.Held levels info wait)
      (accept : wait.find? batch.events = some event)
      (later : ∀ t, s.Resumes t batch → t.told = s.told → Tells again levels P rest (again t)) :
      Tells again levels P (batch :: rest) (s, some (.ok .suspended))

def Recounts (mode : Mode) (path : List Nat) (a : Applet) : Prop :=
  ∀ (s : Scene) (levels : List Level) (ahead : List Batch),
    s.Forward levels none → s.isActive = true → (a.flowKind? = none → levels ≠ []) →
    Tells (fun t => (Walk.visit mode path a t).alone) levels (Adds s.told mode path a) ahead
      (Walk.visit mode path a s).alone

section
variable {mode : Mode} {path : List Nat} {a : Applet} {again : Scene → Ending}
  {levels : List Level} {before : List Told} {s : Scene}

theorem leafTells (forward : s.Forward levels none) (told : s.told = before ++ [.started path])
    (leaf : a.flowKind? = none) (ahead : List Batch) (info : AppletInfo) {w : Walk AppletResult}
    {m : Straight AppletResult} (obeys : w.Obeys m) (quiet : w.Quiet) :
    Tells again levels (Adds before mode path a) ahead
      ((w >>= fun r => do
        Walk.change fun s => s.finish path info r
        return Outcome.completed) s).alone := by
  have h := obeys s ahead
  have still := quiet s
  have begun : Adds before mode path a s.told none := ⟨[.started path], told, .leafOpen leaf⟩
  rw [Walk.aloneThen]
  generalize (w s).alone = out, m (s.passage ahead) = ref at h still
  cases h with
  | @ended t r stays =>
    have ended : (t.finish path info r).told = before ++ [.started path, .ended path r] := by
      have unchanged : t.told = s.told := still
      rw [finishTold, unchanged, told, List.append_assoc]
      rfl
    exact .completed (finishForward (forwardStays forward stays) path info r)
      ⟨_, ended, .leaf leaf r⟩
  | panicked stays =>
    rw [← still] at begun
    exact .stopped (forwardStays forward stays) begun
  | stuck stays =>
    rw [← still] at begun
    exact .stuck begun

theorem criterionRecounts (mode : Mode) (path : List Nat) (info : AppletInfo) (check : Check) :
    Recounts mode path (.criterion info check) := by
  intro s levels ahead forward active within
  have started := (startForward forward path info).1
  generalize (fun t => (Walk.visit mode path (.criterion info check) t).alone) = again
  rw [Walk.visit, Walk.aloneThen, Walk.aloneChange]
  exact leafTells (reachLeafForward started info) (startTold forward path info) rfl ahead info
    (Walk.judgeObeys path info check) (Walk.judgeQuiet path info check)

theorem actionRecounts (mode : Mode) (path : List Nat) (info : AppletInfo) (action : Action) :
    Recounts mode path (.action info action) := by
  intro s levels ahead forward active within
  have started := (startForward forward path info).1
  generalize (fun t => (Walk.visit mode path (.action info action) t).alone) = again
  rw [Walk.visit, Walk.aloneThen, Walk.aloneChange]
  exact leafTells (reachLeafForward started info) (startTold forward path info) rfl ahead info
    (Walk.carryOutObeys path info action) (Walk.carryOutQuiet path info action)

theorem releasedTells {info : AppletInfo} {wait : Wait} {u : Scene} {event : Event}
    {waiting suspending} (reached : (s.start path info).reachLeaf info = u)
    (footing : u.footing = ⟨.standing levels [] false, none, waiting, suspending,
      u.occasion.batch, u.occasion.task⟩)
    (found : wait.find? u.occasion.batch.events = some event)
    (told : u.told = before ++ [.started path]) (ahead : List Batch) :
    Tells again levels (Adds before mode path (.wait info wait)) ahead
      (Walk.visit mode path (.wait info wait) s).alone := by
  subst reached
  have batch : ((s.start path info).reachLeaf info).run.batch =
      ((s.start path info).reachLeaf info).occasion.batch := congrArg Footing.batch footing
  rw [← batch] at found
  obtain ⟨made, stood, -⟩ := tryWaitReleased found path info
  have forward : (((s.start path info).reachLeaf info).tryWait path info wait).2.Forward levels
      none := by
    rw [Forward, stood, footing, tryWaitOccasion]
  rw [Walk.visitWaitReleased made]
  refine .completed (finishForward forward path info _) ⟨_, ?_, .leaf rfl (.passing event.passed)⟩
  rw [finishTold, tryWaitTold, told, List.append_assoc]
  rfl

theorem heldTells {info : AppletInfo} {wait : Wait}
    (footing : s.footing = ⟨.standing levels [] false, none, some (.wait info wait), true,
      s.occasion.batch, s.occasion.task⟩) (active : s.isActive = true) (within : levels ≠ [])
    (told : s.told = before ++ [.started path]) (ahead : List Batch) :
    Tells (fun t => (Walk.visit mode path (.wait info wait) t).alone) levels
      (Adds before mode path (.wait info wait)) ahead (s, some (.ok .suspended)) := by
  have held : s.Held levels info wait := ⟨⟨[], footing⟩, active⟩
  induction ahead with
  | nil => exact .outOfBatches held ⟨_, told, .leafOpen rfl⟩
  | cons batch rest ih =>
    cases found : wait.find? batch.events with
    | none => exact .refused held found ih
    | some event =>
      refine .resumed held found fun t resumes still => ?_
      obtain ⟨back, stood, found'⟩ := resumedWait footing within resumes found
      exact releasedTells (congrArg (reachLeaf · info) back) stood found' (still.trans told) rest

theorem waitRecounts (mode : Mode) (path : List Nat) (info : AppletInfo) (wait : Wait) :
    Recounts mode path (.wait info wait) := by
  intro s levels ahead forward active within
  have started := (startForward forward path info).1
  have reached := reachLeafForward started info
  have told : ((s.start path info).reachLeaf info).told = s.told ++ [.started path] :=
    startTold forward path info
  cases found : wait.find? ((s.start path info).reachLeaf info).occasion.batch.events with
  | some event => exact releasedTells rfl reached found told ahead
  | none =>
    have refused := found
    rw [← forwardBatch reached] at refused
    obtain ⟨made, stood, same⟩ := tryWaitRefused refused path info
    rw [Walk.visitWaitRefused made]
    refine heldTells ?_ ?_ (within rfl) ?_ ahead
    · rw [stood, reached, tryWaitOccasion]
    · exact (congrArg Passage.isActive ((same []).trans
        ((startForward forward path info).2 []))).trans active
    · rw [tryWaitTold, told]

end

section
variable {mode : Mode} {path : List Nat} {info : AppletInfo} {spec : FlowSpec}
  {before rest : List Applet} {child : Applet} {levels : List Level} {again : Scene → Ending}
  {P Q : List Told → Option AppletResult → Prop}

theorem childTells {ahead : List Batch} {out : Ending} {l : Level}
    (tells : Tells
      (fun t => (Walk.visit (spec.kind.mode mode) (path ++ [before.length]) child t).alone)
      (levels ++ [l]) P ahead out)
    (reached : l.index = before.length) (part : ∀ ts, P ts none → Q ts none)
    (onward : ∀ (s : Scene) (r : AppletResult) (ahead : List Batch),
      s.Forward (levels ++ [l]) (some r) → P s.told (some r) →
      Tells (fun t => (Walk.visit mode path (.flow info spec (before ++ child :: rest)) t).alone)
        levels Q ahead
        (Walk.next (fun o =>
            Walk.goOn (spec.kind.mode mode) path info levels.length before.length child rest o >>=
              Walk.closeFlow path info spec levels.length)
          (s, some (.ok .completed)))) :
    Tells (fun t => (Walk.visit mode path (.flow info spec (before ++ child :: rest)) t).alone)
      levels Q ahead
      (Walk.next (fun o =>
          Walk.goOn (spec.kind.mode mode) path info levels.length before.length child rest o >>=
            Walk.closeFlow path info spec levels.length) out) := by
  induction tells with
  | completed forward told => exact onward _ _ _ forward told
  | stopped forward told => exact .stopped forward (part _ told)
  | stuck told => exact .stuck (part _ told)
  | outOfBatches held told => exact .outOfBatches (unwindHeld held) (part _ told)
  | refused held refuse later ih => exact .refused (unwindHeld held) refuse ih
  | @resumed s info' wait batch event rest held accept later ih =>
    refine .resumed (unwindHeld held) accept fun t resumes still => ?_
    obtain ⟨⟨below, cursor⟩, back⟩ := enterResumes held resumes info
    have active : t.isActive = true :=
      (congrArg Passage.isActive (resumes.passage [])).trans held.active
    rw [visitFlowBack cursor active reached]
    exact ih _ back still

theorem leaveFlowFailed {s : Scene} {l : Level} {f : AppletResult}
    (forward : s.Forward (levels ++ [l]) none) (spec : FlowSpec) (last : l.last = some f)
    (failed : f.isSuccessful = false) : (s.leaveFlow spec levels.length).1 = f := by
  have none : l.last.all AppletResult.isSuccessful = false := by rw [last, Option.all_some, failed]
  have exited := (exitFlowForward forward).1
  unfold leaveFlow
  simp only [exited, none]
  split
  · simp [last]
  · split <;> simp [last]

theorem closeTells {s : Scene} {l : Level} (forward : s.Forward (levels ++ [l]) none)
    (bare : spec.selector = none → l.saved = none) (ahead : List Batch)
    (told : ∀ r, spec.Hands l.last r →
      P (s.told ++ [.ended path r]) (some r)) :
    Tells again levels P ahead
      (Walk.closeFlow path info spec levels.length .completed s).alone := by
  obtain ⟨left, shown⟩ := leaveFlowForward forward spec
  have handed (absent : spec.selector = none) :
      (s.leaveFlow spec levels.length).1 = l.last.getD (.empty true) := by
    have came := shown []
    rw [bare absent] at came
    exact (Except.ok.inj (congrArg Prod.fst came)).symm
  refine .completed (finishForward left path info _) ?_
  rw [finishTold, leaveFlowTold]
  exact told _ ⟨handed, fun f => leaveFlowFailed forward spec⟩

theorem goOnTells {s : Scene} {l : Level} {r : AppletResult} {saved : Option (Option Json)}
    (forward : s.Forward (levels ++ [l]) (some r)) (reached : l.index = before.length)
    (same : l.saved = saved) (bare : spec.selector = none → saved = none) (ahead : List Batch)
    (stop : mode.cuts child r = true → ∀ r', spec.Hands (some r) r' →
      P (s.told ++ skips path (before.length + 1) rest ++ [.ended path r']) (some r'))
    (onward : mode.cuts child r = false → ∀ t : Scene, t.told = s.told →
      t.Forward (levels ++
        [⟨before.length + 1, .after child.flowKind? r.isSuccessful, some r, saved⟩]) none →
      Tells again levels P ahead
        (Walk.next (Walk.closeFlow path info spec levels.length)
          (Walk.visitFrom mode path info levels.length (before.length + 1) rest t).alone)) :
    Tells again levels P ahead
      (Walk.next (Walk.closeFlow path info spec levels.length)
        (Walk.goOn mode path info levels.length before.length child rest .completed s).alone) := by
  have found : s.run.slate.cursor.levels[levels.length]? = some l := by
    rw [forwardCursor forward]
    simp [Cursor.standing]
  obtain ⟨success, moved⟩ := passOnForward forward child.flowKind?
  rw [reached, same] at moved
  rw [Walk.goOn, Walk.aloneThen, Walk.aloneLevel levels.length s l found]
  simp only [Walk.aloneThen, Walk.aloneAct, success]
  cases cuts : mode.cuts child r with
  | false =>
    rw [Mode.cuts] at cuts
    simp only [cuts, Bool.false_eq_true, if_false]
    exact onward cuts _ rfl moved
  | true =>
    have all := stop cuts
    rw [Mode.cuts] at cuts
    simp only [cuts, if_true, Walk.aloneThen, Walk.aloneChange]
    refine closeTells (skipFromForward moved path _ rest) bare ahead fun r' handed => ?_
    rw [skipFromTold]
    exact all r' handed

/- What was told of the children of a flow before some place, such that a tale of those behind it
completes it. -/
def Fronts (mode : Mode) (path : List Nat) (children : List Applet) (front : List Told)
    (chain : Chain) (last : Option AppletResult) (i : Nat) (rest : List Applet) : Prop :=
  ∀ ts out, Tales mode path chain last i rest ts out →
    Tales mode path .idle none 0 children (front ++ ts) out

variable {children : List Applet} {first front more ts : List Told} {chain : Chain}
  {last : Option AppletResult} {i : Nat}

theorem addsPart (fronts : Fronts (spec.kind.mode mode) path children front chain last i rest)
    (tales : Tales (spec.kind.mode mode) path chain last i rest more none)
    (told : ts = first ++ .started path :: front ++ more) :
    Adds first mode path (.flow info spec children) ts none :=
  ⟨_, by simp [told], .flowOpen (fronts _ _ tales)⟩

theorem addsWhole {last' : Option AppletResult} {r : AppletResult}
    (fronts : Fronts (spec.kind.mode mode) path children front chain last i rest)
    (tales : Tales (spec.kind.mode mode) path chain last i rest more (some last'))
    (passed : spec.Hands last' r)
    (told : ts = first ++ .started path :: front ++ more ++ [.ended path r]) :
    Adds first mode path (.flow info spec children) ts (some r) :=
  ⟨_, by simp [told], .flow (fronts _ _ tales) passed⟩

theorem visitFromTells (recounts : ∀ c ∈ rest, ∀ mode path, Recounts mode path c)
    {s : Scene} {saved : Option (Option Json)}
    (forward : s.Forward (levels ++ [⟨before.length, chain, last, saved⟩]) none)
    (bare : spec.selector = none → saved = none) (told : s.told = first ++ .started path :: front)
    (fronts : Fronts (spec.kind.mode mode) path (before ++ rest) front chain last before.length
      rest)
    (ahead : List Batch) :
    Tells (fun t => (Walk.visit mode path (.flow info spec (before ++ rest)) t).alone) levels
      (Adds first mode path (.flow info spec (before ++ rest))) ahead
      (Walk.next (Walk.closeFlow path info spec levels.length)
        (Walk.visitFrom (spec.kind.mode mode) path info levels.length before.length rest
          s).alone) := by
  -- By induction on the children ahead. What was told of those behind is `front`, to be completed
  -- by any tale of the rest, so the statement stays one about the whole flow.
  induction rest generalizing before s chain last ahead front with
  | nil =>
    refine closeTells forward bare ahead fun r handed => ?_
    exact addsWhole fronts .done handed (by simp [told])
  | cons child rest ih =>
    have found : s.run.slate.cursor.levels[levels.length]? =
        some ⟨before.length, chain, last, saved⟩ := by
      rw [forwardCursor forward]
      simp [Cursor.standing]
    have resting : s.run.slate.cursor.resuming = false := by
      rw [forwardCursor forward]
      rfl
    have shift : before ++ child :: rest = (before ++ [child]) ++ rest := by simp
    have length : (before ++ [child]).length = before.length + 1 := by simp
    have later : ∀ c ∈ rest, ∀ mode path, Recounts mode path c :=
      fun c inside => recounts c (List.mem_cons_of_mem child inside)
    have onward (t : Scene) (chain : Chain) (last : Option AppletResult) (front : List Told)
        (ahead : List Batch)
        (moved : t.Forward (levels ++ [⟨before.length + 1, chain, last, saved⟩]) none)
        (told : t.told = first ++ .started path :: front)
        (fronts : Fronts (spec.kind.mode mode) path (before ++ child :: rest) front chain last
          (before.length + 1) rest) :=
      have moved' : t.Forward (levels ++ [⟨(before ++ [child]).length, chain, last, saved⟩]) none :=
        by rwa [length]
      ih later moved' told (by rwa [← shift, length]) ahead
    simp only [← shift, length] at onward
    cases active : s.isActive with
    | false =>
      rw [Walk.visitFromCancelled found (Nat.le_refl _) active]
      exact .stopped forward (addsPart fronts .ahead (by simp [told]))
    | true =>
      cases plan : chain.plan child.flowKind? with
      | skip =>
        rw [Walk.visitFromSkip found (Nat.le_refl _) active resting plan]
        refine onward _ _ _ (front ++ [.skipped (path ++ [before.length])]) ahead
          (passOverForward (s := s.tell .skipped _ _) forward chain) ?_ fun ts out tales => ?_
        · exact (noteTold s _).trans (by simp [told, Entry.told?])
        · simpa using fronts _ _ (.skip plan tales)
      | orphan =>
        rw [Walk.visitFromOrphan found (Nat.le_refl _) active resting plan]
        refine onward _ _ _ (front ++ [.skipped (path ++ [before.length])]) ahead
          (passOverForward (s := s.tell .skipped _ _) forward .idle) ?_ fun ts out tales => ?_
        · exact (noteTold s _).trans (by simp [told, Entry.told?])
        · simpa using fronts _ _ (.orphan plan tales)
      | evaluate =>
        have evaluate : (if s.run.slate.cursor.resuming then Plan.evaluate
            else chain.plan child.flowKind?) = .evaluate := by simp [plan]
        rw [Walk.visitFromEvaluate found (Nat.le_refl _) active evaluate, Walk.aloneNext,
          Walk.nextNext]
        refine childTells (recounts child List.mem_cons_self _ _ _ _ ahead
          (setFlowForward forward info) active (by simp)) rfl ?_ fun t r ahead' passed adds => ?_
        · rintro ts ⟨more, rfl, tale⟩
          exact addsPart fronts (.visiting plan tale) (by rw [← told]; rfl)
        · obtain ⟨more, told', tale⟩ := adds
          have told'' : t.told = first ++ .started path :: (front ++ more) := by
            rw [told', show (s.onRun fun r => r.setFlow info).told = s.told from rfl, told]
            simp
          rw [Walk.next, Walk.aloneNext]
          refine goOnTells passed rfl rfl bare ahead' (fun cuts r' handed => ?_)
            fun goes u still moved => ?_
          · exact addsWhole fronts (.cut plan tale cuts) handed (by simp [told''])
          · refine onward u _ _ (front ++ more) ahead' moved (still.trans told'') ?_
            intro ts out tales
            simpa using fronts _ _ (.visited plan tale goes tales)

theorem flowRecounts (mode : Mode) (path : List Nat) (info : AppletInfo) (spec : FlowSpec)
    (children : List Applet) (recounts : ∀ c ∈ children, ∀ mode path, Recounts mode path c) :
    Recounts mode path (.flow info spec children) := by
  intro s levels ahead forward active _
  have started := (startForward forward path info).1
  have told : (s.start path info).told = s.told ++ [.started path] := startTold forward path info
  obtain ⟨entered, opened⟩ := enterFlowForward started
  have entering : (s.start path info).enterFlow.2.told = s.told ++ [.started path] := told
  rw [Walk.visitFlowFirst entered]
  have still := chooseTold (s.start path info).enterFlow.2 path spec levels.length
  rcases chooseForward opened path spec with ⟨saved, available, chosen, same⟩ | ⟨unavailable, same⟩
  · simp only [available, if_true]
    rw [Walk.aloneNext]
    have placed : Forward _ (levels ++ [⟨([] : List Applet).length, .idle, none, saved⟩]) none :=
      chosen
    have bare (absent : spec.selector = none) : saved = none := by
      have came := same []
      simp only [Straight.choose, absent, Prod.mk.injEq, Except.ok.injEq, Option.some.injEq] at came
      exact came.1.symm
    exact visitFromTells recounts placed bare (still.trans entering)
      (fun ts out tales => tales) ahead
  · simp only [unavailable, Bool.false_eq_true, if_false]
    have selective : spec.selector ≠ none := by
      intro absent
      have came := same []
      simp [Straight.choose, absent] at came
    obtain ⟨left, -⟩ := abandonFlowForward opened path children
    refine .completed (finishForward left path info _) ⟨_, ?_, .unavailable selective⟩
    have skipped := skipFromTold (s.start path info).enterFlow.2 path 0 children
    rw [finishTold]
    change ((s.start path info).enterFlow.2.skipFrom path 0 children).told ++ _ = _
    simp [skipped, entering]

end

theorem visitRecounts (mode : Mode) (path : List Nat) (a : Applet) : Recounts mode path a := by
  induction a using Applet.byChildren generalizing mode path with
  | criterion info check => exact criterionRecounts mode path info check
  | action info action => exact actionRecounts mode path info action
  | wait info wait => exact waitRecounts mode path info wait
  | flow info spec children ih =>
    exact flowRecounts mode path info spec children fun c inside mode path => ih c inside mode path

end Scene

namespace Lone

theorem onwardTells {task : Task} {P : List Told → Option AppletResult → Prop} {out : Ending}
    {ahead : List Batch}
    (tells : Scene.Tells (fun t => (Walk.visit .aggregate [] task.tree t).alone) [] P ahead out)
    (same : out.1.run.task = task) :
    ∃ r, P (onward out ahead).1.journal.told r ∧
      (some (.ok .completed) ∈ (onward out ahead).2 → r.isSome) := by
  induction tells with
  | @completed s r ahead forward told =>
    have idle : (ofScene s).run.slate.waiting = none := congrArg Footing.waiting forward
    rw [onward, triggerIdle idle]
    exact ⟨_, told, fun _ => rfl⟩
  | @stopped s stop ahead below forward told =>
    have idle : (ofScene s).run.slate.waiting = none := congrArg Footing.waiting forward
    rw [onward, triggerIdle idle]
    exact ⟨_, told, by simp⟩
  | stuck told => exact ⟨_, told, by simp [onward]⟩
  | outOfBatches held told => exact ⟨_, told, by simp [onward, triggerAll]⟩
  | @refused s info wait batch rest held refuse later ih =>
    obtain ⟨⟨below, footing⟩, active⟩ := held
    have waiting : (ofScene s).run.slate.waiting = some (.wait info wait) :=
      congrArg Footing.waiting footing
    rw [onward, triggerRefused waiting refuse]
    exact ih same
  | @resumed s info wait batch event rest held accept later ih =>
    have resumes := resumedResumes held batch
    obtain ⟨⟨below, footing⟩, active⟩ := held
    have waiting : (ofScene s).run.slate.waiting = some (.wait info wait) :=
      congrArg Footing.waiting footing
    have same' : (ofScene s).run.task = task := same
    rw [onward, triggerAccepted waiting accept active, same']
    obtain ⟨r, told, whole⟩ := ih _ resumes rfl (visitTask task _ _ _ _ same')
    exact ⟨r, told, fun completed => whole (by simpa using completed)⟩

/- What a run tells, over all its batches, is a tale of its tree, which has come to its end if the
run has completed. -/
theorem driveTold {world : World} (clean : world.slates.Clean) (task : Task) (handle : Handle)
    (observer : Option Observer) (first : Batch) (later : List Batch) :
    let out := drive (obtain world task handle observer first) first later
    ∃ r, Tale .aggregate [] task.tree out.1.journal.told r ∧
      (some (.ok .completed) ∈ out.2 → r.isSome) := by
  have forward := (obtainForward clean task handle observer first later).1
  generalize start : (obtain world task handle observer first).scene first = s at forward
  have same : s.run.task = task := by
    rw [← start]
    rfl
  have fresh : s.told = [] := by
    rw [← start]
    rfl
  rw [drive, start]
  cases live : s.isActive with
  | false =>
    rw [Walk.runInactive live]
    have idle : (ofScene s).run.slate.waiting = none := congrArg Footing.waiting forward
    refine ⟨none, ?_, ?_⟩
    · rw [Process.alone, onward, triggerIdle idle]
      change Tale _ _ _ s.told none
      rw [fresh]
      exact .ahead
    · rw [Process.alone, onward, triggerIdle idle]
      simp
  | true =>
    have nested : task.tree.flowKind? = none → ([] : List Level) ≠ [] := by simp [task.rooted]
    rw [Walk.runActive live, same]
    have tells := Scene.visitRecounts .aggregate [] task.tree s [] later forward live nested
    obtain ⟨r, ⟨more, told, tale⟩, whole⟩ := onwardTells tells (visitTask task _ _ _ _ same)
    rw [fresh, List.nil_append] at told
    exact ⟨r, told ▸ tale, whole⟩

end Lone
end Automation
