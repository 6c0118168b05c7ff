import Automation.Proofs.Pendency
/-! The tracker's levels are where a walk looks for them. A strict tour asks for the level before
every step that works on one, and panics if it is not there. Wherever a walk begins, if only its
cursor is not beyond its levels, the strict tour calls the same executors, passes through the same
scenes and ends in the same way, so that no walk ever reaches for a level that is not there. -/
namespace Automation
open Scene

namespace Tour

def onLevel {α : Type} (depth : Nat) (w : Tour α) : Tour α := do
  let _ ← level depth
  w

namespace Strict

def closeFlow (path : List Nat) (info : AppletInfo) (spec : FlowSpec) (depth : Nat) :
    Outcome → Tour Outcome
  | .suspended => Tour.closeFlow path info spec depth .suspended
  | .completed => onLevel depth (Tour.closeFlow path info spec depth .completed)

mutual
def visit (mode : Mode) (path : List Nat) : Applet → Tour Outcome
  | .criterion info check => Tour.visit mode path (.criterion info check)
  | .action info action => Tour.visit mode path (.action info action)
  | .wait info wait => Tour.visit mode path (.wait info wait)
  | .flow info spec children => do
    change fun s => s.start path info
    let entered ← act Scene.enterFlow
    match ← onLevel entered.1 (findTarget path spec entered) with
    | true =>
      let outcome ← visitFrom (spec.kind.mode mode) path info entered.1 0 children
      closeFlow path info spec entered.1 outcome
    | false =>
      onLevel entered.1 <| change fun s =>
        (s.abandonFlow path children entered.1).finish path info (.empty false)
      return .completed

def visitFrom (mode : Mode) (path : List Nat) (flow : AppletInfo) (depth i : Nat) :
    List Applet → Tour Outcome
  | [] => onLevel depth (return .completed)
  | child :: rest => do
    let here ← level depth
    if i < here.index then visitFrom mode path flow depth (i + 1) rest
    else
      ensureActive
      let resuming ← read fun s => s.run.slate.cursor.resuming
      match if resuming then Plan.evaluate else here.chain.plan child.flowKind? with
      | .skip =>
        change fun s => s.tell .skipped (path ++ [i]) child.info
        onLevel depth <| change fun s => s.passOver depth here.chain
        visitFrom mode path flow depth (i + 1) rest
      | .orphan =>
        change fun s => s.tell .skipped (path ++ [i]) child.info
        onLevel depth <| change fun s => s.passOver depth .idle
        visitFrom mode path flow depth (i + 1) rest
      | .evaluate =>
        change fun s => s.onRun fun r => r.setFlow flow
        match ← visit mode (path ++ [i]) child with
        | .suspended => return .suspended
        | .completed =>
          let successful ← onLevel depth <| act fun s => s.passOn depth child.flowKind?
          if mode == .guard && !successful && !child.flowKind?.any FlowKind.steersChain then
            change fun s => s.skipFrom path (i + 1) rest
            return .completed
          else visitFrom mode path flow depth (i + 1) rest
end

def goOn (mode : Mode) (path : List Nat) (flow : AppletInfo) (depth i : Nat) (child : Applet)
    (rest : List Applet) : Outcome → Tour Outcome
  | .suspended => return .suspended
  | .completed => do
    let successful ← onLevel depth <| act fun s => s.passOn depth child.flowKind?
    if mode == .guard && !successful && !child.flowKind?.any FlowKind.steersChain then
      change fun s => s.skipFrom path (i + 1) rest
      return .completed
    else visitFrom mode path flow depth (i + 1) rest

variable {mode : Mode} {path : List Nat} {info : AppletInfo} {spec : FlowSpec} {depth i : Nat}
  {child : Applet} {children rest : List Applet} {s t : Scene} {here : Level} {outcome : Outcome}

theorem onLevelFound {α : Type} {w : Tour α}
    (found : s.run.slate.cursor.levels[depth]? = some here) : onLevel depth w s = w s := by
  change (level depth s).bind _ = _
  rw [levelFound found]
  rfl

theorem closeFlowFound (found : s.run.slate.cursor.levels[depth]? = some here) :
    closeFlow path info spec depth outcome s = Tour.closeFlow path info spec depth outcome s := by
  cases outcome with
  | suspended => rfl
  | completed => exact onLevelFound found

theorem visitFromEnd (found : s.run.slate.cursor.levels[depth]? = some here) :
    visitFrom mode path info depth i [] s = .finished s (.ok .completed) := by
  rw [visitFrom]
  exact onLevelFound found

theorem visitFromPast (found : s.run.slate.cursor.levels[depth]? = some here)
    (past : i < here.index) :
    visitFrom mode path info depth i (child :: rest) s =
      visitFrom mode path info depth (i + 1) rest s := by
  rw [visitFrom]
  change (level depth s).bind _ = _
  rw [levelFound found]
  exact congrFun (if_pos past) s

theorem visitFromCancelled (found : s.run.slate.cursor.levels[depth]? = some here)
    (reached : here.index ≤ i) (cancelled : s.isActive = false) :
    visitFrom mode path info depth i (child :: rest) s = .finished s (.error .cancelled) := by
  rw [visitFrom]
  change (level depth s).bind _ = _
  rw [levelFound found]
  refine (congrFun (if_neg (Nat.not_lt.mpr reached)) s).trans ?_
  change (ensureActive s).bind _ = _
  simp [ensureActive, cancelled, Dialogue.bind]

theorem visitFromNext (found : s.run.slate.cursor.levels[depth]? = some here)
    (reached : here.index ≤ i) (active : s.isActive = true) :
    visitFrom mode path info depth i (child :: rest) s =
      match if s.run.slate.cursor.resuming then Plan.evaluate else here.chain.plan child.flowKind?
      with
      | .skip => visitFrom mode path info depth (i + 1) rest
        ((s.tell .skipped (path ++ [i]) child.info).passOver depth here.chain)
      | .orphan => visitFrom mode path info depth (i + 1) rest
        ((s.tell .skipped (path ++ [i]) child.info).passOver depth .idle)
      | .evaluate => (visit mode (path ++ [i]) child (s.onRun fun r => r.setFlow info)).bind
        (goOn mode path info depth i child rest) := by
  have told : (s.tell .skipped (path ++ [i]) child.info).run.slate.cursor.levels[depth]? =
    some here := found
  rw [visitFrom]
  change (level depth s).bind _ = _
  rw [levelFound found]
  refine (congrFun (if_neg (Nat.not_lt.mpr reached)) s).trans ?_
  change (ensureActive s).bind _ = _
  simp only [ensureActive, active, if_true]
  change (match if s.run.slate.cursor.resuming then Plan.evaluate
    else here.chain.plan child.flowKind? with
    | .skip => _ | .orphan => _ | .evaluate => _ : Tour Outcome) s = _
  cases (if s.run.slate.cursor.resuming then Plan.evaluate
    else here.chain.plan child.flowKind?) with
  | skip =>
    change (onLevel depth _ (s.tell .skipped (path ++ [i]) child.info)).bind _ = _
    rw [onLevelFound told]
    rfl
  | orphan =>
    change (onLevel depth _ (s.tell .skipped (path ++ [i]) child.info)).bind _ = _
    rw [onLevelFound told]
    rfl
  | evaluate =>
    change (visit mode (path ++ [i]) child (s.onRun fun r => r.setFlow info)).bind _ = _
    refine congrArg (Dialogue.bind _) (funext fun outcome => ?_)
    cases outcome <;> rfl

theorem goOnPassed (found : s.run.slate.cursor.levels[depth]? = some here) :
    goOn mode path info depth i child rest .completed s =
      if mode == .guard && !(s.passOn depth child.flowKind?).1 &&
          !child.flowKind?.any FlowKind.steersChain then
        .finished ((s.passOn depth child.flowKind?).2.skipFrom path (i + 1) rest) (.ok .completed)
      else visitFrom mode path info depth (i + 1) rest (s.passOn depth child.flowKind?).2 := by
  change (onLevel depth _ s).bind _ = _
  rw [onLevelFound found]
  change (if _ then _ else _ : Tour Outcome) (s.passOn depth child.flowKind?).2 = _
  split <;> rfl

theorem visitFlowAgain (entered : (s.start path info).enterFlow.1 = (depth, true))
    (found : (s.start path info).enterFlow.2.run.slate.cursor.levels[depth]? = some here) :
    visit mode path (.flow info spec children) s =
      (visitFrom (spec.kind.mode mode) path info depth 0 children
        (s.start path info).enterFlow.2).bind (closeFlow path info spec depth) := by
  rw [visit]
  change ((onLevel (s.start path info).enterFlow.1.1
    (findTarget path spec (s.start path info).enterFlow.1) >>= _ : Tour Outcome)
    (s.start path info).enterFlow.2) = _
  rw [entered]
  change (onLevel depth _ (s.start path info).enterFlow.2).bind _ = _
  rw [onLevelFound found]
  rfl

theorem visitFlowFirst (entered : (s.start path info).enterFlow.1 = (depth, false))
    (found : (s.start path info).enterFlow.2.run.slate.cursor.levels[depth]? = some here) :
    visit mode path (.flow info spec children) s =
      match (s.start path info).enterFlow.2.choose path spec depth with
      | (true, t) => (visitFrom (spec.kind.mode mode) path info depth 0 children t).bind
        (closeFlow path info spec depth)
      | (false, t) => (onLevel depth (change fun s =>
          (s.abandonFlow path children depth).finish path info (.empty false)) t).bind
        fun _ u => .finished u (.ok .completed) := by
  rw [visit]
  change ((onLevel (s.start path info).enterFlow.1.1
    (findTarget path spec (s.start path info).enterFlow.1) >>= _ : Tour Outcome)
    (s.start path info).enterFlow.2) = _
  rw [entered]
  change (onLevel depth _ (s.start path info).enterFlow.2).bind _ = _
  rw [onLevelFound found]
  change (Dialogue.finished _ _).bind _ = _
  dsimp only
  rcases (s.start path info).enterFlow.2.choose path spec depth with ⟨_ | _, t⟩ <;> rfl

end Strict
end Tour

namespace Process
variable {σ ρ τ : Type} {R : σ → σ → Prop}

theorem comesDuring {p : Process σ ρ} {f : ρ → σ → Process σ τ} {u : σ}
    (during : p.Comes R u none) : (p.bind f).Comes R u none := by
  generalize unended : (none : Option ρ) = r at during
  induction during with
  | done s a => cases unended
  | yields s next => exact .yields s _
  | yield between later ih => exact .yield between (ih unended)
  | pends s => exact .pends s
  | halts s next => exact .halts s _
  | halt n between later ih => exact .halt n between (ih unended)

end Process

namespace Dialogue
variable {α β : Type} {allowed : Demand → Prop} {ends : Scene → Except Stop α → Prop}

/- The dialogues call the same executors in the same scenes and end in the same way, as long as
others do no more in between than they may. -/
inductive Agrees : Dialogue α → Dialogue α → Prop where
  | finished (s r) : Agrees (.finished s r) (.finished s r)
  | call {s path info executor script next next'}
      (onward : ∀ answer t, s.Others t → Agrees (next answer t) (next' answer t)) :
      Agrees (.call s path info executor script next) (.call s path info executor script next')

theorem agreesSame (c : Dialogue α) : c.Agrees c := by
  induction c with
  | finished s r => exact .finished s r
  | call s path info executor script next ih => exact .call fun answer t _ => ih answer t

theorem agreesSymm {c d : Dialogue α} (agrees : c.Agrees d) : d.Agrees c := by
  induction agrees with
  | finished s r => exact .finished s r
  | call onward ih => exact .call ih

theorem agreesBind {c d : Dialogue α} {f g : α → Scene → Dialogue β} (sure : c.Sure allowed ends)
    (first : c.Agrees d) (second : ∀ a s, ends s (.ok a) → (f a s).Agrees (g a s)) :
    (c.bind f).Agrees (d.bind g) := by
  induction first with
  | finished s r =>
    cases r with
    | ok a => exact second a s sure
    | error e => exact .finished s _
  | call onward ih => exact .call fun answer t others => ih answer t others (sure.2 answer t others)

theorem agreesComes {c d : Dialogue α} (agrees : c.Agrees d) {u : Scene}
    {r : Option (Except Stop α)} (comes : c.process.Comes Others u r) :
    d.process.Comes Others u r := by
  induction agrees with
  | finished s r => exact comes
  | @call s path info executor script next next' onward ih =>
    rw [process] at comes ⊢
    rcases Process.comesBind comes with ⟨here, rfl⟩ | ⟨t, a, first, second⟩
    · exact Process.comesDuring here
    · refine Process.comesThen first ?_
      cases a with
      | ok answer => exact ih answer t (Walk.performOthers first) second
      | error e => exact second

end Dialogue

namespace Tour
variable {mode : Mode} {path : List Nat} {info : AppletInfo} {spec : FlowSpec}
  {children : List Applet} {s t : Scene} {outer below : List Level} {l : Level} {resuming : Bool}

abbrev Ranges (a : Applet) : Prop :=
  ∀ mode path s outer below resuming, s.run.slate.cursor = .standing outer below resuming →
    (visit mode path a s).Agrees (Strict.visit mode path a s)

theorem visitFromRanges (visits : ∀ c ∈ children, Ranges c) (before rest : List Applet)
    (parts : children = before ++ rest)
    (cursor : s.run.slate.cursor = .standing (outer ++ [l]) below resuming) :
    (visitFrom mode path info outer.length before.length rest s).Agrees
      (Strict.visitFrom mode path info outer.length before.length rest s) := by
  induction rest generalizing before s l below resuming with
  | nil =>
    rw [visitFrom, Strict.visitFromEnd (cursor ▸ Cursor.standingLevel)]
    exact .finished s _
  | cons child rest ih =>
    have found : s.run.slate.cursor.levels[outer.length]? = some l := by
      rw [cursor, Cursor.standingLevel]
    have next {t : Scene} {l' : Level} {below' : List Level} {resuming' : Bool}
        (cursor : t.run.slate.cursor = .standing (outer ++ [l']) below' resuming') :
        (visitFrom mode path info outer.length (before.length + 1) rest t).Agrees
          (Strict.visitFrom mode path info outer.length (before.length + 1) rest t) := by
      have later := ih (before ++ [child]) (by simp [parts]) cursor
      rwa [List.length_append, List.length_singleton] at later
    -- A walk on its way back passes the children behind it by without a look at the chain.
    by_cases past : before.length < l.index
    · rw [visitFromPast found past, Strict.visitFromPast found past]
      exact next cursor
    · have reached := Nat.le_of_not_lt past
      cases active : s.isActive with
      | false =>
        rw [visitFromCancelled found reached active, Strict.visitFromCancelled found reached active]
        exact .finished s _
      | true =>
        rw [visitFromNext found reached active, Strict.visitFromNext found reached active]
        have passed (chain : Chain) :=
          passOverPosture cursor (path ++ [before.length]) child.info chain
        cases (if s.run.slate.cursor.resuming then Plan.evaluate
          else l.chain.plan child.flowKind?) with
        | skip => exact next (congrArg Posture.cursor (passed l.chain))
        | orphan => exact next (congrArg Posture.cursor (passed .idle))
        | evaluate =>
          have inside : child ∈ children := by simp [parts]
          have stands : (s.onRun fun r => r.setFlow info).run.slate.cursor =
            .standing (outer ++ [l]) below resuming := cursor
          refine Dialogue.agreesBind
            (visitSettles child child.onlyAnything mode _ _ _ _ _ stands)
            (visits child inside mode _ _ _ _ _ stands) fun outcome t settled => ?_
          cases settled with
          | suspended cursor stops inside back => exact .finished t _
          | completed cursor passes leaf back meets =>
            have found : t.run.slate.cursor.levels[outer.length]? = some l := by
              rw [show t.run.slate.cursor = _ from cursor, Cursor.standingLevel]
            obtain ⟨chain, last, moved⟩ := passOnPosture cursor child.flowKind?
            rw [goOnPassed found, Strict.goOnPassed found]
            split
            · exact .finished _ _
            · exact next (congrArg Posture.cursor moved)

theorem childrenSettle (mode : Mode) (path : List Nat) (info : AppletInfo) (children : List Applet)
    (cursor : s.run.slate.cursor = .standing (outer ++ [l]) below resuming) :
    (visitFrom mode path info outer.length 0 children s).Sure (fun _ => True)
      (Goes children 0 outer l below resuming s.posture) :=
  visitFromSettles (fun c _ mode path s outer below resuming =>
    visitSettles c c.onlyAnything mode path s outer below resuming) [] children rfl s l below
      resuming cursor

theorem pursueRanges (visits : ∀ c ∈ children, Ranges c)
    (cursor : s.run.slate.cursor = .standing (outer ++ [l]) below resuming) :
    ((visitFrom mode path info outer.length 0 children s).bind
      (closeFlow path info spec outer.length)).Agrees
      ((Strict.visitFrom mode path info outer.length 0 children s).bind
        (Strict.closeFlow path info spec outer.length)) := by
  refine Dialogue.agreesBind (childrenSettle mode path info children cursor)
    (visitFromRanges visits [] children rfl cursor) fun outcome t goes => ?_
  have found : ∃ l', t.run.slate.cursor.levels[outer.length]? = some l' := by
    cases goes with
    | completed cursor | suspended cursor =>
      exact ⟨_, (show t.run.slate.cursor = _ from cursor) ▸ Cursor.standingLevel⟩
  obtain ⟨l', found⟩ := found
  rw [Strict.closeFlowFound found]
  exact Dialogue.agreesSame _

theorem flowRanges (visits : ∀ c ∈ children, Ranges c) : Ranges (.flow info spec children) := by
  intro mode path s outer below resuming cursor
  have stands : (s.start path info).run.slate.cursor = .standing outer below resuming :=
    (congrArg Posture.cursor (startPosture s path info)).trans cursor
  by_cases fresh : resuming = true → below = []
  · obtain ⟨first, inner⟩ := enterFirst fresh stands
    rw [visitFlowFirst first, Strict.visitFlowFirst first (inner ▸ Cursor.standingLevel)]
    rcases choosePosture inner path spec with unavailable | ⟨available, l, target, saved, chosen⟩
    · rw [unavailable]
      dsimp only
      rw [Strict.onLevelFound (inner ▸ Cursor.standingLevel)]
      exact .finished _ _
    · generalize (s.start path info).enterFlow.2.choose path spec outer.length = choice
        at available chosen ⊢
      obtain ⟨_, t⟩ := choice
      obtain rfl : _ = true := available
      exact pursueRanges visits (congrArg Posture.cursor chosen)
  · obtain ⟨back, deep⟩ := Classical.not_imp.mp fresh
    subst back
    obtain ⟨l, rest, rfl⟩ := List.exists_cons_of_ne_nil deep
    obtain ⟨again, inner⟩ := enterAgain stands
    rw [visitFlowAgain again, Strict.visitFlowAgain again (inner ▸ Cursor.standingLevel)]
    exact pursueRanges visits inner

theorem visitRanges (a : Applet) : Ranges a := by
  induction a using Applet.byChildren with
  | criterion info check | action info action | wait info wait =>
    intro mode path s outer below resuming cursor
    rw [Strict.visit]
    exact Dialogue.agreesSame _
  | flow info spec children ih => exact flowRanges ih

end Tour

namespace Errand

def strict : Errand → Tour (Option Outcome)
  | call .run => do
    Tour.ensureActive
    let tree ← Tour.read fun s => s.run.task.tree
    let outcome ← Tour.Strict.visit .aggregate [] tree
    return some outcome
  | call .trigger => do
    if ← Tour.read fun s => s.run.qualifies s.occasion.batch.events then
      Tour.ensureActive
      Tour.change Scene.resume
      let tree ← Tour.read fun s => s.run.task.tree
      let outcome ← Tour.Strict.visit .aggregate [] tree
      return some outcome
    else return none
  | evaluate path applet => do
    let outcome ← Tour.Strict.visit .aggregate path applet
    return some outcome

variable {s t u : Scene} {call : Errand} {path : List Nat}
  {r : Option (Except Stop (Option Outcome))}

theorem strictOpens (opens : Opens s call path t) :
    call.strict s = (Tour.Strict.visit .aggregate path (call.applet s.run.task) t).bind
      fun outcome u => .finished u (.ok (some outcome)) := by
  cases opens with
  | evaluate path applet => rfl
  | run active =>
    change (Tour.ensureActive s).bind _ = _
    simp only [Tour.ensureActive, active, if_true]
    rfl
  | trigger qualifies active =>
    change (if s.run.qualifies s.occasion.batch.events = true then _ else _ :
      Tour (Option Outcome)) s = _
    rw [if_pos qualifies]
    change (Tour.ensureActive s).bind _ = _
    simp only [Tour.ensureActive, active, if_true]
    rfl

theorem strictRunInactive (cancelled : s.isActive = false) :
    run.strict s = .finished s (.error .cancelled) := by
  change (Tour.ensureActive s).bind _ = _
  simp [Tour.ensureActive, cancelled, Dialogue.bind]

theorem strictTriggerInactive (qualifies : s.run.qualifies s.occasion.batch.events = true)
    (cancelled : s.isActive = false) : trigger.strict s = .finished s (.error .cancelled) := by
  change (if s.run.qualifies s.occasion.batch.events = true then _ else _ :
    Tour (Option Outcome)) s = _
  rw [if_pos qualifies]
  change (Tour.ensureActive s).bind _ = _
  simp [Tour.ensureActive, cancelled, Dialogue.bind]

theorem strictIdle (idle : s.run.qualifies s.occasion.batch.events = false) :
    trigger.strict s = .finished s (.ok none) := by
  change (if s.run.qualifies s.occasion.batch.events = true then _ else _ :
    Tour (Option Outcome)) s = _
  rw [if_neg (by simp [idle])]
  rfl

theorem strictWalks (opens : Opens s call path t) (within : Within t) :
    (call.tour s).Agrees (call.strict s) := by
  rw [tourOpens opens, strictOpens opens]
  have cursor := Cursor.standingAny t.run.slate.cursor within
  exact Dialogue.agreesBind (Tour.visitSettles _ (Applet.onlyAnything _) _ _ _ _ _ _ cursor)
    (Tour.visitRanges _ _ _ _ _ _ _ cursor) fun outcome u _ => Dialogue.agreesSame _

theorem tourRanges (call : Errand) (within : call ≠ trigger → Within s) :
    (call.tour s).Agrees (call.strict s) := by
  cases call with
  | evaluate path applet => exact strictWalks (.evaluate path applet) (within (by simp))
  | call summons =>
    cases summons with
    | run =>
      cases active : s.isActive with
      | true => exact strictWalks (.run active) (within (by simp))
      | false =>
        change ((Tour.run s).bind _).Agrees _
        rw [Tour.runInactive active, strictRunInactive active]
        exact .finished s _
    | trigger =>
      change (Tour.trigger s).Agrees _
      cases qualifies : s.run.qualifies s.occasion.batch.events with
      | false =>
        rw [Tour.triggerIdle qualifies, strictIdle qualifies]
        exact .finished s _
      | true =>
        cases active : s.isActive with
        | true => exact strictWalks (.trigger qualifies active) (Nat.zero_le _)
        | false =>
          rw [Tour.triggerInactive qualifies active, strictTriggerInactive qualifies active]
          exact .finished s _

/- No level that a walk asks for is missing: what it comes to is what it comes to when it looks
before every step that works on a level. A trigger starts from the top, wherever the cursor is. -/
theorem strictComes (within : call ≠ trigger → Within s) :
    (call.strict s).process.Comes Others u r ↔ (call.walk s).Comes Others u r := by
  rw [← call.tourProcess s]
  have agrees := tourRanges call within
  exact ⟨Dialogue.agreesComes (Dialogue.agreesSymm agrees), Dialogue.agreesComes agrees⟩

end Errand
end Automation
