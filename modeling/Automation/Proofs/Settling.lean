import Automation.Proofs.Posture
/-! How visits of applets end, wherever they begin. A visit that completes has left the levels below
it, and what was pending before is still pending unless a wait was released in between; one that is
suspended stands at a wait of its applet; and it breaks off only if the run is cancelled. If the
walk was on its way back, all this is so whether or not the levels belong to the tree; if they do
belong to it, the target is the one from before as well, and the levels lead to the wait. -/
namespace Automation
open Scene

def Applet.LeadsTo (a : Applet) (below : List Level) (b : Applet) : Prop :=
  a.at? (below.map Level.index) = some b

def Applet.Led (a : Applet) (below : List Level) (resuming : Bool) : Prop :=
  resuming = true → below ≠ [] → ∃ info wait, a.LeadsTo below (.wait info wait)

namespace Cursor

def base (below : List Level) (target : Option Json) : Option Json :=
  (below.findSome? Level.saved).getD target

def aim (below : List Level) (resuming : Bool) (target : Option Json) : Option Json :=
  if resuming then base below target else target

theorem baseCons (l : Level) (below : List Level) (target : Option Json) :
    base (l :: below) target = l.saved.getD (base below target) := by
  unfold base
  rw [List.findSome?_cons]
  cases l.saved <;> rfl

theorem aimNil (resuming : Bool) (target : Option Json) : aim [] resuming target = target := by
  cases resuming <;> rfl

end Cursor

namespace Posture

/- What has become of a pending wait when the walk goes on or completes. -/
inductive Passes (p q : Posture) : Prop where
  | kept (batch : q.batch = p.batch) (released : q.released = p.released)
      (waiting : q.waiting = p.waiting) (suspending : q.suspending = p.suspending)
  | freed (batch : q.batch = p.batch) (released : p.released < q.released)
      (waiting : q.waiting = none) (suspending : q.suspending = false)

structure Stops (p q : Posture) (info : AppletInfo) (wait : Wait) : Prop where
  batch : q.batch = p.batch
  waiting : q.waiting = some (.wait info wait)
  suspending : q.suspending = true
  refuses : wait.find? p.batch.events = none

variable {p q r : Posture}

theorem Passes.batch (passes : p.Passes q) : q.batch = p.batch := by
  cases passes <;> assumption

theorem Passes.grows (passes : p.Passes q) : p.released ≤ q.released := by
  cases passes with
  | kept batch released => exact released.ge
  | freed batch released => exact released.le

theorem Passes.trans (first : p.Passes q) (second : q.Passes r) : p.Passes r := by
  cases second with
  | freed batch released waiting suspending =>
    exact .freed (batch.trans first.batch) (first.grows.trans_lt released) waiting suspending
  | kept batch released waiting suspending =>
    cases first with
    | kept batch' released' waiting' suspending' =>
      exact .kept (batch.trans batch') (released.trans released') (waiting.trans waiting')
        (suspending.trans suspending')
    | freed batch' released' waiting' suspending' =>
      exact .freed (batch.trans batch') (released'.trans_eq released.symm)
        (waiting.trans waiting') (suspending.trans suspending')

theorem Passes.stops (first : p.Passes q) {info : AppletInfo} {wait : Wait}
    (second : q.Stops r info wait) : p.Stops r info wait :=
  ⟨second.batch.trans first.batch, second.waiting, second.suspending,
    first.batch ▸ second.refuses⟩

theorem passesMoved (p : Posture) (cursor : Cursor) (target : Option Json) :
    p.Passes { p with cursor, target } := .kept rfl rfl rfl rfl

end Posture

/- How the visit of an applet ends that began with these levels around and below it. -/
inductive Settles (a : Applet) (outer below : List Level) (resuming : Bool) (p : Posture) :
    Scene → Except Stop Outcome → Prop where
  | completed {u forth}
      (cursor : u.posture.cursor =
        .standing outer (if a.flowKind?.isSome then [] else below) forth)
      (passes : p.Passes u.posture) (leaf : a.flowKind? = none → forth = false)
      (back : a.Led below resuming →
        forth = false ∧ u.posture.target = Cursor.aim below resuming p.target)
      (meets : ∀ info wait, resuming = true → a.LeadsTo below (.wait info wait) →
        (wait.find? p.batch.events).isSome = true → p.released < u.posture.released) :
      Settles a outer below resuming p u (.ok .completed)
  | suspended {u held info wait place} (cursor : u.posture.cursor = .standing outer held false)
      (stops : p.Stops u.posture info wait) (inside : a.at? place = some (.wait info wait))
      (back : a.Led below resuming → (a.flowKind? = none → below = []) →
        a.LeadsTo held (.wait info wait) ∧
          Cursor.base held u.posture.target = Cursor.aim below resuming p.target) :
      Settles a outer below resuming p u (.ok .suspended)
  | cancelled {u levels rest forth} (inactive : u.isActive = false)
      (cursor : u.posture.cursor = .standing levels rest forth) :
      Settles a outer below resuming p u (.error .cancelled)

structure LedFrom (children : List Applet) (i : Nat) (l : Level) (below : List Level)
    (resuming : Bool) : Prop where
  ahead : i ≤ l.index
  forward : resuming = false → below = []
  again : resuming = true → ∃ info wait,
    (children[l.index]?).bind (Applet.at? (below.map Level.index)) = some (.wait info wait)

inductive Goes (children : List Applet) (i : Nat) (outer : List Level) (l : Level)
    (below : List Level) (resuming : Bool) (p : Posture) : Scene → Except Stop Outcome → Prop where
  | completed {u l' rest forth} (cursor : u.posture.cursor = .standing (outer ++ [l']) rest forth)
      (saved : l'.saved = l.saved) (passes : p.Passes u.posture)
      (back : LedFrom children i l below resuming →
        forth = false ∧ u.posture.target = Cursor.aim below resuming p.target)
      (meets : ∀ info wait, resuming = true → i ≤ l.index →
        (children[l.index]?).bind (Applet.at? (below.map Level.index)) = some (.wait info wait) →
        (wait.find? p.batch.events).isSome = true → p.released < u.posture.released) :
      Goes children i outer l below resuming p u (.ok .completed)
  | suspended {u l' held info wait child place}
      (cursor : u.posture.cursor = .standing (outer ++ [l']) held false)
      (saved : l'.saved = l.saved) (stops : p.Stops u.posture info wait)
      (inside : child ∈ children) (deeper : child.at? place = some (.wait info wait))
      (back : LedFrom children i l below resuming →
        (children[l'.index]?).bind (Applet.at? (held.map Level.index)) = some (.wait info wait) ∧
          Cursor.base held u.posture.target = Cursor.aim below resuming p.target) :
      Goes children i outer l below resuming p u (.ok .suspended)
  | cancelled {u levels rest forth} (inactive : u.isActive = false)
      (cursor : u.posture.cursor = .standing levels rest forth) :
      Goes children i outer l below resuming p u (.error .cancelled)

namespace Applet
variable {a : Applet} {below : List Level} {resuming : Bool}

theorem leafLeads (leaf : a.children = []) {b : Applet} (leads : a.LeadsTo below b) :
    below = [] ∧ b = a := by
  cases below with
  | nil => exact ⟨rfl, (Option.some.inj leads).symm⟩
  | cons l rest => simp [LeadsTo, at?, leaf] at leads

theorem leafLed (leaf : a.children = []) (led : a.Led below resuming) (back : resuming = true) :
    below = [] := by
  by_contra deep
  obtain ⟨info, wait, leads⟩ := led back deep
  exact deep (leafLeads leaf leads).1

theorem leafAim (leaf : a.children = []) (led : a.Led below resuming) (target : Option Json) :
    Cursor.aim below resuming target = target := by
  cases resuming with
  | false => rfl
  | true => rw [leafLed leaf led rfl, Cursor.aimNil]

theorem flowLeads {info : AppletInfo} {spec : FlowSpec} {children : List Applet} {l : Level}
    {b : Applet} : (flow info spec children).LeadsTo (l :: below) b ↔
      (children[l.index]?).bind (at? (below.map Level.index)) = some b := Iff.rfl

theorem leafChildren (leaf : a.flowKind? = none) : a.children = [] := by
  cases a with
  | flow info spec children => cases leaf
  | criterion info check | action info action | wait info wait => rfl

end Applet

namespace Tour
variable {allowed : Demand → Prop} {mode : Mode} {path : List Nat} {info : AppletInfo} {s t : Scene}
  {outer below : List Level} {l : Level} {resuming : Bool}

theorem leafSettles {a : Applet} (leaf : a.flowKind? = none)
    (unlike : ∀ info wait, a ≠ .wait info wait)
    (cursor : s.run.slate.cursor = .standing outer below resuming)
    (reached : t.posture = { s.posture with cursor := s.posture.cursor.endResume }) :
    Settles a outer below resuming s.posture t (.ok .completed) := by
  have children := Applet.leafChildren leaf
  have stands : t.posture.cursor = .standing outer below false := by
    rw [reached]
    exact congrArg Cursor.endResume cursor
  have left : t.posture.cursor =
      .standing outer (if a.flowKind?.isSome then [] else below) false := by
    rw [stands, leaf]
    rfl
  refine .completed left ?_ (fun _ => rfl) (fun led => ⟨rfl, ?_⟩) ?_
  · rw [reached]
    exact s.posture.passesMoved _ _
  · rw [reached, Applet.leafAim children led]
  · intro info wait back leads
    exact absurd (Applet.leafLeads children leads).2.symm (unlike info wait)

theorem criterionSettles {check : Check} (only : ∀ input, (check input).Only allowed)
    (cursor : s.run.slate.cursor = .standing outer below resuming) :
    (visit mode path (.criterion info check) s).Sure allowed
      (Settles (.criterion info check) outer below resuming s.posture) := by
  have reached := reachPosture s path info
  generalize reachedAt : (s.start path info).reachLeaf info = t at reached
  have settles {u : Scene} (same : u.posture = t.posture) :
      Settles (.criterion info check) outer below resuming s.posture u (.ok .completed) :=
    leafSettles rfl (by simp) cursor (same.trans reached)
  cases expected : t.run.expected? info with
  | none =>
    rw [visitUnresolved reachedAt expected]
    exact settles (finishPosture ..)
  | some expected =>
    rw [visitResolved reachedAt (by assumption)]
    refine ⟨only _, fun outcome u others => settles ?_⟩
    rw [finishPosture, endCheckPosture, othersPosture others, beginCheckPosture]

theorem actionSettles {action : Action} (only : ∀ input, (action input).Only allowed)
    (cursor : s.run.slate.cursor = .standing outer below resuming) :
    (visit mode path (.action info action) s).Sure allowed
      (Settles (.action info action) outer below resuming s.posture) := by
  have reached := reachPosture s path info
  generalize reachedAt : (s.start path info).reachLeaf info = t at reached
  rw [visitAction reachedAt]
  refine ⟨only _, fun outcome u others => leafSettles rfl (by simp) cursor ?_⟩
  rw [finishPosture, endActionPosture, othersPosture others, beginActionPosture, reached]

theorem waitSettles {wait : Wait} (cursor : s.run.slate.cursor = .standing outer below resuming) :
    (visit mode path (.wait info wait) s).Sure allowed
      (Settles (.wait info wait) outer below resuming s.posture) := by
  have reached := reachPosture s path info
  generalize reachedAt : (s.start path info).reachLeaf info = t at reached
  have batch : t.run.batch = s.posture.batch := congrArg Posture.batch reached
  have stands : t.posture.cursor = .standing outer below false := by
    rw [reached]
    exact congrArg Cursor.endResume cursor
  rw [visitWait reachedAt]
  cases found : wait.find? t.run.batch.events with
  | none =>
    obtain ⟨refused, stopped⟩ := waitRefusedPosture found path info
    rw [refused]
    have held : (t.tryWait path info wait).2.posture.cursor = .standing outer below false := by
      rw [stopped]
      exact stands
    have inside : (Applet.wait info wait).at? [] = some (.wait info wait) := rfl
    refine .suspended held ⟨?_, ?_, ?_, ?_⟩ inside fun led bare => ?_
    · rw [stopped, reached]
    · rw [stopped]
    · rw [stopped]
    · rw [← batch, found]
    · obtain rfl := bare rfl
      rw [stopped, reached, Cursor.aimNil]
      exact ⟨rfl, rfl⟩
  | some event =>
    obtain ⟨released, freed⟩ := waitReleasedPosture found path info
    obtain ⟨result, released⟩ := Option.isSome_iff_exists.mp released
    rw [released]
    have posture := (finishPosture (t.tryWait path info wait).2 path info result).trans freed
    have left : ((t.tryWait path info wait).2.finish path info result).posture.cursor =
        .standing outer below false := by
      rw [posture]
      exact stands
    refine .completed left (.freed ?_ ?_ ?_ ?_) (fun _ => rfl) (fun led => ⟨rfl, ?_⟩)
      fun _ _ _ _ _ => ?_
    · rw [posture, reached]
    · rw [posture, reached]
      exact Nat.lt_succ_self _
    · rw [posture]
    · rw [posture]
    · rw [posture, reached, Applet.leafAim rfl led]
    · rw [posture, reached]
      exact Nat.lt_succ_self _

theorem goesAfter {children : List Applet} {i : Nat} {l l' : Level} {below rest : List Level}
    {resuming forth : Bool} {p q : Posture} (saved : l'.saved = l.saved) (passes : p.Passes q)
    (led : LedFrom children i l below resuming → LedFrom children (i + 1) l' rest forth ∧
      Cursor.aim rest forth q.target = Cursor.aim below resuming p.target)
    (meets : ∀ info wait, resuming = true → i ≤ l.index →
      (children[l.index]?).bind (Applet.at? (below.map Level.index)) = some (.wait info wait) →
      (wait.find? p.batch.events).isSome = true → p.released < q.released)
    {u : Scene} {r : Except Stop Outcome} (goes : Goes children (i + 1) outer l' rest forth q u r) :
    Goes children i outer l below resuming p u r := by
  cases goes with
  | completed cursor saved' passes' back meets' =>
    refine .completed cursor (saved'.trans saved) (passes.trans passes') (fun belongs => ?_)
      fun info wait again within leads accepts =>
        (meets info wait again within leads accepts).trans_le passes'.grows
    obtain ⟨belongs', aims⟩ := led belongs
    exact aims ▸ back belongs'
  | suspended cursor saved' stops inside deeper back =>
    refine .suspended cursor (saved'.trans saved) (passes.stops stops) inside deeper
      fun belongs => ?_
    obtain ⟨belongs', aims⟩ := led belongs
    exact aims ▸ back belongs'
  | cancelled inactive cursor => exact .cancelled inactive cursor

theorem pastGoes {children : List Applet} {i : Nat} {p : Posture} (past : i < l.index) {u : Scene}
    {r : Except Stop Outcome} (goes : Goes children (i + 1) outer l below resuming p u r) :
    Goes children i outer l below resuming p u r := by
  cases goes with
  | completed cursor saved passes back meets =>
    exact .completed cursor saved passes
      (fun belongs => back ⟨past, belongs.forward, belongs.again⟩)
      fun info wait again _ => meets info wait again past
  | suspended cursor saved stops inside deeper back =>
    exact .suspended cursor saved stops inside deeper
      fun belongs => back ⟨past, belongs.forward, belongs.again⟩
  | cancelled inactive cursor => exact .cancelled inactive cursor

theorem passOverGoes {children : List Applet} {i : Nat} {chain : Chain} {p q : Posture}
    (forward : resuming = false)
    (moved : q = { p with
      cursor := .standing (outer ++ [{ l with index := l.index + 1, chain }]) below resuming })
    {u : Scene} {r : Except Stop Outcome}
    (goes : Goes children (i + 1) outer { l with index := l.index + 1, chain } below resuming q u
      r) :
    Goes children i outer l below resuming p u r := by
  subst moved
  have saved : ({ l with index := l.index + 1, chain } : Level).saved = l.saved := rfl
  refine goesAfter saved (p.passesMoved _ p.target) ?_ ?_ goes
  · intro belongs
    exact ⟨⟨Nat.succ_le_succ belongs.ahead, belongs.forward,
      fun again => by simp [forward] at again⟩, rfl⟩
  · intro info wait again
    simp [forward] at again

theorem ledChild {children : List Applet} {child : Applet} {i : Nat}
    (place : children[i]? = some child) (reached : l.index ≤ i)
    (belongs : LedFrom children i l below resuming) :
    l.index = i ∧ child.Led below resuming ∧ (child.flowKind? = none → below = []) := by
  have here : l.index = i := Nat.le_antisymm reached belongs.ahead
  have leads (back : resuming = true) : ∃ info wait, child.LeadsTo below (.wait info wait) := by
    obtain ⟨info, wait, leads⟩ := belongs.again back
    rw [here, place] at leads
    exact ⟨info, wait, leads⟩
  refine ⟨here, fun back _ => leads back, fun leaf => ?_⟩
  cases resuming with
  | false => exact belongs.forward rfl
  | true =>
    obtain ⟨info, wait, leads⟩ := leads rfl
    exact (Applet.leafLeads (Applet.leafChildren leaf) leads).1

theorem goOnGoes {children rest : List Applet} {child : Applet} {i : Nat} {p : Posture}
    (place : children[i]? = some child) (reached : l.index ≤ i)
    (next : ∀ s l below resuming, s.run.slate.cursor = .standing (outer ++ [l]) below resuming →
      (visitFrom mode path info outer.length (i + 1) rest s).Sure allowed
        (Goes children (i + 1) outer l below resuming s.posture))
    {outcome : Outcome} (settled : Settles child (outer ++ [l]) below resuming p t (.ok outcome)) :
    (goOn mode path info outer.length i child rest outcome t).Sure allowed
      (Goes children i outer l below resuming p) := by
  have belonging (belongs : LedFrom children i l below resuming) := ledChild place reached belongs
  cases settled with
  | suspended cursor stops inside back =>
    refine .suspended cursor rfl stops (List.mem_of_getElem? place) inside fun belongs => ?_
    obtain ⟨here, led, bare⟩ := belonging belongs
    rw [here, place]
    exact back led bare
  | completed cursor passes leaf back meets =>
    have found : t.run.slate.cursor.levels[outer.length]? = some l := by
      rw [show t.run.slate.cursor = _ from cursor, Cursor.standingLevel]
    obtain ⟨chain, last, moved⟩ := passOnPosture cursor child.flowKind?
    rw [goOnPassed found]
    generalize (t.passOn outer.length child.flowKind?).2 = v at moved ⊢
    generalize (t.passOn outer.length child.flowKind?).1 = successful
    have stands : v.posture.cursor = _ := congrArg Posture.cursor moved
    have passes' : p.Passes v.posture := by
      rw [moved]
      exact passes.trans (t.posture.passesMoved _ _)
    -- A walk that comes back to a wait of this child has released it by now.
    have released (info : AppletInfo) (wait : Wait) (back : resuming = true) (within : i ≤ l.index)
        (leads : (children[l.index]?).bind (Applet.at? (below.map Level.index)) =
          some (.wait info wait))
        (accepts : (wait.find? p.batch.events).isSome = true) :
        p.released < v.posture.released := by
      rw [Nat.le_antisymm reached within, place] at leads
      rw [moved]
      exact meets info wait back leads accepts
    have saved : (⟨l.index + 1, chain, last, l.saved⟩ : Level).saved = l.saved := rfl
    split
    · have skipped := skipFromPosture v path (i + 1) rest
      refine .completed ((congrArg Posture.cursor skipped).trans stands) rfl
        (skipped ▸ passes') (fun belongs => ?_) (skipped ▸ released)
      obtain ⟨here, led, bare⟩ := belonging belongs
      rw [skipped, moved]
      exact back led
    · refine Dialogue.sureWeaken (next v _ _ _ stands) fun u r =>
        goesAfter saved passes' (fun belongs => ?_) released
      obtain ⟨here, led, bare⟩ := belonging belongs
      obtain ⟨rfl, aims⟩ := back led
      refine ⟨⟨by rw [here], fun _ => ?_, fun again => by cases again⟩, ?_⟩
      · cases kind : child.flowKind? with
        | some k => rfl
        | none => exact bare kind
      · rw [moved]
        exact aims

theorem planBack (resuming : Bool) (plan : Plan) :
    (if resuming then Plan.evaluate else plan) = .evaluate ∨ resuming = false := by
  cases resuming with
  | true => exact .inl rfl
  | false => exact .inr rfl

theorem visitFromSettles {children : List Applet}
    (visits : ∀ c ∈ children, ∀ mode path s outer below resuming,
      s.run.slate.cursor = .standing outer below resuming →
      (visit mode path c s).Sure allowed (Settles c outer below resuming s.posture))
    (before rest : List Applet) (parts : children = before ++ rest) (s : Scene) (l : Level)
    (below : List Level) (resuming : Bool)
    (cursor : s.run.slate.cursor = .standing (outer ++ [l]) below resuming) :
    (visitFrom mode path info outer.length before.length rest s).Sure allowed
      (Goes children before.length outer l below resuming s.posture) := by
  induction rest generalizing before s l below resuming with
  | nil =>
    rw [visitFrom]
    rw [List.append_nil] at parts
    -- All children are behind, so that no level leads to one of them.
    have behind {info : AppletInfo} {wait : Wait} (within : before.length ≤ l.index)
        (leads : (children[l.index]?).bind (Applet.at? (below.map Level.index)) =
          some (.wait info wait)) : False := by
      rw [List.getElem?_eq_none (by rw [parts]; exact within)] at leads
      cases leads
    refine .completed cursor rfl (s.posture.passesMoved _ _) (fun belongs => ?_)
      fun _ _ _ within leads => (behind within leads).elim
    cases resuming with
    | false => exact ⟨rfl, rfl⟩
    | true =>
      obtain ⟨_, _, leads⟩ := belongs.again rfl
      exact (behind belongs.ahead leads).elim
  | cons child rest ih =>
    have found : s.run.slate.cursor.levels[outer.length]? = some l := by
      rw [cursor, Cursor.standingLevel]
    have next := ih (before ++ [child]) (by rw [parts, List.append_assoc]; rfl)
    rw [List.length_append, List.length_singleton] at next
    by_cases past : before.length < l.index
    · rw [visitFromPast found past]
      exact Dialogue.sureWeaken (next s l below resuming cursor) fun u r => pastGoes past
    · have reached := Nat.le_of_not_lt past
      cases active : s.isActive with
      | false =>
        rw [visitFromCancelled found reached active]
        exact .cancelled active cursor
      | true =>
        have back : s.run.slate.cursor.resuming = resuming := congrArg Cursor.resuming cursor
        rw [visitFromNext found reached active, back]
        have plans := planBack resuming (l.chain.plan child.flowKind?)
        generalize (if resuming then Plan.evaluate else l.chain.plan child.flowKind?) = plan
          at plans ⊢
        cases plan with
        | skip =>
          have forward := plans.resolve_left (by simp)
          have moved := passOverPosture cursor (path ++ [before.length]) child.info l.chain
          exact Dialogue.sureWeaken (next _ _ below resuming (congrArg Posture.cursor moved))
            fun u r => passOverGoes forward moved
        | orphan =>
          have forward := plans.resolve_left (by simp)
          have moved := passOverPosture cursor (path ++ [before.length]) child.info .idle
          exact Dialogue.sureWeaken (next _ _ below resuming (congrArg Posture.cursor moved))
            fun u r => passOverGoes forward moved
        | evaluate =>
          have place : children[before.length]? = some child := by simp [parts]
          have visited := visits child (List.mem_of_getElem? place) mode (path ++ [before.length])
            (s.onRun fun r => r.setFlow info) (outer ++ [l]) below resuming cursor
          refine Dialogue.sureBind visited
            (fun t outcome settled => goOnGoes place reached next settled) fun t e settled => ?_
          cases settled with
          | cancelled inactive cursor => exact .cancelled inactive cursor

theorem closeFlowSettles {spec : FlowSpec} {children : List Applet} {l : Level}
    {below' : List Level} {resuming' : Bool} {p q : Posture}
    (led : (Applet.flow info spec children).Led below resuming →
      LedFrom children 0 l below' resuming' ∧
        l.saved.getD (Cursor.aim below' resuming' q.target) = Cursor.aim below resuming p.target)
    (passes : p.Passes q)
    (meets : ∀ info' wait, resuming = true →
      (Applet.flow info spec children).LeadsTo below (.wait info' wait) →
      resuming' = true ∧ (children[l.index]?).bind (Applet.at? (below'.map Level.index)) =
        some (.wait info' wait))
    {u : Scene} {outcome : Outcome}
    (goes : Goes children 0 outer l below' resuming' q u (.ok outcome)) :
    (closeFlow path info spec outer.length outcome u).Sure allowed
      (Settles (.flow info spec children) outer below resuming p) := by
  cases goes with
  | completed cursor saved passed back met =>
    rw [closeFlowCompleted]
    have left := leaveFlowPosture cursor spec
    generalize u.leaveFlow spec outer.length = leave at left ⊢
    have posture := (finishPosture leave.2 path info leave.1).trans left
    have left : (leave.2.finish path info leave.1).posture.cursor = .standing outer [] _ :=
      congrArg Posture.cursor posture
    refine .completed left ?_ (fun leaf => by cases leaf) (fun belongs => ?_) ?_
    · rw [posture]
      exact (passes.trans passed).trans (u.posture.passesMoved _ _)
    · obtain ⟨belongs', aims⟩ := led belongs
      obtain ⟨forward, target⟩ := back belongs'
      rw [posture]
      exact ⟨forward, by rw [target, saved, aims]⟩
    · intro info' wait again leads accepts
      obtain ⟨again', leads'⟩ := meets info' wait again leads
      rw [posture]
      exact passes.grows.trans_lt
        (met info' wait again' (Nat.zero_le _) leads' (passes.batch ▸ accepts))
  | suspended cursor saved stops inside deeper back =>
    rw [closeFlowSuspended]
    have unwound := unwindPosture cursor
    have held : (u.unwind outer.length).posture.cursor = .standing outer _ false :=
      congrArg Posture.cursor unwound
    obtain ⟨k, found⟩ := List.mem_iff_getElem?.mp inside
    have located : (Applet.flow info spec children).at? (k :: _) = some (.wait _ _) :=
      (congrArg (Option.bind · _) found).trans deeper
    refine .suspended held ?_ located fun belongs _ => ?_
    · rw [unwound]
      exact passes.stops ⟨stops.batch, stops.waiting, stops.suspending, stops.refuses⟩
    · obtain ⟨belongs', aims⟩ := led belongs
      obtain ⟨leads, target⟩ := back belongs'
      refine ⟨Applet.flowLeads.mpr leads, ?_⟩
      rw [unwound, Cursor.baseCons, saved, ← aims]
      exact congrArg (Option.getD l.saved) target

theorem pursueSettles {spec : FlowSpec} {children : List Applet}
    (visits : ∀ c ∈ children, ∀ mode path s outer below resuming,
      s.run.slate.cursor = .standing outer below resuming →
      (visit mode path c s).Sure allowed (Settles c outer below resuming s.posture))
    {below' : List Level} {resuming' : Bool} {p : Posture}
    (cursor : t.run.slate.cursor = .standing (outer ++ [l]) below' resuming')
    (led : (Applet.flow info spec children).Led below resuming →
      LedFrom children 0 l below' resuming' ∧
        l.saved.getD (Cursor.aim below' resuming' t.posture.target) =
          Cursor.aim below resuming p.target)
    (passes : p.Passes t.posture)
    (meets : ∀ info' wait, resuming = true →
      (Applet.flow info spec children).LeadsTo below (.wait info' wait) →
      resuming' = true ∧ (children[l.index]?).bind (Applet.at? (below'.map Level.index)) =
        some (.wait info' wait)) :
    ((visitFrom mode path info outer.length 0 children t).bind
      (closeFlow path info spec outer.length)).Sure allowed
      (Settles (.flow info spec children) outer below resuming p) := by
  refine Dialogue.sureBind (visitFromSettles visits [] children rfl t l below' resuming' cursor)
    (fun u outcome goes => closeFlowSettles led passes meets goes) fun u e goes => ?_
  cases goes with
  | cancelled inactive cursor => exact .cancelled inactive cursor

theorem flowSettlesAgain {spec : FlowSpec} {children : List Applet} {rest : List Level}
    (visits : ∀ c ∈ children, ∀ mode path s outer below resuming,
      s.run.slate.cursor = .standing outer below resuming →
      (visit mode path c s).Sure allowed (Settles c outer below resuming s.posture))
    (cursor : s.run.slate.cursor = .standing outer (l :: rest) true) :
    (visit mode path (.flow info spec children) s).Sure allowed
      (Settles (.flow info spec children) outer (l :: rest) true s.posture) := by
  have started := startPosture s path info
  have stands : (s.start path info).run.slate.cursor = .standing outer (l :: rest) true :=
    (congrArg Posture.cursor started).trans cursor
  have entered := enterFlowPosture (s.start path info)
  obtain ⟨again, inner⟩ := enterAgain stands
  rw [visitFlowAgain again]
  refine pursueSettles visits inner (fun led => ?_) ?_ fun info' wait _ leads => ⟨rfl, leads⟩
  · obtain ⟨info', wait, leads⟩ := led rfl (List.cons_ne_nil _ _)
    refine ⟨⟨Nat.zero_le _, by simp, fun _ => ⟨info', wait, leads⟩⟩, ?_⟩
    rw [entered, started]
    exact (Cursor.baseCons l rest _).symm
  · rw [entered, started]
    exact s.posture.passesMoved _ _

theorem flowSettlesAnew {spec : FlowSpec} {children : List Applet}
    (visits : ∀ c ∈ children, ∀ mode path s outer below resuming,
      s.run.slate.cursor = .standing outer below resuming →
      (visit mode path c s).Sure allowed (Settles c outer below resuming s.posture))
    (fresh : resuming = true → below = [])
    (cursor : s.run.slate.cursor = .standing outer below resuming) :
    (visit mode path (.flow info spec children) s).Sure allowed
      (Settles (.flow info spec children) outer below resuming s.posture) := by
  have started := startPosture s path info
  have stands : (s.start path info).run.slate.cursor = .standing outer below resuming :=
    (congrArg Posture.cursor started).trans cursor
  have entered := enterFlowPosture (s.start path info)
  have aims : Cursor.aim below resuming s.posture.target = s.posture.target := by
    cases resuming with
    | false => rfl
    | true => rw [fresh rfl, Cursor.aimNil]
  have met (info' : AppletInfo) (wait : Wait) (again : resuming = true)
      (leads : (Applet.flow info spec children).LeadsTo below (.wait info' wait)) : False := by
    rw [fresh again] at leads
    cases leads
  obtain ⟨first, inner⟩ := enterFirst fresh stands
  rw [visitFlowFirst first]
  rcases choosePosture inner path spec with unavailable | ⟨available, l, target, saved, chosen⟩
  · rw [unavailable]
    have left := (finishPosture _ path info (.empty false)).trans
      (abandonFlowPosture inner path children)
    rw [entered, started] at left
    have stood : Posture.cursor _ = .standing outer [] false := congrArg Posture.cursor left
    refine .completed stood ?_ (fun leaf => by cases leaf) (fun _ => ⟨rfl, ?_⟩)
      fun info' wait again leads => (met info' wait again leads).elim
    · rw [left]
      exact s.posture.passesMoved _ _
    · rw [left, aims]
  · generalize (s.start path info).enterFlow.2.choose path spec outer.length = choice
      at available chosen ⊢
    obtain ⟨_, t⟩ := choice
    obtain rfl : _ = true := available
    rw [entered, started] at chosen
    refine pursueSettles visits (congrArg Posture.cursor chosen) (fun led => ?_) ?_
      fun info' wait again leads => (met info' wait again leads).elim
    · refine ⟨⟨Nat.zero_le _, fun _ => rfl, by simp⟩, ?_⟩
      rw [chosen, aims, ← started]
      exact saved
    · rw [chosen]
      exact s.posture.passesMoved _ _

theorem flowSettles {spec : FlowSpec} {children : List Applet}
    (visits : ∀ c ∈ children, ∀ mode path s outer below resuming,
      s.run.slate.cursor = .standing outer below resuming →
      (visit mode path c s).Sure allowed (Settles c outer below resuming s.posture))
    (cursor : s.run.slate.cursor = .standing outer below resuming) :
    (visit mode path (.flow info spec children) s).Sure allowed
      (Settles (.flow info spec children) outer below resuming s.posture) := by
  cases resuming with
  | false => exact flowSettlesAnew visits (by simp) cursor
  | true =>
    cases below with
    | nil => exact flowSettlesAnew visits (fun _ => rfl) cursor
    | cons l rest => exact flowSettlesAgain visits cursor

theorem visitSettles (a : Applet) (only : a.Only allowed) (mode : Mode) (path : List Nat)
    (s : Scene) (outer below : List Level) (resuming : Bool)
    (cursor : s.run.slate.cursor = .standing outer below resuming) :
    (visit mode path a s).Sure allowed (Settles a outer below resuming s.posture) := by
  induction a using Applet.byChildren generalizing mode path s outer below resuming with
  | criterion info check =>
    cases only with | criterion only
    exact criterionSettles only cursor
  | action info action =>
    cases only with | action only
    exact actionSettles only cursor
  | wait info wait => exact waitSettles cursor
  | flow info spec children ih =>
    cases only with | flow only
    exact flowSettles (fun c inside => ih c inside (only c inside)) cursor

end Tour

namespace Errand
variable {call : Errand} {allowed : Demand → Prop} {s u : Scene}
  {r : Except Stop (Option Outcome)}

inductive Ends (call : Errand) (s : Scene) : Scene → Except Stop (Option Outcome) → Prop where
  | refused {q} (refused : Refused s call q) : Ends call s s q
  | walked {path t v q} (opens : Opens s call path t)
      (settles : ∀ outer below resuming, t.run.slate.cursor = .standing outer below resuming →
        Settles (call.applet s.run.task) outer below resuming t.posture v q) :
      Ends call s v (q.map some)

def Within (s : Scene) : Prop := s.run.slate.cursor.depth ≤ s.run.slate.cursor.levels.length

theorem standingWithin {levels below : List Level} {resuming : Bool}
    (cursor : s.run.slate.cursor = .standing levels below resuming) : Within s := by
  rw [Within, cursor]
  simp [Cursor.standing]

theorem opensWithin {path : List Nat} {t : Scene} (opens : Opens s call path t) (within : Within s) :
    Within t := by
  cases opens with
  | run active => exact within
  | trigger qualifies active => exact Nat.zero_le _
  | evaluate path applet => exact within

theorem tourEnds (only : (call.applet s.run.task).Only allowed) (within : Within s) :
    (call.tour s).Sure allowed (call.Ends s) := by
  rcases tourStarts call s with ⟨path, t, opens⟩ | ⟨r, refused, same⟩
  · have visited := Tour.visitSettles (call.applet s.run.task) only .aggregate path t
    rw [tourOpens opens]
    have cursor := Cursor.standingAny t.run.slate.cursor (opensWithin opens within)
    -- A cursor stands in one way only.
    have walked {u : Scene} {r : Except Stop Outcome}
        (settled : Settles (call.applet s.run.task) (t.run.slate.cursor.levels.take
          t.run.slate.cursor.depth) (t.run.slate.cursor.levels.drop t.run.slate.cursor.depth)
          t.run.slate.cursor.resuming t.posture u r) : call.Ends s u (r.map some) := by
      refine .walked opens fun outer below resuming same => ?_
      rw [same] at settled
      simpa [Cursor.standing] using settled
    refine Dialogue.sureBind (visited _ _ _ cursor) (fun u outcome settled => ?_)
      fun u e settled => walked settled
    exact walked settled
  · rw [same]
    exact .refused refused

theorem endsWithin (within : Within s) (ends : call.Ends s u r) : Within u := by
  cases ends with
  | refused refused => exact within
  | walked opens settles =>
    have settled := settles _ _ _ (Cursor.standingAny _ (opensWithin opens within))
    cases settled with
    | completed cursor | suspended cursor | cancelled inactive cursor =>
      exact standingWithin cursor

theorem comesEnds (within : Within s) (comes : (call.walk s).Comes Others u (some r)) :
    r = .error .panicked ∨ call.Ends s u r := by
  rw [← call.tourProcess s] at comes
  exact Dialogue.sureComes (tourEnds (Applet.onlyAnything _) within) comes

end Errand
end Automation
