import Automation.Proofs.Trail
/-! Walks advance. Starting an applet or carrying out an action is a tread on its place. Whatever a
visit treads on comes in the order of the tree, and on the way back to a wait only what is behind
that wait is trodden. A visit that is suspended stands at the place trodden last, and one that was
on its way back has released its wait first. -/
namespace Automation

structure Heads (a : Applet) (below : List Level) (resuming : Bool) (b : Applet) : Prop where
  forward : resuming = false → below = []
  again : resuming = true → a.LeadsTo below b

structure HeadsFrom (children : List Applet) (i : Nat) (l : Level) (below : List Level)
    (resuming : Bool) (b : Applet) : Prop where
  ahead : i ≤ l.index
  forward : resuming = false → below = []
  again : resuming = true →
    (children[l.index]?).bind (Applet.at? (below.map Level.index)) = some b

/- What may be trodden at or below this path: on the way back, only what is behind the place that
the levels stand for. -/
def Ahead (path : List Nat) (below : List Level) (resuming : Bool) (p : List Nat) : Prop :=
  path <+: p ∧ (resuming = true → path ++ below.map Level.index < p)

def AheadFrom (path : List Nat) (i : Nat) (below : List Level) (resuming : Bool) (p : List Nat) :
    Prop :=
  (∃ k, i ≤ k ∧ path ++ [k] <+: p) ∧ (resuming = true → path ++ below.map Level.index < p)

/- How the trail of a visit ends. If it is suspended, the wait is the last place of the trail, and
the cursor stands there; if it went back to a wait, that was released first. -/
structure Arrives (held : AppletInfo) (event : Event) (path : List Nat) (below : List Level)
    (resuming : Bool) (expected : List Nat → Prop) (depth : Nat) (s u : Scene)
    (r : Except Stop Outcome) : Prop where
  trail : ∃ places, s.Adds u places ∧ Rises expected places ∧ (r = .ok .suspended →
    places.getLast? = some (path ++ (u.run.slate.cursor.levels.drop depth).map Level.index))
  frees : resuming = true → ∀ o, r = .ok o →
    Scene.Frees (path ++ below.map Level.index) held event s u

abbrev Wanders (held : AppletInfo) (event : Event) (path : List Nat) (below : List Level)
    (resuming : Bool) (expected : List Nat → Prop) (depth : Nat) (s : Scene)
    (c : Dialogue Outcome) : Prop :=
  c.Treads (Scene.Trod expected s) (Arrives held event path below resuming expected depth s)

namespace Tour
open Scene
variable {held : AppletInfo} {wait : Wait} {event : Event} {mode : Mode} {path : List Nat}
  {info : AppletInfo} {s t u v : Scene} {outer below below' : List Level} {l : Level}
  {resuming : Bool} {first second expected : List Nat → Prop} {places : List (List Nat)}
  {depth : Nat} {r : Except Stop Outcome} {b : Applet} {c : Dialogue Outcome}

theorem trodBehind (adds : s.Adds t places) (rises : Rises first places)
    (order : ∀ p q, first p → second q → p < q) (left : ∀ p, first p → expected p)
    (right : ∀ q, second q → expected q) (trod : Trod second t u) : Trod expected s u := by
  obtain ⟨later, adds', rises'⟩ := trod
  exact ⟨_, addsTrans adds adds', risesAppend rises rises' order left right⟩

theorem trodWeaken (same : t.journal = s.journal) (weaker : ∀ p, first p → expected p)
    (trod : Trod first t u) : Trod expected s u := by
  obtain ⟨places, adds, rises⟩ := trod
  exact ⟨places, addsAfter (addsSame same) adds, risesWeaken rises weaker⟩

theorem arrivesBehind (adds : s.Adds t places) (rises : Rises first places)
    (order : ∀ p q, first p → second q → p < q) (left : ∀ p, first p → expected p)
    (right : ∀ q, second q → expected q)
    (freed : resuming = true → Frees (path ++ below.map Level.index) held event s t)
    (arrives : Arrives held event path below' false second depth t u r) :
    Arrives held event path below resuming expected depth s u r := by
  obtain ⟨⟨later, adds', rises', last⟩, -⟩ := arrives
  refine ⟨⟨_, addsTrans adds adds', risesAppend rises rises' order left right, fun suspended => ?_⟩,
    fun again o _ => freesUntil (freed again) adds'⟩
  rw [List.getLast?_append, last suspended]
  rfl

theorem arrivesWeaken (same : t.journal = s.journal) (weaker : ∀ p, first p → expected p)
    (arrives : Arrives held event path below resuming first depth t u r) :
    Arrives held event path below resuming expected depth s u r := by
  obtain ⟨⟨places, adds, rises, last⟩, frees⟩ := arrives
  refine ⟨⟨places, addsAfter (addsSame same) adds, risesWeaken rises weaker, last⟩,
    fun again o ended => ?_⟩
  rw [Frees, ← same]
  exact frees again o ended

theorem arrivesUntil (arrives : Arrives held event path below resuming expected depth s t r)
    (adds : t.Adds u [])
    (levels : r = .ok .suspended → u.run.slate.cursor.levels = t.run.slate.cursor.levels) :
    Arrives held event path below resuming expected depth s u r := by
  obtain ⟨⟨places, adds', rises, last⟩, frees⟩ := arrives
  refine ⟨⟨places, addsUntil adds' adds, rises, fun suspended => ?_⟩,
    fun again o ended => freesUntil (frees again o ended) adds⟩
  rw [levels suspended]
  exact last suspended

theorem wandersWeaken (same : t.journal = s.journal) (weaker : ∀ p, first p → expected p)
    (wanders : Wanders held event path below resuming first depth t c) :
    Wanders held event path below resuming expected depth s c :=
  Dialogue.treadsWeaken wanders (fun _ => trodWeaken same weaker) fun _ _ =>
    arrivesWeaken same weaker

theorem wandersBehind (adds : s.Adds t places) (rises : Rises first places)
    (order : ∀ p q, first p → second q → p < q) (left : ∀ p, first p → expected p)
    (right : ∀ q, second q → expected q)
    (freed : resuming = true → Frees (path ++ below.map Level.index) held event s t)
    (wanders : Wanders held event path below' false second depth t c) :
    Wanders held event path below resuming expected depth s c :=
  Dialogue.treadsWeaken wanders (fun _ => trodBehind adds rises order left right) fun _ _ =>
    arrivesBehind adds rises order left right freed

theorem headsLeaf {a : Applet} (leaf : a.flowKind? = none)
    (unlike : ∀ info wait, a ≠ .wait info wait)
    (heads : Heads a below resuming (.wait held wait)) : resuming = false := by
  cases resuming with
  | false => rfl
  | true =>
    have same := (Applet.leafLeads (Applet.leafChildren leaf) (heads.again rfl)).2
    exact absurd same.symm (unlike held wait)

theorem reachAdds (forward : s.run.slate.cursor.resuming = false) (path : List Nat)
    (info : AppletInfo) : s.Adds ((s.start path info).reachLeaf info) [path] :=
  addsUntil (startAdds forward path info) (addsSame rfl)

theorem aheadHere (path : List Nat) (below : List Level) : Ahead path below false path :=
  ⟨List.prefix_rfl, by simp⟩

theorem leafArrives (adds : s.Adds u places) (rises : Rises expected places) :
    Arrives held event path below false expected depth s u (.ok .completed) :=
  ⟨⟨places, adds, rises, by simp⟩, by simp⟩

theorem criterionArrives {check : Check}
    (cursor : s.run.slate.cursor = .standing outer below resuming)
    (heads : Heads (.criterion info check) below resuming (.wait held wait)) :
    Wanders held event path below resuming (Ahead path below resuming) depth s
      (visit mode path (.criterion info check) s) := by
  obtain rfl := headsLeaf rfl (by simp) heads
  have reached := reachAdds (congrArg Cursor.resuming cursor) path info
  have rises := risesOne (aheadHere path below)
  generalize reachedAt : (s.start path info).reachLeaf info = t at reached
  cases found : t.run.expected? info with
  | none =>
    rw [visitUnresolved reachedAt found]
    exact leafArrives (addsUntil reached (finishAdds ..)) rises
  | some expected =>
    rw [visitResolved reachedAt found]
    have asked := addsUntil reached (beginCheckAdds t path info expected)
    refine ⟨⟨_, asked, rises⟩, fun outcome u others => leafArrives ?_ rises⟩
    have answered := addsUntil asked (addsSame others.journal)
    exact addsUntil (addsUntil answered (endCheckAdds u path info outcome)) (finishAdds ..)

theorem actionArrives {action : Action}
    (cursor : s.run.slate.cursor = .standing outer below resuming)
    (heads : Heads (.action info action) below resuming (.wait held wait)) :
    Wanders held event path below resuming (Ahead path below resuming) depth s
      (visit mode path (.action info action) s) := by
  obtain rfl := headsLeaf rfl (by simp) heads
  have reached := reachAdds (congrArg Cursor.resuming cursor) path info
  generalize reachedAt : (s.start path info).reachLeaf info = t at reached
  rw [visitAction reachedAt]
  have asked := addsTrans reached (beginActionAdds t path info)
  have rises : Rises (Ahead path below false) ([path] ++ [path ++ [0]]) := by
    have here : Rises (· = path) [path] := risesOne rfl
    have deeper : Rises (path ++ [0] <+: ·) [path ++ [0]] := risesOne List.prefix_rfl
    refine risesAppend here deeper ?_ ?_ fun p under => ?_
    · rintro _ p rfl under
      exact parentBefore under
    · rintro _ rfl
      exact aheadHere _ below
    · exact ⟨(List.prefix_append path [0]).trans under, by simp⟩
  refine ⟨⟨_, asked, rises⟩, fun outcome u others => leafArrives ?_ rises⟩
  have answered := addsUntil asked (addsSame others.journal)
  exact addsUntil (addsUntil answered (endActionAdds u path outcome)) (finishAdds ..)

theorem waitFrees (back : s.run.slate.cursor.resuming = true)
    (found : wait.find? s.run.batch.events = some event) :
    ∃ u, visit mode path (.wait info wait) s = .finished u (.ok .completed) ∧ s.Adds u [] ∧
      Frees path info event s u := by
  have reached : (s.start path info).reachLeaf info = s.reachLeaf info := by rw [startBack back]
  have released := (tryWaitReleased (s := s.reachLeaf info) found path info).1
  have written : ((s.reachLeaf info).tryWait path info wait).2.journal =
      s.journal ++ [.released path event] := by
    have here : wait.find? (s.reachLeaf info).run.batch.events = some event := found
    unfold tryWait
    rw [here]
    rfl
  have adds := tryWaitAdds (s.reachLeaf info) path info wait
  rw [visitWait reached, released]
  generalize ((s.reachLeaf info).tryWait path info wait).2 = t at written adds
  have finished := finishJournal t path info (.passing event.passed)
  rw [written, List.append_assoc] at finished
  have result : (t.finish path info (.passing event.passed)).run.slate.result =
      some (.passing event.passed) := by
    unfold finish Run.register
    cases (AppletResult.passing event.passed).published? <;> rfl
  have quiet := addsUntil adds (finishAdds t path info (.passing event.passed))
  exact ⟨_, rfl, addsAfter (addsSame rfl) quiet, _, _, _, result, finished⟩

theorem waitArrives {own : Wait} (cursor : s.run.slate.cursor = .standing outer below resuming)
    (heads : Heads (.wait info own) below resuming (.wait held wait))
    (found : resuming = true → wait.find? s.run.batch.events = some event) :
    Wanders held event path below resuming (Ahead path below resuming) outer.length s
      (visit mode path (.wait info own) s) := by
  cases resuming with
  | true =>
    obtain ⟨rfl, same⟩ := Applet.leafLeads rfl (heads.again rfl)
    cases same
    have back : s.run.slate.cursor.resuming = true := congrArg Cursor.resuming cursor
    obtain ⟨u, ends, adds, frees⟩ : ∃ u, visit mode path (.wait held wait) s = _ ∧ _ ∧
      Frees path held event s u := waitFrees back (found rfl)
    rw [ends]
    refine ⟨⟨[], adds, risesNone, by simp⟩, fun _ _ _ => ?_⟩
    rwa [List.map_nil, List.append_nil]
  | false =>
    obtain rfl := heads.forward rfl
    have rises := risesOne (aheadHere path [])
    have reached := reachAdds (congrArg Cursor.resuming cursor) path info
    have stood := reachPosture s path info
    generalize reachedAt : (s.start path info).reachLeaf info = t at reached stood
    have tried := addsUntil reached (tryWaitAdds t path info own)
    rw [visitWait reachedAt]
    cases accepts : own.find? t.run.batch.events with
    | none =>
      obtain ⟨refused, stopped⟩ := waitRefusedPosture accepts path info
      rw [refused]
      have stands : (t.tryWait path info own).2.posture.cursor = .standing outer [] false := by
        rw [stopped, stood]
        exact congrArg Cursor.endResume cursor
      refine ⟨⟨_, tried, rises, fun _ => ?_⟩, by simp⟩
      rw [show (t.tryWait path info own).2.run.slate.cursor = _ from stands]
      simp [Cursor.standing]
    | some event =>
      rw [(tryWaitReleased accepts path info).1]
      exact leafArrives (addsUntil tried (finishAdds ..)) rises

abbrev Advances (mode : Mode) (path : List Nat) (a : Applet) (held : AppletInfo) (wait : Wait)
    (event : Event) : Prop :=
  ∀ s outer below resuming, s.run.slate.cursor = .standing outer below resuming →
    Heads a below resuming (.wait held wait) →
    (resuming = true → wait.find? s.run.batch.events = some event) →
    Wanders held event path below resuming (Ahead path below resuming) outer.length s
      (visit mode path a s)

abbrev AdvancesFrom (mode : Mode) (path : List Nat) (info : AppletInfo) (children : List Applet)
    (i : Nat) (rest : List Applet) (outer : List Level) (held : AppletInfo) (wait : Wait)
    (event : Event) : Prop :=
  ∀ s l below resuming, s.run.slate.cursor = .standing (outer ++ [l]) below resuming →
    HeadsFrom children i l below resuming (.wait held wait) →
    (resuming = true → wait.find? s.run.batch.events = some event) →
    Wanders held event path (l :: below) resuming (AheadFrom path i (l :: below) resuming)
      outer.length s (visitFrom mode path info outer.length i rest s)

theorem headsChild {children : List Applet} {child : Applet} {i : Nat}
    (place : children[i]? = some child) (reached : l.index ≤ i)
    (heads : HeadsFrom children i l below resuming b) :
    l.index = i ∧ Heads child below resuming b := by
  have here : l.index = i := Nat.le_antisymm reached heads.ahead
  refine ⟨here, heads.forward, fun again => ?_⟩
  have leads := heads.again again
  rwa [here, place] at leads

theorem aheadChild {i : Nat} (here : l.index = i) (p : List Nat)
    (ahead : Ahead (path ++ [i]) below resuming p) : AheadFrom path i (l :: below) resuming p := by
  refine ⟨⟨i, Nat.le_refl i, ahead.1⟩, fun again => ?_⟩
  have behind := ahead.2 again
  rwa [List.append_assoc, ← here] at behind

theorem aheadBehind {i : Nat} (here : l.index = i) {levels : List Level} {forth : Bool}
    (p : List Nat) (ahead : AheadFrom path (i + 1) levels forth p) :
    AheadFrom path i (l :: below) resuming p := by
  obtain ⟨⟨k, behind, under⟩, -⟩ := ahead
  have place : path ++ [i] <+: path ++ (l :: below).map Level.index := by
    rw [List.map_cons, here]
    exact ⟨_, (List.append_cons ..).symm⟩
  exact ⟨⟨k, by omega, under⟩, fun _ => childBefore behind place under⟩

theorem headsBare {a : Applet} (heads : Heads a below resuming b) :
    (if a.flowKind?.isSome then [] else below) = [] := by
  cases kind : a.flowKind? with
  | some k => rfl
  | none =>
    cases resuming with
    | false => exact heads.forward rfl
    | true => exact (Applet.leafLeads (Applet.leafChildren kind) (heads.again rfl)).1

section
variable {children rest : List Applet} {child : Applet} {i : Nat}

theorem passOverArrives {chain : Chain} (here : l.index = i) (adds : s.Adds v [])
    (cursor : v.run.slate.cursor =
      .standing (outer ++ [{ l with index := l.index + 1, chain }]) [] false)
    (next : AdvancesFrom mode path info children (i + 1) rest outer held wait event) :
    Wanders held event path [l] false (AheadFrom path i [l] false) outer.length s
      (visitFrom mode path info outer.length (i + 1) rest v) := by
  have none : Rises (fun _ => False) [] := risesNone
  have ahead : HeadsFrom children (i + 1) { l with index := l.index + 1, chain } [] false
      (.wait held wait) := ⟨by rw [here], fun _ => rfl, by simp⟩
  exact wandersBehind adds none (by simp) (by simp) (aheadBehind here) (by simp)
    (next v _ [] false cursor ahead (by simp))

theorem goOnArrives {p : Posture} {outcome : Outcome} (here : l.index = i)
    (heads : Heads child below resuming (.wait held wait))
    (next : AdvancesFrom mode path info children (i + 1) rest outer held wait event)
    (settled : Settles child (outer ++ [l]) below resuming p t (.ok outcome))
    (arrives : Arrives held event (path ++ [i]) below resuming (Ahead (path ++ [i]) below resuming)
      (outer ++ [l]).length s t (.ok outcome)) :
    Wanders held event path (l :: below) resuming (AheadFrom path i (l :: below) resuming)
      outer.length s (goOn mode path info outer.length i child rest outcome t) := by
  obtain ⟨⟨places, adds, rises, last⟩, frees⟩ := arrives
  have freed (again : resuming = true) :
      Frees (path ++ (l :: below).map Level.index) held event s t := by
    rw [List.map_cons, here, List.append_cons]
    exact frees again _ rfl
  cases settled with
  | suspended cursor stops inside back =>
    refine ⟨⟨places, adds, risesWeaken rises (aheadChild here), fun _ => ?_⟩,
      fun again _ _ => freed again⟩
    rw [last rfl, show t.run.slate.cursor = _ from cursor]
    simp [Cursor.standing, here]
  | completed cursor passes leaf back meets =>
    have found : t.run.slate.cursor.levels[outer.length]? = some l := by
      rw [show t.run.slate.cursor = _ from cursor, Cursor.standingLevel]
    have led : child.Led below resuming := fun again _ => ⟨held, wait, heads.again again⟩
    obtain ⟨rfl, -⟩ := back led
    rw [headsBare heads] at cursor
    obtain ⟨chain, kept, moved⟩ := passOnPosture cursor child.flowKind?
    rw [goOnPassed found]
    have still : (t.passOn outer.length child.flowKind?).2.journal = t.journal := rfl
    generalize (t.passOn outer.length child.flowKind?).2 = v at moved still ⊢
    generalize (t.passOn outer.length child.flowKind?).1 = successful
    have passed : s.Adds v places := addsUntil adds (addsSame still)
    have freed' (again : resuming = true) := freesUntil (freed again) (addsSame still)
    split
    · have skipped := skipFromAdds v path (i + 1) rest
      exact ⟨⟨places, addsUntil passed skipped, risesWeaken rises (aheadChild here), by simp⟩,
        fun again _ _ => freesUntil (freed' again) skipped⟩
    · have ahead : HeadsFrom children (i + 1) ⟨l.index + 1, chain, kept, l.saved⟩ [] false
          (.wait held wait) := ⟨by rw [here], fun _ => rfl, by simp⟩
      have onward := next v _ _ _ (congrArg Posture.cursor moved) ahead (by simp)
      refine wandersBehind passed rises ?_ (aheadChild here) (aheadBehind here) freed' onward
      rintro p q first ⟨⟨k, behind, under⟩, -⟩
      exact childBefore behind first.1 under

theorem evaluateArrives (here : l.index = i)
    (cursor : s.run.slate.cursor = .standing (outer ++ [l]) below resuming)
    (heads : Heads child below resuming (.wait held wait))
    (found : resuming = true → wait.find? s.run.batch.events = some event)
    (visits : Advances mode (path ++ [i]) child held wait event)
    (next : AdvancesFrom mode path info children (i + 1) rest outer held wait event) :
    Wanders held event path (l :: below) resuming (AheadFrom path i (l :: below) resuming)
      outer.length s
      ((visit mode (path ++ [i]) child (s.onRun fun r => r.setFlow info)).bind
        (goOn mode path info outer.length i child rest)) := by
  have still : (s.onRun fun r => r.setFlow info).journal = s.journal := rfl
  have visited := visits (s.onRun fun r => r.setFlow info) (outer ++ [l]) below resuming cursor
    heads found
  have settled := visitSettles child child.onlyAnything mode (path ++ [i])
    (s.onRun fun r => r.setFlow info) (outer ++ [l]) below resuming cursor
  refine Dialogue.treadsBind (Dialogue.treadsWeaken (Dialogue.treadsWith settled visited)
    (fun t => trodWeaken still (aheadChild here)) fun t r ends => ends)
    (fun t outcome ends => ?_) fun t e ends => ?_
  · exact goOnArrives here heads next ends.1 (arrivesWeaken still (fun _ => id) ends.2)
  · obtain ⟨places, adds, rises, -⟩ := ends.2.trail
    exact ⟨⟨places, adds, risesWeaken rises (aheadChild here), by simp⟩, by simp⟩

theorem visitFromArrives
    (visits : ∀ c ∈ children, ∀ mode path, Advances mode path c held wait event)
    (before rest : List Applet) (parts : children = before ++ rest) :
    AdvancesFrom mode path info children before.length rest outer held wait event := by
  induction rest generalizing before with
  | nil =>
    intro s l below resuming cursor heads found
    rw [visitFrom]
    rw [List.append_nil] at parts
    cases resuming with
    | false => exact leafArrives (addsSame rfl) risesNone
    | true =>
      -- All children are behind, so that no level leads to one of them.
      have leads := heads.again rfl
      rw [List.getElem?_eq_none (by rw [parts]; exact heads.ahead)] at leads
      cases leads
  | cons child rest ih =>
    intro s l below resuming cursor heads found
    have level : s.run.slate.cursor.levels[outer.length]? = some l := by
      rw [cursor, Cursor.standingLevel]
    have next := ih (before ++ [child]) (by rw [parts, List.append_assoc]; rfl)
    rw [List.length_append, List.length_singleton] at next
    by_cases past : before.length < l.index
    · rw [visitFromPast level past]
      refine wandersWeaken rfl ?_
        (next s l below resuming cursor ⟨past, heads.forward, heads.again⟩ found)
      rintro p ⟨⟨k, behind, under⟩, later⟩
      exact ⟨⟨k, by omega, under⟩, later⟩
    · have reached := Nat.le_of_not_lt past
      cases active : s.isActive with
      | false =>
        rw [visitFromCancelled level reached active]
        exact ⟨⟨[], addsSame rfl, risesNone, by simp⟩, by simp⟩
      | true =>
        have back : s.run.slate.cursor.resuming = resuming := congrArg Cursor.resuming cursor
        have place : children[before.length]? = some child := by simp [parts]
        obtain ⟨here, inner⟩ := headsChild place reached heads
        rw [visitFromNext level reached active, back]
        have plans := planBack resuming (l.chain.plan child.flowKind?)
        generalize (if resuming then Plan.evaluate else l.chain.plan child.flowKind?) = plan
          at plans ⊢
        cases plan with
        | skip | orphan =>
          obtain rfl := plans.resolve_left (by simp)
          obtain rfl := heads.forward rfl
          exact passOverArrives here (passOverAdds ..)
            (congrArg Posture.cursor (passOverPosture cursor ..)) next
        | evaluate =>
          exact evaluateArrives here cursor inner found
            (visits child (List.mem_of_getElem? place) _ _) next

end

theorem closeFlowArrives {spec : FlowSpec} {outcome : Outcome}
    (arrives : Arrives held event path below resuming expected depth s t (.ok outcome)) :
    Wanders held event path below resuming expected depth s
      (closeFlow path info spec depth outcome t) := by
  cases outcome with
  | completed =>
    rw [closeFlowCompleted]
    exact arrivesUntil arrives (addsUntil (leaveFlowAdds t spec depth) (finishAdds ..)) (by simp)
  | suspended =>
    rw [closeFlowSuspended]
    exact arrivesUntil arrives (addsSame rfl) fun _ => rfl

theorem flowArrivesAgain {spec : FlowSpec} {children : List Applet} {rest : List Level}
    (visits : ∀ c ∈ children, ∀ mode path, Advances mode path c held wait event)
    (cursor : s.run.slate.cursor = .standing outer (l :: rest) true)
    (leads : (Applet.flow info spec children).LeadsTo (l :: rest) (.wait held wait))
    (found : wait.find? s.run.batch.events = some event) :
    Wanders held event path (l :: rest) true (Ahead path (l :: rest) true) outer.length s
      (visit mode path (.flow info spec children) s) := by
  have stays := startBack (congrArg Cursor.resuming cursor) path info
  obtain ⟨again, inner⟩ := enterAgain cursor
  have entered : s.enterFlow.2.journal = s.journal := rfl
  rw [visitFlowAgain (stays.symm ▸ again), stays]
  have pursue : AdvancesFrom (spec.kind.mode mode) path info children 0 children outer held wait
      event := visitFromArrives visits [] children rfl
  have pursued := pursue s.enterFlow.2 l rest true inner ⟨Nat.zero_le _, by simp, fun _ => leads⟩
    fun _ => found
  refine Dialogue.treadsBind (wandersWeaken entered ?_ pursued)
    (fun u outcome arrives => closeFlowArrives arrives) fun u e arrives => arrives
  rintro p ⟨⟨k, -, under⟩, later⟩
  exact ⟨(List.prefix_append path [k]).trans under, later⟩

theorem flowArrivesAnew {spec : FlowSpec} {children : List Applet}
    (visits : ∀ c ∈ children, ∀ mode path, Advances mode path c held wait event)
    (cursor : s.run.slate.cursor = .standing outer [] false) :
    Wanders held event path [] false (Ahead path [] false) outer.length s
      (visit mode path (.flow info spec children) s) := by
  have started := startAdds (congrArg Cursor.resuming cursor) path info
  have stands : (s.start path info).run.slate.cursor = .standing outer [] false :=
    (congrArg Posture.cursor (startPosture s path info)).trans cursor
  obtain ⟨first, inner⟩ := enterFirst (by simp) stands
  have chose := chooseAdds (s.start path info).enterFlow.2 path spec outer.length
  have entered := addsUntil (addsUntil started (addsSame rfl)) chose
  rw [visitFlowFirst first]
  rcases choosePosture inner path spec with unavailable | ⟨available, l, target, saved, chosen⟩
  · rw [unavailable] at entered ⊢
    have left := addsUntil (abandonFlowAdds (s.start path info).enterFlow.2 path children
      outer.length) (finishAdds _ path info (.empty false))
    exact leafArrives (addsUntil entered left) (risesOne (aheadHere path []))
  · generalize (s.start path info).enterFlow.2.choose path spec outer.length = choice
      at available chosen entered ⊢
    obtain ⟨_, t⟩ := choice
    obtain rfl : _ = true := available
    have here : Rises (· = path) [path] := risesOne rfl
    have pursue : AdvancesFrom (spec.kind.mode mode) path info children 0 children outer held wait
        event := visitFromArrives visits [] children rfl
    have pursued := pursue t l [] false (congrArg Posture.cursor chosen)
      ⟨Nat.zero_le _, fun _ => rfl, by simp⟩ (by simp)
    refine Dialogue.treadsBind (wandersBehind entered here ?_ ?_ ?_ (by simp) pursued)
      (fun u outcome arrives => closeFlowArrives arrives) fun u e arrives => arrives
    · rintro _ q rfl ⟨⟨k, -, under⟩, -⟩
      exact parentBefore under
    · rintro _ rfl
      exact aheadHere _ []
    · rintro q ⟨⟨k, -, under⟩, -⟩
      exact ⟨(List.prefix_append path [k]).trans under, by simp⟩

theorem visitArrives (a : Applet) (mode : Mode) (path : List Nat) :
    Advances mode path a held wait event := by
  induction a using Applet.byChildren generalizing mode path with
  | criterion info check => exact fun _ _ _ _ cursor heads _ => criterionArrives cursor heads
  | action info action => exact fun _ _ _ _ cursor heads _ => actionArrives cursor heads
  | wait info own => exact fun _ _ _ _ => waitArrives
  | flow info spec children ih =>
    intro s outer below resuming cursor heads found
    cases resuming with
    | false =>
      obtain rfl := heads.forward rfl
      exact flowArrivesAnew ih cursor
    | true =>
      have leads := heads.again rfl
      cases below with
      | nil => cases leads
      | cons l rest => exact flowArrivesAgain ih cursor leads (found rfl)

end Tour
end Automation
