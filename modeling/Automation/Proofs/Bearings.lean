import Automation.Proofs.Levels
import Automation.Proofs.Tale
import Automation.Proofs.Trail
/-! The position of a run when an applet starts or ends, as its tracker has it. The levels of a walk
are those of the flows around the applet it is at, and on the way back to a wait those that lead to
the wait. So the position of the run is the path of the applet that is told of; between the calls it
is the path of the wait that is pending, or empty. -/
namespace Automation
open Scene

namespace Entry

/- What is told of the start or the end of an applet of the tree is told where the run stands. -/
def Sited (tree : Applet) : Entry → Prop
  | notice _ .skipped _ _ _ => True
  | notice _ _ path info run =>
    run.position = path ∧ (tree.at? path).map Applet.info = some info
  | _ => True

def asks : Entry → Bool
  | checking .. | performing .. => true
  | _ => false

end Entry

structure Lies (tree : Applet) (outer : List Level) (path : List Nat) (a : Applet) : Prop where
  index : outer.map Level.index = path
  found : tree.at? path = some a

namespace Scene

def Sited (tree : Applet) (s : Scene) : Prop := ∀ e ∈ s.journal, e.Sited tree

def Asks (s : Scene) : Prop := ∃ e, s.journal.getLast? = some e ∧ e.asks = true

variable {tree a : Applet} {s t : Scene} {outer below : List Level} {l : Level} {resuming : Bool}
  {path : List Nat} {info : AppletInfo} {spec : FlowSpec} {children : List Applet}

theorem liesChild {child : Applet} (lies : Lies tree outer path (.flow info spec children))
    (found : children[l.index]? = some child) :
    Lies tree (outer ++ [l]) (path ++ [l.index]) child := by
  refine ⟨?_, atChild lies.found found⟩
  rw [List.map_append, lies.index]
  rfl

theorem noteSited {e : Entry} (sited : s.Sited tree) (right : e.Sited tree) :
    (s.note e).Sited tree := by
  intro e' inside
  rcases List.mem_append.mp inside with before | last
  · exact sited e' before
  · rwa [List.mem_singleton.mp last]

theorem skipSited (sited : s.Sited tree) (path : List Nat) (info : AppletInfo) :
    (s.tell .skipped path info).Sited tree := noteSited sited trivial

theorem skipFromSited (sited : s.Sited tree) (path : List Nat) (i : Nat) (children : List Applet) :
    (s.skipFrom path i children).Sited tree := by
  induction children generalizing s i with
  | nil => exact sited
  | cons child rest ih => exact ih (skipSited sited _ _) (i + 1)

theorem tellSited (lies : Lies tree outer path a)
    (cursor : s.run.slate.cursor = .standing outer [] resuming) (sited : s.Sited tree)
    (phase : Phase) : (s.tell phase path a.info).Sited tree := by
  have position : s.run.position = path := by
    rw [Run.position, cursor, ← lies.index]
    simp [Cursor.position, Cursor.standing]
  refine noteSited sited ?_
  cases phase with
  | skipped => trivial
  | started | terminated => exact ⟨position, by rw [lies.found]; rfl⟩

theorem startSited (lies : Lies tree outer path a)
    (cursor : s.run.slate.cursor = .standing outer below resuming)
    (forward : resuming = false → below = []) (sited : s.Sited tree) :
    (s.start path a.info).Sited tree := by
  cases resuming with
  | true => rwa [startBack (congrArg Cursor.resuming cursor)]
  | false =>
    obtain rfl := forward rfl
    unfold start
    rw [cursor]
    exact tellSited (s := s.onRun fun r => r.setApplet a.info) lies cursor sited .started

theorem finishSited (lies : Lies tree outer path a)
    (cursor : s.run.slate.cursor = .standing outer [] resuming) (sited : s.Sited tree)
    (result : AppletResult) : (s.finish path a.info result).Sited tree := by
  have stands : (s.finish path a.info result).run.slate.cursor = .standing outer [] resuming :=
    (congrArg Posture.cursor (finishPosture s path a.info result)).trans cursor
  exact tellSited lies stands (s := { s with
    run := (s.run.register a.info result s.world.bodies).1
    world := { s.world with bodies := (s.run.register a.info result s.world.bodies).2 } })
    sited .terminated

theorem actSited {α : Type} {f : Scene → α × Scene} (step : Act f) (sited : s.Sited tree) :
    (f s).2.Sited tree := by
  cases step with
  | beginCheck path info expected => exact noteSited (s := s.onRun _) sited trivial
  | beginAction path info => exact noteSited (s := s.onRun _) sited trivial
  | endCheck path info outcome =>
    have noted : (s.note (.checked path outcome)).Sited tree := noteSited sited trivial
    cases outcome with
    | error cause => exact noted
    | ok c =>
      simp only [endCheck]
      split <;> exact noted
  | endAction path outcome =>
    have noted : (s.note (.performed path outcome)).Sited tree := noteSited sited trivial
    cases outcome <;> exact noted
  | tryWait path info wait =>
    simp only [tryWait]
    split
    · exact noteSited (s := s.onRun _) sited trivial
    · exact sited
  | enterFlow => exact sited
  | choose path spec level =>
    simp only [choose]
    split
    · exact sited
    · split
      · exact sited
      · exact noteSited (s := s.onRun _) sited trivial
  | leaveFlow spec level =>
    simp only [leaveFlow]
    split
    · exact sited
    · split
      · split <;> exact sited
      · exact sited
  | passOn level kind => exact sited

end Scene

namespace Tour
variable {tree : Applet} {mode : Mode} {path : List Nat} {info : AppletInfo} {s t : Scene}
  {outer below : List Level} {l : Level} {resuming : Bool} {spec : FlowSpec}
  {children : List Applet}

abbrev Tells {α : Type} (tree : Applet) (c : Dialogue α) : Prop :=
  c.Treads (fun s => s.Sited tree ∧ s.Asks) fun u r => u.Sited tree ∧ r ≠ .error .panicked

abbrev Bears (tree a : Applet) : Prop :=
  ∀ mode path s outer below resuming, Lies tree outer path a →
    s.run.slate.cursor = .standing outer below resuming → a.Led below resuming →
    (a.flowKind? = none → below = []) → (resuming = false → below = []) → s.Sited tree →
    Tells tree (visit mode path a s)

theorem reachSited {a : Applet} (lies : Lies tree outer path a)
    (cursor : s.run.slate.cursor = .standing outer [] resuming) (sited : s.Sited tree)
    (reached : (s.start path a.info).reachLeaf a.info = t) :
    t.Sited tree ∧ t.run.slate.cursor = .standing outer [] false := by
  subst reached
  refine ⟨startSited lies cursor (fun _ => rfl) sited, ?_⟩
  have reached := congrArg Posture.cursor (reachPosture s path a.info)
  exact reached.trans (congrArg Cursor.endResume cursor)

theorem criterionBears (info : AppletInfo) (check : Check) :
    Bears tree (.criterion info check) := by
  intro mode path s outer below resuming lies cursor led bare forward sited
  obtain rfl := bare rfl
  generalize reached : (s.start path info).reachLeaf info = t
  obtain ⟨told, stands⟩ := reachSited lies cursor sited reached
  cases found : t.run.expected? info with
  | none =>
    rw [visitUnresolved reached found]
    exact ⟨finishSited lies stands told _, by simp⟩
  | some expected =>
    rw [visitResolved reached found]
    have asked := actSited (.beginCheck path info expected) told
    refine ⟨⟨asked, _, List.getLast?_concat .., rfl⟩, fun outcome u others => ?_⟩
    have answered : u.Sited tree := by rwa [Scene.Sited, others.journal]
    have stood : u.run.slate.cursor = .standing outer [] false := by
      rw [others.run]
      exact (congrArg Posture.cursor (beginCheckPosture t path info expected)).trans stands
    have ended : (u.endCheck path info outcome).2.run.slate.cursor = .standing outer [] false :=
      (congrArg Posture.cursor (endCheckPosture u path info outcome)).trans stood
    exact ⟨finishSited lies ended (actSited (.endCheck path info outcome) answered) _, by simp⟩

theorem actionBears (info : AppletInfo) (action : Action) : Bears tree (.action info action) := by
  intro mode path s outer below resuming lies cursor led bare forward sited
  obtain rfl := bare rfl
  generalize reached : (s.start path info).reachLeaf info = t
  obtain ⟨told, stands⟩ := reachSited lies cursor sited reached
  rw [visitAction reached]
  have asked := actSited (.beginAction path info) told
  refine ⟨⟨asked, _, List.getLast?_concat .., rfl⟩, fun outcome u others => ?_⟩
  have answered : u.Sited tree := by rwa [Scene.Sited, others.journal]
  have stood : u.run.slate.cursor = .standing outer [] false := by
    rw [others.run]
    exact (congrArg Posture.cursor (beginActionPosture t path info)).trans stands
  have ended : (u.endAction path outcome).2.run.slate.cursor = .standing outer [] false :=
    (congrArg Posture.cursor (endActionPosture u path outcome)).trans stood
  exact ⟨finishSited lies ended (actSited (.endAction path outcome) answered) _, by simp⟩

theorem waitBears (info : AppletInfo) (wait : Wait) : Bears tree (.wait info wait) := by
  intro mode path s outer below resuming lies cursor led bare forward sited
  obtain rfl := bare rfl
  generalize reached : (s.start path info).reachLeaf info = t
  obtain ⟨told, stands⟩ := reachSited lies cursor sited reached
  have tried := actSited (.tryWait path info wait) told
  rw [visitWait reached]
  cases found : wait.find? t.run.batch.events with
  | none =>
    rw [(waitRefusedPosture found path info).1]
    exact ⟨tried, by simp⟩
  | some event =>
    obtain ⟨released, freed⟩ := waitReleasedPosture found path info
    obtain ⟨result, released⟩ := Option.isSome_iff_exists.mp released
    rw [released]
    have stood : (t.tryWait path info wait).2.posture.cursor = .standing outer [] false := by
      rw [freed]
      exact stands
    exact ⟨finishSited lies stood tried result, by simp⟩

theorem visitFromBears (visits : ∀ c ∈ children, Bears tree c)
    (lies : Lies tree outer path (.flow info spec children)) (before rest : List Applet)
    (parts : children = before ++ rest)
    (cursor : s.run.slate.cursor = .standing (outer ++ [l]) below resuming)
    (led : LedFrom children before.length l below resuming) (sited : s.Sited tree) :
    Tells tree (visitFrom mode path info outer.length before.length rest s) := by
  induction rest generalizing before s l below resuming with
  | nil =>
    rw [visitFrom]
    exact ⟨sited, by simp⟩
  | cons child rest ih =>
    have found : s.run.slate.cursor.levels[outer.length]? = some l := by
      rw [cursor, Cursor.standingLevel]
    have next {t : Scene} {l' : Level} {below' : List Level} {resuming' : Bool}
        (cursor : t.run.slate.cursor = .standing (outer ++ [l']) below' resuming')
        (led : LedFrom children (before.length + 1) l' below' resuming') (sited : t.Sited tree) :
        Tells tree (visitFrom mode path info outer.length (before.length + 1) rest t) := by
      have later := ih (before ++ [child]) (by simp [parts]) cursor (by simpa using led) sited
      rwa [List.length_append, List.length_singleton] at later
    by_cases past : before.length < l.index
    · rw [visitFromPast found past]
      exact next cursor ⟨past, led.forward, led.again⟩ sited
    · have reached := Nat.le_of_not_lt past
      have place : children[before.length]? = some child := by simp [parts]
      obtain ⟨here, ledChild, bare⟩ := ledChild place reached led
      cases active : s.isActive with
      | false =>
        rw [visitFromCancelled found reached active]
        exact ⟨sited, by simp⟩
      | true =>
        have back : s.run.slate.cursor.resuming = resuming := congrArg Cursor.resuming cursor
        rw [visitFromNext found reached active, back]
        have plans := planBack resuming (l.chain.plan child.flowKind?)
        generalize (if resuming then Plan.evaluate else l.chain.plan child.flowKind?) = plan
          at plans ⊢
        -- Nothing is passed over on the way back.
        have passed (chain : Chain) (ahead : resuming = false) :=
          next (congrArg Posture.cursor
            (passOverPosture cursor (path ++ [before.length]) child.info chain))
            ⟨Nat.succ_le_succ led.ahead, fun _ => led.forward ahead, by simp [ahead]⟩
            (skipSited sited _ child.info)
        cases plan with
        | skip => exact passed l.chain (plans.resolve_left (by simp))
        | orphan => exact passed .idle (plans.resolve_left (by simp))
        | evaluate =>
          have liesChild : Lies tree (outer ++ [l]) (path ++ [before.length]) child := by
            have inner : Lies tree (outer ++ [l]) (path ++ [l.index]) child :=
              Scene.liesChild lies (by rw [here, place])
            rwa [here] at inner
          have stands : (s.onRun fun r => r.setFlow info).run.slate.cursor =
            .standing (outer ++ [l]) below resuming := cursor
          have visited := visits child (List.mem_of_getElem? place) mode _
            (s.onRun fun r => r.setFlow info) _ _ _ liesChild stands ledChild bare led.forward sited
          have settles := visitSettles child child.onlyAnything mode (path ++ [before.length])
            (s.onRun fun r => r.setFlow info) _ _ _ stands
          refine Dialogue.treadsBind (Dialogue.treadsWith settles visited)
            (fun t outcome ended => ?_) fun t e ended => ⟨ended.2.1, by simpa using ended.2.2⟩
          obtain ⟨settled, told, -⟩ := ended
          cases settled with
          | suspended cursor stops inside back => exact ⟨told, by simp⟩
          | completed cursor passes leaf back meets =>
            have found : t.run.slate.cursor.levels[outer.length]? = some l := by
              rw [show t.run.slate.cursor = _ from cursor, Cursor.standingLevel]
            obtain ⟨rfl, -⟩ := back ledChild
            obtain ⟨chain, last, moved⟩ := passOnPosture cursor child.flowKind?
            have kept := actSited (.passOn outer.length child.flowKind?) told
            rw [goOnPassed found]
            split
            · exact ⟨skipFromSited kept _ _ _, by simp⟩
            · refine next (congrArg Posture.cursor moved) ⟨by rw [here], fun _ => ?_, by simp⟩ kept
              cases kind : child.flowKind? with
              | some k => rfl
              | none => exact bare kind

theorem pursueBears (visits : ∀ c ∈ children, Bears tree c)
    (lies : Lies tree outer path (.flow info spec children))
    (cursor : s.run.slate.cursor = .standing (outer ++ [l]) below resuming)
    (led : LedFrom children 0 l below resuming) (sited : s.Sited tree) :
    Tells tree ((visitFrom mode path info outer.length 0 children s).bind
      (closeFlow path info spec outer.length)) := by
  have settles := childrenSettle mode path info children cursor
  have through : Tells tree (visitFrom mode path info outer.length 0 children s) :=
    visitFromBears visits lies [] children rfl cursor led sited
  refine Dialogue.treadsBind (Dialogue.treadsWith settles through) (fun t outcome ended => ?_)
    fun t e ended => ⟨ended.2.1, by simpa using ended.2.2⟩
  obtain ⟨goes, told, -⟩ := ended
  cases goes with
  | suspended cursor saved stops inside deeper back =>
    rw [closeFlowSuspended]
    exact ⟨told, by simp⟩
  | completed cursor saved passes back meets =>
    rw [closeFlowCompleted]
    have left := congrArg Posture.cursor (leaveFlowPosture cursor spec)
    exact ⟨finishSited lies left (actSited (.leaveFlow spec outer.length) told) _, by simp⟩

theorem flowBears (visits : ∀ c ∈ children, Bears tree c) :
    Bears tree (.flow info spec children) := by
  intro mode path s outer below resuming lies cursor led bare forward sited
  have told := startSited lies cursor forward sited
  have stands : (s.start path info).run.slate.cursor = .standing outer below resuming :=
    (congrArg Posture.cursor (startPosture s path info)).trans cursor
  have entered : (s.start path info).enterFlow.2.Sited tree := told
  by_cases fresh : below = []
  · obtain ⟨first, inner⟩ := enterFirst (fun _ => fresh) stands
    rw [visitFlowFirst first]
    have chosen := actSited (.choose path spec outer.length) entered
    rcases choosePosture inner path spec with unavailable | ⟨available, l, target, saved, chose⟩
    · rw [unavailable]
      have left := congrArg Posture.cursor (abandonFlowPosture inner path children)
      exact ⟨finishSited lies left (skipFromSited entered path 0 children) _, by simp⟩
    · generalize (s.start path info).enterFlow.2.choose path spec outer.length = choice
        at available chosen chose ⊢
      obtain ⟨_, t⟩ := choice
      obtain rfl : _ = true := available
      exact pursueBears visits lies (congrArg Posture.cursor chose)
        ⟨Nat.zero_le _, fun _ => rfl, by simp⟩ chosen
  · obtain ⟨l, rest, rfl⟩ := List.exists_cons_of_ne_nil fresh
    cases resuming with
    | false => exact absurd (forward rfl) fresh
    | true =>
      obtain ⟨again, inner⟩ := enterAgain stands
      rw [visitFlowAgain again]
      exact pursueBears visits lies inner ⟨Nat.zero_le _, by simp, fun _ => led rfl fresh⟩ entered

theorem visitBears (a : Applet) : Bears tree a := by
  induction a using Applet.byChildren with
  | criterion info check => exact criterionBears info check
  | action info action => exact actionBears info action
  | wait info wait => exact waitBears info wait
  | flow info spec children ih => exact flowBears ih

end Tour

theorem pendingLeads {target path a part below aim info wait}
    (pending : Pending target path a part below aim info wait) :
    a.LeadsTo below (.wait info wait) := by
  induction pending with
  | wait started => rfl
  | flow opens done index saved inner ih =>
    refine Applet.flowLeads.mpr ?_
    rw [index, List.getElem?_append_right (Nat.le_refl _), Nat.sub_self]
    exact ih

namespace Lone
variable {l : Lone} {first : Batch} {batches : List Batch} {call : Summons} {task : Task}
  {target : Option Json} {s u : Scene} {r : Option (Except Stop (Option Outcome))}

structure Sets (task : Task) (s : Scene) : Prop where
  sited : s.Sited task.tree
  stands : ∃ below resuming, s.run.slate.cursor = .standing [] below resuming ∧
    task.tree.Led below resuming ∧ (resuming = false → below = [])

theorem setsTells (sets : Sets task s) : Tour.Tells task.tree
    ((Tour.visit .aggregate [] task.tree s).bind
      fun outcome u => .finished u (.ok (some outcome))) := by
  obtain ⟨below, resuming, cursor, led, forward⟩ := sets.stands
  have bare (leaf : task.tree.flowKind? = none) : below = [] := by
    rw [task.rooted] at leaf
    cases leaf
  have tells := Tour.visitBears task.tree .aggregate [] s [] below resuming ⟨rfl, rfl⟩ cursor led
    bare forward sets.sited
  exact Dialogue.treadsBind tells (fun u outcome ended => ⟨ended.1, by simp⟩)
    fun u e ended => ⟨ended.1, by simpa using ended.2⟩

theorem resumeSets (rests : Rests target task s.run s.journal) (sited : s.Sited task.tree)
    (qualifies : s.run.qualifies s.occasion.batch.events = true) : Sets task s.resume := by
  cases rests with
  | settled chronicle idle => simp [Run.qualifies, Run.waitsFor?, idle] at qualifies
  | @held below info wait pending cursor result waiting =>
    refine ⟨sited, below, true, ?_, fun _ _ => ⟨info, wait, pendingLeads pending⟩, by simp⟩
    change s.run.slate.cursor.beginResume = _
    rw [cursor]
    exact Cursor.resumeStanding (pendingDeep pending)

theorem summonsTells (same : s.run.task = task) (sited : s.Sited task.tree)
    (sets : ∀ path t, Errand.Opens s (.call call) path t → Sets task t) :
    Tour.Tells task.tree (call.tour s) := by
  change Tour.Tells task.tree ((Errand.call call).tour s)
  rcases Errand.tourStarts (.call call) s with ⟨path, t, opens⟩ | ⟨q, refused, ended⟩
  · have begun := setsTells (sets path t opens)
    rw [Errand.tourOpens opens]
    cases opens <;> exact same ▸ begun
  · rw [ended]
    refine ⟨sited, ?_⟩
    cases refused <;> simp

theorem beginsTells (start : (l.scene first).Stands [] none target []) (same : l.run.task = task)
    (begins : Begins l first batches call s) : Tour.Tells task.tree (call.tour s) := by
  induction begins with
  | run =>
    have sited : (l.scene first).Sited task.tree := by simp [Scene.Sited, start.journal]
    refine summonsTells same sited fun path t opens => ?_
    cases opens with
    | run active =>
      exact ⟨sited, [], false, forwardCursor start.forward, by simp [Applet.Led], fun _ => rfl⟩
  | @trigger batches call s u r batch t earlier comes handed ih =>
    have task' : t.run.task = task := beginsTask same (.trigger earlier comes handed)
    have rests := backRests (momentBack start same ⟨earlier, comes⟩)
    rw [← handed.run, ← handed.journal] at rests
    have sited : t.Sited task.tree := by
      rw [Scene.Sited, handed.journal]
      rw [← call.tourProcess s] at comes
      rcases Dialogue.treadsMoment ih comes with ⟨v, ⟨sited, -⟩, journal, -⟩ | ⟨q, -, sited, -⟩
      · rwa [journal]
      · exact sited
    refine summonsTells task' sited fun path v opens => ?_
    cases opens with
    | trigger qualifies active => exact resumeSets rests sited qualifies

theorem momentTells (start : (l.scene first).Stands [] none target []) (same : l.run.task = task)
    (moment : Moment l first batches s r) :
    s.Sited task.tree ∧ (r = some (.error .panicked) → s.Asks) := by
  obtain ⟨begins, comes⟩ := moment
  have tells := beginsTells start same begins
  rw [← Summons.tourProcess] at comes
  rcases Dialogue.treadsMoment tells comes with ⟨v, ⟨sited, e, last, asks⟩, journal, -⟩ |
    ⟨q, rfl, sited, sound⟩
  · rw [Scene.Sited, Scene.Asks, journal]
    exact ⟨sited, fun _ => ⟨e, last, asks⟩⟩
  · exact ⟨sited, fun panicked => absurd (Option.some.inj panicked) sound⟩

theorem backLeaves {outcome : Outcome} (back : Back target task s (.ok (some outcome))) :
    Scene.Leaves [] [] target [] task.tree s (.ok outcome) := by
  generalize ending : (.ok (some outcome) : Except Stop (Option Outcome)) = q at back
  cases back with
  | @walked r leaves =>
    cases r with
    | error e => cases ending
    | ok other =>
      cases ending
      exact leaves
  | idle rests | refused rests => cases ending

theorem leavesSuspended (leaves : Scene.Leaves [] [] target [] task.tree s (.ok .suspended)) :
    s.run.slate.cursor.depth = 0 ∧ ∃ info wait,
      s.run.slate.waiting = some (.wait info wait) ∧
        task.tree.at? s.run.position = some (.wait info wait) := by
  cases leaves with
  | suspended pending stalls =>
    have cursor : s.run.slate.cursor = .standing [] _ false :=
      congrArg Footing.cursor stalls.footing
    refine ⟨congrArg Cursor.depth cursor, _, _, congrArg Footing.waiting stalls.footing, ?_⟩
    rw [Run.position, cursor]
    exact pendingLeads pending

theorem leavesCompleted (leaves : Scene.Leaves [] [] target [] task.tree s (.ok .completed)) :
    s.run.slate.cursor = ⟨[], 0, false⟩ := by
  cases leaves with
  | completed chronicle stands => exact forwardCursor stands.forward

/- The position of a run is known at all times. Whenever an applet is told of that starts or ends,
it is the path of the applet; when a call comes back suspended, it is the path of the wait that is
pending; and when one completes, no levels are left. No walk of a call reaches for a level that is
not there: it comes to what it comes to if it looks for the level before every step that works on
one. So a call only panics while an executor is at work. -/
theorem positionKnown {world : World} (clean : world.slates.Clean) (task : Task) (handle : Handle)
    (observer : Option Observer) (target : Option Json) (first : Batch) :
    let l := (obtain world task handle observer first).aim target
    (∀ batches s r, Moment l first batches s r →
      (∀ e ∈ s.journal, e.Sited task.tree) ∧
      (r = some (.ok (some .suspended)) → s.run.slate.cursor.depth = 0 ∧
        ∃ info wait, s.run.slate.waiting = some (.wait info wait) ∧
          task.tree.at? s.run.position = some (.wait info wait)) ∧
      (r = some (.ok (some .completed)) → s.run.slate.cursor = ⟨[], 0, false⟩) ∧
      (r = some (.error .panicked) → s.Asks)) ∧
    ∀ batches call s, Begins l first batches call s → ∀ u r,
      ((Errand.call call).strict s).process.Comes Others u r ↔ (call.walk s).Comes Others u r := by
  intro l
  have start : (l.scene first).Stands [] none target [] :=
    obtainStands clean task handle observer target first
  have same : l.run.task = task := rfl
  constructor
  · intro batches s r moment
    obtain ⟨sited, panics⟩ := momentTells start same moment
    have back := momentBack start same moment
    refine ⟨sited, fun suspended => ?_, fun completed => ?_, panics⟩
    · subst suspended
      exact leavesSuspended (backLeaves back)
    · subst completed
      exact leavesCompleted (backLeaves back)
  · intro batches call s begins u r
    refine Errand.strictComes fun other => ?_
    cases begins with
    | trigger => exact absurd rfl other
    | run => exact Errand.standingWithin (forwardCursor start.forward)

theorem positionKnownLauncher :
    World.fresh.slates.Clean ∧
      Moment launcherLone launcherBatch launcherBatches launcherEnd
        (some (.ok (some .completed))) ∧
      (∀ e ∈ launcherEnd.journal, e.Sited launcherTask.tree) ∧
      launcherEnd.run.slate.cursor = ⟨[], 0, false⟩ ∧
      launcherHeld.run.slate.cursor.depth = 0 ∧
      (∃ info wait, launcherHeld.run.slate.waiting = some (.wait info wait) ∧
        launcherTask.tree.at? launcherHeld.run.position = some (.wait info wait)) := by
  have clean : World.fresh.slates.Clean := fun a inside => nomatch inside
  have known := positionKnown clean launcherTask ⟨0⟩ none (some (.str "desktop")) launcherBatch
  obtain ⟨sited, -, completed, -⟩ := known.1 _ _ _ launcherMoment
  have begun : Begins launcherLone launcherBatch [] .run (launcherLone.scene launcherBatch) := .run
  have held : Moment launcherLone launcherBatch [] launcherHeld (some (.ok (some .suspended))) :=
    momentAlone begun
  obtain ⟨depth, waits⟩ := (known.1 _ _ _ held).2.1 rfl
  exact ⟨clean, launcherMoment, sited, completed rfl, depth, waits⟩

end Lone
end Automation
