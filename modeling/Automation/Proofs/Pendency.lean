import Automation.Proofs.Settling
/-! The wait that is pending between calls (`waiting_for`). A call that comes back suspended has the
wait pending that it stopped at. One that completes leaves pending what was pending before, unless
it released a wait. So nothing is pending after it if the owner begins no walk while a wait is
pending, and hands batches only to a run that stands at the wait. -/
namespace Automation
open Scene

def Returned (r : Except Stop (Option Outcome)) : Prop := ∃ o, r = .ok o

namespace Errand

def Anything (_ : Errand) (_ : Scene) : Prop := True

/- Walks are begun when nothing is pending, and gone on with where the wait stands that is pending. -/
def InOrder : Errand → Scene → Prop
  | call .trigger, s => s.run.qualifies s.occasion.batch.events = true →
    s.run.task.tree.at? s.run.position = s.run.slate.waiting
  | _, s => s.run.slate.waiting = none

structure Rested (task : Task) (s : Scene) : Prop where
  task : s.run.task = task
  depth : s.run.slate.cursor.depth = 0
  resuming : s.run.slate.cursor.resuming = true → s.run.slate.cursor.levels = []

variable {task : Task} {target : Option Json} {call : Errand} {s t u : Scene} {path : List Nat}
  {outcome : Outcome}

theorem restedCursor (rested : Rested task s) : s.run.slate.cursor =
    .standing [] s.run.slate.cursor.levels s.run.slate.cursor.resuming := by
  have stands := Cursor.standingAny s.run.slate.cursor (by rw [rested.depth]; exact Nat.zero_le _)
  rwa [rested.depth] at stands

theorem restedLater (later : s.Later t) (rested : Rested task s) : Rested task t := by
  obtain ⟨same, depth, resuming⟩ := rested
  exact ⟨by rw [later.run, same], by rw [later.run, depth], by rw [later.run]; exact resuming⟩

theorem restedStanding {rest : List Level} {forth : Bool} (same : s.run.task = task)
    (cursor : s.posture.cursor = .standing [] rest forth) (ahead : forth = true → rest = []) :
    Rested task s := by
  have stands : s.run.slate.cursor = .standing [] rest forth := cursor
  exact ⟨same, by rw [stands]; rfl, by rw [stands]; exact ahead⟩

theorem opensCursor (rested : Rested task s) (opens : Opens s call path t) :
    ∃ resuming, t.run.slate.cursor = .standing [] s.run.slate.cursor.levels resuming := by
  cases opens with
  | run active => exact ⟨_, restedCursor rested⟩
  | trigger qualifies active => exact ⟨_, rfl⟩
  | evaluate path applet => exact ⟨_, restedCursor rested⟩

theorem restedEnds (rested : Rested task s) (same : u.run.task = s.run.task)
    (ends : call.Ends s u (.ok (some outcome))) : Rested task u := by
  generalize ending : (.ok (some outcome) : Except Stop (Option Outcome)) = r at ends
  cases ends with
  | refused refused => exact rested
  | walked opens settles =>
    obtain ⟨resuming, cursor⟩ := opensCursor rested opens
    cases settles _ _ _ cursor with
    | completed cursor passes leaf back meets =>
      refine restedStanding (same.trans rested.task) cursor fun again => ?_
      cases kind : (call.applet s.run.task).flowKind? with
      | some k => rfl
      | none => simp [leaf kind] at again
    | suspended cursor stops inside back =>
      exact restedStanding (same.trans rested.task) cursor (by simp)
    | cancelled inactive cursor => cases ending

theorem restedWithin (rested : Rested task s) : Within s := by
  rw [Within, rested.depth]
  exact Nat.zero_le _

theorem endsIdle (ends : call.Ends s u (.ok none)) : call = trigger ∧ u = s := by
  generalize ending : (.ok none : Except Stop (Option Outcome)) = r at ends
  cases ends with
  | refused refused =>
    cases refused with
    | cancelled => cases ending
    | idle idle => exact ⟨rfl, rfl⟩
  | @walked _ _ _ q opens settles => cases q <;> cases ending

theorem restedComes (rested : Rested task s) {o : Option Outcome}
    (comes : (call.walk s).Comes Others u (some (.ok o))) :
    Rested task u ∧ call.Ends s u (.ok o) := by
  have ends := (comesEnds (restedWithin rested) comes).resolve_left (by simp)
  cases o with
  | some outcome => exact ⟨restedEnds rested (taskKept comes) ends, ends⟩
  | none =>
    obtain ⟨-, rfl⟩ := endsIdle ends
    exact ⟨rested, ends⟩

/- How a call that has walked leaves what is pending. -/
inductive Leaves (call : Errand) (s u : Scene) : Outcome → Prop where
  | suspended {info wait place}
      (inside : (call.applet s.run.task).at? place = some (.wait info wait))
      (waiting : u.run.slate.waiting = some (.wait info wait))
      (suspending : u.run.slate.suspending = true)
      (refuses : wait.find? u.run.batch.events = none)
      (position : call ≠ trigger → (call.applet s.run.task).flowKind?.isSome = true →
        (call.applet s.run.task).at? u.run.position = some (.wait info wait)) :
      Leaves call s u .suspended
  | completed
      (pending : if s.journal.released < u.journal.released
        then u.run.slate.waiting = none ∧ u.run.slate.suspending = false
        else u.run.slate.waiting = s.run.slate.waiting ∧
          (call ≠ trigger → u.run.slate.suspending = s.run.slate.suspending))
      (empty : (call.applet s.run.task).flowKind?.isSome = true → u.run.slate.cursor.levels = [])
      (top : u.run.slate.cursor.depth = 0)
      (target : call ≠ trigger → u.run.slate.target = s.run.slate.target) :
      Leaves call s u .completed

theorem opensPosture (opens : Opens s call path t) :
    t.posture.released = s.journal.released ∧ t.posture.waiting = s.run.slate.waiting ∧
      t.posture.target = s.run.slate.target ∧ (call ≠ trigger → t = s) := by
  cases opens with
  | run active | evaluate path applet => exact ⟨rfl, rfl, rfl, fun _ => rfl⟩
  | trigger qualifies active => exact ⟨rfl, rfl, rfl, fun other => absurd rfl other⟩

theorem restedLed (rested : Rested task s) (a : Applet) :
    a.Led s.run.slate.cursor.levels s.run.slate.cursor.resuming :=
  fun back deep => absurd (rested.resuming back) deep

theorem endsLeaves (rested : Rested task s) (ends : call.Ends s u (.ok (some outcome))) :
    Leaves call s u outcome := by
  generalize ending : (.ok (some outcome) : Except Stop (Option Outcome)) = r at ends
  cases ends with
  | refused refused => cases refused <;> cases ending
  | @walked path t _ _ opens settles =>
    obtain ⟨resuming, cursor⟩ := opensCursor rested opens
    obtain ⟨released, waiting, target, same⟩ := opensPosture opens
    -- The walks of other calls than triggers begin in the scene of the call.
    have anew (other : call ≠ trigger) : (call.applet s.run.task).Led s.run.slate.cursor.levels
        resuming ∧ Cursor.aim s.run.slate.cursor.levels resuming t.posture.target =
          s.run.slate.target := by
      obtain rfl := same other
      have again : t.run.slate.cursor.resuming = resuming := by
        rw [cursor]
        rfl
      rw [← again]
      refine ⟨restedLed rested _, ?_⟩
      cases back : t.run.slate.cursor.resuming with
      | false => rfl
      | true => rw [rested.resuming back]; rfl
    cases settles _ _ _ cursor with
    | suspended cursor stops inside back =>
      cases ending
      have batch : u.run.batch = t.posture.batch := stops.batch
      refine .suspended inside stops.waiting stops.suspending (batch ▸ stops.refuses)
        fun other flow => ?_
      have leads := (back (anew other).1 fun leaf => by simp [leaf] at flow).1
      rw [Run.position, show u.run.slate.cursor = _ from cursor]
      exact leads
    | completed cursor passes leaf back meets =>
      cases ending
      have stands : u.run.slate.cursor = _ := cursor
      refine .completed ?_ (fun flow => ?_) ?_ fun other => ?_
      · cases passes with
        | kept batch unreleased idle unmoved =>
          have still : u.journal.released = s.journal.released := unreleased.trans released
          rw [if_neg (by rw [still]; exact Nat.lt_irrefl _)]
          exact ⟨idle.trans waiting, fun other => by
            obtain rfl := same other
            exact unmoved⟩
        | freed batch more idle unmoved =>
          rw [if_pos (released ▸ more)]
          exact ⟨idle, unmoved⟩
      · rw [stands, if_pos flow]
        rfl
      · rw [stands]
        rfl
      · exact ((back (anew other).1).2).trans (anew other).2
    | cancelled inactive cursor => cases ending

inductive Poised (target : Option Json) (s : Scene) : Prop where
  | ended (levels : s.run.slate.cursor.levels = []) (waiting : s.run.slate.waiting = none)
      (suspending : s.run.slate.suspending = false) (aims : s.run.slate.target = target)
  | held {info wait} (waiting : s.run.slate.waiting = some (.wait info wait))
      (suspending : s.run.slate.suspending = true)
      (base : Cursor.base s.run.slate.cursor.levels s.run.slate.target = target)

theorem poisedLater (later : s.Later t) (poised : Poised target s) : Poised target t := by
  cases poised with
  | ended levels waiting suspending aims => constructor <;> rwa [later.run]
  | held waiting suspending base =>
    exact .held (by rwa [later.run]) (by rwa [later.run]) (by rwa [later.run])

theorem triggerBack (poised : Poised target s)
    (qualifies : s.run.qualifies s.occasion.batch.events = true) (inOrder : InOrder trigger s) :
    ∃ info wait, s.resume.run.slate.cursor = .standing [] s.run.slate.cursor.levels true ∧
      s.run.task.tree.LeadsTo s.run.slate.cursor.levels (.wait info wait) ∧
      (wait.find? s.occasion.batch.events).isSome = true ∧
      Cursor.aim s.run.slate.cursor.levels true s.run.slate.target = target := by
  cases poised with
  | ended levels waiting suspending aims =>
    simp [Run.qualifies, Run.waitsFor?, waiting] at qualifies
  | @held info wait waiting suspending base =>
    have leads : s.run.task.tree.LeadsTo s.run.slate.cursor.levels (.wait info wait) :=
      (inOrder qualifies).trans waiting
    have deep : s.run.slate.cursor.levels ≠ [] := by
      intro top
      have rooted := s.run.task.rooted
      rw [Applet.LeadsTo, top] at leads
      rw [Option.some.inj leads] at rooted
      cases rooted
    simp [Run.qualifies, Run.waitsFor?, waiting, Applet.wait?] at qualifies
    refine ⟨info, wait, ?_, leads, qualifies, base⟩
    change s.run.slate.cursor.beginResume = _
    rw [Cursor.beginResume, List.isEmpty_eq_false_iff.mpr deep]
    rfl

inductive Sets (a : Applet) (target : Option Json) (t : Scene) : Prop where
  | mk {below resuming} (cursor : t.run.slate.cursor = .standing [] below resuming)
      (led : a.Led below resuming) (bare : a.flowKind? = none → below = [])
      (aims : Cursor.aim below resuming t.posture.target = target)
      (pends : (t.posture.waiting = none ∧ t.posture.suspending = false) ∨
        ∃ info wait, resuming = true ∧ a.LeadsTo below (.wait info wait) ∧
          (wait.find? t.posture.batch.events).isSome = true)

theorem restedAnew (rested : Rested task s) (poised : Poised target s)
    (idle : s.run.slate.waiting = none) (a : Applet) : Sets a target s := by
  cases poised with
  | held waiting => simp [waiting] at idle
  | ended levels waiting suspending aims =>
    have cursor := restedCursor rested
    rw [levels] at cursor
    exact .mk cursor (fun _ deep => absurd rfl deep) (fun _ => rfl)
      ((Cursor.aimNil _ _).trans aims) (.inl ⟨waiting, suspending⟩)

/- How an orderly call leaves the run. -/
inductive Settled (call : Errand) (target : Option Json) (s u : Scene) : Outcome → Prop where
  | suspended {info wait} (waiting : u.run.slate.waiting = some (.wait info wait))
      (stands : (call.applet s.run.task).at? u.run.position = some (.wait info wait))
      (suspending : u.run.slate.suspending = true)
      (base : Cursor.base u.run.slate.cursor.levels u.run.slate.target = target) :
      Settled call target s u .suspended
  | completed (waiting : u.run.slate.waiting = none) (suspending : u.run.slate.suspending = false)
      (levels : u.run.slate.cursor.levels = []) (top : u.run.slate.cursor.depth = 0)
      (aims : u.run.slate.target = target) : Settled call target s u .completed

theorem settledPoised (settled : Settled call target s u outcome) : Poised target u := by
  cases settled with
  | suspended waiting stands suspending base => exact .held waiting suspending base
  | completed waiting suspending levels top aims => exact .ended levels waiting suspending aims

theorem settledInOrder (settled : Settled call target s u .suspended)
    (whole : call.applet s.run.task = u.run.task.tree) (later : u.Later t) : InOrder trigger t := by
  cases settled with
  | suspended waiting stands suspending base =>
    intro _
    rw [later.run, waiting, ← whole]
    exact stands

theorem endsSettled (rested : Rested task s) (poised : Poised target s)
    (inOrder : call.InOrder s) (ends : call.Ends s u (.ok (some outcome))) :
    Settled call target s u outcome := by
  generalize ending : (.ok (some outcome) : Except Stop (Option Outcome)) = r at ends
  cases ends with
  | refused refused => cases refused <;> cases ending
  | @walked path t _ _ opens settles =>
    -- Called in order, the walk either begins anew or leads back to the wait that is pending.
    have begins : Sets (call.applet s.run.task) target t := by
      cases opens with
      | run active => exact restedAnew rested poised inOrder _
      | evaluate path applet => exact restedAnew rested poised inOrder _
      | trigger qualifies active =>
        obtain ⟨info, wait, cursor, leads, accepts, aims⟩ :=
          triggerBack poised qualifies inOrder
        exact .mk cursor (fun _ _ => ⟨info, wait, leads⟩)
          (fun leaf => by simp [applet, s.run.task.rooted] at leaf) aims
          (.inr ⟨info, wait, rfl, leads, accepts⟩)
    obtain ⟨cursor, led, bare, aims, pends⟩ := begins
    cases settles _ _ _ cursor with
    | suspended cursor stops inside back =>
      cases ending
      obtain ⟨leads, base⟩ := back led bare
      have stands : u.run.slate.cursor = .standing [] _ false := cursor
      refine .suspended stops.waiting ?_ stops.suspending ?_
      · rw [Run.position, stands]
        exact leads
      · rw [stands]
        exact base.trans aims
    | completed cursor passes leaf back meets =>
      cases ending
      have stands : u.run.slate.cursor = _ := cursor
      have idle : u.run.slate.waiting = none ∧ u.run.slate.suspending = false := by
        cases passes with
        | freed batch more waiting suspending => exact ⟨waiting, suspending⟩
        | kept batch unreleased waiting suspending =>
          rcases pends with ⟨idle, unmoved⟩ | ⟨info, wait, again, leads, accepts⟩
          · exact ⟨waiting.trans idle, suspending.trans unmoved⟩
          -- A walk that was led back to the wait cannot complete without having released it.
          · refine absurd (meets info wait again leads accepts) ?_
            rw [unreleased]
            exact Nat.lt_irrefl _
      refine .completed idle.1 idle.2 ?_ ?_ ((back led).2.trans aims)
      · rw [stands]
        cases kind : (call.applet s.run.task).flowKind? with
        | some k => rfl
        | none => exact bare kind
      · rw [stands]
        rfl
    | cancelled inactive cursor => cases ending

end Errand

namespace Lone
open Errand
variable {task : Task} {handle : Handle} {observer : Option Observer} {target : Option Json}
  {first : Batch} {world : World} {call : Errand} {s u : Scene} {outcome : Outcome}

theorem sessionRested (clean : world.slates.Clean) {may : Errand → Scene → Prop}
    (session : Session may Returned (((obtain world task handle observer first).aim target).scene first)
      call s) : Rested task s := by
  have stands := obtainStands clean task handle observer target first
  refine session.holds (restedStanding rfl (forwardCursor stands.forward) (by simp))
    (fun s t later rested => restedLater later rested) fun call s u r _ rested comes returned => ?_
  obtain ⟨o, rfl⟩ := returned
  exact (restedComes rested comes).1

theorem sessionPoised (clean : world.slates.Clean)
    (session : Session InOrder Returned
      (((obtain world task handle observer first).aim target).scene first) call s) :
    Poised target s := by
  have stands := obtainStands clean task handle observer target first
  have begun : Rested task (((obtain world task handle observer first).aim target).scene first) ∧
      Poised target (((obtain world task handle observer first).aim target).scene first) := by
    refine ⟨restedStanding rfl (forwardCursor stands.forward) (by simp), .ended ?_ ?_ ?_ ?_⟩
    · rw [forwardCursor stands.forward]
      rfl
    · exact standsIdle stands
    · exact congrArg Footing.suspending stands.forward
    · exact stands.target
  refine (session.holds (P := fun s => Rested task s ∧ Poised target s) begun
    (fun s t later ⟨rested, poised⟩ => ⟨restedLater later rested, poisedLater later poised⟩)
    fun call s u r inOrder ⟨rested, poised⟩ comes returned => ?_).2
  obtain ⟨o, rfl⟩ := returned
  obtain ⟨rested', ends⟩ := restedComes rested comes
  refine ⟨rested', ?_⟩
  cases o with
  | some outcome => exact settledPoised (endsSettled rested poised inOrder ends)
  | none =>
    obtain ⟨-, rfl⟩ := endsIdle ends
    exact poised

/- What every call of a run leaves pending that walks. In general a completed call leaves a wait
pending that was pending before and that it has not released; if all calls are in order, nothing is
pending then, and a trigger does nothing. -/
theorem pendingSettled (clean : world.slates.Clean)
    (session : Session Anything Returned
      (((obtain world task handle observer first).aim target).scene first) call s)
    (comes : (call.walk s).Comes Others u (some (.ok (some outcome)))) :
    Leaves call s u outcome ∧
      (Session InOrder Returned
        (((obtain world task handle observer first).aim target).scene first) call s →
        Settled call target s u outcome ∧
          (outcome = .completed → ∀ t, u.Later t → trigger.walk t = .done t (.ok none))) := by
  have rested := sessionRested clean session
  have ends := (restedComes rested comes).2
  refine ⟨endsLeaves rested ends, fun inOrder => ?_⟩
  have settled := endsSettled rested (sessionPoised clean inOrder) inOrder.allowed ends
  refine ⟨settled, fun completed t later => ?_⟩
  subst completed
  cases settled with
  | completed waiting suspending levels top aims =>
    refine Walk.triggerIdle ?_
    simp [Run.qualifies, Run.waitsFor?, later.run, waiting]

theorem sceneLater (s : Scene) (batch : Batch) : s.Later ((ofScene s).scene batch) :=
  ⟨rfl, rfl, id⟩

def launcherHeld : Scene := (Errand.run.walk (launcherLone.scene launcherBatch)).alone.1

def launcherReleased : Scene := (ofScene launcherHeld).scene (launcherBatches.getD 1 launcherBatch)

def launcherAgain : Scene := (ofScene launcherHeld).scene (launcherBatches.getD 0 launcherBatch)

theorem pendingSettledLauncher :
    World.fresh.slates.Clean ∧
      (∃ u, (trigger.walk launcherReleased).Comes Others u (some (.ok (some .completed))) ∧
        trigger.Settled (some (.str "desktop")) launcherReleased u .completed ∧
        ∀ t, u.Later t → trigger.walk t = .done t (.ok none)) ∧
      ∃ u, (Errand.run.walk launcherAgain).Comes Others u (some (.ok (some .completed))) ∧
        Errand.run.Leaves launcherAgain u .completed ∧ u.run.slate.waiting.isSome = true ∧
        u.run.slate.suspending = true := by
  have clean : World.fresh.slates.Clean := fun a inside => nomatch inside
  have held : (Errand.run.walk (launcherLone.scene launcherBatch)).alone.2 =
      some (.ok (some .suspended)) := rfl
  have begun (may : Errand → Scene → Prop)
      (allowed : may Errand.run (launcherLone.scene launcherBatch)) :
      Session may Returned (launcherLone.scene launcherBatch) Errand.run
        (launcherLone.scene launcherBatch) := .first (laterSame _) allowed
  have heldComes : (Errand.run.walk (launcherLone.scene launcherBatch)).Comes Others launcherHeld
      (some (.ok (some .suspended))) := Process.comesAlone othersSame (Prod.ext rfl held)
  refine ⟨clean, ?_, ?_⟩
  · have later : launcherHeld.Later launcherReleased := sceneLater _ _
    have first := begun InOrder rfl
    have settled := ((pendingSettled clean (begun Anything trivial) heldComes).2 first).1
    have whole := congrArg Task.tree (Errand.taskKept heldComes).symm
    have session := first.next heldComes ⟨_, rfl⟩ later (settledInOrder settled whole later)
    have ended : (trigger.walk launcherReleased).alone.2 = some (.ok (some .completed)) := rfl
    have comes := Process.comesAlone othersSame (Prod.ext rfl ended)
    obtain ⟨settled, idle⟩ :=
      (pendingSettled clean (session.weaken fun _ _ _ => trivial) comes).2 session
    exact ⟨_, comes, settled, idle rfl⟩
  · have later : launcherHeld.Later launcherAgain := sceneLater _ _
    have session : Session Anything Returned (launcherLone.scene launcherBatch) Errand.run
        launcherAgain := (begun Anything trivial).next heldComes ⟨_, rfl⟩ later trivial
    have ended : (Errand.run.walk launcherAgain).alone.2 = some (.ok (some .completed)) := rfl
    have comes := Process.comesAlone othersSame (Prod.ext rfl ended)
    exact ⟨_, comes, (pendingSettled clean session comes).1, rfl, rfl⟩

end Lone
end Automation
