import Mathlib.Data.List.Perm.Subperm
import Automation.Proofs.Advance
import Automation.Proofs.Failures
import Automation.Proofs.Pendency
/-! Triggers make progress. The owner runs a run once and triggers it from then on, on whatever
occasions. A trigger does nothing unless one of its events ends the wait that is pending; if one
does, that wait completes, and the run with it or at a place further on. So the run is suspended
once at each of its waits at most, and carries out each action once at most. -/
namespace Automation
open Scene

namespace Demand

def Docile : Demand → Prop
  | panic | cancel _ => False
  | _ => True

end Demand

namespace Applet

mutual
def waits : Applet → List (List Nat)
  | wait .. => [[]]
  | flow _ _ children => waitsFrom 0 children
  | criterion .. | action .. => []

def waitsFrom (i : Nat) : List Applet → List (List Nat)
  | [] => []
  | child :: rest => child.waits.map (i :: ·) ++ waitsFrom (i + 1) rest
end

theorem waitsFromPlace {children : List Applet} {child : Applet} {i k : Nat} {p : List Nat}
    (place : children[k]? = some child) (inside : p ∈ child.waits) :
    (i + k) :: p ∈ waitsFrom i children := by
  induction children generalizing i k with
  | nil => cases place
  | cons first rest ih =>
    rw [waitsFrom, List.mem_append]
    cases k with
    | zero =>
      cases place
      exact .inl (List.mem_map_of_mem inside)
    | succ k =>
      rw [← Nat.succ_add_eq_add_succ]
      exact .inr (ih place)

theorem waitsPlace {a : Applet} {p : List Nat} {info : AppletInfo} {wait : Wait}
    (leads : a.at? p = some (.wait info wait)) : p ∈ a.waits := by
  induction p generalizing a with
  | nil =>
    cases leads
    exact List.mem_singleton_self _
  | cons k p ih =>
    obtain ⟨child, place, deeper⟩ := Option.bind_eq_some_iff.mp leads
    cases a with
    | flow info spec children =>
      have inside := waitsFromPlace (i := 0) place (ih deeper)
      rwa [Nat.zero_add] at inside
    | criterion info check | action info action | wait info wait => cases place

theorem waitsBound {a : Applet} {ps : List (List Nat)} (once : ps.Nodup)
    (waits : ∀ p ∈ ps, ∃ info wait, a.at? p = some (.wait info wait)) :
    ps.length ≤ a.waits.length := by
  refine (once.subperm fun p inside => ?_).length_le
  obtain ⟨info, wait, leads⟩ := waits p inside
  exact waitsPlace leads

end Applet

namespace Process
variable {σ ρ : Type} {R R' : σ → σ → Prop} {Q Q' : σ → ρ → Prop}

theorem comesWeaken (weaker : ∀ s t, R s t → R' s t) {p : Process σ ρ} {u : σ} {b : Option ρ}
    (comes : p.Comes R u b) : p.Comes R' u b := by
  induction comes with
  | done s r => exact .done s r
  | yields s next => exact .yields s next
  | yield between later ih => exact .yield (weaker _ _ between) ih
  | pends s => exact .pends s
  | halts s next => exact .halts s next
  | halt n between later ih => exact .halt n (weaker _ _ between) ih

theorem attainsWhen (weaker : ∀ s t, R' s t → R s t) {p : Process σ ρ} (attains : p.Attains R Q)
    (ends : ∀ u r, p.Comes R' u (some r) → Q' u r) : p.Attains R' Q' := by
  induction p with
  | done s r => exact ends s r (.done s r)
  | yield s next ih =>
    exact fun t between => ih t (attains t (weaker s t between)) fun u r comes =>
      ends u r (.yield between comes)
  | pend s => exact attains
  | haltAll s next ih =>
    exact fun n t between => ih n t (attains n t (weaker s t between)) fun u r comes =>
      ends u r (.halt n between comes)

end Process

structure Scene.Spares (s t : Scene) : Prop where
  others : s.Others t
  active : s.isActive = true → t.isActive = true

namespace Walk
variable {α : Type} {allowed : Demand → Prop}

theorem performReturns {script : Script α} (only : script.Only allowed) (calm : ¬allowed .panic)
    {s t : Scene} {r : Except Stop α} (comes : (perform script s).Comes Others t (some r)) :
    ∃ a, r = .ok a := by
  induction script generalizing s with
  | done a =>
    cases comes
    exact ⟨a, rfl⟩
  | panic => exact absurd only calm
  | yield next ih =>
    cases comes with
    | yield between later => exact ih only.2 later
  | pend => cases comes
  | cancel handle next ih => exact ih only.2 comes
  | haltAll next ih =>
    cases comes with
    | halt n between later => exact ih n (only.2 n) later
  | global key type init next ih => exact ih _ (only.2 _) comes
  | argument id type init next ih => exact ih _ (only.2 _) comes
  | pattern id text next ih => exact ih _ (only.2 _) comes

theorem triggerSpares {s u : Scene} (only : s.run.task.tree.Only allowed)
    (handless : ∀ handle, ¬allowed (.cancel handle)) {b : Option (Except Stop (Option Outcome))}
    (comes : (trigger s).Comes Spares u b) (active : s.isActive = true) : u.isActive = true := by
  have turns : (trigger s).Guarantees (fun s t => s.isActive = true → t.isActive = true) s := by
    refine Process.guaranteesWeaken (fun s t reaches active => ?_) (triggerKeeps only)
    have handles : t.world.handles = s.world.handles := Frame.reachesHandles reaches handless
    have handle : t.run.handle = s.run.handle := (Frame.reachesIdentity reaches).2.2.1
    rwa [isActive, Run.isActive, handles, handle]
  exact Process.guaranteesComes (fun _ _ _ first second active => second (first active))
    (fun _ _ spares => spares.active) turns comes active

end Walk

theorem Dialogue.sureReturns {α : Type} {allowed : Demand → Prop}
    {ends : Scene → Except Stop α → Prop} {c : Dialogue α} (sure : c.Sure allowed ends)
    (calm : ¬allowed .panic) {u : Scene} {r : Except Stop α}
    (comes : c.process.Comes Others u (some r)) : ends u r := by
  induction c with
  | finished s r =>
    cases comes
    exact sure
  | call s path info executor script next ih =>
    unfold process at comes
    rcases Process.comesBind comes with ⟨_, absurd⟩ | ⟨t, a, first, second⟩
    · cases absurd
    · obtain ⟨answer, rfl⟩ := Walk.performReturns sure.1 calm first
      exact ih answer t (sure.2 answer t (Walk.performOthers first)) second

namespace Errand

def stops : Option Outcome → Scene → List (List Nat)
  | some .suspended, s => [s.run.position]
  | _, _ => []

/- The scenes in which the calls of a run begin that is run once and triggered from then on, with
the places at which it was suspended, in turn, and what it has come to so far. -/
inductive Journey (start : Scene) : Errand → List (List Nat) → Option Outcome → Scene → Prop where
  | run {t} (later : start.Later t) : Journey start run [] none t
  | trigger {call ps o s u q t} (earlier : Journey start call ps o s)
      (comes : (call.walk s).Comes Others u (some (.ok q))) (later : u.Later t) :
      Journey start trigger (ps ++ stops q u) (q.or o) t

structure Travelled (task : Task) (ps : List (List Nat)) (s : Scene) : Prop where
  trail : s.trail.Pairwise (· < ·)
  stops : ps.Pairwise (· < ·)
  waits : ∀ p ∈ ps, ∃ info wait, task.tree.at? p = some (.wait info wait)

/- Where a run is between its calls: it has not begun, is held at a wait that nothing trodden is
behind, or has come to its end. -/
inductive Halts (task : Task) : Errand → List (List Nat) → Option Outcome → Scene → Prop where
  | fresh {s} (cursor : s.run.slate.cursor = .standing [] [] false)
      (idle : s.run.slate.waiting = none) (trail : s.trail = []) : Halts task run [] none s
  | held {ps s info wait} (waiting : s.run.slate.waiting = some (.wait info wait))
      (stands : task.tree.at? s.run.position = some (.wait info wait))
      (travelled : Travelled task ps s) (last : ∀ p ∈ s.trail ++ ps, p ≤ s.run.position) :
      Halts task trigger ps (some .suspended) s
  | ended {ps s} (idle : s.run.slate.waiting = none) (travelled : Travelled task ps s) :
      Halts task trigger ps (some .completed) s

variable {task : Task} {target : Option Json} {call : Errand} {s t u : Scene} {path : List Nat}
  {held : AppletInfo} {wait : Wait} {event : Event} {below : List Level} {resuming : Bool}
  {ps places : List (List Nat)} {o q : Option Outcome} {expected : List Nat → Prop}

theorem opensArrives (opens : Opens s call path t)
    (cursor : t.run.slate.cursor = .standing [] below resuming)
    (heads : Heads (call.applet s.run.task) below resuming (.wait held wait))
    (found : resuming = true → wait.find? t.run.batch.events = some event) :
    (call.tour s).Treads (Trod (Ahead path below resuming) s) fun u r => ∃ q, r = q.map some ∧
      Arrives held event path below resuming (Ahead path below resuming) 0 s u q := by
  have same : t.journal = s.journal := by cases opens <;> rfl
  have visited := Tour.visitArrives (call.applet s.run.task) .aggregate path t [] below resuming
    cursor heads found
  rw [tourOpens opens]
  refine Dialogue.treadsBind (Dialogue.treadsWeaken visited
    (fun u => Tour.trodWeaken same fun _ => id) fun u r => Tour.arrivesWeaken same fun _ => id)
    (fun u outcome arrives => ?_) fun u e arrives => ?_
  · exact ⟨.ok outcome, rfl, arrives⟩
  · exact ⟨.error e, rfl, arrives⟩

theorem travelledLater (later : s.Later t) (travelled : Travelled task ps s) :
    Travelled task ps t := by
  refine ⟨?_, travelled.stops, travelled.waits⟩
  rw [trail, later.journal]
  exact travelled.trail

theorem haltsLater (later : s.Later t) (halts : Halts task call ps o s) :
    Halts task call ps o t := by
  cases halts with
  | fresh cursor idle trail =>
    exact .fresh (by rw [later.run, cursor]) (by rw [later.run, idle])
      (by rw [Scene.trail, later.journal]; exact trail)
  | held waiting stands travelled last =>
    refine .held (by rw [later.run, waiting]) (by rw [later.run, stands])
      (travelledLater later travelled) ?_
    rw [trail, later.journal, later.run]
    exact last
  | ended idle travelled => exact .ended (by rw [later.run, idle]) (travelledLater later travelled)

theorem haltsTravelled (halts : Halts task call ps o s) : Travelled task ps s := by
  cases halts with
  | fresh cursor idle trail => exact ⟨trail ▸ .nil, .nil, by simp⟩
  | held waiting stands travelled last => exact travelled
  | ended idle travelled => exact travelled

theorem idleRefuses (idle : s.run.slate.waiting = none) (events : List Event) :
    s.run.qualifies events = false := by
  rw [Run.qualifies, Run.waitsFor?, idle]
  rfl

theorem haltsInOrder (rested : Rested task s) (halts : Halts task call ps o s) :
    call.InOrder s := by
  cases halts with
  | fresh cursor idle trail => exact idle
  | held waiting stands travelled last =>
    intro _
    rw [rested.task, stands, waiting]
  | ended idle travelled =>
    intro qualifies
    rw [idleRefuses idle] at qualifies
    cases qualifies

/- A call that comes to a visit treads only behind what it has trodden before, and behind the places
at which the run was suspended. -/
theorem haltsArrives (rested : Rested task s) (poised : Poised target s)
    (halts : Halts task call ps o s) (opens : Opens s call path t) :
    ∃ held event below resuming,
      (∀ p ∈ s.trail ++ ps, ∀ q, Ahead [] below resuming q → p < q) ∧
      (call.tour s).Treads (Trod (Ahead [] below resuming) s) fun u r => ∃ q, r = q.map some ∧
        Arrives held event [] below resuming (Ahead [] below resuming) 0 s u q := by
  have inOrder := haltsInOrder rested halts
  cases halts with
  | fresh cursor idle trail =>
    cases opens with
    | run active =>
      have forward : Heads s.run.task.tree [] false (.wait default (.ofType default)) :=
        ⟨fun _ => rfl, by simp⟩
      exact ⟨_, default, _, _, by simp [trail], opensArrives (.run active) cursor forward (by simp)⟩
  | held waiting stands travelled last =>
    cases opens with
    | trigger qualifies active =>
      obtain ⟨info, wait, cursor, leads, accepts, -⟩ := triggerBack poised qualifies inOrder
      obtain ⟨event, found⟩ := Option.isSome_iff_exists.mp accepts
      have arrives := opensArrives (.trigger qualifies active) cursor
        ⟨by simp, fun _ => leads⟩ fun _ => found
      refine ⟨info, event, _, true, fun p inside q ahead => ?_, arrives⟩
      exact (last p inside).trans_lt (ahead.2 rfl)
  | ended idle travelled =>
    cases opens with
    | trigger qualifies active =>
      rw [idleRefuses idle] at qualifies
      cases qualifies

theorem trailRises (trail : s.trail.Pairwise (· < ·)) (adds : s.Adds u places)
    (rises : Rises expected places) (ahead : ∀ p ∈ s.trail, ∀ q, expected q → p < q) :
    u.trail.Pairwise (· < ·) := by
  rw [addsTrail adds]
  exact List.pairwise_append.mpr ⟨trail, rises.rising, fun p inside q inside' =>
    ahead p inside q (rises.within q inside')⟩

theorem haltsTrail (rested : Rested task s) (poised : Poised target s)
    (halts : Halts task call ps o s) {b : Option (Except Stop (Option Outcome))}
    (comes : (call.walk s).Comes Others u b) : u.trail.Pairwise (· < ·) := by
  have travelled := haltsTravelled halts
  rw [← call.tourProcess s] at comes
  rcases tourStarts call s with ⟨path, t, opens⟩ | ⟨r, refused, same⟩
  · obtain ⟨held, event, below, resuming, ahead, treads⟩ := haltsArrives rested poised halts opens
    have behind (p : List Nat) (inside : p ∈ s.trail) := ahead p (List.mem_append_left ps inside)
    rcases Dialogue.treadsMoment treads comes with ⟨v, trod, still, -⟩ | ⟨r, -, q, -, arrives⟩
    · obtain ⟨places, adds, rises⟩ := trod
      exact trailRises travelled.trail (addsUntil adds (addsSame still)) rises behind
    · obtain ⟨places, adds, rises, -⟩ := arrives.trail
      exact trailRises travelled.trail adds rises behind
  · rw [same] at comes
    cases comes
    exact travelled.trail

theorem risingLast {p : List Nat} (rising : places.Pairwise (· < ·))
    (last : places.getLast? = some p) : ∀ q ∈ places, q ≤ p := by
  obtain ⟨front, rfl⟩ := List.getLast?_eq_some_iff.mp last
  intro q inside
  rcases List.mem_append.mp inside with inside | inside
  · exact ((List.pairwise_append.mp rising).2.2 q inside p (by simp)).le
  · exact (List.mem_singleton.mp inside).le

theorem walkedArrives {outcome : Outcome} (rested : Rested task s) (poised : Poised target s)
    (halts : Halts task call ps o s)
    (comes : (call.walk s).Comes Others u (some (.ok (some outcome)))) :
    ∃ held event below resuming, (∀ p ∈ s.trail ++ ps, ∀ q, Ahead [] below resuming q → p < q) ∧
      Arrives held event [] below resuming (Ahead [] below resuming) 0 s u (.ok outcome) := by
  rw [← call.tourProcess s] at comes
  rcases tourStarts call s with ⟨path, t, opens⟩ | ⟨r, refused, same⟩
  · obtain ⟨held, event, below, resuming, ahead, treads⟩ := haltsArrives rested poised halts opens
    rcases Dialogue.treadsMoment treads comes with ⟨v, -, -, back⟩ | ⟨r, came, q, same, arrives⟩
    · exact absurd rfl (back _)
    · cases came
      cases q with
      | ok outcome =>
        cases same
        exact ⟨held, event, below, resuming, ahead, arrives⟩
      | error e => cases same
  · rw [same] at comes
    cases comes
    cases refused

theorem haltsWalked {outcome : Outcome} (rested : Rested task s) (poised : Poised target s)
    (halts : Halts task call ps o s)
    (comes : (call.walk s).Comes Others u (some (.ok (some outcome)))) :
    Halts task trigger (ps ++ stops (some outcome) u) (some outcome) u := by
  have travelled := haltsTravelled halts
  have settled := endsSettled rested poised (haltsInOrder rested halts) (restedComes rested comes).2
  have rising := haltsTrail rested poised halts comes
  obtain ⟨held, event, below, resuming, ahead, arrives⟩ := walkedArrives rested poised halts comes
  cases settled with
  | completed waiting suspending levels top aims =>
    change Halts task trigger (ps ++ []) _ u
    rw [List.append_nil]
    exact .ended waiting ⟨rising, travelled.stops, travelled.waits⟩
  | @suspended info wait waiting stands suspending base =>
    have whole : call.applet s.run.task = task.tree := by
      cases halts <;> exact congrArg Task.tree rested.task
    rw [whole] at stands
    obtain ⟨places, adds, rises, last⟩ := arrives.trail
    have reached : places.getLast? = some u.run.position := last rfl
    have here := rises.within _ (List.mem_of_getLast? reached)
    have before (p : List Nat) (inside : p ∈ s.trail ++ ps) : p < u.run.position :=
      ahead p inside _ here
    change Halts task trigger (ps ++ [u.run.position]) _ u
    refine .held waiting stands ⟨rising, ?_, fun p inside => ?_⟩ fun p inside => ?_
    · refine List.pairwise_append.mpr ⟨travelled.stops, List.pairwise_singleton _ _, ?_⟩
      exact fun p inside q last => List.mem_singleton.mp last ▸
        before p (List.mem_append_right _ inside)
    · rcases List.mem_append.mp inside with inside | inside
      · exact travelled.waits p inside
      · exact List.mem_singleton.mp inside ▸ ⟨info, wait, stands⟩
    · rw [addsTrail adds] at inside
      simp only [List.mem_append, List.mem_singleton] at inside
      rcases inside with (inside | inside) | inside | rfl
      · exact (before p (List.mem_append_left _ inside)).le
      · exact risingLast rises.rising reached p inside
      · exact (before p (List.mem_append_right _ inside)).le
      · exact le_rfl

structure Poses (task : Task) (target : Option Json) (call : Errand) (ps : List (List Nat))
    (o : Option Outcome) (s : Scene) : Prop where
  rested : Rested task s
  poised : Poised target s
  halts : Halts task call ps o s

theorem posesNext (poses : Poses task target call ps o s)
    (comes : (call.walk s).Comes Others u (some (.ok q))) (later : u.Later t) :
    Poses task target trigger (ps ++ stops q u) (q.or o) t := by
  obtain ⟨rested, poised, halts⟩ := poses
  have rested' := restedLater later (restedComes rested comes).1
  cases q with
  | some outcome =>
    have settled := endsSettled rested poised (haltsInOrder rested halts)
      (restedComes rested comes).2
    exact ⟨rested', poisedLater later (settledPoised settled),
      haltsLater later (haltsWalked rested poised halts comes)⟩
  | none =>
    obtain ⟨rfl, rfl⟩ := endsIdle (restedComes rested comes).2
    change Poses task target trigger (ps ++ []) o t
    rw [List.append_nil]
    exact ⟨rested', poisedLater later poised, haltsLater later halts⟩

structure Resumed (info : AppletInfo) (event : Event) (s u : Scene)
    (r : Except Stop (Option Outcome)) : Prop where
  frees : Frees s.run.position info event s u
  onward : r = .ok (some .completed) ∨
    r = .ok (some .suspended) ∧ s.run.position < u.run.position

theorem triggerResumes {allowed : Demand → Prop} {info : AppletInfo} (rested : Rested task s)
    (poised : Poised target s) (waiting : s.run.slate.waiting = some (.wait info wait))
    (stands : task.tree.at? s.run.position = some (.wait info wait))
    (found : wait.find? s.occasion.batch.events = some event) (active : s.isActive = true)
    (only : task.tree.Only allowed) :
    (trigger.tour s).Sure allowed fun u r =>
      trigger.Served s u r ∧ ∀ o, r = .ok o → Resumed info event s u r := by
  have qualifies : s.run.qualifies s.occasion.batch.events = true := by
    simp [Run.qualifies, Run.waitsFor?, waiting, Applet.wait?, found]
  have leads : s.run.task.tree.at? s.run.position = some (.wait info wait) := by
    rw [rested.task, stands]
  obtain ⟨-, -, cursor, -⟩ := triggerBack poised qualifies fun _ => leads.trans waiting.symm
  have within := restedWithin rested
  have walked : (trigger.applet s.run.task).Only allowed := by
    rw [rested.task]
    exact only
  have treads := opensArrives (.trigger qualifies active) cursor ⟨by simp, fun _ => leads⟩
    fun _ => found
  refine Dialogue.sureWeaken (Dialogue.treadsSure (tourEnds walked within) treads) ?_
  rintro u r ⟨ends, q, rfl, arrives⟩
  refine ⟨endsServed within ends, fun o returned => ?_⟩
  cases q with
  | error e => cases returned
  | ok outcome =>
    refine ⟨arrives.frees rfl outcome rfl, ?_⟩
    cases outcome with
    | completed => exact .inl rfl
    | suspended =>
      obtain ⟨places, adds, rises, last⟩ := arrives.trail
      have here := rises.within _ (List.mem_of_getLast? (last rfl))
      exact .inr ⟨rfl, here.2 rfl⟩

end Errand

namespace Lone
open Errand
variable {task : Task} {handle : Handle} {observer : Option Observer} {target : Option Json}
  {first : Batch} {world : World} {call : Errand} {s : Scene} {ps : List (List Nat)}
  {o : Option Outcome}

theorem journeyPoses (clean : world.slates.Clean)
    (journey : Journey (((obtain world task handle observer first).aim target).scene first) call ps
      o s) : Poses task target call ps o s := by
  have stands := obtainStands clean task handle observer target first
  have cursor := forwardCursor stands.forward
  induction journey with
  | run later =>
    have idle := standsIdle stands
    have poised : Poised target
        (((obtain world task handle observer first).aim target).scene first) :=
      .ended (by rw [cursor]; rfl) idle (congrArg Footing.suspending stands.forward) stands.target
    have fresh : Halts task Errand.run [] none
        (((obtain world task handle observer first).aim target).scene first) :=
      .fresh cursor idle (by rw [Scene.trail, stands.journal]; rfl)
    exact ⟨restedLater later (restedStanding rfl cursor (by simp)), poisedLater later poised,
      haltsLater later fresh⟩
  | trigger earlier comes later ih => exact posesNext ih comes later

/- The course of a run that is run once and triggered from then on. Each suspension is at a wait
further on, and no action is carried out twice. If the run is suspended, whether a batch qualifies
is up to the wait that is pending: without an event that it accepts a trigger changes nothing, and
with one the wait completes with what the first such event passes. The run then completes or is
suspended further on, unless it is cancelled from outside; and the trigger does come back if the
executors answer. -/
theorem triggersProgress (clean : world.slates.Clean)
    (journey : Journey (((obtain world task handle observer first).aim target).scene first) call ps
      o s) :
    ps.Pairwise (· < ·) ∧ ps.length ≤ task.tree.waits.length ∧
      (∀ u b, (call.walk s).Comes Others u b → u.journal.acts.Nodup) ∧
      (o = some .suspended → ∃ info wait, s.run.slate.waiting = some (.wait info wait) ∧
        task.tree.at? s.run.position = some (.wait info wait) ∧
        (∀ events, s.run.qualifies events = (wait.find? events).isSome) ∧
        (wait.find? s.occasion.batch.events = none → trigger.walk s = .done s (.ok none)) ∧
        ∀ event, wait.find? s.occasion.batch.events = some event → s.isActive = true →
          task.tree.Only Demand.Docile →
          (∀ u r, (trigger.walk s).Comes Spares u (some r) → Resumed info event s u r) ∧
            (task.tree.Only Demand.Willing →
              (trigger.walk s).Attains Spares (Resumed info event s))) := by
  obtain ⟨rested, poised, halts⟩ := journeyPoses clean journey
  have travelled := haltsTravelled halts
  refine ⟨travelled.stops, Applet.waitsBound travelled.stops.nodup travelled.waits,
    fun u b comes => Journal.actsOnce (haltsTrail rested poised halts comes), fun suspended => ?_⟩
  subst suspended
  cases halts with
  | @held _ _ info wait waiting stands travelled last =>
    have agrees (events : List Event) : s.run.qualifies events = (wait.find? events).isSome := by
      simp [Run.qualifies, Run.waitsFor?, waiting, Applet.wait?]
    refine ⟨info, wait, waiting, stands, agrees, fun none => ?_,
      fun event found active docile => ?_⟩
    · exact Walk.triggerIdle (by rw [agrees, none]; rfl)
    · have resumes (u : Scene) (r : Except Stop (Option Outcome))
          (comes : (trigger.walk s).Comes Spares u (some r)) : Resumed info event s u r := by
        -- Nobody cancels the run, neither its executors nor the others, so it comes back with an
        -- outcome.
        have awake : u.isActive = true :=
          Walk.triggerSpares (rested.task ▸ docile) (fun handle => id) comes active
        have sure := triggerResumes rested poised waiting stands found active docile
        rw [← Errand.tourProcess] at comes
        obtain ⟨served, resumed⟩ := Dialogue.sureReturns sure id
          (Process.comesWeaken (fun _ _ spares => spares.others) comes)
        cases served with
        | ended outcome qualifies => exact resumed _ rfl
        | idle asked idle => exact resumed _ rfl
        | cancelled inactive => simp [awake] at inactive
      refine ⟨resumes, fun willing => ?_⟩
      have sure := triggerResumes rested poised waiting stands found active willing
      have attains := Dialogue.sureAttains sure
      rw [Errand.tourProcess] at attains
      exact Process.attainsWhen (fun _ _ spares => spares.others) attains resumes

theorem triggersProgressLauncher :
    World.fresh.slates.Clean ∧
      Journey (launcherLone.scene launcherBatch) trigger [[1, 0]] (some .suspended)
        launcherReleased ∧
      launcherTask.tree.waits = [[1, 0]] ∧
      ∃ info event, launcherReleased.isActive = true ∧
        (trigger.walk launcherReleased).Attains Spares (Resumed info event launcherReleased) := by
  have clean : World.fresh.slates.Clean := fun a inside => nomatch inside
  have held : (Errand.run.walk (launcherLone.scene launcherBatch)).alone.2 =
      some (.ok (some .suspended)) := rfl
  have comes : (Errand.run.walk (launcherLone.scene launcherBatch)).Comes Others launcherHeld
      (some (.ok (some .suspended))) := Process.comesAlone othersSame (Prod.ext rfl held)
  have journey : Journey (launcherLone.scene launcherBatch) trigger [[1, 0]] (some .suspended)
      launcherReleased := .trigger (.run (laterSame _)) comes (sceneLater _ _)
  have active : launcherReleased.isActive = true := rfl
  refine ⟨clean, journey, rfl, ?_⟩
  obtain ⟨info, wait, -, -, agrees, -, onward⟩ := (triggersProgress clean journey).2.2.2 rfl
  have accepts := agrees launcherReleased.occasion.batch.events
  rw [show launcherReleased.run.qualifies launcherReleased.occasion.batch.events = true from rfl]
    at accepts
  obtain ⟨event, found⟩ := Option.isSome_iff_exists.mp accepts.symm
  exact ⟨info, event, active, (onward event found active (launcherOnly _)).2 (launcherOnly _)⟩

end Lone
end Automation
