import Automation.Proofs.Endings
import Automation.Proofs.Roster
/-! What a turn of a flight comes to, up to the next await of its walk. Whoever can halt nobody by a
handle changes no handle in its turn, but may halt everything, and its run is not halted when it
comes to a wait. -/
namespace Automation

def Demand.Handless : Demand → Prop
  | cancel _ => False
  | _ => True

namespace Walk

theorem flightAlert (flight : Flight) (s : Scene)
    (qualifies : flight.resumed = true → s.run.qualifies s.occasion.batch.events = true) :
    (Dispatch.walk flight s).Ends Alert := by
  unfold Dispatch.walk
  split
  · rename_i resumed
    have triggered : (trigger s).Ends fun t r =>
        r ≠ .ok none ∧ (r = .ok (some .suspended) → t.isActive = true) := by
      cases active : s.isActive with
      | false =>
        rw [triggerInactive (qualifies resumed) active]
        exact ⟨fun absurd => (by cases absurd), fun absurd => (by cases absurd)⟩
      | true =>
        rw [triggerActive (qualifies resumed) active]
        refine endsThen (visitAlert s.run.task.tree .aggregate [] s.resume active)
          (fun t outcome alert => ?_) fun t e _ => ?_
        · refine ⟨fun absurd => (by cases absurd), fun same => ?_⟩
          cases same
          exact alert rfl
        · exact ⟨fun absurd => (by cases absurd), fun absurd => (by cases absurd)⟩
    refine endsThen triggered (fun t outcome alert => ?_) fun t e _ absurd => by cases absurd
    obtain ⟨something, alert⟩ := alert
    cases outcome with
    | none => exact absurd rfl something
    | some outcome =>
      intro same
      cases same
      exact alert rfl
  · cases active : s.isActive with
    | false =>
      rw [runInactive active]
      exact fun absurd => by cases absurd
    | true =>
      rw [runActive active]
      exact visitAlert s.run.task.tree .aggregate [] s active

end Walk

namespace Course
variable {flight : Flight} {batch : Batch}

/- The flight halts nobody by a handle, and is not halted when it comes to a wait. -/
structure Fit (flight : Flight) (batch : Batch) (c : Course) : Prop where
  kept : c.Kept Demand.Handless flight batch
  only : c.run.task.tree.Only Demand.Handless
  alert : ∀ world, (c.process flight batch world).Ends Walk.Alert

theorem readyFit {run : Run} (handle : run.handle = flight.handle)
    (only : run.task.tree.Only Demand.Handless)
    (qualifies : flight.resumed = true → run.qualifies batch.events = true) :
    (Course.ready run).Fit flight batch :=
  ⟨readyKept handle only, only, fun _ => Walk.flightAlert flight _ qualifies⟩

theorem fitStays {c : Course} (fit : c.Fit flight batch) {world : World} {t : Scene}
    (reaches : (c.scene batch world).Reaches Demand.Handless t) :
    t.world.handles = world.handles ∧ t.run.handle = flight.handle ∧
      t.run.task.tree.Only Demand.Handless := by
  obtain ⟨task, origin, handle, slates⟩ := Frame.reachesIdentity reaches
  have handles := Frame.reachesHandles reaches fun h demand => demand
  have run := c.sceneRun batch world
  have started := c.sceneWorld batch world
  refine ⟨handles.trans (congrArg World.handles started), ?_, ?_⟩
  · exact (handle.trans (congrArg Run.handle run)).trans fit.kept.handle
  · have same : t.run.task = c.run.task := task.trans (congrArg Run.task run)
    rw [same]
    exact fit.only

end Course

def Landing.Awake (flight : Flight) (handles : Handles) : Landing → Prop
  | .back run (some .suspended) => run.handle = flight.handle ∧
      run.task.tree.Only Demand.Handless ∧ handles.isCancelled run.handle = false
  | _ => True

namespace Sky

def halt (s : Sky) : Sky :=
  { s with dispatch := s.dispatch.haltAll.2, overtaken := s.overtaken ++ s.dispatch.late }

inductive Turned (s : Sky) (flight : Flight) (before after : List (Flight × Course)) :
    Sky → Prop where
  | lands {w : World} {landing : Landing} (log : List (String × Entry))
      (handles : w.handles = s.world.handles) (awake : landing.Awake flight s.world.handles) :
      Turned s flight before after { s with
        dispatch := { s.dispatch with
          dispatcher := { s.dispatch.dispatcher with world := w }
          landed := s.dispatch.landed ++ [(flight, landing)]
          log }
        flying := before ++ after }
  | strands {w : World} {run : Run} (log : List (String × Entry))
      (handles : w.handles = s.world.handles) :
      Turned s flight before after { s with
        dispatch := { s.dispatch with
          dispatcher := { s.dispatch.dispatcher with world := w }
          stranded := s.dispatch.stranded ++ [(flight, run)]
          log }
        flying := before ++ after }
  | goesOn {w : World} {c : Course} (log : List (String × Entry))
      (handles : w.handles = s.world.handles) (fit : c.Fit flight s.batch) :
      Turned s flight before after { s with
        dispatch := { s.dispatch with
          dispatcher := { s.dispatch.dispatcher with world := w }
          log }
        flying := before ++ (flight, c) :: after }
  | halts {t : Sky} (goesOn : Turned s flight before after t) :
      Turned s flight before after t.halt

theorem turnTurned (s : Sky) {flight : Flight} {course : Course}
    (before after : List (Flight × Course)) (fit : course.Fit flight s.batch) :
    s.Turned flight before after (s.turn flight course before after) := by
  have turns := fit.kept.turns s.world
  have alert := fit.alert s.world
  have handle : (course.scene s.batch s.world).run.handle = flight.handle := by
    rw [course.sceneRun]
    exact fit.kept.handle
  unfold turn
  generalize course.process flight s.batch s.world = p at turns alert
  cases p with
  | done t r =>
    obtain ⟨handles, handle', only'⟩ := Course.fitStays fit turns
    have back (outcome : Option Outcome)
        (awake : (Landing.back t.run outcome).Awake flight s.world.handles) :
        s.Turned flight before after _ := .lands (s.dispatch.absorb flight t).log handles awake
    rcases r with (_ | _) | (_ | _) <;>
      simp only [Dispatch.advance, Option.toList_none, List.map_nil, List.append_nil]
    · exact back none trivial
    · have awake : Landing.crashed.Awake flight s.world.handles := trivial
      exact .lands (w := t.world.recycle t.run) _ handles awake
    · exact back (some .completed) trivial
    · refine back (some .suspended) ⟨handle', only', ?_⟩
      have active := alert rfl
      rw [Scene.isActive, Run.isActive, handles] at active
      exact Bool.not_eq_true' _ |>.mp active
  | yield t next =>
    obtain ⟨handles, handle', only'⟩ := Course.fitStays fit turns.1
    have kept : (Course.paused t next).Kept Demand.Handless flight s.batch :=
      Course.advanceKept handle turns s.dispatch rfl
    simp only [Dispatch.advance, Option.toList_some, List.map_cons, List.map_nil,
      List.append_assoc, List.singleton_append]
    exact .goesOn _ handles ⟨kept, only', fun world => alert _⟩
  | pend t =>
    obtain ⟨handles, handle', only'⟩ := Course.fitStays fit turns
    simp only [Dispatch.advance, Option.toList_none, List.map_nil, List.append_nil]
    exact .strands _ handles
  | haltAll t next =>
    obtain ⟨handles, handle', only'⟩ := Course.fitStays fit turns.1
    -- Halting everything comes behind whatever else the turn has done.
    have kept : (Course.answered t (next (s.dispatch.absorb flight t).haltAll.1)).Kept
        Demand.Handless flight s.batch := Course.advanceKept handle turns s.dispatch rfl
    have gone : s.Turned flight before after _ :=
      .goesOn (s.dispatch.absorb flight t).log handles ⟨kept, only', fun world => alert _ _⟩
    simp only [Dispatch.advance, Option.toList_some, List.map_cons, List.map_nil,
      List.append_assoc, List.singleton_append]
    exact .halts gone

end Sky
end Automation
