import Automation.Proofs.Owner
/-! Cancellation stops a walk. Once the run is cancelled while one of its executors is at work,
nothing else is started or evaluated, neither in that call nor in any later one. -/
namespace Automation
open Scene

namespace Summons

def refusal (call : Summons) (s : Scene) : Except Stop (Option Outcome) :=
  if call = .trigger ∧ s.run.qualifies s.occasion.batch.events = false then .ok none
  else .error .cancelled

theorem walkCancelled {s : Scene} (cancelled : s.isActive = false) (call : Summons) :
    call.walk s = .done s (call.refusal s) := by
  cases call with
  | run =>
    change (Walk.run s).bind _ = _
    rw [Walk.runInactive cancelled]
    rfl
  | trigger =>
    rw [walk, refusal]
    cases qualifies : s.run.qualifies s.occasion.batch.events with
    | false => exact Walk.triggerIdle qualifies
    | true => exact Walk.triggerInactive qualifies cancelled

end Summons

namespace Lone

/- The scenes in which the owner calls a run again, after a call that came back in `u`. -/
inductive Recalls (u : Scene) : Summons → Scene → Prop where
  | next {call batch t} (hands : u.Hands batch t) : Recalls u call t
  | after {call s v r call' batch t} (earlier : Recalls u call s)
      (comes : (call.walk s).Comes Others v (some r)) (hands : v.Hands batch t) :
      Recalls u call' t

variable {u v : Scene} {call : Summons}

theorem recallsSame (cancelled : u.isActive = false) (recalls : Recalls u call v) :
    v.run = u.run ∧ v.journal = u.journal ∧ v.isActive = false := by
  induction recalls with
  | next hands => exact ⟨hands.run, hands.journal, hands.cancelled cancelled⟩
  | after earlier comes hands ih =>
    obtain ⟨run, journal, inactive⟩ := ih
    rw [Summons.walkCancelled inactive] at comes
    cases comes
    exact ⟨hands.run.trans run, hands.journal.trans journal, hands.cancelled inactive⟩

/- The executor of a criterion or an action returns, in any call, and the run has been cancelled
by then. The call does nothing more but end and skip applets: it is complete if no flow around the
applet has a child left, be it that the last one is done or that it stops at a failure, and
cancelled otherwise. No later call does anything. -/
theorem cancelledStops {world : World} (clean : world.slates.Clean) {task : Task} {handle : Handle}
    {observer : Option Observer} {target : Option Json} {first : Batch} {batches : List Batch}
    {call : Summons} {start : Scene}
    (begins :
      Begins ((obtain world task handle observer first).aim target) first batches call start)
    {s t : Scene} {path : List Nat} {info : AppletInfo} {executor : Executor}
    {script : Script executor.Answer} {next : executor.Answer → Scene → Dialogue (Option Outcome)}
    (leads : (call.tour start).Leads (.call s path info executor script next))
    {answer : executor.Answer}
    (returns : (Walk.perform script s).Comes Others t (some (.ok answer)))
    (cancelled : t.isActive = false) :
    (call.tour start).process = call.walk start ∧
    (task.tree.at? path).any Applet.calls = true ∧
    ∃ u tail ending, next answer t = .finished u ending ∧
      (call.walk start).Comes Others u (some ending) ∧
      ending = (if task.tree.runsOut (executor.result info answer).isSuccessful .aggregate path then
        .ok (some .completed) else .error .cancelled) ∧
      u.journal = t.journal ++ executor.answered path answer :: tail ∧
      (∀ e ∈ tail, e.closing = true) ∧
      ∀ again v, Recalls u again v →
        v.run = u.run ∧ v.journal = u.journal ∧ again.walk v = .done v (again.refusal v) := by
  have stands := obtainStands clean task handle observer target first
  have honours := Dialogue.leadsHonours leads (beginsHonours stands rfl begins)
  obtain ⟨u, r, finished, q, rfl, p, same, calls, quits⟩ :=
    (honours.2 answer t (Walk.performOthers returns)).2 cancelled
  obtain rfl : path = p := same
  obtain ⟨tail, writes, closing⟩ := quits.closing
  refine ⟨call.tourProcess start, calls, u, tail, _, finished, ?_, ?_, writes, closing, ?_⟩
  · rw [← call.tourProcess start]
    refine Dialogue.leadsComes leads ?_
    rw [Dialogue.process]
    refine Process.comesThen returns ?_
    change (next answer t).process.Comes Others u _
    rw [finished]
    exact .done _ _
  · rw [quits.ending]
    exact apply_ite (Except.map some) ..
  · intro again v recalls
    obtain ⟨run, journal, inactive⟩ := recallsSame quits.cancelled recalls
    exact ⟨run, journal, Summons.walkCancelled inactive again⟩

def resigning (rest : List Applet) : Applet :=
  let resign : Action := fun _ => .cancel ⟨0⟩ (.done (.ok .null))
  Sample.flow .root
    (Sample.flow .container [.action (Sample.named "resign" .unregistered) resign] :: rest)

def resigningTask : Task :=
  let announce : Applet := .action (Sample.named "announce" .unregistered) Sample.announce
  ⟨{ title := "Resign and announce" }, resigning [announce], rfl, rfl⟩

def resignedTask : Task := ⟨{ title := "Resign" }, resigning [], rfl, rfl⟩

/- The call is cancelled if there is something left to do when the action returns, and complete
if there is not; nothing comes of later calls either way. -/
theorem cancelledStopsResigned :
    World.fresh.slates.Clean ∧
      let start (task : Task) :=
        ((obtain World.fresh task ⟨0⟩ none launcherBatch).aim none).scene launcherBatch
      (∃ u, (Summons.run.walk (start resigningTask)).Comes Others u (some (.error .cancelled)) ∧
        ∀ again v, Recalls u again v → again.walk v = .done v (again.refusal v)) ∧
      ∃ u, (Summons.run.walk (start resignedTask)).Comes Others u
          (some (.ok (some .completed))) ∧
        ∀ again v, Recalls u again v → again.walk v = .done v (again.refusal v) := by
  have clean : World.fresh.slates.Clean := fun a inside => nomatch inside
  let lone (task : Task) : Lone := (obtain World.fresh task ⟨0⟩ none launcherBatch).aim none
  refine ⟨clean, ?_, ?_⟩
  · obtain ⟨-, -, u, tail, ending, -, comes, rfl, -, -, later⟩ :=
      cancelledStops clean (.run (l := lone resigningTask)) (.here _) (.done _ _) rfl
    exact ⟨u, comes, fun again v recalls => (later again v recalls).2.2⟩
  · obtain ⟨-, -, u, tail, ending, -, comes, rfl, -, -, later⟩ :=
      cancelledStops clean (.run (l := lone resignedTask)) (.here _) (.done _ _) rfl
    exact ⟨u, comes, fun again v recalls => (later again v recalls).2.2⟩

end Lone
end Automation
