import Automation.Proofs.Gist
import Automation.Proofs.Settling
/-! Executors that fail. An error that an executor returns is the result of its applet and goes no
further: the walk branches as it does after a mismatch, and a call of the run breaks off only when
the run is cancelled. -/
namespace Automation
open Scene

namespace Executor

def fails (cause : ApplyError) : (e : Executor) → e.Answer
  | check | action => .error cause

theorem failsResult (info : AppletInfo) (e : Executor) (cause : ApplyError) :
    e.result info (e.fails cause) = .failingBy cause := by
  cases e <;> rfl

end Executor

structure Fails (path : List Nat) (info : AppletInfo) (e : Executor) (cause : ApplyError)
    (s t : Scene) : Prop where
  successful : t.run.slate.result.map AppletResult.isSuccessful = some false
  reports : t.run.slate.result.bind AppletResult.cause? = some cause
  publishes : t.run.slate.result.bind AppletResult.published? = none
  run : t.run = { s.run with slate := { s.run.slate with
    successful := false, result := t.run.slate.result } }
  journal : t.journal = s.journal ++
    [e.answered path (e.fails cause), .notice s.run.slate.observer .terminated path info t.run]
  occasion : t.occasion = s.occasion
  handles : t.world.handles = s.world.handles
  globals : t.world.globals = s.world.globals

theorem concludeFails (path : List Nat) (info : AppletInfo) (e : Executor) (cause : ApplyError)
    (s : Scene) : Fails path info e cause s (e.conclude path info (e.fails cause) s) := by
  cases e <;> exact ⟨rfl, rfl, rfl, rfl, List.append_assoc .., rfl, rfl, rfl⟩

namespace Dialogue
variable {α : Type} {path : List Nat} {info : AppletInfo} {e : Executor} {s : Scene}
  {script : Script e.Answer} {next : e.Answer → Scene → Dialogue α}

/- A dialogue that takes the errors of the executor it calls for failures of the applet: whatever
the answer, it goes on in one way from where the result is registered, and after an error it goes
on as it does after any other answer, or with any other result, that is not a success. -/
structure Absorbs (path : List Nat) (info : AppletInfo) (e : Executor)
    (next : e.Answer → Scene → Dialogue α) (rest : Scene → Dialogue α) : Prop where
  goesOn (answer : e.Answer) (u : Scene) : next answer u = rest (e.conclude path info answer u)
  registers (cause : ApplyError) (u : Scene) :
    Fails path info e cause u (e.conclude path info (e.fails cause) u)
  mismatch (cause : ApplyError) (answer : e.Answer) (u : Scene)
    (failure : (e.result info answer).isSuccessful = false) :
    (next (e.fails cause) u).Alike gist (next answer u)
  failure (cause : ApplyError) (result : AppletResult) (u : Scene)
    (failure : result.isSuccessful = false) :
    (next (e.fails cause) u).Alike gist (rest (u.finish path info result))

theorem alikeAbsorbs
    (alike : (call s path info e script next).Alike gist (call s path info e script next)) :
    ∃ rest, Absorbs path info e next rest := by
  cases alike with
  | call rest same onward =>
    have failed (cause : ApplyError) (result : AppletResult) (u : Scene)
        (failure : result.isSuccessful = false) :
        (e.conclude path info (e.fails cause) u).gist = (u.finish path info result).gist := by
      rw [concludeGist, e.failsResult]
      have results := (AppletResult.gistFailure (r := .failingBy cause) rfl).trans
        (AppletResult.gistFailure failure).symm
      exact finishAlike rfl results path info
    refine ⟨rest, fun _ _ => rfl, concludeFails path info e, fun cause answer u failure => ?_,
      fun cause result u failure => onward _ _ (failed cause result u failure)⟩
    refine onward _ _ ((failed cause _ u failure).trans ?_)
    rw [concludeGist]

end Dialogue

namespace Errand
variable {call : Errand} {s u : Scene} {r : Except Stop (Option Outcome)}

def Answering (call : Errand) (s : Scene) : Prop :=
  (call.applet s.run.task).Only Demand.Willing

/- How a call comes back: with an outcome; with none, if it is a trigger and nothing is pending that
the batch ends; or cancelled, if the run has been. -/
inductive Served (call : Errand) (s : Scene) : Scene → Except Stop (Option Outcome) → Prop where
  | ended {t} (outcome : Outcome)
      (qualifies : call = trigger → s.run.qualifies s.occasion.batch.events = true) :
      Served call s t (.ok (some outcome))
  | idle (asked : call = trigger) (idle : s.run.qualifies s.occasion.batch.events = false) :
      Served call s s (.ok none)
  | cancelled {t} (inactive : t.isActive = false) : Served call s t (.error .cancelled)

theorem opensQualifies {path : List Nat} {t : Scene} (opens : Opens s call path t)
    (asked : call = trigger) : s.run.qualifies s.occasion.batch.events = true := by
  cases opens with
  | run | evaluate => cases asked
  | trigger qualifies active => exact qualifies

theorem endsServed (within : Within s) (ends : call.Ends s u r) : call.Served s u r := by
  cases ends with
  | refused refused =>
    cases refused with
    | cancelled inactive => exact .cancelled inactive
    | idle idle => exact .idle rfl idle
  | walked opens settles =>
    cases settles _ _ _ (Cursor.standingAny _ (opensWithin opens within)) with
    | completed => exact .ended .completed (opensQualifies opens)
    | suspended => exact .ended .suspended (opensQualifies opens)
    | cancelled inactive => exact .cancelled inactive

theorem walkEnds (answering : call.Answering s) (within : Within s) :
    (call.walk s).Attains Others (call.Ends s) := by
  rw [← call.tourProcess s]
  exact Dialogue.sureAttains (tourEnds answering within)

end Errand

namespace Lone
open Errand
variable {task : Task} {handle : Handle} {observer : Option Observer} {target : Option Json}
  {first : Batch} {world : World} {call : Errand} {s : Scene}

/- If the executors return, every call comes back, with an error only if the run was cancelled. And
wherever an executor is called, an error is absorbed as the failure of its applet. -/
theorem failuresAbsorbed (clean : world.slates.Clean)
    (session : Session Answering (fun _ => True)
      (((obtain world task handle observer first).aim target).scene first) call s) :
    (call.walk s).Attains Others (call.Served s) ∧
      ∀ {t path info e script next}, (call.tour s).Leads (.call t path info e script next) →
        ∃ rest, Dialogue.Absorbs path info e next rest := by
  have begun : Within (((obtain world task handle observer first).aim target).scene first) := by
    have stands := obtainStands clean task handle observer target first
    exact standingWithin (forwardCursor stands.forward)
  have within : Within s := session.holds begun
    (fun s t later within => by rwa [Within, later.run])
    fun call s u r answering within comes _ =>
      endsWithin within (Process.attainsComes (walkEnds answering within) comes)
  refine ⟨?_, fun leads => ?_⟩
  · exact Process.attainsWeaken (walkEnds session.allowed within) fun u r => endsServed within
  · exact Dialogue.alikeAbsorbs
      (Dialogue.leadsAlike leads (call.tourAlike gistForgetful s s rfl))

def aimlessTask : Task :=
  let guard : Applet :=
    .criterion
      { Sample.named "level below" .unregistered with value := some (.int 20), inverted := true }
      (Check.field "level" Sample.below)
  let announce : Applet := .action (Sample.named "announce" .unregistered) Sample.announce
  let wait : Applet := .wait (Sample.named "wait for window" .unregistered) (Wait.ofType ⟨"new_window"⟩)
  ⟨{ title := "Aimless" }, Sample.flow .root
    [Sample.flow .ifAll [guard], Sample.flow .block [wait], Sample.flow .otherwise [],
      Sample.flow .block [announce]], rfl, rfl⟩

theorem aimlessWilling : aimlessTask.tree.Only Demand.Willing := by
  refine .flow (List.forall_mem_cons.mpr ⟨.flow (List.forall_mem_singleton.mpr ?_),
    List.forall_mem_cons.mpr ⟨.flow (List.forall_mem_singleton.mpr .wait),
      List.forall_mem_cons.mpr ⟨.flow (List.forall_mem_nil _),
        List.forall_mem_singleton.mpr (.flow (List.forall_mem_singleton.mpr ?_))⟩⟩⟩)
  · exact .criterion fun input => trivial
  · exact .action fun input => trivial

def aimlessScene : Scene :=
  ((obtain World.fresh aimlessTask ⟨0⟩ none launcherBatch).aim none).scene launcherBatch

theorem failuresAbsorbedAimless :
    Session Answering (fun _ => True) aimlessScene Errand.run aimlessScene ∧
      (∃ u, (Errand.run.walk aimlessScene).Comes Others u (some (.ok (some .completed))) ∧
        Errand.run.Served aimlessScene u (.ok (some .completed))) ∧
      ∃ t info script next,
        (Errand.run.tour aimlessScene).Leads (.call t [0, 0] info .check script next) ∧
          ∃ rest, Dialogue.Absorbs [0, 0] info .check next rest := by
  have session : Session Answering (fun _ => True) aimlessScene Errand.run aimlessScene :=
    .first (laterSame _) aimlessWilling
  have clean : World.fresh.slates.Clean := fun a inside => nomatch inside
  obtain ⟨served, absorbs⟩ := failuresAbsorbed clean session
  have completed : (Errand.run.walk aimlessScene).alone.2 = some (.ok (some .completed)) := by
    decide +kernel
  have comes := Process.comesAlone othersSame (Prod.ext rfl completed)
  refine ⟨session, ⟨_, comes, Process.attainsComes served comes⟩, ?_⟩
  have leads := Dialogue.Leads.here (Errand.run.tour aimlessScene)
  exact ⟨_, _, _, _, leads, absorbs leads⟩

end Lone
end Automation
