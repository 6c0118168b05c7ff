import Automation.Proofs.Observation
import Automation.Proofs.Traffic
/-! Whether an observer is attached makes no difference to a run. Every step of a walk does without
an observer what it does with one, but for who is told, so runs whose owner attaches, replaces and
detaches observers between the calls go the way of a run that nobody listens to. -/
namespace Automation
open Scene

def Entry.unheard : Entry → Entry
  | notice _ phase path applet run => notice none phase path applet (run.setObserver none)
  | e => e

theorem Entry.unheardUnheard (e : Entry) : e.unheard.unheard = e.unheard := by
  cases e <;> rfl

namespace Scene

def unheard (s : Scene) : Scene :=
  ⟨s.run.setObserver none, s.occasion, s.world, s.journal.map Entry.unheard⟩

theorem unheardUnheard (s : Scene) : s.unheard.unheard = s.unheard := by
  simp only [unheard, List.map_map]
  refine congrArg (Scene.mk _ _ _) (List.map_congr_left fun e _ => ?_)
  exact e.unheardUnheard

theorem noteUnheard (s : Scene) (e : Entry) : (s.note e).unheard = s.unheard.note e.unheard :=
  congrArg (Scene.mk _ _ _) List.map_append

theorem factUnheard (s : Scene) {e : Entry} (fact : e.unheard = e) :
    s.unheard.note e = (s.note e).unheard := by
  rw [noteUnheard, fact]

theorem tellUnheard (s : Scene) (phase : Phase) (path : List Nat) (info : AppletInfo) :
    (s.tell phase path info).unheard = s.unheard.tell phase path info := noteUnheard s _

theorem finishUnheard (s : Scene) (path : List Nat) (info : AppletInfo) (result : AppletResult) :
    (s.finish path info result).unheard = s.unheard.finish path info result := by
  unfold finish
  rw [tellUnheard]
  unfold Run.register
  cases result.published? <;> rfl

theorem skipFromUnheard (s : Scene) (path : List Nat) (i : Nat) (children : List Applet) :
    (s.skipFrom path i children).unheard = s.unheard.skipFrom path i children := by
  induction children generalizing s i with
  | nil => rfl
  | cons child rest ih => rw [skipFrom, skipFrom, ih, tellUnheard]

theorem changeUnheard {f : Scene → Scene} (step : Change f) (s : Scene) :
    (f s).unheard = f s.unheard := by
  induction step generalizing s with
  | start path info =>
    have same : s.unheard.run.slate.cursor.resuming = s.run.slate.cursor.resuming := rfl
    simp only [start, same]
    split
    · rfl
    · exact tellUnheard ..
  | finish path info result => exact finishUnheard s path info result
  | skip path info => exact tellUnheard ..
  | skipFrom path i children => exact skipFromUnheard s path i children
  | abandonFlow path children level =>
    have left (t : Scene) :
        ((t.exitFlow level).2.release (t.exitFlow level).1.last.toList).unheard =
        (t.unheard.exitFlow level).2.release (t.unheard.exitFlow level).1.last.toList := rfl
    exact (left _).trans (congrArg (fun t : Scene => (t.exitFlow level).2.release
      (t.exitFlow level).1.last.toList) (skipFromUnheard s path 0 children))
  | comp first second ihFirst ihSecond => rw [ihSecond, ihFirst]
  | _ => rfl

theorem actUnheard {α : Type} {f : Scene → α × Scene} (step : Act f) (s : Scene) :
    f s.unheard = ((f s).1, (f s).2.unheard) := by
  -- A step looks at the observer only to write it into a notice, where it is forgotten again.
  cases step with
  | beginCheck path info expected =>
    simp only [beginCheck, onRun, foldAllRun, noteUnheard]
    rfl
  | beginAction path info =>
    simp only [beginAction, onRun, foldAllRun, noteUnheard]
    rfl
  | endCheck path info outcome =>
    have noted : s.unheard.note (.checked path outcome) =
        (s.note (.checked path outcome)).unheard :=
      s.factUnheard rfl
    cases outcome with
    | error cause =>
      simp only [endCheck, noted]
      rfl
    | ok c =>
      simp only [endCheck, noted]
      split <;> rfl
  | endAction path outcome =>
    have noted : s.unheard.note (.performed path outcome) =
        (s.note (.performed path outcome)).unheard := s.factUnheard rfl
    cases outcome <;> simp only [endAction, noted] <;> rfl
  | tryWait path info wait =>
    have batch : s.unheard.run.batch = s.run.batch := rfl
    simp only [tryWait, batch]
    split
    · rename_i event found
      have noted (t : Scene) : t.unheard.note (.released path event) =
          (t.note (.released path event)).unheard := t.factUnheard rfl
      exact congrArg (fun t : Scene => (some (t.makeResult (AppletResult.succeeded event.passed)).1,
        (t.makeResult (AppletResult.succeeded event.passed)).2))
        (noted (s.onRun fun r => ((r.setWaiting none).setSuspending false).fold event.passed))
    · rfl
  | enterFlow => rfl
  | choose path spec level =>
    have batch : s.unheard.occasion.batch = s.occasion.batch := rfl
    simp only [choose, batch]
    cases spec.selector with
    | none => rfl
    | some select =>
      cases found : select s.occasion.batch with
      | none => simp only [found]
      | some target =>
        simp only [found]
        exact congrArg (true, ·) (factUnheard (s.onRun fun r =>
          ((r.fold target).setTarget (some target)).setCursor _) rfl)
  | leaveFlow spec level =>
    have left : s.unheard.exitFlow level =
        ((s.exitFlow level).1, (s.exitFlow level).2.unheard) := rfl
    simp only [leaveFlow, left]
    generalize s.exitFlow level = exit
    obtain ⟨l, t⟩ := exit
    have target : t.unheard.run.slate.target = t.run.slate.target := rfl
    simp only [target]
    cases l.saved with
    | none => rfl
    | some old =>
      cases t.run.slate.target with
      | none => rfl
      | some target =>
        dsimp only
        split <;> rfl
  | passOn level kind => rfl

theorem unheardBlind {f : Scene → Scene} (commutes : ∀ s, (f s).unheard = f s.unheard) :
    Blind unheard f := by
  intro s
  rw [commutes s, commutes s.unheard, unheardUnheard]

theorem actUnaware {α : Type} {f : Scene → α × Scene} (step : Act f) : Unaware unheard f where
  value s := by rw [actUnheard step s]
  blind := unheardBlind fun s => by rw [actUnheard step s]

theorem finishBlind {f : Scene → AppletResult × Scene} (step : Act f) (path : List Nat)
    (info : AppletInfo) : Blind unheard fun s => (f s).2.finish path info (f s).1 :=
  unheardBlind fun s => by rw [actUnheard step s, finishUnheard]

theorem unheardForgetful : Forgetful unheard where
  task s := rfl
  occasion s := rfl
  globals s := rfl
  active s := rfl
  waits s := rfl
  resuming s := rfl
  levels s := rfl
  expected s info := rfl
  resumes := unheardBlind fun s => rfl
  cancels handle := unheardBlind fun s => rfl
  keeps globals := unheardBlind fun s => rfl
  caches arguments := unheardBlind fun s => rfl
  change step := unheardBlind (changeUnheard step)
  beginCheck path info expected := actUnaware (.beginCheck path info expected)
  beginAction path info := actUnaware (.beginAction path info)
  concludes path info e answer := by
    cases e with
    | check => exact finishBlind (.endCheck path info answer) path info
    | action => exact finishBlind (.endAction path answer) path info
  tryWait path info wait := actUnaware (.tryWait path info wait)
  enterFlow := actUnaware .enterFlow
  choose path spec level := actUnaware (.choose path spec level)
  passOn level kind := actUnaware (.passOn level kind)
  leaves path info spec level := finishBlind (.leaveFlow spec level) path info

theorem unheardKept : Walk.Kept fun s t => s.unheard = s → t.unheard = t where
  trans := fun _ _ _ first second unheard => second (first unheard)
  change := fun step s unheard => by rw [changeUnheard step, unheard]
  act := fun step s unheard => by
    have same := actUnheard step s
    rw [unheard] at same
    exact (congrArg Prod.snd same).symm
  others := fun s t others unheard => by
    have run : s.run.setObserver none = s.run := congrArg (·.run) unheard
    have journal : s.journal.map Entry.unheard = s.journal := congrArg (·.journal) unheard
    rw [Scene.unheard, others.run, others.journal, run, journal, ← others.run, ← others.journal]

end Scene

namespace Lone

/- What the owner of a run does next, or others do meanwhile. -/
inductive Move where
  | listen (observer : Option Observer)
  | call (errand : Errand) (occasion : Nat)
  | meanwhile (world : World) (occasions : Nat → Occasion)

def Move.listens : Move → Bool
  | listen _ => true
  | _ => false

/- Makes the moves one after another: how the calls come back, and what there is in the end. -/
def attend (l : Lone) (occasions : Nat → Occasion) :
    List Move → List Answer × Lone × (Nat → Occasion)
  | [] => ([], l, occasions)
  | .listen observer :: rest => attend { l with run := l.run.setObserver observer } occasions rest
  | .meanwhile world occasions :: rest => attend { l with world } occasions rest
  | .call errand k :: rest =>
    let (s, answer) := (errand.walk ⟨l.run, occasions k, l.world, l.journal⟩).alone
    let (answers, out) :=
      attend (ofScene s) (fun i => if i = k then s.occasion else occasions i) rest
    (answer :: answers, out)

def unheard (l : Lone) : Lone := ⟨l.run.setObserver none, l.world, l.journal.map Entry.unheard⟩

variable {l m : Lone}

theorem sceneUnheard (same : l.unheard = m.unheard) (occasion : Occasion) :
    (Scene.mk l.run occasion l.world l.journal).unheard =
      (Scene.mk m.run occasion m.world m.journal).unheard :=
  congrArg (fun l : Lone => Scene.mk l.run occasion l.world l.journal) same

theorem attendAlike (same : l.unheard = m.unheard) (occasions : Nat → Occasion)
    (moves : List Move) :
    let heard := l.attend occasions moves
    let silent := m.attend occasions (moves.filter fun move => !move.listens)
    heard.1 = silent.1 ∧ heard.2.1.unheard = silent.2.1.unheard ∧ heard.2.2 = silent.2.2 := by
  induction moves generalizing l m occasions with
  | nil => exact ⟨rfl, same, rfl⟩
  | cons move rest ih =>
    cases move with
    | listen observer => exact ih (l := { l with run := l.run.setObserver observer }) same occasions
    | meanwhile world occasions =>
      exact ih (l := { l with world }) (m := { m with world })
        (congrArg (fun l : Lone => { l with world }) same) occasions
    | call errand k =>
      have alike := Process.alikeAlone
        (errand.walkAlike unheardForgetful (sceneUnheard same (occasions k)))
      simp only [Move.listens, Bool.not_false, List.filter_cons_of_pos, attend]
      generalize (errand.walk ⟨l.run, occasions k, l.world, l.journal⟩).alone = out at alike ⊢
      generalize (errand.walk ⟨m.run, occasions k, m.world, m.journal⟩).alone = out' at alike ⊢
      obtain ⟨s, answer⟩ := out
      obtain ⟨s', answer'⟩ := out'
      obtain ⟨scenes, rfl⟩ := alike
      have occasion : s.occasion = s'.occasion := congrArg (·.occasion) scenes
      have lones : (ofScene s).unheard = (ofScene s').unheard := congrArg ofScene scenes
      dsimp only
      rw [← occasion]
      obtain ⟨answers, left⟩ := ih lones fun i => if i = k then s.occasion else occasions i
      exact ⟨congrArg (answer :: ·) answers, left⟩

theorem attendUnheard (unheard : l.unheard = l) (occasions : Nat → Occasion) (moves : List Move) :
    let silent := l.attend occasions (moves.filter fun move => !move.listens)
    silent.2.1.unheard = silent.2.1 := by
  induction moves generalizing l occasions with
  | nil => exact unheard
  | cons move rest ih =>
    cases move with
    | listen observer => exact ih unheard occasions
    | meanwhile world occasions =>
      exact ih (congrArg (fun l : Lone => { l with world }) unheard) occasions
    | call errand k =>
      let start : Scene := ⟨l.run, occasions k, l.world, l.journal⟩
      have begun : start.unheard = start :=
        congrArg (fun l : Lone => Scene.mk l.run (occasions k) l.world l.journal) unheard
      have resumes (s : Scene) (unheard : s.unheard = s) : s.resume.unheard = s.resume := by
        change s.unheard.resume = s.resume
        rw [unheard]
      have comes := Process.comesAlone othersSame (rfl : (errand.walk start).alone = _)
      have kept := Errand.comesKept unheardKept resumes comes begun
      exact ih (l := ofScene (errand.walk start).alone.1) (congrArg ofScene kept) _

theorem unheardCalls (unheard : l.unheard = l) (o : Observer) : l.calls o = [] := by
  have journal : l.journal.map Entry.unheard = l.journal := congrArg Lone.journal unheard
  rw [calls, ← journal, List.filterMap_map, List.filterMap_eq_nil_iff]
  intro e inside
  cases e <;> rfl

/- Observers are a side channel. A run whose owner attaches, replaces and detaches observers between
any calls does what it does when nobody ever listens: its calls come back the same, it ends up
the same, in the same world and with the same journal, but for who was told; and turn by turn its
walks stay alike, whatever others do to both. -/
theorem listenersPassive (l : Lone) (occasions : Nat → Occasion) (moves : List Move) :
    let heard := l.attend occasions moves
    let silent := l.unheard.attend occasions (moves.filter fun move => !move.listens)
    heard.1 = silent.1 ∧ heard.2.1.unheard = silent.2.1 ∧ heard.2.2 = silent.2.2 ∧
      (∀ o, silent.2.1.calls o = []) ∧
      ∀ (call : Errand) (s : Scene), (call.walk s).Alike Scene.unheard (call.walk s.unheard) := by
  intro heard silent
  have twice : l.unheard.unheard = l.unheard :=
    congrArg ofScene (Scene.unheardUnheard ⟨l.run, occasions 0, l.world, l.journal⟩)
  obtain ⟨answers, lones, left⟩ := attendAlike twice.symm occasions moves
  have unheard : silent.2.1.unheard = silent.2.1 := attendUnheard twice occasions moves
  exact ⟨answers, lones.trans unheard, left, unheardCalls unheard,
    fun call s => call.walkAlike unheardForgetful s.unheardUnheard.symm⟩

end Lone
end Automation
