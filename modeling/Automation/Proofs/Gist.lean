import Automation.Proofs.Likeness
/-! The gist of a task runtime is what the course of its walk depends on. It leaves out the checksum
behind the fingerprint, of a result all but its success and what it publishes, and of what an
executor has answered all but the result. Scenes of one gist go on in the same way. -/
namespace Automation

namespace AppletResult

def gist (r : AppletResult) : AppletResult :=
  match r.published? with
  | some payload => .passingWith payload
  | none => .empty r.isSuccessful

theorem gistSuccessful (r : AppletResult) : r.gist.isSuccessful = r.isSuccessful := by
  cases r with
  | empty successful => cases successful <;> rfl
  | pooled body =>
    obtain ⟨_ | _, _ | returned, actual, cause⟩ := body <;> rfl

theorem gistPublished (r : AppletResult) : r.gist.published? = r.published? := by
  cases r with
  | empty successful => cases successful <;> rfl
  | pooled body =>
    obtain ⟨_ | _, _ | returned, actual, cause⟩ := body <;> rfl

theorem gistGist (r : AppletResult) : r.gist.gist = r.gist := by
  rw [gist, gistPublished, gistSuccessful]
  rfl

theorem gistFailure {r : AppletResult} (failure : r.isSuccessful = false) : r.gist = .empty false := by
  simp [gist, published?, failure]

end AppletResult

def Level.gist (l : Level) : Level := { l with last := l.last.map AppletResult.gist }

def Cursor.gist (c : Cursor) : Cursor := { c with levels := c.levels.map Level.gist }

/- The gist of a run says neither what it has consumed nor what came with its results. -/
def Run.gist (r : Run) : Run :=
  { r with slate := { r.slate with
      cursor := r.slate.cursor.gist
      checksum := Checksum.start
      result := r.slate.result.map AppletResult.gist } }

def Entry.gist? : Entry → Option Entry
  | notice heard phase path applet run => some (notice heard phase path applet run.gist)
  | checked .. | performed .. => none
  | e => some e

def Journal.gist (j : Journal) : Journal := j.filterMap Entry.gist?

theorem resultGist (result : Option AppletResult) :
    (result.map AppletResult.gist).map AppletResult.gist = result.map AppletResult.gist := by
  rw [Option.map_map]
  exact congrArg (Option.map · result) (funext AppletResult.gistGist)

theorem Level.gistGist (l : Level) : l.gist.gist = l.gist :=
  congrArg (Level.mk l.index l.chain · l.saved) (resultGist l.last)

namespace Cursor

theorem gistGist (c : Cursor) : c.gist.gist = c.gist := by
  simp [gist, Function.comp_def, Level.gistGist]

theorem updateGist (c : Cursor) (level : Nat) {f g : Level → Level}
    (alike : ∀ l, (f l).gist = (g l.gist).gist) :
    (c.update level f).gist = (c.gist.update level g).gist := by
  simp only [update, gist, mk.injEq, and_self, and_true]
  apply List.ext_getElem?
  intro i
  simp only [List.getElem?_map, List.getElem?_modify]
  cases c.levels[i]? with
  | none => rfl
  | some l => by_cases here : level = i <;> simp [here, alike, Level.gistGist]

theorem enterGist (c : Cursor) : c.enter.gist = c.gist.enter := by
  unfold enter
  have same : c.gist.reenters = c.reenters := by simp [reenters, gist]
  rw [same]
  cases c.reenters
  · simp [gist, List.map_take]
    rfl
  · rfl

theorem exitGist (c : Cursor) (level : Nat) : (c.exit level).gist = c.gist.exit level := by
  simp [exit, gist, List.map_take]

theorem resumeGist (c : Cursor) : c.beginResume.gist = c.gist.beginResume := by
  simp [beginResume, gist]

end Cursor

theorem Run.gistGist (r : Run) : r.gist.gist = r.gist := by
  simp only [gist, Cursor.gistGist, resultGist]

theorem Journal.gistGist (j : Journal) : j.gist.gist = j.gist := by
  unfold gist
  rw [List.filterMap_filterMap]
  congr 1
  funext e
  cases e <;> simp [Entry.gist?, Run.gistGist]

theorem Journal.gistAppend (j k : Journal) : Journal.gist (j ++ k) = j.gist ++ Journal.gist k :=
  List.filterMap_append

namespace Scene

def gist (s : Scene) : Scene :=
  ⟨s.run.gist, s.occasion, { s.world with bodies := Pool.ofCapacity 0 }, s.journal.gist⟩

theorem gistGist (s : Scene) : s.gist.gist = s.gist := by
  simp only [gist, Run.gistGist, Journal.gistGist]

theorem tellGist (s : Scene) (phase : Phase) (path : List Nat) (info : AppletInfo) :
    (s.tell phase path info).gist = s.gist.tell phase path info :=
  congrArg (Scene.mk s.run.gist s.occasion _ ·) (Journal.gistAppend ..)

theorem noteGist (s : Scene) (e : Entry) :
    (s.note e).gist = { s.gist with journal := s.gist.journal ++ e.gist?.toList } := by
  refine congrArg (Scene.mk s.run.gist s.occasion _ ·) ((Journal.gistAppend ..).trans ?_)
  cases e <;> rfl

theorem registerGist (r : Run) (info : AppletInfo) (result : AppletResult)
    (bodies bodies' : Pool ResultBody) :
    (r.register info result bodies).1.gist = (r.gist.register info result.gist bodies').1 := by
  unfold Run.register
  rw [result.gistPublished, result.gistSuccessful]
  cases result.published? <;> rfl

theorem finishGist (s : Scene) (path : List Nat) (info : AppletInfo) (result : AppletResult) :
    (s.finish path info result).gist =
      ({ s.gist with run := (s.gist.run.register info result.gist s.gist.world.bodies).1 } :
        Scene).tell .terminated path info := by
  unfold finish
  rw [tellGist]
  exact congrArg (fun r : Run => ({ s.gist with run := r } : Scene).tell .terminated path info)
    (registerGist s.run info result s.world.bodies _)

theorem finishAlike {s t : Scene} {q r : AppletResult} (same : s.gist = t.gist)
    (results : q.gist = r.gist) (path : List Nat) (info : AppletInfo) :
    (s.finish path info q).gist = (t.finish path info r).gist := by
  rw [finishGist, finishGist, same, results]

theorem skipFromGist (s : Scene) (path : List Nat) (i : Nat) (children : List Applet) :
    (s.skipFrom path i children).gist = s.gist.skipFrom path i children := by
  induction children generalizing s i with
  | nil => rfl
  | cons child rest ih => rw [skipFrom, skipFrom, ih, tellGist]

theorem foldAllGist (s : Scene) (vs : List Json) : (s.onRun fun r => r.foldAll vs).gist = s.gist := by
  simp only [onRun, foldAllRun]
  rfl

theorem gistBlind {f : Scene → Scene} (commutes : ∀ s, (f s).gist = f s.gist) : Blind gist f := by
  intro s
  rw [commutes s, commutes s.gist, gistGist]

theorem setCursorGist (s : Scene) (c : Cursor) :
    (s.onRun fun r => r.setCursor c).gist = s.gist.onRun fun r => r.setCursor c.gist := rfl

theorem exitFlowGist (s : Scene) (level : Nat) :
    (s.exitFlow level).1.gist = (s.gist.exitFlow level).1 ∧
      (s.exitFlow level).2.gist = (s.gist.exitFlow level).2.gist := by
  constructor
  · simp only [exitFlow, gist, Run.gist, Cursor.gist, ← List.map_drop]
    cases s.run.slate.cursor.levels.drop level <;> rfl
  · change (s.onRun fun r => r.setCursor (s.run.slate.cursor.exit level)).gist =
      (s.gist.onRun fun r => r.setCursor (s.run.slate.cursor.gist.exit level)).gist
    rw [setCursorGist, setCursorGist, ← Cursor.exitGist, Cursor.gistGist, gistGist]

theorem changeGist {f : Scene → Scene} (step : Change f) : Blind gist f := by
  induction step with
  | start path info =>
    refine gistBlind fun s => ?_
    have same : s.gist.run.slate.cursor.resuming = s.run.slate.cursor.resuming := rfl
    cases resuming : s.run.slate.cursor.resuming <;> simp only [start, same, resuming]
    · exact tellGist ..
    · rfl
  | reachLeaf info => exact gistBlind fun s => rfl
  | finish path info result =>
    intro s
    rw [finishGist, finishGist, gistGist]
  | skip path info => exact gistBlind fun s => tellGist ..
  | skipFrom path i children => exact gistBlind fun s => skipFromGist ..
  | setFlow info => exact gistBlind fun s => rfl
  | passOver level chain =>
    intro s
    refine (setCursorGist s _).trans (Eq.trans ?_ (setCursorGist s.gist _).symm)
    rw [gistGist]
    refine congrArg (fun c => s.gist.onRun fun r => r.setCursor c) ?_
    refine s.run.slate.cursor.updateGist level fun l => ?_
    exact congrArg (Level.mk (l.index + 1) chain · l.saved) (resultGist l.last).symm
  | unwind level => exact gistBlind fun s => rfl
  | abandonFlow path children level =>
    intro s
    have left (s : Scene) : (s.abandonFlow path children level).gist =
        ((s.skipFrom path 0 children).exitFlow level).2.gist := rfl
    rw [left, left, (exitFlowGist _ level).2, (exitFlowGist (s.gist.skipFrom path 0 children) level).2,
      skipFromGist, skipFromGist, gistGist]
  | comp first second ihFirst ihSecond => exact ihFirst.comp ihSecond

theorem beginCheckGist (path : List Nat) (info : AppletInfo) (expected : Option Json) :
    Unaware gist fun s => s.beginCheck path info expected := by
  constructor
  · intro s
    simp only [beginCheck, onRun, foldAllRun]
    rfl
  · intro s
    simp only [beginCheck, noteGist, foldAllGist, gistGist]
    simp only [onRun, foldAllRun]
    rfl

theorem beginActionGist (path : List Nat) (info : AppletInfo) :
    Unaware gist fun s => s.beginAction path info := by
  constructor
  · intro s
    simp only [beginAction, onRun, foldAllRun]
    rfl
  · intro s
    simp only [beginAction, noteGist, foldAllGist, gistGist]
    simp only [onRun, foldAllRun]
    rfl

theorem concludeGist (path : List Nat) (info : AppletInfo) (e : Executor) (answer : e.Answer)
    (s : Scene) :
    (e.conclude path info answer s).gist = (s.finish path info (e.result info answer)).gist := by
  have noted (entry : Entry) (unsaid : entry.gist? = none) : (s.note entry).gist = s.gist := by
    rw [noteGist, unsaid]
    exact congrArg (Scene.mk _ _ _) (List.append_nil _)
  cases e with
  | check =>
    cases answer with
    | error cause =>
      refine finishAlike ?_ rfl path info
      exact noted (.checked path (.error cause)) rfl
    | ok c =>
      simp only [Executor.conclude, Executor.result, endCheck]
      split
      · refine finishAlike ?_ (congrArg _ (succeededResult ..)) path info
        exact noted (.checked path (.ok c)) rfl
      · refine finishAlike ?_ (congrArg _ (failedResult ..)) path info
        exact noted (.checked path (.ok c)) rfl
  | action =>
    cases answer with
    | error cause =>
      refine finishAlike ?_ rfl path info
      exact noted (.performed path (.error cause)) rfl
    | ok returned =>
      refine finishAlike ?_ (congrArg _ (succeededResult ..)) path info
      exact noted (.performed path (.ok returned)) rfl

theorem noteBlind (e : Entry) : Blind gist fun s => s.note e := by
  intro s
  rw [noteGist, noteGist, gistGist]

theorem tryWaitGist (path : List Nat) (info : AppletInfo) (wait : Wait) :
    Unaware gist fun s => s.tryWait path info wait := by
  have batch (s : Scene) : s.gist.run.batch = s.run.batch := rfl
  constructor <;> intro s <;> simp only [tryWait, batch] <;>
    cases wait.find? s.run.batch.events with
    | none => ?_
    | some event => ?_
  · rfl
  · exact congrArg some ((succeededResult ..).trans (succeededResult ..).symm)
  · exact gistBlind (f := fun s => s.onRun fun r =>
      (r.setWaiting (some (.wait info wait))).setSuspending true) (fun _ => rfl) s
  · have freed : Blind gist fun s => s.onRun fun r =>
        ((r.setWaiting none).setSuspending false).fold event.passed := by
      intro s
      change (s.gist.onRun fun r => (r.setWaiting none).setSuspending false) =
        s.gist.gist.onRun fun r => (r.setWaiting none).setSuspending false
      rw [gistGist]
    exact freed.comp (noteBlind (.released path event)) s

theorem enterFlowGist : Unaware gist enterFlow := by
  constructor <;> intro s
  · simp [enterFlow, Cursor.reenters, gist, Run.gist, Cursor.gist]
  · change (s.onRun fun r => r.setCursor s.run.slate.cursor.enter).gist =
      (s.gist.onRun fun r => r.setCursor s.run.slate.cursor.gist.enter).gist
    rw [setCursorGist, setCursorGist, ← Cursor.enterGist, Cursor.gistGist, gistGist]

theorem chooseGist (path : List Nat) (spec : FlowSpec) (level : Nat) :
    Unaware gist fun s => s.choose path spec level := by
  have batch (s : Scene) : s.gist.occasion.batch = s.occasion.batch := rfl
  cases selector : spec.selector with
  | none =>
    constructor <;> intro s <;> simp only [choose, selector]
    exact (gistGist s).symm
  | some select =>
    constructor <;> intro s <;> simp only [choose, selector, batch] <;>
      cases select s.occasion.batch <;> dsimp only
    · exact (gistGist s).symm
    · rename_i target
      have noted (s : Scene) (c : Cursor) :
          ((s.onRun fun r => ((r.fold target).setTarget (some target)).setCursor c).note
            (.selected path target)).gist =
          (s.gist.onRun fun r => (r.setTarget (some target)).setCursor c.gist).note
            (.selected path target) := noteGist ..
      refine (noted s _).trans (Eq.trans ?_ (noted s.gist _).symm)
      rw [gistGist]
      refine congrArg (fun c => (s.gist.onRun fun r =>
        (r.setTarget (some target)).setCursor c).note (.selected path target)) ?_
      exact s.run.slate.cursor.updateGist level fun l => (Level.gistGist _).symm

theorem leaveFlowGist (path : List Nat) (info : AppletInfo) (spec : FlowSpec) (level : Nat) :
    Blind gist fun s => (s.leaveFlow spec level).2.finish path info (s.leaveFlow spec level).1 := by
  intro s
  obtain ⟨level_, exited⟩ := exitFlowGist s level
  simp only [leaveFlow]
  generalize s.exitFlow level = left at level_ exited
  generalize s.gist.exitFlow level = left' at level_ exited
  obtain ⟨l, t⟩ := left
  obtain ⟨l', t'⟩ := left'
  dsimp only at level_ exited ⊢
  subst level_
  have last : (l.last.getD (.empty true)).gist = (l.gist.last.getD (.empty true)).gist := by
    change _ = ((l.last.map AppletResult.gist).getD (.empty true)).gist
    cases l.last with
    | none => rfl
    | some r => exact r.gistGist.symm
  have all : l.gist.last.all AppletResult.isSuccessful = l.last.all AppletResult.isSuccessful := by
    change (l.last.map AppletResult.gist).all AppletResult.isSuccessful = _
    cases l.last with
    | none => rfl
    | some r => exact r.gistSuccessful
  have saved : l.gist.saved = l.saved := rfl
  have target : t'.run.slate.target = t.run.slate.target :=
    congrArg (·.run.slate.target) exited.symm
  rw [saved, target, all]
  cases l.saved with
  | none => exact finishAlike exited last path info
  | some old =>
    have restored :
        (t.onRun fun r => r.setTarget old).gist = (t'.onRun fun r => r.setTarget old).gist :=
      congrArg (fun s : Scene => s.onRun fun r => r.setTarget old) exited
    cases t.run.slate.target with
    | none => exact finishAlike restored last path info
    | some target =>
      dsimp only
      split
      · refine finishAlike ?_ rfl path info
        exact restored
      · exact finishAlike restored last path info

theorem passOnGist (level : Nat) (kind : Option FlowKind) :
    Unaware gist fun s => s.passOn level kind := by
  have result (s : Scene) : s.gist.run.slate.result.getD (.empty true) =
      (s.run.slate.result.getD (.empty true)).gist := by
    change (s.run.slate.result.map AppletResult.gist).getD (.empty true) = _
    cases s.run.slate.result <;> rfl
  have passed (s : Scene) (c : Cursor) (results : List AppletResult) :
      ((s.onRun fun r => r.takeResult.2.setCursor c).release results).gist =
        s.gist.onRun fun r => r.takeResult.2.setCursor c.gist := rfl
  constructor <;> intro s
  · change _ = (s.gist.run.slate.result.getD (.empty true)).isSuccessful
    rw [result, AppletResult.gistSuccessful]
    rfl
  · refine (passed s _ _).trans (Eq.trans ?_ (passed s.gist _ _).symm)
    rw [gistGist, result, AppletResult.gistSuccessful]
    refine congrArg (fun c => s.gist.onRun fun r => r.takeResult.2.setCursor c) ?_
    refine s.run.slate.cursor.updateGist level fun l => ?_
    simp [Level.gist, AppletResult.gistGist]

theorem gistForgetful : Forgetful gist where
  task s := rfl
  occasion s := rfl
  globals s := rfl
  active s := rfl
  waits s := rfl
  resuming s := rfl
  levels s := by simp [gist, Run.gist, Cursor.gist, Function.comp_def, Level.gist]
  expected s info := rfl
  resumes := gistBlind fun s => congrArg
    (fun c => s.gist.onRun fun r =>
      (({ r with batch := s.occasion.batch } : Run).setCursor c).setSuspending false)
    s.run.slate.cursor.resumeGist
  cancels handle := gistBlind fun s => rfl
  keeps globals := gistBlind fun s => rfl
  caches arguments := gistBlind fun s => rfl
  change := changeGist
  beginCheck := beginCheckGist
  beginAction := beginActionGist
  concludes path info e answer := by
    intro s
    rw [concludeGist, concludeGist, finishGist, finishGist, gistGist]
  tryWait := tryWaitGist
  enterFlow := enterFlowGist
  choose := chooseGist
  passOn := passOnGist
  leaves := leaveFlowGist

end Scene
end Automation
