import Automation.Proofs.Alone
import Automation.Proofs.Passage
/-! The passage that a scene shows, and what every single step of the evaluator does to it. What it
does not show is the footing of the walk: its cursor, the result that is handed up, and the wait it
is suspended at. -/
namespace Automation

structure Footing where
  cursor : Cursor
  result : Option AppletResult
  waiting : Option Applet
  suspending : Bool
  batch : Batch
  task : Task

namespace Scene

def passage (s : Scene) (ahead : List Batch) : Passage where
  handle := s.run.handle
  occasion := s.occasion
  ahead := ahead
  handles := s.world.handles
  globals := s.world.globals
  observer := s.run.slate.observer
  referents := s.run.slate.referents
  checksum := s.run.slate.checksum
  successful := s.run.slate.successful
  target := s.run.slate.target
  record := s.journal.map Entry.mark

def footing (s : Scene) : Footing where
  cursor := s.run.slate.cursor
  result := s.run.slate.result
  waiting := s.run.slate.waiting
  suspending := s.run.slate.suspending
  batch := s.run.batch
  task := s.run.task

@[simp] theorem notePassage (s : Scene) (entry : Entry) (ahead : List Batch) :
    (s.note entry).passage ahead = (s.passage ahead).note entry.mark := by
  simp [note, passage, Passage.note]

@[simp] theorem tellPassage (s : Scene) (phase : Phase) (path : List Nat) (info : AppletInfo)
    (ahead : List Batch) :
    (s.tell phase path info).passage ahead = (s.passage ahead).tell phase path info :=
  notePassage s _ ahead

@[simp] theorem tellFooting (s : Scene) (phase : Phase) (path : List Nat) (info : AppletInfo) :
  (s.tell phase path info).footing = s.footing := rfl

theorem finishPassage (s : Scene) (path : List Nat) (info : AppletInfo) (result : AppletResult)
    (ahead : List Batch) :
    (s.finish path info result).passage ahead = (s.passage ahead).conclude path info result := by
  unfold finish Run.register Passage.conclude
  rw [tellPassage]
  cases result.published? <;> rfl

theorem finishFooting (s : Scene) (path : List Nat) (info : AppletInfo) (result : AppletResult) :
    (s.finish path info result).footing = { s.footing with result := some result } := by
  unfold finish Run.register
  rw [tellFooting]
  cases result.published? <;> rfl

theorem skipFromPassage (s : Scene) (path : List Nat) (i : Nat) (children : List Applet)
    (ahead : List Batch) :
    (s.skipFrom path i children).passage ahead = (s.passage ahead).skipFrom path i children := by
  induction children generalizing s i with
  | nil => rfl
  | cons child rest ih => simp only [skipFrom, ih, tellPassage, Passage.skipFrom]

structure Stays (s t : Scene) : Prop where
  footing : t.footing = s.footing
  batch : t.occasion.batch = s.occasion.batch
  task : t.occasion.task = s.occasion.task

theorem Stays.trans {s t u : Scene} (first : s.Stays t) (second : t.Stays u) : s.Stays u :=
  ⟨second.footing.trans first.footing, second.batch.trans first.batch,
    second.task.trans first.task⟩

theorem skipFromStays (s : Scene) (path : List Nat) (i : Nat) (children : List Applet) :
    s.Stays (s.skipFrom path i children) := by
  induction children generalizing s i with
  | nil => exact ⟨rfl, rfl, rfl⟩
  | cons child rest ih =>
    have told : s.Stays (s.tell .skipped (path ++ [i]) child.info) := ⟨rfl, rfl, rfl⟩
    exact told.trans (ih _ (i + 1))

inductive Obeys {α : Type} (s : Scene) (ahead : List Batch) :
    Scene × Option (Except Stop α) → Except Halt α × Passage → Prop where
  | ended {t a} (stays : s.Stays t) : Obeys s ahead (t, some (.ok a)) (.ok a, t.passage ahead)
  | panicked {t} (stays : s.Stays t) :
      Obeys s ahead (t, some (.error .panicked)) (.error .panicked, t.passage ahead)
  | stuck {t} (stays : s.Stays t) : Obeys s ahead (t, none) (.error .stuck, t.passage ahead)

theorem Obeys.after {α : Type} {s t : Scene} {ahead : List Batch}
    {out : Scene × Option (Except Stop α)} {ref : Except Halt α × Passage}
    (rest : t.Obeys ahead out ref) (stays : s.Stays t) : s.Obeys ahead out ref := by
  cases rest with
  | ended later => exact .ended (stays.trans later)
  | panicked later => exact .panicked (stays.trans later)
  | stuck later => exact .stuck (stays.trans later)

theorem performObeys {α : Type} (script : Script α) (s : Scene) (ahead : List Batch) :
    s.Obeys ahead (Walk.perform script s).alone (Straight.perform script (s.passage ahead)) := by
  induction script generalizing s with
  | done a => exact .ended ⟨rfl, rfl, rfl⟩
  | panic => exact .panicked ⟨rfl, rfl, rfl⟩
  | yield next ih => exact ih s
  | pend => exact .stuck ⟨rfl, rfl, rfl⟩
  | cancel handle next ih =>
    have rest := ih { s with world := s.world.cancel handle }
    exact rest.after ⟨rfl, rfl, rfl⟩
  | haltAll next ih => exact ih 0 s
  | global key type init next ih =>
    rcases found : s.world.globals.obtain key type init with ⟨r, globals⟩
    have rest := ih r { s with world := { s.world with globals } }
    simp only [Walk.perform, Straight.perform, passage, found]
    exact rest.after ⟨rfl, rfl, rfl⟩
  | argument id type init next ih =>
    rcases found : s.occasion.arguments.obtain id type init with ⟨r, arguments⟩
    have rest := ih r { s with occasion := { s.occasion with arguments } }
    simp only [Walk.perform, Straight.perform, passage, found]
    exact rest.after ⟨rfl, rfl, rfl⟩
  | pattern id text next ih =>
    rcases found : s.occasion.arguments.pattern id text with ⟨r, arguments⟩
    have rest := ih r { s with occasion := { s.occasion with arguments } }
    simp only [Walk.perform, Straight.perform, passage, found]
    exact rest.after ⟨rfl, rfl, rfl⟩

theorem foldAllRun (r : Run) (vs : List Json) :
    r.foldAll vs = { r with slate :=
      { r.slate with checksum := vs.foldl Fingerprint.fold r.slate.checksum } } := by
  induction vs generalizing r with
  | nil => rfl
  | cons v rest ih => exact ih (r.fold v)

theorem foldAllPassage (p : Passage) (vs : List Json) :
    p.foldAll vs = { p with checksum := vs.foldl Fingerprint.fold p.checksum } := by
  induction vs generalizing p with
  | nil => rfl
  | cons v rest ih => exact ih (p.fold v)

/- A step of a scene is the same step of the passage it shows, and keeps the footing. -/
structure Mirrors {α : Type} (f : Scene → α × Scene) (g : Passage → α × Passage) : Prop where
  passage (s : Scene) (ahead : List Batch) : g (s.passage ahead) = ((f s).1, (f s).2.passage ahead)
  stays (s : Scene) : s.Stays (f s).2

theorem beginCheckMirrors (path : List Nat) (info : AppletInfo) (expected : Option Json) :
    Mirrors (fun s => s.beginCheck path info expected)
      (fun p => p.beginCheck path info expected) where
  passage s ahead := by
    simp only [beginCheck, Passage.beginCheck, notePassage, onRun, foldAllRun, foldAllPassage]
    rfl
  stays s := by
    simp only [beginCheck, onRun, foldAllRun]
    exact ⟨rfl, rfl, rfl⟩

theorem beginActionMirrors (path : List Nat) (info : AppletInfo) :
    Mirrors (fun s => s.beginAction path info) (fun p => p.beginAction path info) where
  passage s ahead := by
    simp only [beginAction, Passage.beginAction, notePassage, onRun, foldAllRun, foldAllPassage]
    rfl
  stays s := by
    simp only [beginAction, onRun, foldAllRun]
    exact ⟨rfl, rfl, rfl⟩

theorem succeededResult (v : Json) (bodies : AppletResult.Bodies) :
    (AppletResult.succeeded v bodies).1 = .passing v := by
  unfold AppletResult.succeeded AppletResult.passing
  split <;> rfl

theorem failedResult (v : Json) (bodies : AppletResult.Bodies) :
    (AppletResult.failed v bodies).1 = .failing v := by
  unfold AppletResult.failed AppletResult.failing
  split <;> rfl

theorem endCheckMirrors (path : List Nat) (info : AppletInfo)
    (outcome : Except ApplyError Checked) :
    Mirrors (fun s => s.endCheck path info outcome) (fun p => p.endCheck path info outcome) where
  passage s ahead := by
    cases outcome with
    | ok c =>
      have noted := congrArg (Passage.fold · c.actual) (notePassage s (.checked path (.ok c)) ahead)
      simp only [endCheck, Passage.endCheck]
      split
      · exact Prod.ext (succeededResult c.actual _).symm noted.symm
      · exact Prod.ext (failedResult c.actual _).symm noted.symm
    | error cause => exact Prod.ext rfl (notePassage s (.checked path (.error cause)) ahead).symm
  stays s := by
    cases outcome with
    | ok c =>
      simp only [endCheck]
      split <;> exact ⟨rfl, rfl, rfl⟩
    | error cause => exact ⟨rfl, rfl, rfl⟩

theorem endActionMirrors (path : List Nat) (outcome : Except ApplyError Json) :
    Mirrors (fun s => s.endAction path outcome) (fun p => p.endAction path outcome) where
  passage s ahead := by
    cases outcome with
    | ok returned =>
      exact Prod.ext (succeededResult returned _).symm
        (notePassage s (.performed path (.ok returned)) ahead).symm
    | error cause => exact Prod.ext rfl (notePassage s (.performed path (.error cause)) ahead).symm
  stays s := by cases outcome <;> exact ⟨rfl, rfl, rfl⟩

end Scene

namespace Walk
variable {α β : Type}

def Obeys (w : Walk α) (m : Straight α) : Prop :=
  ∀ (s : Scene) (ahead : List Batch), s.Obeys ahead (w s).alone (m (s.passage ahead))

theorem obeysThen {w : Walk α} {m : Straight α} {f : α → Walk β} {g : α → Straight β}
    (first : w.Obeys m) (second : ∀ a, (f a).Obeys (g a)) : (w >>= f).Obeys (m >>= g) := by
  intro s ahead
  have h := first s ahead
  rw [aloneThen, Straight.thenAt]
  generalize (w s).alone = out, m (s.passage ahead) = ref at h
  cases h with
  | ended stays => exact (second _ _ ahead).after stays
  | panicked stays => exact .panicked stays
  | stuck stays => exact .stuck stays

theorem obeysAct {f : Scene → α × Scene} {g : Passage → α × Passage} (h : Scene.Mirrors f g) :
    (act f).Obeys (Straight.act g) := by
  intro s ahead
  unfold Straight.act
  rw [h.passage, aloneAct]
  exact .ended (h.stays s)

theorem obeysRead {f : Scene → α} {g : Passage → α} (h : ∀ s ahead, g (s.passage ahead) = f s) :
    (read f).Obeys (Straight.read g) := by
  intro s ahead
  unfold Straight.read
  rw [h, aloneRead]
  exact .ended ⟨rfl, rfl, rfl⟩

theorem obeysPure (a : α) : (Pure.pure a : Walk α).Obeys (Pure.pure a) :=
  fun _ _ => .ended ⟨rfl, rfl, rfl⟩

theorem judgeObeys (path : List Nat) (info : AppletInfo) (check : Check) :
    (judge path info check).Obeys (Straight.judge path info check) := by
  refine obeysThen (obeysRead fun _ _ => rfl) fun expected => ?_
  cases expected with
  | none => exact obeysPure _
  | some expected =>
    refine obeysThen (obeysAct (Scene.beginCheckMirrors path info expected)) fun input => ?_
    refine obeysThen (Scene.performObeys (check input)) fun outcome => ?_
    exact obeysAct (Scene.endCheckMirrors path info outcome)

theorem carryOutObeys (path : List Nat) (info : AppletInfo) (action : Action) :
    (carryOut path info action).Obeys (Straight.carryOut path info action) := by
  refine obeysThen (obeysAct (Scene.beginActionMirrors path info)) fun input => ?_
  refine obeysThen (Scene.performObeys (action input)) fun outcome => ?_
  exact obeysAct (Scene.endActionMirrors path outcome)

end Walk
end Automation
