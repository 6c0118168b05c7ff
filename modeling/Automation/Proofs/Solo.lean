import Automation.Dispatch.Report
import Automation.Proofs.Endings
import Automation.Proofs.Lone
import Automation.Proofs.Steady
/-! A task with a task runtime of its own. Its owner hands it batch after batch: a suspended run is
triggered, and without one the task is run from the start. -/
namespace Automation

structure Account where
  status : RunStatus
  fingerprint : UInt32
  resumed : Bool
  context : Context
  deriving DecidableEq, Repr

def TaskRun.account (r : TaskRun) : Account := ⟨r.status, r.fingerprint, r.resumed, r.context⟩

def Run.anonymous (r : Run) : Run := { r with handle := default }

def Run.coreOn (r : Run) (batch : Batch) : Core :=
  ⟨r.task, r.origin, r.batch, r.slate, .ofBatch r.task batch⟩

namespace Run
variable {r r' : Run}

theorem alikeCore (same : r.anonymous = r'.anonymous) (batch : Batch) :
    r.coreOn batch = r'.coreOn batch := by
  change r.anonymous.coreOn batch = r'.anonymous.coreOn batch
  rw [same]

theorem alikeQualifies (same : r.anonymous = r'.anonymous) (events : List Event) :
    r.qualifies events = r'.qualifies events := by
  change r.anonymous.qualifies events = r'.anonymous.qualifies events
  rw [same]

end Run

namespace Core

def account (c : Core) (v : Except Stop Outcome) (resumed : Bool) (context : Context) : Account :=
  let entry (status : RunStatus) : Account := ⟨status, c.slate.checksum.value, resumed, context⟩
  match v with
  | .ok .completed => entry (.completed c.slate.successful)
  | .ok .suspended => entry .parked
  | .error .cancelled => entry .cancelled
  | .error .panicked => ⟨.failed, 0, resumed, context⟩

def pending (c : Core) : Except Stop Outcome → Option Run
  | .ok .suspended => some ⟨c.task, c.origin, c.batch, default, c.slate⟩
  | _ => none

end Core

structure World.Sound (w : World) : Prop where
  slates : w.slates.Clean
  handles : ∀ h, w.handles.isCancelled h = true → h.number < w.handles.issued

def World.begin (w : World) (task : Task) (batch : Batch) : Run × World :=
  w.issueHandle.2.obtain task batch w.issueHandle.1

def Run.first (task : Task) (observer : Option Observer) (batch : Batch) : Run :=
  ⟨task, batch.context, batch, default, { (default : Slate) with observer }⟩

namespace World
variable {w : World}

theorem beginSound (sound : w.Sound) (task : Task) (batch : Batch) :
    (w.begin task batch).2.Sound ∧
      (w.begin task batch).1.isActive (w.begin task batch).2 = true := by
  have unused : w.handles.isCancelled ⟨w.handles.issued⟩ = false := by
    cases cancelled : w.handles.isCancelled ⟨w.handles.issued⟩ with
    | false => rfl
    | true => exact absurd (sound.handles _ cancelled) (Nat.lt_irrefl _)
  refine ⟨⟨(Pool.takeClean sound.slates).2, fun h cancelled => ?_⟩, ?_⟩
  · exact Nat.lt_succ_of_lt (sound.handles h cancelled)
  · exact congrArg not unused

theorem beginFirst (sound : w.Sound) (task : Task) (batch : Batch) (observer : Option Observer) :
    ((w.begin task batch).1.setObserver observer).anonymous =
      (Run.first task observer batch).anonymous := by
  have wiped : w.issueHandle.2.slates.take.1 = default := (Pool.takeClean sound.slates).1
  simp only [begin, obtain, Run.setObserver, Run.anonymous, wiped]
  rfl

theorem recycleSound (sound : w.Sound) (r : Run) : (w.recycle r).Sound :=
  ⟨Pool.giveClean (fun _ => rfl) sound.slates r.slate, sound.handles⟩

theorem frameSound {s t : Scene} (same : t.frame = s.frame) (sound : s.world.Sound) :
    t.world.Sound := by
  have handles : t.world.handles = s.world.handles := congrArg Frame.handles same
  have slates : t.world.slates = s.world.slates := congrArg Frame.slates same
  constructor
  · rw [slates]
    exact sound.slates
  · rw [handles]
    exact sound.handles

end World

structure Solo where
  task : Task
  observer : Option Observer
  world : World
  pending : Option (Run × Context)

namespace Solo

def close (u : Solo) (started : Context) (resumed : Bool) (context : Context) (s : Scene) :
    Return → Option Account × Solo
  | some (.ok .completed) =>
    (some ⟨.completed (s.run.slate.result.any AppletResult.isSuccessful), s.run.fingerprint,
      resumed, context⟩, { u with world := s.world.recycle s.run, pending := none })
  | some (.ok .suspended) =>
    (some ⟨.parked, s.run.fingerprint, resumed, context⟩,
      { u with world := s.world, pending := some (s.run, started) })
  | some (.error .cancelled) =>
    (some ⟨.cancelled, s.run.fingerprint, resumed, context⟩,
      { u with world := s.world.recycle s.run, pending := none })
  | some (.error .panicked) =>
    (some ⟨.failed, 0, resumed, context⟩,
      { u with world := s.world.recycle s.run, pending := none })
  | none => (none, { u with world := s.world, pending := none })

/- What there is to tell when a batch has been handed over, and what it leaves behind. -/
def next (u : Solo) (batch : Batch) : Option Account × Solo :=
  match u.pending with
  | none =>
    let (handle, world) := u.world.issueHandle
    let called := (Walk.run ((Lone.obtain world u.task handle u.observer batch).scene batch)).alone
    u.close batch.context false batch.context called.1 called.2
  | some (run, started) =>
    let context := { batch.context with causedBy := some started.id }
    match (Walk.trigger (Lone.scene ⟨run, u.world, []⟩ batch)).alone with
    | (s, some (.ok none)) => (none, { u with world := s.world, pending := some (s.run, started) })
    | (s, some (.ok (some outcome))) => u.close started true context s (some (.ok outcome))
    | (s, some (.error stop)) => u.close started true context s (some (.error stop))
    | (s, none) => u.close started true context s none

def accounts (u : Solo) : List Batch → List (Option Account)
  | [] => []
  | batch :: rest => (u.next batch).1 :: (u.next batch).2.accounts rest

structure Sound (u : Solo) : Prop where
  world : u.world.Sound
  only : u.task.tree.Only Demand.Private
  own : ∀ run started, u.pending = some (run, started) →
    run.task = u.task ∧ run.origin = started ∧ run.isActive u.world = true

structure Tells (u : Solo) (batch : Batch) (resumed : Bool) (context : Context) (c : Core)
    (v : Except Stop Outcome) : Prop where
  account : (u.next batch).1 = some (c.account v resumed context)
  pending : ((u.next batch).2.pending.map fun p => p.1.anonymous) = c.pending v

variable {u : Solo} {started : Context} {resumed : Bool} {context : Context} {s : Scene}
  {v : Except Stop Outcome}

theorem closeAccount (registered : Walk.Registered s v) :
    (u.close started resumed context s (some v)).1 = some (s.core.account v resumed context) := by
  rcases v with (_ | _) | _ | _
  · rfl
  · rfl
  · have same : s.run.slate.result.any AppletResult.isSuccessful = s.run.slate.successful := by
      have known := registered rfl
      cases result : s.run.slate.result with
      | none => simp [result] at known
      | some r => simpa [result] using known
    simp only [close, same]
    rfl
  · rfl

theorem closePending :
    ((u.close started resumed context s (some v)).2.pending.map fun p => p.1.anonymous) =
      s.core.pending v := by
  rcases v with (_ | _) | _ | _ <;> rfl

theorem closeSound (sound : s.world.Sound) (only : u.task.tree.Only Demand.Private)
    (task : s.run.task = u.task) (origin : s.run.origin = started) (active : s.isActive = true) :
    (u.close started resumed context s (some v)).2.Sound := by
  have idle : Sound { u with world := s.world.recycle s.run, pending := none } :=
    ⟨World.recycleSound sound s.run, only, fun run started absurd => by cases absurd⟩
  rcases v with (_ | _) | _ | _
  · exact idle
  · exact idle
  · exact idle
  · refine ⟨sound, only, fun run started same => ?_⟩
    change some (s.run, _) = _ at same
    cases same
    exact ⟨task, origin, active⟩

theorem closeSame (r : Return) : (u.close started resumed context s r).2.task = u.task ∧
    (u.close started resumed context s r).2.observer = u.observer := by
  rcases r with _ | (_ | _) | _ | _ <;> exact ⟨rfl, rfl⟩

theorem nextSame (u : Solo) (batch : Batch) :
    (u.next batch).2.task = u.task ∧ (u.next batch).2.observer = u.observer := by
  unfold next
  split
  · exact closeSame _
  · split
    · exact ⟨rfl, rfl⟩
    · exact closeSame _
    · exact closeSame _
    · exact closeSame _

end Solo

namespace Walk

theorem runRegistered (s : Scene) : (run s).Ends Registered := by
  cases active : s.isActive with
  | false =>
    rw [runInactive active]
    exact nofun
  | true =>
    rw [runActive active]
    exact visitRegistered .aggregate [] s.run.task.tree s

theorem triggerRegistered (s : Scene) :
    (trigger s).Ends fun t r => ∀ outcome, r = .ok (some outcome) → Registered t (.ok outcome) := by
  cases qualifies : s.run.qualifies s.occasion.batch.events with
  | false =>
    rw [triggerIdle qualifies]
    exact nofun
  | true =>
    cases active : s.isActive with
    | false =>
      rw [triggerInactive qualifies active]
      exact nofun
    | true =>
      rw [triggerActive qualifies active]
      refine endsThen (visitRegistered .aggregate [] s.run.task.tree s.resume)
        (fun t outcome registered => ?_) fun t e _ outcome absurd => by cases absurd
      intro _ same
      cases same
      exact registered

end Walk

namespace Solo
variable {u : Solo} {batch : Batch}

theorem nextStarts (sound : u.Sound) (idle : u.pending = none) (batch : Batch) :
    ∃ c v, u.Tells batch false batch.context c v ∧ (u.next batch).2.Sound ∧
      ∀ s : Scene, s.core = (Run.first u.task u.observer batch).coreOn batch →
        s.isActive = true → (Walk.run s).Meets c v := by
  let s := (Lone.obtain u.world.issueHandle.2 u.task u.world.issueHandle.1 u.observer batch).scene batch
  have core : s.core = (Run.first u.task u.observer batch).coreOn batch :=
    Run.alikeCore (World.beginFirst sound.world u.task batch u.observer) batch
  obtain ⟨world, active⟩ := World.beginSound sound.world u.task batch
  obtain ⟨c, v, meets⟩ := Walk.runMeets ((Run.first u.task u.observer batch).coreOn batch)
    sound.only
  obtain ⟨t, ended, core', frame⟩ :=
    Process.meetsAlone (meets s core active) (Walk.runKeeps sound.only) active
  have closed : u.next batch = u.close batch.context false batch.context t (some v) := by
    simp only [next, idle]
    rw [show (Walk.run _).alone = (t, some v) from ended]
  have registered := Process.endsAlone (Walk.runRegistered s) ended
  refine ⟨c, v, ⟨?_, ?_⟩, ?_, meets⟩
  · rw [closed, closeAccount registered, core']
  · rw [closed, closePending, core']
  · rw [closed]
    exact closeSound (World.frameSound frame world) sound.only (congrArg Frame.task frame)
      (congrArg Frame.origin frame) (Scene.frameActive frame active)

theorem nextWaits {run : Run} {started : Context} (pending : u.pending = some (run, started))
    (refuse : run.qualifies batch.events = false) : u.next batch = (none, u) := by
  have idle := Walk.triggerIdle (s := Lone.scene ⟨run, u.world, []⟩ batch) refuse
  obtain ⟨task, observer, world, p⟩ := u
  cases pending
  simp only [next, idle]
  rfl

theorem nextResumes (sound : u.Sound) {run : Run} {started : Context}
    (pending : u.pending = some (run, started)) (accept : run.qualifies batch.events = true) :
    ∃ c v, u.Tells batch true (batch.context.linkedTo started) c v ∧ (u.next batch).2.Sound ∧
      ∀ s : Scene, s.core = run.coreOn batch → s.isActive = true →
        (Walk.trigger s).Meets c (v.map some) := by
  obtain ⟨task, origin, active⟩ := sound.own run started pending
  let s := Lone.scene ⟨run, u.world, []⟩ batch
  have only : run.task.tree.Only Demand.Private := task ▸ sound.only
  obtain ⟨c, v, meets⟩ := Walk.triggerMeets (run.coreOn batch) only
  obtain ⟨t, ended, core, frame⟩ :=
    Process.meetsAlone (meets s rfl accept active) (Walk.triggerKeeps only) active
  have closed : u.next batch =
      u.close started true (batch.context.linkedTo started) t (some v) := by
    simp only [next, pending]
    rw [show (Walk.trigger _).alone = (t, some (v.map some)) from ended]
    cases v <;> rfl
  have registered : Walk.Registered t v := by
    cases v with
    | error e => exact nofun
    | ok outcome => exact Process.endsAlone (Walk.triggerRegistered s) ended outcome rfl
  refine ⟨c, v, ⟨?_, ?_⟩, ?_, fun s same active => meets s same ?_ active⟩
  · rw [closed, closeAccount registered, core]
  · rw [closed, closePending, core]
  · rw [closed]
    exact closeSound (World.frameSound frame sound.world) sound.only
      ((congrArg Frame.task frame).trans task) ((congrArg Frame.origin frame).trans origin)
      (Scene.frameActive frame active)
  · have slate : s.run.slate = run.slate := congrArg Core.slate same
    have occasion : s.occasion = .ofBatch run.task batch := congrArg Core.occasion same
    rw [← accept, occasion, Run.qualifies, Run.qualifies, Run.waitsFor?, Run.waitsFor?, slate]
    rfl

theorem nextSound (sound : u.Sound) (batch : Batch) : (u.next batch).2.Sound := by
  cases pending : u.pending with
  | none =>
    obtain ⟨c, v, tells, sound', meets⟩ := nextStarts sound pending batch
    exact sound'
  | some p =>
    obtain ⟨run, started⟩ := p
    cases accept : run.qualifies batch.events with
    | false =>
      rw [nextWaits pending accept]
      exact sound
    | true =>
      obtain ⟨c, v, tells, sound', meets⟩ := nextResumes sound pending accept
      exact sound'

end Solo
end Automation
