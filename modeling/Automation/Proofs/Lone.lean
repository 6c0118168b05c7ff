import Automation.Proofs.Transparency
import Automation.Sample
/-! Task runtimes outside of any dispatcher. The owner of such a run obtains it on a batch, calls
it, and hands it the later batches one by one. -/
namespace Automation

def Pool.Clean {α : Type} [Recyclable α] (p : Pool α) : Prop := ∀ a ∈ p.idle, a = default

theorem Pool.takeClean {α : Type} [Recyclable α] {p : Pool α} (clean : p.Clean) :
    p.take.1 = default ∧ p.take.2.Clean := by
  unfold take
  cases idle : p.idle with
  | nil => exact ⟨rfl, fun a inside => by simp at inside⟩
  | cons a rest =>
    have all := clean
    rw [Clean, idle] at all
    exact ⟨all a List.mem_cons_self, fun b inside => all b (List.mem_cons_of_mem a inside)⟩

theorem Pool.giveClean {α : Type} [Recyclable α] (restored : ∀ a : α, Recyclable.restore a = default)
    {p : Pool α} (clean : p.Clean) (a : α) : (p.give a).Clean := by
  intro b inside
  unfold give at inside
  dsimp only at inside
  split at inside
  · rcases List.mem_cons.mp inside with rfl | old
    · exact restored a
    · exact clean b old
  · exact clean b inside

abbrev Return := Option (Except Stop Outcome)

structure Lone where
  run : Run
  world : World
  journal : Journal

namespace Lone

def obtain (world : World) (task : Task) (handle : Handle) (observer : Option Observer)
    (batch : Batch) : Lone :=
  let (run, world) := world.obtain task batch handle
  ⟨run.setObserver observer, world, []⟩

def scene (l : Lone) (batch : Batch) : Scene :=
  ⟨l.run, .ofBatch l.run.task batch, l.world, l.journal⟩

def ofScene (s : Scene) : Lone := ⟨s.run, s.world, s.journal⟩

def triggerAll (l : Lone) : List Batch → Lone × List Return
  | [] => (l, [])
  | batch :: rest =>
    match (Walk.trigger (l.scene batch)).alone with
    | (s, none) => (ofScene s, [none])
    | (s, some (.ok none)) => triggerAll (ofScene s) rest
    | (s, some (.ok (some outcome))) =>
      let (l, returns) := triggerAll (ofScene s) rest
      (l, some (.ok outcome) :: returns)
    | (s, some (.error stop)) =>
      let (l, returns) := triggerAll (ofScene s) rest
      (l, some (.error stop) :: returns)

def onward (out : Ending) (later : List Batch) : Lone × List Return :=
  match out with
  | (s, none) => (ofScene s, [none])
  | (s, some r) =>
    let (l, returns) := triggerAll (ofScene s) later
    (l, some r :: returns)

/- Runs on the first batch and is triggered by each of the later ones. -/
def drive (l : Lone) (first : Batch) (later : List Batch) : Lone × List Return :=
  onward (Walk.run (l.scene first)).alone later

def told : Except Halt AppletResult → Return
  | .ok _ => some (.ok .completed)
  | .error .cancelled => some (.error .cancelled)
  | .error .panicked => some (.error .panicked)
  | .error .stuck => none
  | .error (.outOfBatches ..) => some (.ok .suspended)

def pending? : Except Halt AppletResult → Option Applet
  | .error (.outOfBatches _ info wait) => some (.wait info wait)
  | _ => none

/- A run and what its calls returned, in agreement with a passage. -/
structure Agrees (out : Lone × List Return) (ref : Except Halt AppletResult × Passage) : Prop where
  record : out.1.journal.map Entry.mark = ref.2.record
  referents : out.1.run.slate.referents = ref.2.referents
  checksum : out.1.run.slate.checksum = ref.2.checksum
  target : out.1.run.slate.target = ref.2.target
  successful : out.1.run.slate.successful = ref.2.successful
  result : out.1.run.slate.result = ref.1.toOption
  waiting : out.1.run.slate.waiting = pending? ref.1
  returns : ∃ n, out.2 = List.replicate n (some (.ok .suspended)) ++ [told ref.1]

theorem triggerIdle {l : Lone} (idle : l.run.slate.waiting = none) (batches : List Batch) :
    l.triggerAll batches = (l, []) := by
  induction batches with
  | nil => rfl
  | cons batch rest ih =>
    have refused : l.run.qualifies batch.events = false := by
      simp [Run.qualifies, Run.waitsFor?, idle]
    rw [triggerAll, Walk.triggerIdle (s := l.scene batch) refused]
    exact ih

theorem triggerRefused {l : Lone} {info : AppletInfo} {wait : Wait} {batch : Batch}
    (waiting : l.run.slate.waiting = some (.wait info wait))
    (refuse : wait.find? batch.events = none) (rest : List Batch) :
    l.triggerAll (batch :: rest) = l.triggerAll rest := by
  have refused : l.run.qualifies batch.events = false := by
    simp [Run.qualifies, Run.waitsFor?, waiting, Applet.wait?, refuse]
  rw [triggerAll, Walk.triggerIdle (s := l.scene batch) refused]
  rfl

theorem triggerQualifies {l : Lone} {batch : Batch}
    (qualifies : l.run.qualifies batch.events = true) (active : l.run.isActive l.world = true)
    (rest : List Batch) :
    l.triggerAll (batch :: rest) =
      onward (Walk.visit .aggregate [] l.run.task.tree (l.scene batch).resume).alone rest := by
  have resumes : (Walk.trigger (l.scene batch)).alone =
      Walk.next (fun outcome => return some outcome)
        (Walk.visit .aggregate [] l.run.task.tree (l.scene batch).resume).alone := by
    rw [Walk.triggerActive (s := l.scene batch) qualifies active, Walk.aloneNext]
    rfl
  rw [triggerAll, resumes]
  rcases (Walk.visit .aggregate [] l.run.task.tree (l.scene batch).resume).alone with
    ⟨t, _ | (_ | _)⟩ <;> rfl

theorem triggerAccepted {l : Lone} {info : AppletInfo} {wait : Wait} {batch : Batch} {event : Event}
    (waiting : l.run.slate.waiting = some (.wait info wait))
    (accept : wait.find? batch.events = some event) (active : l.run.isActive l.world = true)
    (rest : List Batch) :
    l.triggerAll (batch :: rest) =
      onward (Walk.visit .aggregate [] l.run.task.tree (l.scene batch).resume).alone rest := by
  have qualifies : l.run.qualifies batch.events = true := by
    simp [Run.qualifies, Run.waitsFor?, waiting, Applet.wait?, accept]
  exact triggerQualifies qualifies active rest

variable {s : Scene} {ahead : List Batch}

theorem agreesNow {r : Except Halt AppletResult} (result : s.run.slate.result = r.toOption)
    (waiting : s.run.slate.waiting = pending? r) :
    Agrees (ofScene s, [told r]) (r, s.passage ahead) where
  record := rfl
  referents := rfl
  checksum := rfl
  target := rfl
  successful := rfl
  result := result
  waiting := waiting
  returns := ⟨0, rfl⟩

theorem agreesLater {l : Lone} {returns : List Return} {ref : Except Halt AppletResult × Passage}
    (agrees : Agrees (l, returns) ref) : Agrees (l, some (.ok .suspended) :: returns) ref := by
  obtain ⟨n, same⟩ := agrees.returns
  exact { agrees with returns := ⟨n + 1, congrArg (some (.ok .suspended) :: ·) same⟩ }

theorem resumedResumes {info : AppletInfo} {wait : Wait} (held : s.Held [] info wait)
    (batch : Batch) : s.Resumes ((ofScene s).scene batch).resume batch := by
  obtain ⟨⟨below, footing⟩, active⟩ := held
  have task : s.run.task = s.occasion.task := congrArg Footing.task footing
  constructor
  · change { s.footing with cursor := s.footing.cursor.beginResume, suspending := false, batch } = _
    rw [footing]
    rfl
  · intro ahead
    simp only [Scene.resume, ofScene, scene, Scene.onRun, Scene.passage, task]
    rfl

theorem visitTask (task : Task) (mode : Mode) (path : List Nat) (a : Applet) (t : Scene)
    (same : t.run.task = task) : (Walk.visit mode path a t).alone.1.run.task = task := by
  have reaches := Process.guaranteesAlone Scene.reachesTrans
    (Walk.builtKeeps (Walk.visitBuilt a.onlyAnything mode path) t)
  exact (Frame.reachesIdentity reaches).1.trans same

theorem followsAgrees {task : Task} {out : Ending} {ref : Except Halt AppletResult × Passage}
    (follows : Scene.Follows (fun t => (Walk.visit .aggregate [] task.tree t).alone) [] ahead out
      ref)
    (same : out.1.run.task = task) : Agrees (onward out ahead) ref := by
  induction follows with
  | @completed s r ahead forward =>
    have idle : (ofScene s).run.slate.waiting = none := congrArg Footing.waiting forward
    rw [onward, triggerIdle idle]
    exact agreesNow (r := .ok r) (Scene.forwardResult forward) idle
  | @stopped s stop ahead below forward =>
    have idle : (ofScene s).run.slate.waiting = none := congrArg Footing.waiting forward
    rw [onward, triggerIdle idle]
    cases stop with
    | cancelled => exact agreesNow (r := .error .cancelled) (Scene.forwardResult forward) idle
    | panicked => exact agreesNow (r := .error .panicked) (Scene.forwardResult forward) idle
  | stuck forward =>
    exact agreesNow (r := .error .stuck) (Scene.forwardResult forward)
      (congrArg Footing.waiting forward)
  | @outOfBatches s path info wait held =>
    obtain ⟨⟨below, footing⟩, active⟩ := held
    exact agreesNow (r := .error (.outOfBatches path info wait)) (congrArg Footing.result footing)
      (congrArg Footing.waiting footing)
  | @refused s info wait batch rest ref held refuse later ih =>
    obtain ⟨⟨below, footing⟩, active⟩ := held
    have waiting : (ofScene s).run.slate.waiting = some (.wait info wait) :=
      congrArg Footing.waiting footing
    rw [onward, triggerRefused waiting refuse]
    exact ih same
  | @resumed s info wait batch event rest ref held accept later ih =>
    have resumes := resumedResumes held batch
    obtain ⟨⟨below, footing⟩, active⟩ := held
    have waiting : (ofScene s).run.slate.waiting = some (.wait info wait) :=
      congrArg Footing.waiting footing
    have same' : (ofScene s).run.task = task := same
    rw [onward, triggerAccepted waiting accept active, same']
    exact agreesLater (ih _ resumes (visitTask task _ _ _ _ same'))

theorem obtainForward {world : World} (clean : world.slates.Clean) (task : Task) (handle : Handle)
    (observer : Option Observer) (batch : Batch) (ahead : List Batch) :
    ((obtain world task handle observer batch).scene batch).Forward [] none ∧
      ((obtain world task handle observer batch).scene batch).passage ahead =
        .start task handle observer world batch ahead := by
  have fresh := (Pool.takeClean clean).1
  unfold obtain World.obtain
  constructor
  · simp only [Scene.Forward, Scene.footing, scene, Run.setObserver, fresh]
    rfl
  · simp only [Scene.passage, Passage.start, scene, Run.setObserver, fresh]
    rfl

theorem driveAgrees {world : World} (clean : world.slates.Clean) (task : Task) (handle : Handle)
    (observer : Option Observer) (first : Batch) (later : List Batch) :
    Agrees (drive (obtain world task handle observer first) first later)
      (Straight.walk task (.start task handle observer world first later)) := by
  obtain ⟨forward, shown⟩ := obtainForward clean task handle observer first later
  generalize start : (obtain world task handle observer first).scene first = s at forward shown
  have same : s.run.task = task := by
    rw [← start]
    rfl
  have active : s.isActive = (s.passage later).isActive := rfl
  rw [drive, start, ← shown, Straight.walk, Straight.thenNext]
  unfold Straight.ensureActive
  rw [← active]
  cases live : s.isActive with
  | false =>
    rw [Walk.runInactive live]
    exact followsAgrees (.stopped forward) same
  | true =>
    rw [Walk.runActive live, same]
    have nested : task.tree.flowKind? = none → ([] : List Level) ≠ [] := by
      rw [task.rooted]
      exact fun absurd => by cases absurd
    exact followsAgrees (Scene.visitSimulates .aggregate [] task.tree s [] later forward live nested)
      (visitTask task _ _ _ _ same)

theorem agreesCompleted {out : Lone × List Return} {ref : Except Halt AppletResult × Passage}
    (agrees : Agrees out ref) : some (.ok .completed) ∈ out.2 ↔ ∃ r, ref.1 = .ok r := by
  obtain ⟨n, returns⟩ := agrees.returns
  rw [returns]
  rcases ref.1 with (_ | _ | _ | _) | r <;> simp [told]

theorem agreesSuspended {out : Lone × List Return} {ref : Except Halt AppletResult × Passage}
    (agrees : Agrees out ref) : out.2.getLast? = some (some (.ok .suspended)) ↔
      ∃ path info wait, ref.1 = .error (.outOfBatches path info wait) := by
  obtain ⟨n, returns⟩ := agrees.returns
  rw [returns]
  rcases ref.1 with (_ | _ | _ | _) | r <;> simp [told]

theorem agreesCancelled {out : Lone × List Return} {ref : Except Halt AppletResult × Passage}
    (agrees : Agrees out ref) :
    some (.error .cancelled) ∈ out.2 ↔ ref.1 = .error .cancelled := by
  obtain ⟨n, returns⟩ := agrees.returns
  rw [returns]
  rcases ref.1 with (_ | _ | _ | _) | r <;> simp [told]

/- Suspension is transparent: a run that is suspended at its waits and triggered by later batches
does what the passage does that goes on in place. -/
theorem suspensionTransparent {world : World} (clean : world.slates.Clean) (task : Task)
    (handle : Handle) (observer : Option Observer) (first : Batch) (later : List Batch) :
    let out := drive (obtain world task handle observer first) first later
    let ref := Straight.walk task (.start task handle observer world first later)
    Agrees out ref ∧
      out.1.run.fingerprint = ref.2.checksum.value ∧
      (some (.ok .completed) ∈ out.2 ↔ ∃ r, ref.1 = .ok r) ∧
      (out.2.getLast? = some (some (.ok .suspended)) ↔
        ∃ path info wait, ref.1 = .error (.outOfBatches path info wait)) := by
  intro out ref
  have agrees : Agrees out ref := driveAgrees clean task handle observer first later
  exact ⟨agrees, congrArg Checksum.value agrees.checksum, agreesCompleted agrees,
    agreesSuspended agrees⟩

def launcherTask : Task := ⟨{ title := "Launcher window" }, Sample.launcherThenWindow, rfl, rfl⟩

theorem launcherOnly (allowed : Demand → Prop) : launcherTask.tree.Only allowed := by
  refine .flow (List.forall_mem_cons.mpr ⟨.flow (List.forall_mem_singleton.mpr (.flow ?_)),
    List.forall_mem_singleton.mpr (.flow (List.forall_mem_cons.mpr ⟨.wait, ?_⟩))⟩)
  · exact List.forall_mem_singleton.mpr (.criterion fun input => trivial)
  · exact List.forall_mem_singleton.mpr (.action fun input => trivial)

def launcherBatch : Batch :=
  Sample.batch 3 "component_changed" [("package", .str "com.example.launcher")]

def launcherBatches : List Batch :=
  [Sample.batch 4 "battery_changed" [("level", .int 15)],
   Sample.batch 5 "new_window" [("title", .str "Settings")]]

theorem suspensionTransparentLauncher :
    World.fresh.slates.Clean ∧
      let out := drive (obtain World.fresh launcherTask ⟨0⟩ none launcherBatch) launcherBatch
        launcherBatches
      let ref := Straight.walk launcherTask
        (.start launcherTask ⟨0⟩ none World.fresh launcherBatch launcherBatches)
      Agrees out ref ∧ out.2 = [some (.ok .suspended), some (.ok .completed)] := by
  have clean : World.fresh.slates.Clean := fun a inside => nomatch inside
  exact ⟨clean, (suspensionTransparent clean launcherTask ⟨0⟩ none launcherBatch launcherBatches).1,
    rfl⟩

end Lone
end Automation
