import Automation.Proofs.Refinement
/-! Batch after batch. What a dispatcher reports of a task over any time is what the task's own
runtime would tell, whatever other tasks there are, and in whichever order their runs go on. -/
namespace Automation

namespace Dispatcher

inductive History : Dispatcher → List Batch → List Report → Dispatcher → Prop where
  | nil {d : Dispatcher} : History d [] [] d
  | cons {d d' after : Dispatcher} {batch : Batch} {report : Report} {batches : List Batch}
      {reports : List Report} (first : d.Dispatches batch report d')
      (later : History d' batches reports after) :
      History d (batch :: batches) (report :: reports) after

def dispatchAll (d : Dispatcher) : List Batch → List Report × Dispatcher
  | [] => ([], d)
  | batch :: batches =>
    let dispatched := d.dispatch batch
    let (reports, after) := dispatched.dispatcher.dispatchAll batches
    (dispatched.report :: reports, after)

/- The batches of which there is nothing to tell are counted for every task. -/
def stillParked (d : Dispatcher) (souls : TaskKey → Solo) (batches : List Batch) (n : Nat) : Nat :=
  d.tasks.rows.countP fun row =>
    row.2.metadata.enabled && decide (((souls row.1).accounts batches)[n]? = some none)

variable {d : Dispatcher} {souls : TaskKey → Solo}

theorem historyServes {batches : List Batch} {reports : List Report} {after : Dispatcher}
    (history : d.History batches reports after) (serves : d.Serves souls) :
    (∀ key task, d.tasks.get? key = some task → task.metadata.enabled = true →
      reports.map (fun r => r.about key) = ((souls key).accounts batches).map Option.toList) ∧
    reports.map Report.stillParked = (List.range batches.length).map (d.stillParked souls batches) := by
  induction history generalizing souls with
  | nil => exact ⟨fun key task found on => rfl, rfl⟩
  | @cons d d' after batch report batches reports first later ih =>
    obtain ⟨s, steps, finished, rfl, rfl⟩ := first
    have serene := Sky.stepsSerene serves.souled steps (startSerene serves batch)
    obtain ⟨serves', told, counted⟩ := overServes serves serene finished
    obtain ⟨toldLater, countedLater⟩ := ih serves'
    have tasks := serene.calm.houses.tasks
    constructor
    · intro key task found on
      rw [List.map_cons, told key task found on, toldLater key task (tasks ▸ found) on]
      rfl
    · rw [List.map_cons, counted, countedLater, List.length_cons, List.range_succ_eq_map,
        List.map_cons, List.map_map]
      congr 1
      · refine List.countP_congr fun row inside => ?_
        cases told : ((souls row.1).next batch).1 <;> simp [idleTask, Solo.accounts, told]
      · refine congrArg (List.map · (List.range batches.length)) (funext fun n => ?_)
        simp only [stillParked, tasks]
        rfl

inductive Registered (settings : Settings) (world : World) (observer : Option Observer) :
    Dispatcher → Prop where
  | new : Registered settings world observer (.ofSettings settings world observer)
  | register {d : Dispatcher} (earlier : Registered settings world observer d) (task : Task) :
      Registered settings world observer (d.register task).2
  | unregister {d d' : Dispatcher} (earlier : Registered settings world observer d) (key : TaskKey)
      (removed : d.unregister key = .ok d') : Registered settings world observer d'

structure Unused (settings : Settings) (world : World) (observer : Option Observer)
    (d : Dispatcher) : Prop where
  parked : d.parked = Table.empty
  observer : d.observer = observer
  maxParked : d.maxParked = settings.maxParkedRuntimes
  world : d.world = world.configurePools settings.resultPoolCapacity settings.runtimePoolCapacity

variable {settings : Settings} {world : World} {observer : Option Observer}

theorem registeredUnused (registered : Registered settings world observer d) :
    d.Unused settings world observer := by
  induction registered with
  | new => exact ⟨rfl, rfl, rfl, rfl⟩
  | register earlier task ih => exact { ih with }
  | @unregister d d' earlier key removed ih =>
    rcases unregistered removed with ⟨absent, rfl⟩ | ⟨run, parked, same⟩
    · exact { ih with }
    · rw [ih.parked] at parked
      cases parked

theorem configureSound {w : World} (sound : w.Sound) (bodies slates : Nat) :
    (w.configurePools bodies slates).Sound where
  slates := fun s inside => sound.slates s (List.mem_of_mem_drop inside)
  handles := sound.handles

theorem unusedServes (unused : d.Unused settings world observer) (sound : world.Sound)
    (room : d.tasks.size ≤ settings.maxParkedRuntimes)
    (souled : ∀ key task, d.tasks.get? key = some task → task.metadata.enabled = true →
      d.Souled task (souls key) ∧ (souls key).pending = none) : d.Serves souls where
  houses := by
    have absent (key : TaskKey) : d.parked.get? key = none := by
      rw [unused.parked]
      rfl
    refine ⟨rfl, rfl, rfl, ?_, ?_, fun key inside => ?_, fun key run found => ?_⟩
    · rw [unused.world]
      exact configureSound sound _ _
    · rw [unused.maxParked]
      exact room
    · rw [unused.parked] at inside
      cases inside
    · rw [absent key] at found
      cases found
  souled := fun key task found on => (souled key task found on).1
  rests := fun key task found on => by
    rw [Rests, unused.parked, (souled key task found on).2]
    rfl

theorem dispatchAllHistory (serves : d.Serves souls) (batches : List Batch) :
    d.History batches (d.dispatchAll batches).1 (d.dispatchAll batches).2 := by
  induction batches generalizing d souls with
  | nil => exact .nil
  | cons batch batches ih =>
    obtain ⟨landed, overtaken, steps⟩ := d.dispatchSteps batch
    have serene := Sky.stepsSerene serves.souled steps (startSerene serves batch)
    have finished : Sky.Over ⟨d.dispatch batch, batch, [], [], overtaken⟩ :=
      ⟨rfl, rfl, landed, serene.stranded⟩
    exact .cons ⟨_, steps, finished, rfl, rfl⟩ (ih (overServes serves serene finished).1)

/- Tasks do not disturb one another. In whichever order their runs go on and are settled, a
dispatcher that has room for all of them reports of each what its own runtime tells, and counts
it when that has nothing to tell. -/
theorem tasksUndisturbed (registered : Registered settings world observer d) (sound : world.Sound)
    (room : d.tasks.size ≤ settings.maxParkedRuntimes)
    (only : ∀ key task, d.tasks.get? key = some task → task.metadata.enabled = true →
      task.tree.Only Demand.Private) (lone : World) (loneSound : lone.Sound)
    (batches : List Batch) :
    let alone (task : Task) : List (Option Account) :=
      Solo.accounts ⟨task, observer, lone, none⟩ batches
    d.History batches (d.dispatchAll batches).1 (d.dispatchAll batches).2 ∧
      ∀ reports after, d.History batches reports after →
        (∀ key task, d.tasks.get? key = some task → task.metadata.enabled = true →
          reports.map (fun r => r.about key) = (alone task).map Option.toList) ∧
        reports.map Report.stillParked = (List.range batches.length).map fun n =>
          d.tasks.rows.countP fun row =>
            row.2.metadata.enabled && decide ((alone row.2)[n]? = some none) := by
  intro alone
  have unused := registeredUnused registered
  let souls (key : TaskKey) : Solo :=
    ⟨(d.tasks.get? key).getD Lone.launcherTask, observer, lone, none⟩
  have soul (key : TaskKey) (task : Task) (found : d.tasks.get? key = some task) :
      souls key = ⟨task, observer, lone, none⟩ := by simp [souls, found]
  have serves : d.Serves souls := by
    refine unusedServes unused sound room fun key task found on => ?_
    rw [soul key task found]
    exact ⟨⟨rfl, unused.observer.symm, loneSound, only key task found on,
      fun run started absurd => by cases absurd⟩, rfl⟩
  refine ⟨dispatchAllHistory serves batches, fun reports after history => ?_⟩
  obtain ⟨told, counted⟩ := historyServes history serves
  constructor
  · intro key task found on
    rw [told key task found on, soul key task found]
  · rw [counted]
    refine congrArg (List.map · (List.range batches.length)) (funext fun n => ?_)
    refine List.countP_congr fun row inside => ?_
    rw [soul row.1 row.2 (Table.rowGet inside)]

def lowBatteryTask : Task := ⟨{ title := "Low battery" }, Sample.lowBattery, rfl, rfl⟩

theorem lowBatteryPrivate : lowBatteryTask.tree.Only Demand.Private := by
  refine .flow (List.forall_mem_singleton.mpr (.flow (List.forall_mem_cons.mpr
    ⟨.flow ?_, List.forall_mem_singleton.mpr (.flow ?_)⟩)))
  · exact List.forall_mem_singleton.mpr (.criterion fun input => trivial)
  · exact List.forall_mem_singleton.mpr (.action fun input => trivial)

theorem launcherPrivate : Lone.launcherTask.tree.Only Demand.Private := Lone.launcherOnly _

def sampleDispatcher : Dispatcher :=
  (((ofSettings {} World.fresh none).register lowBatteryTask).2.register Lone.launcherTask).2

theorem tasksUndisturbedSample :
    Registered {} World.fresh none sampleDispatcher ∧ World.fresh.Sound ∧
      sampleDispatcher.tasks.size ≤ 64 ∧
      (∀ key task, sampleDispatcher.tasks.get? key = some task → task.metadata.enabled = true →
        task.tree.Only Demand.Private) ∧
      ((sampleDispatcher.dispatchAll Sample.batches).1.map fun r =>
        (r.about ⟨1⟩).map Account.status) =
        [[.completed false], [.completed false], [.completed false], [.parked],
          [.completed true]] := by
  have registered : Registered {} World.fresh none sampleDispatcher :=
    .register (.register .new lowBatteryTask) Lone.launcherTask
  have sound : World.fresh.Sound := ⟨fun s inside => (nomatch inside), fun h => nofun⟩
  have only : ∀ key task, sampleDispatcher.tasks.get? key = some task →
      task.metadata.enabled = true → task.tree.Only Demand.Private := by
    intro key task found on
    have row : (key, task) ∈ [(⟨0⟩, lowBatteryTask), (⟨1⟩, Lone.launcherTask)] := Table.getRow found
    simp only [List.mem_cons, Prod.mk.injEq, List.not_mem_nil, or_false] at row
    rcases row with ⟨-, rfl⟩ | ⟨-, rfl⟩
    · exact lowBatteryPrivate
    · exact launcherPrivate
  have room : sampleDispatcher.tasks.size ≤ 64 := by decide
  obtain ⟨history, all⟩ :=
    tasksUndisturbed registered sound room only World.fresh sound Sample.batches
  have told := (all _ _ history).1 ⟨1⟩ Lone.launcherTask rfl rfl
  refine ⟨registered, sound, room, only, ?_⟩
  have statuses := congrArg (List.map (List.map Account.status)) told
  rw [List.map_map] at statuses
  exact statuses

end Dispatcher
end Automation
