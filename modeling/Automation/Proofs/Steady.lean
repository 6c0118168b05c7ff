import Automation.Proofs.Keeping
import Automation.Proofs.Passage.Scene
/-! Walks that nothing disturbs. The core of a scene is all of it but the handle, the world and the
journal. If its executors keep to themselves, a walk comes to the same end wherever its core is,
whatever becomes of the world between its turns, as long as nobody cancels it. -/
namespace Automation

/- Executors with these demands ask nothing of others and do nothing to them. -/
def Demand.Private : Demand → Prop
  | panic | yield | argument _ => True
  | _ => False

structure Core where
  task : Task
  origin : Context
  batch : Batch
  slate : Slate
  occasion : Occasion

namespace Scene

def core (s : Scene) : Core := ⟨s.run.task, s.run.origin, s.run.batch, s.run.slate, s.occasion⟩

def elsewhere (s : Scene) (handle : Handle) (world : World) (journal : Journal) : Scene :=
  ⟨{ s.run with handle }, s.occasion, world, journal⟩

theorem coreElsewhere {s t : Scene} (same : s.core = t.core) :
    t = s.elsewhere t.run.handle t.world t.journal := by
  obtain ⟨⟨task, origin, batch, handle, slate⟩, occasion, world, journal⟩ := s
  obtain ⟨⟨task', origin', batch', handle', slate'⟩, occasion', world', journal'⟩ := t
  cases same
  rfl

theorem elsewhereCore (s : Scene) (handle : Handle) (world : World) (journal : Journal) :
    (s.elsewhere handle world journal).core = s.core := rfl

variable (s : Scene) (handle : Handle) (world : World) (journal : Journal)

theorem skipFromElsewhere (path : List Nat) (i : Nat) (children : List Applet) :
    ∃ journal', (s.elsewhere handle world journal).skipFrom path i children =
      (s.skipFrom path i children).elsewhere handle world journal' := by
  induction children generalizing s journal i with
  | nil => exact ⟨journal, rfl⟩
  | cons child rest ih =>
    exact ih (s.tell .skipped (path ++ [i]) child.info)
      (journal ++ [.notice s.run.slate.observer .skipped (path ++ [i]) child.info
        { s.run with handle }]) (i + 1)

theorem changeElsewhere {f : Scene → Scene} (step : Change f) :
    ∃ world' journal', f (s.elsewhere handle world journal) =
      (f s).elsewhere handle world' journal' := by
  induction step generalizing s world journal with
  | start path info =>
    cases resuming : s.run.slate.cursor.resuming <;>
      simp only [start, elsewhere, resuming] <;> exact ⟨_, _, rfl⟩
  | finish path info result =>
    simp only [finish, Run.register]
    cases result.published? <;> exact ⟨_, _, rfl⟩
  | skipFrom path i children =>
    obtain ⟨journal', same⟩ := skipFromElsewhere s handle world journal path i children
    exact ⟨world, journal', same⟩
  | abandonFlow path children level =>
    obtain ⟨journal', same⟩ := skipFromElsewhere s handle world journal path 0 children
    simp only [abandonFlow, same]
    exact ⟨_, _, rfl⟩
  | @comp f g first second ihFirst ihSecond =>
    obtain ⟨world', journal', same⟩ := ihFirst s world journal
    change ∃ world' journal', g (f (s.elsewhere handle world journal)) = _
    rw [same]
    exact ihSecond _ world' journal'
  | _ => exact ⟨_, _, rfl⟩

theorem actElsewhere {α : Type} {f : Scene → α × Scene} (step : Act f) :
    ∃ world' journal', f (s.elsewhere handle world journal) =
      ((f s).1, (f s).2.elsewhere handle world' journal') := by
  cases step with
  | beginCheck path info expected =>
    simp only [beginCheck, onRun, foldAllRun]
    exact ⟨_, _, rfl⟩
  | beginAction path info =>
    simp only [beginAction, onRun, foldAllRun]
    exact ⟨_, _, rfl⟩
  | endCheck path info outcome =>
    cases outcome with
    | error cause => exact ⟨_, _, rfl⟩
    | ok c =>
      simp only [endCheck]
      split
      · refine ⟨_, _, Prod.ext ?_ rfl⟩
        exact (succeededResult _ _).trans (succeededResult _ _).symm
      · refine ⟨_, _, Prod.ext ?_ rfl⟩
        exact (failedResult _ _).trans (failedResult _ _).symm
  | endAction path outcome =>
    cases outcome with
    | error cause => exact ⟨_, _, rfl⟩
    | ok returned =>
      refine ⟨_, _, Prod.ext ?_ rfl⟩
      exact (succeededResult _ _).trans (succeededResult _ _).symm
  | tryWait path info wait =>
    simp only [tryWait, elsewhere]
    split
    · refine ⟨_, _, Prod.ext ?_ rfl⟩
      exact congrArg some ((succeededResult _ _).trans (succeededResult _ _).symm)
    · exact ⟨_, _, rfl⟩
  | choose path spec level =>
    simp only [choose, elsewhere]
    split
    · exact ⟨_, _, rfl⟩
    · split <;> exact ⟨_, _, rfl⟩
  | leaveFlow spec level =>
    obtain ⟨world', exited⟩ : ∃ world', (s.elsewhere handle world journal).exitFlow level =
        ((s.exitFlow level).1, (s.exitFlow level).2.elsewhere handle world' journal) := ⟨_, rfl⟩
    simp only [leaveFlow, exited]
    generalize s.exitFlow level = exit
    obtain ⟨left, t⟩ := exit
    cases left.saved with
    | none => exact ⟨_, _, rfl⟩
    | some old =>
      cases selected : t.run.slate.target <;> simp only [elsewhere, selected]
      · exact ⟨_, _, rfl⟩
      · split <;> exact ⟨_, _, rfl⟩
  | _ => exact ⟨_, _, rfl⟩

end Scene
theorem Frame.reachesPrivate {f g : Frame} (reaches : f.Reaches Demand.Private g) : g = f := by
  induction reaches with
  | same => rfl
  | cancel earlier handle demand ih => exact demand.elim
  | global earlier key globals demand ih => exact demand.elim

namespace Process
variable {α β : Type}

def Meets (c : Core) (v : Except Stop α) : Process Scene (Except Stop α) → Prop
  | done s r => s.core = c ∧ r = v ∧ s.isActive = true
  | yield s next => ∀ t : Scene, t.run = s.run → t.occasion = s.occasion → t.isActive = true →
      (next t).Meets c v
  | pend _ => False
  | haltAll _ _ => False

theorem meetsBind {c c' : Core} {a : α} {v : Except Stop β} {p : Process Scene (Except Stop α)}
    {f : Except Stop α → Scene → Process Scene (Except Stop β)} (first : p.Meets c (.ok a))
    (second : ∀ s : Scene, s.core = c → s.isActive = true → (f (.ok a) s).Meets c' v) :
    (p.bind f).Meets c' v := by
  induction p with
  | done s r =>
    obtain ⟨core, rfl, active⟩ := first
    exact second s core active
  | yield s next ih => exact fun t run occasion active => ih t (first t run occasion active)
  | pend s => exact first.elim
  | haltAll s next ih => exact first.elim

theorem meetsStop {c : Core} {e : Stop} {p : Process Scene (Except Stop α)}
    {f : Except Stop α → Scene → Process Scene (Except Stop β)} (first : p.Meets c (.error e))
    (stops : ∀ s, f (.error e) s = .done s (.error e)) : (p.bind f).Meets c (.error e) := by
  induction p with
  | done s r =>
    obtain ⟨core, rfl, active⟩ := first
    rw [bind, stops]
    exact ⟨core, rfl, active⟩
  | yield s next ih => exact fun t run occasion active => ih t (first t run occasion active)
  | pend s => exact first.elim
  | haltAll s next ih => exact first.elim

theorem meetsAlone {c : Core} {v : Except Stop α} {p : Process Scene (Except Stop α)} {s₀ : Scene}
    (meets : p.Meets c v) (turns : p.Guarantees (Scene.Reaches Demand.Private) s₀)
    (active : s₀.isActive = true) :
    ∃ s, p.alone = (s, some v) ∧ s.core = c ∧ s.frame = s₀.frame := by
  induction p generalizing s₀ with
  | done s r =>
    obtain ⟨core, rfl, _⟩ := meets
    exact ⟨s, rfl, core, Frame.reachesPrivate turns⟩
  | yield s next ih =>
    have frame : s.frame = s₀.frame := Frame.reachesPrivate turns.1
    have alive := Scene.frameActive frame active
    obtain ⟨t, ended, core, frame'⟩ := ih s (meets s rfl rfl alive) (turns.2 s) alive
    exact ⟨t, ended, core, frame'.trans frame⟩
  | pend s => exact meets.elim
  | haltAll s next ih => exact meets.elim

end Process

namespace Walk
variable {α : Type}

/- The walk comes to an end that only what it works on decides. -/
def Steady (w : Walk α) : Prop :=
  ∀ core, ∃ c v, ∀ s : Scene, s.core = core → s.isActive = true → (w s).Meets c v

theorem performSteady {script : Script α} (only : script.Only Demand.Private) :
    (perform script).Steady := by
  intro core
  induction script generalizing core with
  | done a => exact ⟨core, .ok a, fun s same active => ⟨same, rfl, active⟩⟩
  | panic => exact ⟨core, .error .panicked, fun s same active => ⟨same, rfl, active⟩⟩
  | yield next ih =>
    obtain ⟨c, v, meets⟩ := ih only.2 core
    refine ⟨c, v, fun s same active t run occasion active' => meets t ?_ active'⟩
    rw [← same, Scene.core, Scene.core, run, occasion]
  | pend => exact only.elim
  | cancel handle next ih => exact only.1.elim
  | haltAll next ih => exact only.1.elim
  | global key type init next ih => exact only.1.elim
  | argument id type init next ih =>
    rcases found : core.occasion.arguments.obtain id type init with ⟨r, arguments⟩
    obtain ⟨c, v, meets⟩ := ih r (only.2 r)
      { core with occasion := { core.occasion with arguments } }
    refine ⟨c, v, fun s same active => ?_⟩
    subst same
    simp only [perform, show s.occasion.arguments.obtain id type init = (r, arguments) from found]
    exact meets _ rfl active
  | pattern id text next ih =>
    rcases found : core.occasion.arguments.pattern id text with ⟨r, arguments⟩
    obtain ⟨c, v, meets⟩ := ih r (only.2 r)
      { core with occasion := { core.occasion with arguments } }
    refine ⟨c, v, fun s same active => ?_⟩
    subst same
    simp only [perform, show s.occasion.arguments.pattern id text = (r, arguments) from found]
    exact meets _ rfl active

def someScene (core : Core) : Scene :=
  ⟨⟨core.task, core.origin, core.batch, default, core.slate⟩, core.occasion, World.fresh, []⟩

theorem builtSteady {w : Walk α} (built : Built Demand.Private w) : w.Steady := by
  -- By induction on how the walk is built. Its steps lead from one core to one core, whatever the
  -- world around it, and private executors only ask for what the core holds.
  induction built with
  | pure a => exact fun core => ⟨core, .ok a, fun s same active => ⟨same, rfl, active⟩⟩
  | @read _ f same =>
    refine fun core => ⟨core, .ok (f (someScene core)), fun s core' active => ⟨core', ?_, active⟩⟩
    exact congrArg Except.ok (same s (someScene core) (congrArg Core.slate core'))
  | @change f step =>
    refine fun core => ⟨(f (someScene core)).core, .ok (), fun s same active => ⟨?_, rfl, ?_⟩⟩
    · have there := Scene.coreElsewhere (s := someScene core) same.symm
      obtain ⟨world, journal, moved⟩ := Scene.changeElsewhere (someScene core) s.run.handle s.world
        s.journal step
      rw [there, moved, Scene.elsewhereCore]
    · exact Scene.frameActive (Scene.changeFrame step s) active
  | @act _ f step =>
    refine fun core => ⟨(f (someScene core)).2.core, .ok (f (someScene core)).1,
      fun s same active => ?_⟩
    have there := Scene.coreElsewhere (s := someScene core) same.symm
    obtain ⟨world, journal, moved⟩ := Scene.actElsewhere (someScene core) s.run.handle s.world
      s.journal step
    rw [← there] at moved
    refine ⟨?_, ?_, Scene.frameActive (Scene.actFrame step s) active⟩
    · rw [moved, Scene.elsewhereCore]
    · rw [moved]
  | active =>
    refine fun core => ⟨core, .ok (), fun s same active => ?_⟩
    simp only [ensureActive, active, if_true]
    exact ⟨same, rfl, active⟩
  | level depth =>
    intro core
    cases found : core.slate.cursor.levels[depth]? with
    | some l =>
      refine ⟨core, .ok l, fun s same active => ?_⟩
      subst same
      simp only [Walk.level, show s.run.slate.cursor.levels[depth]? = some l from found]
      exact ⟨rfl, rfl, active⟩
    | none =>
      refine ⟨core, .error .panicked, fun s same active => ?_⟩
      subst same
      simp only [Walk.level, show s.run.slate.cursor.levels[depth]? = none from found]
      exact ⟨rfl, rfl, active⟩
  | perform only => exact performSteady only
  | andThen first second ihFirst ihSecond =>
    intro core
    obtain ⟨c, v, meets⟩ := ihFirst core
    cases v with
    | error e =>
      exact ⟨c, .error e, fun s same active => Process.meetsStop (meets s same active) fun _ => rfl⟩
    | ok a =>
      obtain ⟨c', v', meets'⟩ := ihSecond a c
      exact ⟨c', v', fun s same active => Process.meetsBind (meets s same active) meets'⟩

theorem runMeets (core : Core) (only : core.task.tree.Only Demand.Private) :
    ∃ c v, ∀ s : Scene, s.core = core → s.isActive = true → (run s).Meets c v := by
  obtain ⟨c, v, meets⟩ := builtSteady (visitBuilt only .aggregate []) core
  refine ⟨c, v, fun s same active => ?_⟩
  have tree : s.run.task.tree = core.task.tree := by rw [← same, Scene.core]
  rw [runActive active, tree]
  exact meets s same active

theorem meetsMap {β : Type} {w : Walk α} {s : Scene} {c : Core} {v : Except Stop α}
    (meets : (w s).Meets c v) (g : α → β) :
    ((w >>= fun a => (return g a : Walk β)) s).Meets c (v.map g) := by
  cases v with
  | error e => exact Process.meetsStop meets fun _ => rfl
  | ok a => exact Process.meetsBind meets fun t same active => ⟨same, rfl, active⟩

theorem triggerMeets (core : Core) (only : core.task.tree.Only Demand.Private) :
    ∃ c, ∃ v : Except Stop Outcome, ∀ s : Scene, s.core = core →
      s.run.qualifies s.occasion.batch.events = true → s.isActive = true →
      (trigger s).Meets c (v.map some) := by
  obtain ⟨c, v, meets⟩ := builtSteady (visitBuilt only .aggregate []) (someScene core).resume.core
  refine ⟨c, v, fun s same qualifies active => ?_⟩
  have tree : s.run.task.tree = core.task.tree := by rw [← same, Scene.core]
  have resumed : s.resume.core = (someScene core).resume.core := by
    rw [← same]
    rfl
  rw [triggerActive qualifies active, tree]
  exact meetsMap (meets s.resume resumed active) some

end Walk
end Automation
