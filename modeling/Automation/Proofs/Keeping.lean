import Automation.Proofs.Built
/-! What a walk leaves as it is. The task, origin and handle of its run, the handles, the globals
and the idle slates make up the frame of a scene, of which the runtime frame is no part. In a turn
of a walk nothing but its executors changes that, whatever has become of the scene between the
turns. -/
namespace Automation

namespace Process
variable {σ ρ τ : Type} {G : σ → σ → Prop}

/- Every turn of the process leads from the state that it was given to one in this relation, the
first turn from `s₀`. -/
def Guarantees (G : σ → σ → Prop) (s₀ : σ) : Process σ ρ → Prop
  | done s _ => G s₀ s
  | yield s next => G s₀ s ∧ ∀ t, (next t).Guarantees G t
  | pend s => G s₀ s
  | haltAll s next => G s₀ s ∧ ∀ n t, (next n t).Guarantees G t

theorem guaranteesFrom (trans : ∀ s t u, G s t → G t u → G s u) {s t : σ} {p : Process σ ρ}
    (step : G s t) (later : p.Guarantees G t) : p.Guarantees G s := by
  cases p with
  | done u r => exact trans s t u step later
  | yield u next => exact ⟨trans s t u step later.1, later.2⟩
  | pend u => exact trans s t u step later
  | haltAll u next => exact ⟨trans s t u step later.1, later.2⟩

theorem guaranteesBind (trans : ∀ s t u, G s t → G t u → G s u) {s₀ : σ} {p : Process σ ρ}
    {f : ρ → σ → Process σ τ} (first : p.Guarantees G s₀)
    (second : ∀ r s, (f r s).Guarantees G s) : (p.bind f).Guarantees G s₀ := by
  induction p generalizing s₀ with
  | done s r => exact guaranteesFrom trans first (second r s)
  | yield s next ih => exact ⟨first.1, fun t => ih t (first.2 t)⟩
  | pend s => exact first
  | haltAll s next ih => exact ⟨first.1, fun n t => ih n t (first.2 n t)⟩

theorem guaranteesAlone (trans : ∀ s t u, G s t → G t u → G s u) {s₀ : σ} {p : Process σ ρ}
    (turns : p.Guarantees G s₀) : G s₀ p.alone.1 := by
  induction p generalizing s₀ with
  | done s r => exact turns
  | yield s next ih => exact trans _ _ _ turns.1 (ih s (turns.2 s))
  | pend s => exact turns
  | haltAll s next ih => exact trans _ _ _ turns.1 (ih 0 s (turns.2 0 s))

end Process

structure Frame where
  task : Task
  origin : Context
  handle : Handle
  handles : Handles
  globals : Globals
  slates : Pool Slate

def Scene.frame (s : Scene) : Frame where
  task := s.run.task
  origin := s.run.origin
  handle := s.run.handle
  handles := s.world.handles
  globals := s.world.globals
  slates := s.world.slates

namespace Frame

/- The frames that scripts lead to which make no other demands. -/
inductive Reaches (allowed : Demand → Prop) (f : Frame) : Frame → Prop where
  | same : Reaches allowed f f
  | cancel {g : Frame} (earlier : Reaches allowed f g) (handle : Handle)
      (demand : allowed (.cancel handle)) :
      Reaches allowed f { g with handles := g.handles.cancel handle }
  | global {g : Frame} (earlier : Reaches allowed f g) (key : UInt64) (globals : Globals)
      (demand : allowed (.global key)) : Reaches allowed f { g with globals }

variable {allowed : Demand → Prop} {f g h : Frame}

theorem reachesTrans (first : f.Reaches allowed g) (second : g.Reaches allowed h) :
    f.Reaches allowed h := by
  induction second with
  | same => exact first
  | cancel earlier handle demand ih => exact .cancel ih handle demand
  | global earlier key globals demand ih => exact .global ih key globals demand

theorem reachesIdentity (reaches : f.Reaches allowed g) :
    g.task = f.task ∧ g.origin = f.origin ∧ g.handle = f.handle ∧ g.slates = f.slates := by
  induction reaches with
  | same => exact ⟨rfl, rfl, rfl, rfl⟩
  | cancel earlier handle demand ih => exact ih
  | global earlier key globals demand ih => exact ih

theorem reachesHandles (reaches : f.Reaches allowed g)
    (never : ∀ handle, ¬allowed (.cancel handle)) : g.handles = f.handles := by
  induction reaches with
  | same => rfl
  | cancel earlier handle demand ih => exact absurd demand (never handle)
  | global earlier key globals demand ih => exact ih

end Frame

def Scene.Reaches (allowed : Demand → Prop) (s t : Scene) : Prop :=
  s.frame.Reaches allowed t.frame

theorem Scene.reachesTrans {allowed : Demand → Prop} (s t u : Scene)
    (first : s.Reaches allowed t) (second : t.Reaches allowed u) : s.Reaches allowed u :=
  Frame.reachesTrans first second

theorem Scene.reachesSame {allowed : Demand → Prop} {s t : Scene} (same : t.frame = s.frame) :
    s.Reaches allowed t := by
  rw [Reaches, same]
  exact .same

namespace Scene

theorem frameActive {s t : Scene} (same : t.frame = s.frame) (active : s.isActive = true) :
    t.isActive = true := by
  have handle : t.run.handle = s.run.handle := congrArg Frame.handle same
  have handles : t.world.handles = s.world.handles := congrArg Frame.handles same
  rw [← active, Scene.isActive, Scene.isActive, Run.isActive, Run.isActive, handle, handles]

theorem startFrame (s : Scene) (path : List Nat) (info : AppletInfo) :
    (s.start path info).frame = s.frame := by
  unfold start
  split <;> rfl

theorem skipFromFrame (s : Scene) (path : List Nat) (i : Nat) (children : List Applet) :
    (s.skipFrom path i children).frame = s.frame := by
  induction children generalizing s i with
  | nil => rfl
  | cons child rest ih => exact ih _ (i + 1)

theorem finishFrame (s : Scene) (path : List Nat) (info : AppletInfo) (result : AppletResult) :
    (s.finish path info result).frame = s.frame := by
  unfold finish Run.register
  cases result.published? <;> rfl

theorem foldAllFrame (s : Scene) (vs : List Json) :
    (s.onRun fun r => r.foldAll vs).frame = s.frame := by
  unfold onRun Run.foldAll
  induction vs generalizing s with
  | nil => rfl
  | cons v rest ih => exact ih (s.onRun fun r => r.fold v)

theorem endCheckFrame (s : Scene) (path : List Nat) (info : AppletInfo)
    (outcome : Except ApplyError Checked) :
    (s.endCheck path info outcome).2.frame = s.frame := by
  cases outcome with
  | ok c =>
    simp only [endCheck]
    split <;> rfl
  | error cause => rfl

theorem endActionFrame (s : Scene) (path : List Nat) (outcome : Except ApplyError Json) :
    (s.endAction path outcome).2.frame = s.frame := by
  cases outcome <;> rfl

theorem tryWaitFrame (s : Scene) (path : List Nat) (info : AppletInfo) (wait : Wait) :
    (s.tryWait path info wait).2.frame = s.frame := by
  unfold tryWait
  split <;> rfl

theorem chooseFrame (s : Scene) (path : List Nat) (spec : FlowSpec) (level : Nat) :
    (s.choose path spec level).2.frame = s.frame := by
  unfold choose
  split
  · rfl
  · split <;> rfl

theorem leaveFlowFrame (s : Scene) (spec : FlowSpec) (level : Nat) :
    (s.leaveFlow spec level).2.frame = s.frame := by
  unfold leaveFlow
  dsimp only
  split
  · rfl
  · split
    · split <;> rfl
    · rfl

theorem changeFrame {f : Scene → Scene} (step : Change f) (s : Scene) :
    (f s).frame = s.frame := by
  induction step generalizing s with
  | start path info => exact startFrame s path info
  | finish path info result => exact finishFrame s path info result
  | skipFrom path i children => exact skipFromFrame s path i children
  | abandonFlow path children level => exact skipFromFrame s path 0 children
  | comp first second ihFirst ihSecond => exact (ihSecond _).trans (ihFirst s)
  | _ => rfl

theorem actFrame {α : Type} {f : Scene → α × Scene} (step : Act f) (s : Scene) :
    (f s).2.frame = s.frame := by
  cases step with
  | beginCheck path info expected => exact foldAllFrame s _
  | endCheck path info outcome => exact endCheckFrame s path info outcome
  | beginAction path info => exact foldAllFrame s _
  | endAction path outcome => exact endActionFrame s path outcome
  | tryWait path info wait => exact tryWaitFrame s path info wait
  | enterFlow => rfl
  | choose path spec level => exact chooseFrame s path spec level
  | leaveFlow spec level => exact leaveFlowFrame s spec level
  | passOn level kind => rfl

end Scene

inductive Scene.Obliges (allowed : Demand → Prop) (s : Scene) : Scene → Prop where
  | cancel (handle : Handle) (demand : allowed (.cancel handle)) :
      Obliges allowed s { s with world := s.world.cancel handle }
  | global (key : UInt64) (type : Stored) (init : Unit → type.Value)
      (demand : allowed (.global key)) :
      Obliges allowed s
        { s with world := { s.world with globals := (s.world.globals.obtain key type init).2 } }
  | argument (arguments : Arguments) :
      Obliges allowed s { s with occasion := { s.occasion with arguments } }

theorem Scene.obligesReaches {allowed : Demand → Prop} (s t : Scene)
    (obliges : s.Obliges allowed t) : s.Reaches allowed t := by
  cases obliges with
  | cancel handle demand => exact .cancel .same handle demand
  | global key type init demand => exact .global .same key _ demand
  | argument arguments => exact .same

namespace Walk
variable {α : Type} {allowed : Demand → Prop}

theorem performGuarantees {G : Scene → Scene → Prop} (trans : ∀ s t u, G s t → G t u → G s u)
    (same : ∀ s, G s s) (obliges : ∀ s t, s.Obliges allowed t → G s t) {script : Script α}
    (only : script.Only allowed) (s : Scene) : (perform script s).Guarantees G s := by
  have onward {s t : Scene} {p : Process Scene (Except Stop α)} (step : s.Obliges allowed t)
      (later : p.Guarantees G t) : p.Guarantees G s :=
    Process.guaranteesFrom trans (obliges s t step) later
  induction script generalizing s with
  | done a | panic | pend => exact same s
  | yield next ih => exact ⟨same s, ih only.2⟩
  | cancel handle next ih => exact onward (.cancel handle only.1) (ih only.2 _)
  | haltAll next ih => exact ⟨same s, fun n => ih n (only.2 n)⟩
  | global key type init next ih =>
    exact onward (.global key type init only.1) (ih _ (only.2 _) _)
  | argument id type init next ih =>
    exact onward (.argument (s.occasion.arguments.obtain id type init).2) (ih _ (only.2 _) _)
  | pattern id text next ih =>
    exact onward (.argument (s.occasion.arguments.pattern id text).2) (ih _ (only.2 _) _)

theorem builtGuarantees {G : Scene → Scene → Prop} (trans : ∀ s t u, G s t → G t u → G s u)
    (same : ∀ s, G s s) (change : ∀ {f : Scene → Scene}, Scene.Change f → ∀ s, G s (f s))
    (act : ∀ {α : Type} {f : Scene → α × Scene}, Scene.Act f → ∀ s, G s (f s).2)
    (obliges : ∀ s t, s.Obliges allowed t → G s t) {w : Walk α} (built : Built allowed w)
    (s : Scene) : (w s).Guarantees G s := by
  induction built generalizing s with
  | pure a | read alike => exact same s
  | change step => exact change step s
  | act step => exact act step s
  | active =>
    unfold ensureActive
    split <;> exact same s
  | level depth =>
    unfold level
    split <;> exact same s
  | perform only => exact performGuarantees trans same obliges only s
  | andThen first second ihFirst ihSecond =>
    refine Process.guaranteesBind trans (ihFirst s) fun r t => ?_
    cases r with
    | ok a => exact ihSecond a t
    | error e => exact same t

theorem builtKeeps {w : Walk α} (built : Built allowed w) (s : Scene) :
    (w s).Guarantees (Scene.Reaches allowed) s :=
  builtGuarantees Scene.reachesTrans (fun _ => Scene.reachesSame rfl)
    (fun step s => Scene.reachesSame (Scene.changeFrame step s))
    (fun step s => Scene.reachesSame (Scene.actFrame step s)) Scene.obligesReaches built s

theorem runKeeps {s : Scene} (only : s.run.task.tree.Only allowed) :
    (run s).Guarantees (Scene.Reaches allowed) s := by
  cases active : s.isActive with
  | false =>
    rw [runInactive active]
    exact Scene.reachesSame rfl
  | true =>
    rw [runActive active]
    exact builtKeeps (visitBuilt only .aggregate []) s

theorem triggerKeeps {s : Scene} (only : s.run.task.tree.Only allowed) :
    (trigger s).Guarantees (Scene.Reaches allowed) s := by
  cases qualifies : s.run.qualifies s.occasion.batch.events with
  | false =>
    rw [triggerIdle qualifies]
    exact Scene.reachesSame rfl
  | true =>
    cases active : s.isActive with
    | false =>
      rw [triggerInactive qualifies active]
      exact Scene.reachesSame rfl
    | true =>
      have resumed : s.Reaches allowed s.resume := .same
      have visited := builtKeeps
        (.andThen (visitBuilt only .aggregate []) fun o => .pure (some o)) s.resume
      rw [triggerActive qualifies active]
      exact Process.guaranteesFrom Scene.reachesTrans resumed visited

end Walk
end Automation
