import Automation.Proofs.Endings
/-! What a suspended walk leaves behind, and what walks demand. A walk is suspended with the wait
pending that it came to, and it waits for ever or halts everything only if an executor does. -/
namespace Automation

namespace Process
variable {σ ρ τ : Type} {allowed : Demand → Prop}

def Only (allowed : Demand → Prop) : Process σ ρ → Prop
  | done _ _ => True
  | yield _ next => allowed .yield ∧ ∀ t, (next t).Only allowed
  | pend _ => allowed .pend
  | haltAll _ next => allowed .haltAll ∧ ∀ n t, (next n t).Only allowed

theorem onlyBind {p : Process σ ρ} {f : ρ → σ → Process σ τ} (first : p.Only allowed)
    (second : ∀ r s, (f r s).Only allowed) : (p.bind f).Only allowed := by
  induction p with
  | done s r => exact second r s
  | yield s next ih => exact ⟨first.1, fun t => ih t (first.2 t)⟩
  | pend s => exact first
  | haltAll s next ih => exact ⟨first.1, fun n t => ih n t (first.2 n t)⟩

def HaltsNow : Process σ ρ → Prop
  | haltAll _ _ => True
  | _ => False

theorem haltsNow {p : Process σ ρ} (only : p.Only allowed) (now : p.HaltsNow) :
    allowed .haltAll := by
  cases p with
  | haltAll s next => exact only.1
  | done s r | yield s next | pend s => exact now.elim

end Process

namespace Walk
variable {α : Type} {allowed : Demand → Prop} {s : Scene}

theorem performOnly {script : Script α} (only : script.Only allowed) (s : Scene) :
    (perform script s).Only allowed := by
  induction script generalizing s with
  | done a => trivial
  | panic => trivial
  | yield next ih => exact ⟨only.1, ih only.2⟩
  | pend => exact only
  | cancel handle next ih => exact ih only.2 _
  | haltAll next ih => exact ⟨only.1, fun n => ih n (only.2 n)⟩
  | global key type init next ih => exact ih _ (only.2 _) _
  | argument id type init next ih => exact ih _ (only.2 _) _
  | pattern id text next ih => exact ih _ (only.2 _) _

theorem builtOnly {w : Walk α} (built : Built allowed w) (s : Scene) : (w s).Only allowed := by
  induction built generalizing s with
  | pure a | read same | change step | act step => trivial
  | active =>
    unfold ensureActive
    split <;> trivial
  | level depth =>
    unfold level
    split <;> trivial
  | perform only => exact performOnly only s
  | andThen first second ihFirst ihSecond =>
    refine Process.onlyBind (ihFirst s) fun r t => ?_
    cases r with
    | ok a => exact ihSecond a t
    | error e => trivial

def Pends (s : Scene) (r : Except Stop Outcome) : Prop :=
  r = .ok .suspended → s.run.waitsFor?.isSome = true

theorem visitPends (a : Applet) (mode : Mode) (path : List Nat) (s : Scene)
    (active : s.isActive = true) : (visit mode path a s).Ends Pends := by
  have waits (s : Scene) (path : List Nat) (info : AppletInfo) (wait : Wait) (t : Scene)
      (_ : s.isActive = true)
      (tried : ((s.start path info).reachLeaf info).tryWait path info wait = (none, t)) :
      t.run.waitsFor?.isSome = true := by
    unfold Scene.tryWait at tried
    split at tried
    · cases tried
    · cases tried
      rfl
  exact visitSuspends waits (fun s depth held => held) a mode path s active

theorem runPends (s : Scene) : (run s).Ends Pends := by
  cases active : s.isActive with
  | false =>
    rw [runInactive active]
    exact fun absurd => by cases absurd
  | true =>
    rw [runActive active]
    exact visitPends _ _ _ _ active

theorem triggerPends (waits : s.run.waitsFor?.isSome = true) :
    (trigger s).Ends fun t r => r.map (fun o => o.getD .suspended) = .ok .suspended →
      t.run.waitsFor?.isSome = true := by
  cases qualifies : s.run.qualifies s.occasion.batch.events with
  | false =>
    rw [triggerIdle qualifies]
    exact fun _ => waits
  | true =>
    cases active : s.isActive with
    | false =>
      rw [triggerInactive qualifies active]
      exact fun absurd => by cases absurd
    | true =>
      rw [triggerActive qualifies active]
      refine endsThen (visitPends s.run.task.tree .aggregate [] s.resume active)
        (fun t outcome pends suspended => ?_) fun t e _ absurd => by cases absurd
      cases suspended
      exact pends rfl

theorem runOnly (only : s.run.task.tree.Only allowed) : (run s).Only allowed := by
  cases active : s.isActive with
  | false =>
    rw [runInactive active]
    trivial
  | true =>
    rw [runActive active]
    exact builtOnly (visitBuilt only .aggregate []) s

theorem triggerOnly (only : s.run.task.tree.Only allowed) : (trigger s).Only allowed := by
  cases qualifies : s.run.qualifies s.occasion.batch.events with
  | false =>
    rw [triggerIdle qualifies]
    trivial
  | true =>
    cases active : s.isActive with
    | false =>
      rw [triggerInactive qualifies active]
      trivial
    | true =>
      rw [triggerActive qualifies active]
      exact builtOnly (.andThen (visitBuilt only .aggregate []) fun o => .pure (some o)) s.resume

end Walk
end Automation
