import Automation.Applet
/-! What executors, which are the criteria and actions of a tree, ask of whoever carries out their
scripts. A claim about some trees only is often one about the demands that their executors never
make. -/
namespace Automation

inductive Demand where
  | panic
  | yield
  | pend
  | cancel (handle : Handle)
  | haltAll
  | global (key : UInt64)
  | argument (id : AppletId)

def Script.Only (allowed : Demand → Prop) {α : Type} : Script α → Prop
  | done _ => True
  | panic => allowed .panic
  | yield next => allowed .yield ∧ next.Only allowed
  | pend => allowed .pend
  | cancel handle next => allowed (.cancel handle) ∧ next.Only allowed
  | haltAll next => allowed .haltAll ∧ ∀ n, (next n).Only allowed
  | global key _ _ next => allowed (.global key) ∧ ∀ r, (next r).Only allowed
  | argument id _ _ next => allowed (.argument id) ∧ ∀ r, (next r).Only allowed
  | pattern id _ next => allowed (.argument id) ∧ ∀ r, (next r).Only allowed

inductive Applet.Only (allowed : Demand → Prop) : Applet → Prop where
  | criterion {info check} (only : ∀ input, (check input).Only allowed) :
      Only allowed (.criterion info check)
  | action {info action} (only : ∀ input, (action input).Only allowed) :
      Only allowed (.action info action)
  | wait {info wait} : Only allowed (.wait info wait)
  | flow {info spec children} (only : ∀ c ∈ children, Only allowed c) :
      Only allowed (.flow info spec children)

theorem Applet.byChildren {motive : Applet → Prop}
    (criterion : ∀ info check, motive (.criterion info check))
    (action : ∀ info action, motive (.action info action))
    (wait : ∀ info wait, motive (.wait info wait))
    (flow : ∀ info spec children, (∀ c ∈ children, motive c) → motive (.flow info spec children)) :
    ∀ a, motive a
  | .criterion info check => criterion info check
  | .action info act => action info act
  | .wait info w => wait info w
  | .flow info spec children =>
    flow info spec children fun c _ => byChildren criterion action wait flow c

theorem Script.onlyAnything {α : Type} (script : Script α) : script.Only fun _ => True := by
  induction script with
  | done a => exact trivial
  | panic => exact trivial
  | yield next ih => exact ⟨trivial, ih⟩
  | pend => exact trivial
  | cancel handle next ih => exact ⟨trivial, ih⟩
  | haltAll next ih => exact ⟨trivial, ih⟩
  | global key type init next ih => exact ⟨trivial, ih⟩
  | argument id type init next ih => exact ⟨trivial, ih⟩
  | pattern id text next ih => exact ⟨trivial, ih⟩

theorem Applet.onlyAnything (a : Applet) : a.Only fun _ => True := by
  induction a using Applet.byChildren with
  | criterion info check => exact .criterion fun input => (check input).onlyAnything
  | action info action => exact .action fun input => (action input).onlyAnything
  | wait info wait => exact .wait
  | flow info spec children ih => exact .flow ih

end Automation
