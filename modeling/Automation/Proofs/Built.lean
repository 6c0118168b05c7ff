import Automation.Proofs.Alone
import Automation.Proofs.Demand
/-! What walks are made of. A walk of a tree is put together from a few kinds of steps of the
evaluator and the scripts of its executors, so what each of these leaves as it is, and what follows
one another does, holds of every walk. -/
namespace Automation

namespace Scene

inductive Change : (Scene → Scene) → Prop where
  | start (path info) : Change fun s => s.start path info
  | reachLeaf (info) : Change fun s => s.reachLeaf info
  | finish (path info result) : Change fun s => s.finish path info result
  | skip (path info) : Change fun s => s.tell .skipped path info
  | skipFrom (path i children) : Change fun s => s.skipFrom path i children
  | setFlow (info) : Change fun s => s.onRun fun r => r.setFlow info
  | passOver (level chain) : Change fun s => s.passOver level chain
  | unwind (level) : Change fun s => s.unwind level
  | abandonFlow (path children level) : Change fun s => s.abandonFlow path children level
  | comp {f g} (first : Change f) (second : Change g) : Change fun s => g (f s)

inductive Act : {α : Type} → (Scene → α × Scene) → Prop where
  | beginCheck (path info expected) : Act fun s => s.beginCheck path info expected
  | endCheck (path info outcome) : Act fun s => s.endCheck path info outcome
  | beginAction (path info) : Act fun s => s.beginAction path info
  | endAction (path outcome) : Act fun s => s.endAction path outcome
  | tryWait (path info wait) : Act fun s => s.tryWait path info wait
  | enterFlow : Act enterFlow
  | choose (path spec level) : Act fun s => s.choose path spec level
  | leaveFlow (spec level) : Act fun s => s.leaveFlow spec level
  | passOn (level kind) : Act fun s => s.passOn level kind

end Scene

namespace Walk
variable {α β : Type} {allowed : Demand → Prop}

inductive Built (allowed : Demand → Prop) : {α : Type} → Walk α → Prop where
  | pure {α : Type} (a : α) : Built allowed (Pure.pure a : Walk α)
  | read {α : Type} {f : Scene → α} (same : ∀ s t, s.run.slate = t.run.slate → f s = f t) :
      Built allowed (Walk.read f)
  | change {f : Scene → Scene} (step : Scene.Change f) : Built allowed (Walk.change f)
  | act {α : Type} {f : Scene → α × Scene} (step : Scene.Act f) : Built allowed (Walk.act f)
  | active : Built allowed ensureActive
  | level (depth : Nat) : Built allowed (Walk.level depth)
  | perform {α : Type} {script : Script α} (only : script.Only allowed) :
      Built allowed (Walk.perform script)
  | andThen {α β : Type} {w : Walk α} {f : α → Walk β} (first : Built allowed w)
      (second : ∀ a, Built allowed (f a)) : Built allowed (w >>= f)

theorem judgeBuilt {check : Check} (only : ∀ input, (check input).Only allowed)
    (path : List Nat) (info : AppletInfo) : Built allowed (judge path info check) := by
  have same (s t : Scene) (slate : s.run.slate = t.run.slate) :
      s.run.expected? info = t.run.expected? info := by
    simp only [Run.expected?, Run.argument?, slate]
  refine .andThen (.read same) fun expected => ?_
  cases expected with
  | none => exact .pure _
  | some expected =>
    refine .andThen (.act (.beginCheck path info expected)) fun input => ?_
    refine .andThen (.perform (only input)) fun outcome => ?_
    exact .act (.endCheck path info outcome)

theorem carryOutBuilt {action : Action} (only : ∀ input, (action input).Only allowed)
    (path : List Nat) (info : AppletInfo) : Built allowed (carryOut path info action) := by
  refine .andThen (.act (.beginAction path info)) fun input => ?_
  refine .andThen (.perform (only input)) fun outcome => ?_
  exact .act (.endAction path outcome)

theorem visitFromBuilt {children : List Applet}
    (visits : ∀ c ∈ children, ∀ mode path, Built allowed (visit mode path c)) (mode : Mode)
    (path : List Nat) (flow : AppletInfo) (depth i : Nat) :
    Built allowed (visitFrom mode path flow depth i children) := by
  induction children generalizing i with
  | nil => exact .pure _
  | cons child rest ih =>
    have onward := ih fun c inside => visits c (List.mem_cons_of_mem child inside)
    have same (s t : Scene) (slate : s.run.slate = t.run.slate) :
        s.run.slate.cursor.resuming = t.run.slate.cursor.resuming := by rw [slate]
    rw [visitFrom]
    refine .andThen (.level depth) fun here => ?_
    split
    · exact onward (i + 1)
    · refine .andThen .active fun _ => .andThen (.read same) fun resuming => ?_
      split
      · exact .andThen (.change (.comp (.skip ..) (.passOver ..))) fun _ => onward (i + 1)
      · exact .andThen (.change (.comp (.skip ..) (.passOver ..))) fun _ => onward (i + 1)
      · refine .andThen (.change (.setFlow flow)) fun _ => ?_
        refine .andThen (visits child List.mem_cons_self _ _) fun outcome => ?_
        cases outcome with
        | suspended => exact .pure _
        | completed =>
          refine .andThen (.level depth) fun _ => .andThen (.act (.passOn ..)) fun successful => ?_
          split
          · exact .andThen (.change (.skipFrom ..)) fun _ => .pure _
          · exact onward (i + 1)

theorem visitBuilt {a : Applet} (only : a.Only allowed) (mode : Mode) (path : List Nat) :
    Built allowed (visit mode path a) := by
  induction a using Applet.byChildren generalizing mode path with
  | criterion info check =>
    cases only with | criterion only
    rw [visit]
    refine .andThen (.change (.comp (.start ..) (.reachLeaf ..))) fun _ => ?_
    refine .andThen (judgeBuilt only path info) fun result => ?_
    exact .andThen (.change (.finish ..)) fun _ => .pure _
  | action info action =>
    cases only with | action only
    rw [visit]
    refine .andThen (.change (.comp (.start ..) (.reachLeaf ..))) fun _ => ?_
    refine .andThen (carryOutBuilt only path info) fun result => ?_
    exact .andThen (.change (.finish ..)) fun _ => .pure _
  | wait info wait =>
    rw [visit]
    refine .andThen (.change (.comp (.start ..) (.reachLeaf ..))) fun _ => ?_
    refine .andThen (.act (.tryWait ..)) fun result => ?_
    cases result with
    | none => exact .pure _
    | some result => exact .andThen (.change (.finish ..)) fun _ => .pure _
  | flow info spec children ih =>
    cases only with | flow only
    have visits (c : Applet) (inside : c ∈ children) (mode : Mode) (path : List Nat) :
        Built allowed (visit mode path c) := ih c inside (only c inside) mode path
    rw [visitFlow]
    refine .andThen (.change (.start ..)) fun _ => .andThen (.act .enterFlow) fun entered => ?_
    refine .andThen ?_ fun available => ?_
    -- A flow that is entered again has chosen its target before.
    · obtain ⟨depth, _ | _⟩ := entered
      · exact .act (.choose ..)
      · exact .pure true
    · cases available with
      | false => exact .andThen (.change (.comp (.abandonFlow ..) (.finish ..))) fun _ => .pure _
      | true =>
        refine .andThen (visitFromBuilt visits _ path info entered.1 0) fun outcome => ?_
        cases outcome with
        | suspended => exact .andThen (.change (.unwind _)) fun _ => .pure _
        | completed =>
          refine .andThen (.act (.leaveFlow ..)) fun result => ?_
          exact .andThen (.change (.finish ..)) fun _ => .pure _

end Walk
end Automation
