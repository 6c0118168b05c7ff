import Automation.Proofs.Keeping
/-! The ends of walks, whatever has become of the scene between their turns. A walk that is
complete has registered the result of its applet, and one that is suspended was active when it
came to its wait. -/
namespace Automation

namespace Process
variable {σ ρ τ : Type} {Q : σ → ρ → Prop}

def Ends (Q : σ → ρ → Prop) : Process σ ρ → Prop
  | done s r => Q s r
  | yield _ next => ∀ t, (next t).Ends Q
  | pend _ => True
  | haltAll _ next => ∀ n t, (next n t).Ends Q

theorem endsAnyhow (p : Process σ ρ) : p.Ends fun _ _ => True := by
  induction p with
  | done s r => trivial
  | yield s next ih => exact ih
  | pend s => trivial
  | haltAll s next ih => exact ih

theorem endsBind {R : σ → τ → Prop} {p : Process σ ρ} {f : ρ → σ → Process σ τ}
    (first : p.Ends Q) (second : ∀ r s, Q s r → (f r s).Ends R) : (p.bind f).Ends R := by
  induction p with
  | done s r => exact second r s first
  | yield s next ih => exact fun t => ih t (first t)
  | pend s => trivial
  | haltAll s next ih => exact fun n t => ih n t (first n t)

theorem endsWeaken {R : σ → ρ → Prop} {p : Process σ ρ} (ends : p.Ends Q)
    (weaker : ∀ s r, Q s r → R s r) : p.Ends R := by
  induction p with
  | done s r => exact weaker s r ends
  | yield s next ih => exact fun t => ih t (ends t)
  | pend s => trivial
  | haltAll s next ih => exact fun n t => ih n t (ends n t)

theorem endsAlone {p : Process σ ρ} (ends : p.Ends Q) {s : σ} {r : ρ} (last : p.alone = (s, some r)) :
    Q s r := by
  induction p with
  | done t r' =>
    cases last
    exact ends
  | yield t next ih => exact ih t (ends t) last
  | pend t => cases last
  | haltAll t next ih => exact ih 0 t (ends 0 t) last

end Process

namespace Walk
variable {α β : Type} {R : Scene → Except Stop α → Prop} {Q : Scene → Except Stop β → Prop}
  {w : Walk α} {f : α → Walk β} {s : Scene}

theorem endsThen (first : (w s).Ends R) (onward : ∀ t a, R t (.ok a) → (f a t).Ends Q)
    (stop : ∀ t e, R t (.error e) → Q t (.error e)) : ((w >>= f) s).Ends Q := by
  refine Process.endsBind first fun r t holds => ?_
  cases r with
  | ok a => exact onward t a holds
  | error e => exact stop t e holds

theorem endsChange {g : Scene → Scene} {f : Unit → Walk β} (onward : (f () (g s)).Ends Q) :
    ((change g >>= f) s).Ends Q := onward

theorem endsAct {g : Scene → α × Scene} (onward : ∀ a t, g s = (a, t) → (f a t).Ends Q) :
    ((act g >>= f) s).Ends Q := onward _ _ rfl

def Registered (s : Scene) (r : Except Stop Outcome) : Prop :=
  r = .ok .completed → s.run.slate.result.map AppletResult.isSuccessful = some s.run.slate.successful

theorem visitFinishes (mode : Mode) (path : List Nat) (a : Applet) (s : Scene) :
    (visit mode path a s).Ends fun t r =>
      r = .ok .completed → ∃ u result, t = Scene.finish u path a.info result := by
  have stop (t : Scene) (e : Stop) (_ : True) : (Except.error e : Except Stop Outcome) =
      .ok .completed → ∃ u result, t = Scene.finish u path a.info result :=
    fun absurd => by cases absurd
  cases a with
  | criterion info check =>
    rw [visit]
    refine endsThen (Process.endsAnyhow _) (fun t _ _ => ?_) stop
    refine endsThen (Process.endsAnyhow _) (fun u result _ => ?_) stop
    exact fun _ => ⟨u, result, rfl⟩
  | action info action =>
    rw [visit]
    refine endsThen (Process.endsAnyhow _) (fun t _ _ => ?_) stop
    refine endsThen (Process.endsAnyhow _) (fun u result _ => ?_) stop
    exact fun _ => ⟨u, result, rfl⟩
  | wait info wait =>
    rw [visit]
    refine endsThen (Process.endsAnyhow _) (fun t _ _ => ?_) stop
    refine endsThen (Process.endsAnyhow _) (fun u result _ => ?_) stop
    cases result with
    | none => exact fun absurd => by cases absurd
    | some result => exact fun _ => ⟨u, result, rfl⟩
  | flow info spec children =>
    rw [visitFlow]
    refine endsThen (Process.endsAnyhow _) (fun t _ _ => ?_) stop
    refine endsThen (Process.endsAnyhow _) (fun u entered _ => ?_) stop
    refine endsThen (Process.endsAnyhow _) (fun v available _ => ?_) stop
    cases available with
    | false => exact fun _ => ⟨_, .empty false, rfl⟩
    | true =>
      refine endsThen (Process.endsAnyhow _) (fun x outcome _ => ?_) stop
      cases outcome with
      | suspended => exact fun absurd => by cases absurd
      | completed =>
        refine endsThen (Process.endsAnyhow _) (fun y result _ => ?_) stop
        exact fun _ => ⟨y, result, rfl⟩

theorem finishRegistered (s : Scene) (path : List Nat) (info : AppletInfo) (result : AppletResult)
    (r : Except Stop Outcome) : Registered (s.finish path info result) r := by
  intro _
  unfold Scene.finish Run.register
  cases result.published? <;> rfl

theorem visitRegistered (mode : Mode) (path : List Nat) (a : Applet) (s : Scene) :
    (visit mode path a s).Ends Registered := by
  refine Process.endsWeaken (visitFinishes mode path a s) fun t r finished completed => ?_
  obtain ⟨u, result, rfl⟩ := finished completed
  exact finishRegistered u path a.info result r completed

def Suspends (P : Scene → Prop) (s : Scene) (r : Except Stop Outcome) : Prop :=
  r = .ok .suspended → P s

section
variable {P : Scene → Prop}

theorem stopSuspends (t : Scene) (e : Stop) : Suspends P t (.error e) :=
  fun absurd => by cases absurd

theorem completedSuspends (t : Scene) : Suspends P t (.ok .completed) :=
  fun absurd => by cases absurd

theorem visitFromSuspends {children : List Applet}
    (visits : ∀ c ∈ children, ∀ mode path s, s.isActive = true →
      (visit mode path c s).Ends (Suspends P))
    (mode : Mode) (path : List Nat) (flow : AppletInfo) (depth i : Nat) (s : Scene) :
    (visitFrom mode path flow depth i children s).Ends (Suspends P) := by
  have stop (t : Scene) (e : Stop) (_ : True) : Suspends P t (.error e) := stopSuspends t e
  induction children generalizing i s with
  | nil =>
    rw [visitFrom]
    exact completedSuspends _
  | cons child rest ih =>
    have onward := ih fun c inside => visits c (List.mem_cons_of_mem child inside)
    rw [visitFrom]
    refine endsThen (Process.endsAnyhow _) (fun t here _ => ?_) stop
    split
    · exact onward (i + 1) t
    · have active : (ensureActive t).Ends fun u r => r = .ok () → u.isActive = true := by
        unfold ensureActive
        split
        · rename_i active
          exact fun _ => active
        · exact fun absurd => by cases absurd
      refine endsThen active (fun u _ alive => ?_) fun t e _ => stopSuspends t e
      -- Nothing comes between this and the visit of the child.
      have read : (Walk.read (fun s => s.run.slate.cursor.resuming) u).Ends
          fun v _ => v.isActive = true := alive rfl
      refine endsThen read (fun v resuming alive => ?_) fun t e _ => stopSuspends t e
      generalize (if resuming then Plan.evaluate else here.chain.plan child.flowKind?) = plan
      cases plan with
      | skip => exact onward (i + 1) _
      | orphan => exact onward (i + 1) _
      | evaluate =>
        have visited := visits child List.mem_cons_self mode (path ++ [i])
          (v.onRun fun r => r.setFlow flow) alive
        refine endsChange (endsThen visited (fun x outcome held => ?_)
          fun t e _ => stopSuspends t e)
        cases outcome with
        | suspended => exact fun _ => held rfl
        | completed =>
          refine endsThen (Process.endsAnyhow _) (fun y _ _ => ?_) stop
          refine endsThen (Process.endsAnyhow _) (fun z successful _ => ?_) stop
          split
          · exact completedSuspends _
          · exact onward (i + 1) z

/- What a wait that finds no event leaves behind is there when the walk is back, if leaving flows does
not change it. -/
theorem visitSuspends
    (waits : ∀ (s : Scene) path info wait t, s.isActive = true →
      ((s.start path info).reachLeaf info).tryWait path info wait = (none, t) → P t)
    (unwinds : ∀ (s : Scene) depth, P s → P (s.unwind depth)) (a : Applet) (mode : Mode) (path : List Nat)
    (s : Scene) (active : s.isActive = true) : (visit mode path a s).Ends (Suspends P) := by
  have stop (t : Scene) (e : Stop) (_ : True) : Suspends P t (.error e) := stopSuspends t e
  induction a using Applet.byChildren generalizing mode path s with
  | criterion info check =>
    rw [visit]
    refine endsThen (Process.endsAnyhow _) (fun t _ _ => ?_) stop
    exact endsThen (Process.endsAnyhow _) (fun u result _ => completedSuspends _) stop
  | action info action =>
    rw [visit]
    refine endsThen (Process.endsAnyhow _) (fun t _ _ => ?_) stop
    exact endsThen (Process.endsAnyhow _) (fun u result _ => completedSuspends _) stop
  | wait info wait =>
    rw [visit]
    refine endsChange (endsAct fun result t tried => ?_)
    cases result with
    | none => exact fun _ => waits s path info wait t active tried
    | some result => exact completedSuspends _
  | flow info spec children ih =>
    rw [visitFlow]
    refine endsThen (Process.endsAnyhow _) (fun t _ _ => ?_) stop
    refine endsThen (Process.endsAnyhow _) (fun u entered _ => ?_) stop
    refine endsThen (Process.endsAnyhow _) (fun v available _ => ?_) stop
    cases available with
    | false => exact completedSuspends _
    | true =>
      have visited := visitFromSuspends
        (fun c inside mode path s active => ih c inside mode path s active)
        (spec.kind.mode mode) path info entered.1 0 v
      refine endsThen visited (fun x outcome held => ?_) fun t e _ => stopSuspends t e
      cases outcome with
      | suspended => exact fun _ => unwinds x _ (held rfl)
      | completed =>
        exact endsThen (Process.endsAnyhow _) (fun y result _ => completedSuspends _) stop

end

def Alert (s : Scene) (r : Except Stop Outcome) : Prop :=
  r = .ok .suspended → s.isActive = true

theorem visitAlert (a : Applet) (mode : Mode) (path : List Nat) (s : Scene)
    (active : s.isActive = true) : (visit mode path a s).Ends Alert := by
  have waits (s : Scene) (path : List Nat) (info : AppletInfo) (wait : Wait) (t : Scene)
      (active : s.isActive = true)
      (tried : ((s.start path info).reachLeaf info).tryWait path info wait = (none, t)) :
      t.isActive = true := by
    have frame : t.frame = s.frame := by
      rw [show t = _ from (congrArg Prod.snd tried).symm]
      exact (Scene.tryWaitFrame _ path info wait).trans (Scene.startFrame s path info)
    exact Scene.frameActive frame active
  exact visitSuspends waits (fun s depth held => held) a mode path s active

end Walk
end Automation
