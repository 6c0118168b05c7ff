import Automation.Proofs.Loans
/-! Walks that deal fairly with the pool of result bodies. What a walk takes from the pool or gives
back goes through the hand, and at the end of every turn the hand is empty, however the walk ends
and wherever it is given up. So turn by turn a call trades with the pool only what its run has. -/
namespace Automation
open Scene

namespace Process
variable {ρ τ : Type} {held : ρ → List AppletResult} {a b : Stock ResultBody}

/- Every turn of the process trades: the first from the stock `a`, every other one from the bodies
on the run. Nothing is in hand at the end of a turn but what the process comes to. -/
def Fair (held : ρ → List AppletResult) (a : Stock ResultBody) : Process Scene ρ → Prop
  | done t r => a.Trades (t.stock (held r))
  | yield t next => a.Trades (t.stock []) ∧ ∀ u, (next u).Fair held (u.stock [])
  | pend t => a.Trades (t.stock [])
  | haltAll t next => a.Trades (t.stock []) ∧ ∀ n u, (next n u).Fair held (u.stock [])

theorem fairFrom {p : Process Scene ρ} (trades : a.Trades b) (later : p.Fair held b) :
    p.Fair held a := by
  cases p with
  | done t r | pend t => exact trades.trans later
  | yield t next | haltAll t next => exact ⟨trades.trans later.1, later.2⟩

theorem fairBind {p : Process Scene ρ} {f : ρ → Scene → Process Scene τ}
    {held' : τ → List AppletResult} (first : p.Fair held a)
    (second : ∀ r t, (f r t).Fair held' (t.stock (held r))) : (p.bind f).Fair held' a := by
  induction p generalizing a with
  | done t r => exact fairFrom first (second r t)
  | yield t next ih => exact ⟨first.1, fun u => ih u (first.2 u)⟩
  | pend t => exact first
  | haltAll t next ih => exact ⟨first.1, fun n u => ih n u (first.2 n u)⟩

end Process

namespace Walk
variable {α β : Type} {before : List AppletResult}

def inHand (after : α → List AppletResult) : Except Stop α → List AppletResult
  | .ok a => after a
  | .error _ => []

def Fair (before : List AppletResult) (after : α → List AppletResult) (w : Walk α) : Prop :=
  ∀ s, (w s).Fair (inHand after) (s.stock before)

abbrev bare (_ : α) : List AppletResult := []

theorem fairThen {w : Walk α} {f : α → Walk β} {between : α → List AppletResult}
    {after : β → List AppletResult} (first : w.Fair before between)
    (second : ∀ a, (f a).Fair (between a) after) : (w >>= f).Fair before after := by
  intro s
  refine Process.fairBind (first s) fun r t => ?_
  cases r with
  | ok a => exact second a t
  | error stop => exact .refl

theorem pureFair (a : α) {after : α → List AppletResult} (same : after a = before) :
    (Pure.pure a : Walk α).Fair before after := by
  intro s
  change (s.stock before).Trades (s.stock (after a))
  rw [same]

theorem readFair (f : Scene → α) : (read f).Fair [] bare := fun _ => .refl

theorem actFair {f : Scene → α × Scene} (after : α → List AppletResult)
    (trades : ∀ s : Scene, (s.stock before).Trades ((f s).2.stock (after (f s).1))) :
    (act f).Fair before after := trades

theorem changeFair {f : Scene → Scene}
    (trades : ∀ s : Scene, (s.stock before).Trades ((f s).stock [])) :
    (change f).Fair before bare := trades

theorem stillFair {f : Scene → α × Scene} (same : ∀ s : Scene, (f s).2.stock [] = s.stock []) :
    (act f).Fair [] bare := actFair bare fun s => same s ▸ .refl

theorem quietFair {f : Scene → Scene} (same : ∀ s : Scene, (f s).stock [] = s.stock []) :
    (change f).Fair [] bare := changeFair fun s => same s ▸ .refl

theorem activeFair : ensureActive.Fair [] bare := by
  intro s
  unfold ensureActive
  split <;> exact .refl

theorem levelFair (depth : Nat) : (level depth).Fair [] bare := by
  intro s
  unfold level
  split <;> exact .refl

theorem passFair {f : Bool → Walk β} {after : β → List AppletResult} (depth : Nat)
    (kind : Option FlowKind) (onward : ∀ successful, (f successful).Fair [] after) :
    (do
      let _ ← level depth
      let successful ← act fun s => s.passOn depth kind
      f successful).Fair [] after := by
  intro s
  cases found : s.run.slate.cursor.levels[depth]? with
  | none =>
    change ((level depth s).bind _).Fair _ _
    simp only [level, found]
    exact .refl
  | some here =>
    change ((level depth s).bind _).Fair _ _
    simp only [level, found]
    exact Process.fairFrom (passOnStock s found kind) (onward _ _)

theorem fairIff {p : Process Scene (Except Stop α)} {s : Scene} :
    p.Fair (inHand bare) (s.stock []) ↔
      p.Guarantees (fun s t => (s.stock []).Trades (t.stock [])) s := by
  have bareHand (r : Except Stop α) : inHand bare r = [] := by cases r <;> rfl
  induction p generalizing s with
  | done t r =>
    rw [Process.Fair, bareHand]
    rfl
  | pend t => rfl
  | yield t next ih => exact and_congr_right fun _ => forall_congr' fun u => ih u
  | haltAll t next ih =>
    exact and_congr_right fun _ => forall₂_congr fun n u => ih n u

theorem performFair (script : Script α) : (perform script).Fair [] bare := by
  intro s
  refine fairIff.mpr (performGuarantees (fun _ _ _ => .trans) (fun _ => .refl) ?_
    script.onlyAnything s)
  intro s t obliges
  cases obliges with
  | cancel handle demand | global key type init demand | argument arguments => exact .refl

theorem judgeFair (path : List Nat) (info : AppletInfo) (check : Check) :
    (judge path info check).Fair [] fun result => [result] := by
  refine fairThen (readFair _) fun expected => ?_
  cases expected with
  | none => exact fun s => .refl
  | some expected =>
    refine fairThen (stillFair fun s => beginCheckStock s path info expected) fun input => ?_
    refine fairThen (performFair _) fun outcome => ?_
    exact actFair _ fun s => endCheckStock s path info outcome

theorem carryOutFair (path : List Nat) (info : AppletInfo) (action : Action) :
    (carryOut path info action).Fair [] fun result => [result] := by
  refine fairThen (stillFair fun s => beginActionStock s path info) fun input => ?_
  refine fairThen (performFair _) fun outcome => ?_
  exact actFair _ fun s => endActionStock s path outcome

theorem finishFair (path : List Nat) (info : AppletInfo) (result : AppletResult) :
    (do
      change fun s => s.finish path info result
      return Outcome.completed : Walk Outcome).Fair [result] bare :=
  fairThen (changeFair fun s => finishStock s path info result) fun _ => pureFair _ rfl

theorem reachFair (path : List Nat) (info : AppletInfo) :
    (change fun s => (s.start path info).reachLeaf info).Fair [] bare :=
  quietFair fun s => startStock s path info

theorem closeFlowFair (path : List Nat) (info : AppletInfo) (spec : FlowSpec) (depth : Nat)
    (outcome : Outcome) : (closeFlow path info spec depth outcome).Fair [] bare := by
  cases outcome with
  | suspended => exact fairThen (quietFair fun _ => rfl) fun _ => pureFair _ rfl
  | completed =>
    exact fairThen (actFair (fun result => [result]) fun s => leaveFlowStock s spec depth)
      fun result => finishFair path info result

theorem visitFromFair {children : List Applet}
    (visits : ∀ c ∈ children, ∀ mode path, (visit mode path c).Fair [] bare) (mode : Mode)
    (path : List Nat) (flow : AppletInfo) (depth i : Nat) :
    (visitFrom mode path flow depth i children).Fair [] bare := by
  induction children generalizing i with
  | nil => exact pureFair _ rfl
  | cons child rest ih =>
    have onward := ih fun c inside => visits c (List.mem_cons_of_mem child inside)
    rw [visitFrom]
    refine fairThen (levelFair depth) fun here => ?_
    split
    · exact onward (i + 1)
    · refine fairThen activeFair fun _ => fairThen (readFair _) fun resuming => ?_
      cases (if resuming then Plan.evaluate else here.chain.plan child.flowKind?) with
      | skip | orphan =>
        exact fairThen (quietFair fun s => passOverStock (s.tell _ _ _) depth _)
          fun _ => onward (i + 1)
      | evaluate =>
        refine fairThen (quietFair fun _ => rfl) fun _ => ?_
        refine fairThen (visits child List.mem_cons_self mode _) fun outcome => ?_
        cases outcome with
        | suspended => exact pureFair _ rfl
        | completed =>
          refine passFair depth child.flowKind? fun successful => ?_
          split
          · exact fairThen (quietFair fun s => skipFromStock s path (i + 1) rest)
              fun _ => pureFair _ rfl
          · exact onward (i + 1)

theorem visitFair (mode : Mode) (path : List Nat) (a : Applet) :
    (visit mode path a).Fair [] bare := by
  induction a using Applet.byChildren generalizing mode path with
  | criterion info check =>
    rw [visit]
    refine fairThen (reachFair path info) fun _ => ?_
    exact fairThen (judgeFair path info check) fun result => finishFair path info result
  | action info action =>
    rw [visit]
    refine fairThen (reachFair path info) fun _ => ?_
    exact fairThen (carryOutFair path info action) fun result => finishFair path info result
  | wait info wait =>
    rw [visit]
    refine fairThen (reachFair path info) fun _ => ?_
    refine fairThen (actFair Option.toList fun s => tryWaitStock s path info wait)
      fun result => ?_
    cases result with
    | none => exact pureFair _ rfl
    | some result => exact finishFair path info result
  | flow info spec children ih =>
    rw [visitFlow]
    refine fairThen (quietFair fun s => startStock s path info) fun _ => ?_
    refine fairThen (actFair bare enterFlowStock) fun entered => ?_
    have found : (findTarget path spec entered).Fair [] bare := by
      obtain ⟨depth, _ | _⟩ := entered
      · exact stillFair fun s => chooseStock s path spec depth
      · exact pureFair _ rfl
    refine fairThen found fun available => ?_
    cases available with
    | false =>
      refine fairThen (changeFair fun s => ?_) fun _ => pureFair _ rfl
      have left := abandonFlowStock s path children entered.1
      exact left.trans (finishStock _ path info (.empty false))
    | true =>
      have inner := visitFromFair (fun c inside mode path => ih c inside mode path)
        (spec.kind.mode mode) path info entered.1 0
      exact fairThen inner fun outcome => closeFlowFair path info spec entered.1 outcome

end Walk

namespace Scene

structure Trades (s t : Scene) : Prop where
  bodies : (s.stock []).Trades (t.stock [])
  slates : t.world.slates = s.world.slates

theorem tradesTrans (s t u : Scene) (first : s.Trades t) (second : t.Trades u) : s.Trades u :=
  ⟨first.bodies.trans second.bodies, second.slates.trans first.slates⟩

theorem tradesSame (s : Scene) : s.Trades s := ⟨.refl, rfl⟩

end Scene

theorem Walk.visitTrades (path : List Nat) (a : Applet) (s : Scene) :
    (Walk.visit .aggregate path a s).Guarantees Scene.Trades s := by
  have bodies := Walk.fairIff.mp (Walk.visitFair .aggregate path a s)
  have slates := Walk.builtKeeps (Walk.visitBuilt a.onlyAnything .aggregate path) s
  refine Process.guaranteesWeaken (fun t u both => ?_) (Process.guaranteesBoth bodies slates)
  exact ⟨both.1, (Frame.reachesIdentity both.2).2.2.2⟩

theorem Errand.walkTrades (call : Errand) (s : Scene) :
    (call.walk s).Guarantees Scene.Trades s :=
  call.walkGuarantees Scene.tradesTrans Scene.tradesSame Walk.visitTrades
    (fun _ => ⟨.refl, rfl⟩) s

end Automation
