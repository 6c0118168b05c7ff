import Automation.Proofs.Dialogue
import Automation.Proofs.Keeping
/-! The moments at which a walk lets others go first, the awaits of its executors, and what holds at
all of them. While an executor of its tree gives up control, others may do anything to the world,
but neither change the run nor bring a cancelled handle back. -/
namespace Automation

namespace Process
variable {σ ρ τ : Type} {R : σ → σ → Prop}

inductive Comes (R : σ → σ → Prop) : Process σ ρ → σ → Option ρ → Prop where
  | done (s : σ) (r : ρ) : Comes R (done s r) s (some r)
  | yields (s : σ) (next : σ → Process σ ρ) : Comes R (yield s next) s none
  | yield {s t u next r} (between : R s t) (later : Comes R (next t) u r) :
      Comes R (yield s next) u r
  | pends (s : σ) : Comes R (pend s) s none
  | halts (s : σ) (next : Nat → σ → Process σ ρ) : Comes R (haltAll s next) s none
  | halt {s t u next r} (n : Nat) (between : R s t) (later : Comes R (next n t) u r) :
      Comes R (haltAll s next) u r

theorem comesBind {p : Process σ ρ} {f : ρ → σ → Process σ τ} {u : σ} {r : Option τ}
    (comes : (p.bind f).Comes R u r) :
    (p.Comes R u none ∧ r = none) ∨ ∃ s a, p.Comes R s (some a) ∧ (f a s).Comes R u r := by
  induction p with
  | done s a => exact .inr ⟨s, a, .done s a, comes⟩
  | yield s next ih =>
    cases comes with
    | yields => exact .inl ⟨.yields _ next, rfl⟩
    | yield between later =>
      rcases ih _ later with ⟨here, rfl⟩ | ⟨t, a, first, second⟩
      · exact .inl ⟨.yield between here, rfl⟩
      · exact .inr ⟨t, a, .yield between first, second⟩
  | pend s =>
    cases comes
    exact .inl ⟨.pends _, rfl⟩
  | haltAll s next ih =>
    cases comes with
    | halts => exact .inl ⟨.halts _ next, rfl⟩
    | halt n between later =>
      rcases ih n _ later with ⟨here, rfl⟩ | ⟨t, a, first, second⟩
      · exact .inl ⟨.halt n between here, rfl⟩
      · exact .inr ⟨t, a, .halt n between first, second⟩

theorem comesThen {p : Process σ ρ} {f : ρ → σ → Process σ τ} {s u : σ} {a : ρ} {r : Option τ}
    (first : p.Comes R s (some a)) (second : (f a s).Comes R u r) : (p.bind f).Comes R u r := by
  generalize found : some a = b at first
  induction first with
  | done s b =>
    cases found
    exact second
  | yields s next | pends s | halts s next => cases found
  | yield between later ih => exact .yield between (ih second found)
  | halt n between later ih => exact .halt n between (ih second found)

theorem comesAlone (stay : ∀ s, R s s) {p : Process σ ρ} {s : σ} {r : Option ρ}
    (last : p.alone = (s, r)) : p.Comes R s r := by
  induction p with
  | done t a =>
    cases last
    exact .done _ a
  | yield t next ih => exact .yield (stay t) (ih t last)
  | pend t =>
    cases last
    exact .pends _
  | haltAll t next ih => exact .halt 0 (stay t) (ih 0 t last)

theorem guaranteesComes {G : σ → σ → Prop} (trans : ∀ s t u, G s t → G t u → G s u)
    (between : ∀ s t, R s t → G s t) {p : Process σ ρ} {s u : σ} {r : Option ρ}
    (turns : p.Guarantees G s) (comes : p.Comes R u r) : G s u := by
  induction comes generalizing s with
  | done t a => exact turns
  | yields t next => exact turns.1
  | yield step later ih =>
    exact trans _ _ _ turns.1 (trans _ _ _ (between _ _ step) (ih (turns.2 _)))
  | pends t => exact turns
  | halts t next => exact turns.1
  | halt n step later ih =>
    exact trans _ _ _ turns.1 (trans _ _ _ (between _ _ step) (ih (turns.2 n _)))

theorem guaranteesWeaken {G H : σ → σ → Prop} (weaker : ∀ s t, G s t → H s t) {p : Process σ ρ}
    {s : σ} (turns : p.Guarantees G s) : p.Guarantees H s := by
  induction p generalizing s with
  | done t a => exact weaker _ _ turns
  | yield t next ih => exact ⟨weaker _ _ turns.1, fun u => ih u (turns.2 u)⟩
  | pend t => exact weaker _ _ turns
  | haltAll t next ih => exact ⟨weaker _ _ turns.1, fun n u => ih n u (turns.2 n u)⟩

theorem guaranteesBoth {G H : σ → σ → Prop} {p : Process σ ρ} {s : σ}
    (first : p.Guarantees G s) (second : p.Guarantees H s) :
    p.Guarantees (fun s t => G s t ∧ H s t) s := by
  induction p generalizing s with
  | done t r | pend t => exact ⟨first, second⟩
  | yield t next ih => exact ⟨⟨first.1, second.1⟩, fun u => ih u (first.2 u) (second.2 u)⟩
  | haltAll t next ih =>
    exact ⟨⟨first.1, second.1⟩, fun n u => ih n u (first.2 n u) (second.2 n u)⟩

end Process

namespace Scene

/- What others may have done to a scene: not to the run, its journal or its batch, and a
cancelled run stays cancelled. -/
structure Others (s t : Scene) : Prop where
  run : t.run = s.run
  journal : t.journal = s.journal
  batch : t.occasion.batch = s.occasion.batch
  task : t.occasion.task = s.occasion.task
  cancelled : s.isActive = false → t.isActive = false

theorem othersSame (s : Scene) : s.Others s := ⟨rfl, rfl, rfl, rfl, id⟩

theorem Others.trans {s t u : Scene} (first : s.Others t) (second : t.Others u) : s.Others u where
  run := second.run.trans first.run
  journal := second.journal.trans first.journal
  batch := second.batch.trans first.batch
  task := second.task.trans first.task
  cancelled := fun cancelled => second.cancelled (first.cancelled cancelled)

theorem cancelOthers (s : Scene) (handle : Handle) :
    s.Others { s with world := s.world.cancel handle } where
  run := rfl
  journal := rfl
  batch := rfl
  task := rfl
  cancelled := by
    intro cancelled
    simp only [isActive, Run.isActive, Bool.not_eq_false', World.cancel] at cancelled ⊢
    rw [Handles.isCancelledCancel, cancelled, Bool.true_or]

theorem obligesOthers {allowed : Demand → Prop} (s t : Scene) (obliges : s.Obliges allowed t) :
    s.Others t := by
  cases obliges with
  | cancel handle demand => exact s.cancelOthers handle
  | global key type init demand => exact ⟨rfl, rfl, rfl, rfl, id⟩
  | argument arguments => exact ⟨rfl, rfl, rfl, rfl, fun cancelled => cancelled⟩

end Scene

namespace Walk
variable {α : Type}

theorem performTurns (script : Script α) (s : Scene) :
    (perform script s).Guarantees Scene.Others s :=
  performGuarantees (fun _ _ _ first second => first.trans second) Scene.othersSame
    Scene.obligesOthers script.onlyAnything s

theorem performOthers {script : Script α} {s t : Scene} {r : Option (Except Stop α)}
    (comes : (perform script s).Comes Scene.Others t r) : s.Others t :=
  Process.guaranteesComes (fun _ _ _ first second => first.trans second) (fun _ _ others => others)
    (performTurns script s) comes

theorem performPanics {script : Script α} {s t : Scene} {e : Stop}
    (comes : (perform script s).Comes Scene.Others t (some (.error e))) : e = .panicked := by
  induction script generalizing s with
  | done a => cases comes
  | panic =>
    cases comes
    rfl
  | yield next ih =>
    cases comes with
    | yield between later => exact ih later
  | pend => cases comes
  | cancel handle next ih => exact ih comes
  | haltAll next ih =>
    cases comes with
    | halt n between later => exact ih n later
  | global key type init next ih => exact ih _ comes
  | argument id type init next ih => exact ih _ comes
  | pattern id text next ih => exact ih _ comes

structure Kept (G : Scene → Scene → Prop) : Prop where
  trans : ∀ s t u, G s t → G t u → G s u
  change : ∀ {f : Scene → Scene}, Scene.Change f → ∀ s, G s (f s)
  act : ∀ {α : Type} {f : Scene → α × Scene}, Scene.Act f → ∀ s, G s (f s).2
  others : ∀ s t, s.Others t → G s t

theorem builtKept {G : Scene → Scene → Prop} (kept : Kept G) {allowed : Demand → Prop} {w : Walk α}
    (built : Built allowed w) (s : Scene) : (w s).Guarantees G s :=
  builtGuarantees kept.trans (fun s => kept.others s s s.othersSame) kept.change kept.act
    (fun s t obliges => kept.others s t (s.obligesOthers t obliges)) built s

end Walk

namespace Dialogue
variable {α β : Type} {ends : Scene → Except Stop α → Prop}
  {halted : Reply → Scene → Scene → Except Stop α → Prop}
  {ends' : Scene → Except Stop β → Prop}
  {halted' : Reply → Scene → Scene → Except Stop β → Prop}

/- However the executors answer, the dialogue is over in a scene and with an ending in `ends`; that
is so too of a panic while one of them is at work. If the run has been cancelled by the time an
executor is back, the dialogue is over without calling another, and `halted` says how: it is
about the reply, and the scenes at the return of the executor and at the end. -/
def Honours (ends : Scene → Except Stop α → Prop)
    (halted : Reply → Scene → Scene → Except Stop α → Prop) : Dialogue α → Prop
  | .finished s r => ends s r
  | .call s path info executor _ next =>
    (∀ t, s.Others t → ends t (.error .panicked)) ∧
      ∀ answer t, s.Others t → (next answer t).Honours ends halted ∧
        (t.isActive = false → ∃ u r, next answer t = .finished u r ∧
          halted (executor.reply path info answer) t u r)

theorem honoursBind {c : Dialogue α} {f : α → Scene → Dialogue β} (first : c.Honours ends halted)
    (onward : ∀ s a, ends s (.ok a) → (f a s).Honours ends' halted')
    (stop : ∀ s e, ends s (.error e) → ends' s (.error e))
    (halt : ∀ reply t u a, halted reply t u (.ok a) → ends u (.ok a) →
      ∃ v r, f a u = .finished v r ∧ halted' reply t v r)
    (haltStop : ∀ reply t u e, halted reply t u (.error e) → halted' reply t u (.error e)) :
    (c.bind f).Honours ends' halted' := by
  induction c with
  | finished s r =>
    cases r with
    | ok a => exact onward s a first
    | error e => exact stop s e first
  | call s path info executor script next ih =>
    refine ⟨fun t others => stop t _ (first.1 t others), fun answer t others => ?_⟩
    obtain ⟨honours, halts⟩ := first.2 answer t others
    refine ⟨ih answer t honours, fun cancelled => ?_⟩
    obtain ⟨u, r, same, holds⟩ := halts cancelled
    rw [same] at honours
    change ∃ v q, (next answer t).bind f = .finished v q ∧ _
    rw [same]
    cases r with
    | ok a => exact halt _ t u a holds honours
    | error e => exact ⟨u, .error e, rfl, haltStop _ t u e holds⟩

inductive Leads : Dialogue α → Dialogue α → Prop where
  | here (c : Dialogue α) : Leads c c
  | later {s path info executor script next answer t c}
      (returns : (Walk.perform script s).Comes Scene.Others t (some (.ok answer)))
      (leads : Leads (next answer t) c) :
      Leads (.call s path info executor script next) c

theorem leadsHonours {c d : Dialogue α} (leads : Leads c d) (honours : c.Honours ends halted) :
    d.Honours ends halted := by
  induction leads with
  | here c => exact honours
  | later returns leads ih => exact ih (honours.2 _ _ (Walk.performOthers returns)).1

theorem leadsComes {c d : Dialogue α} (leads : Leads c d) {u : Scene} {r : Option (Except Stop α)}
    (comes : d.process.Comes Scene.Others u r) : c.process.Comes Scene.Others u r := by
  induction leads with
  | here c => exact comes
  | later returns leads ih =>
    rw [process]
    refine Process.comesThen returns ?_
    exact ih comes

theorem honoursComes {c : Dialogue α} (honours : c.Honours ends halted) {u : Scene}
    {r : Option (Except Stop α)} (comes : c.process.Comes Scene.Others u r) :
    ends u (r.getD (.error .panicked)) := by
  induction c with
  | finished s r =>
    cases comes
    exact honours
  | call s path info executor script next ih =>
    unfold process at comes
    rcases Process.comesBind comes with ⟨here, rfl⟩ | ⟨t, a, first, second⟩
    · exact honours.1 u (Walk.performOthers here)
    · have others := Walk.performOthers first
      cases a with
      | ok answer => exact ih answer t (honours.2 answer t others).1 second
      | error e =>
        cases Walk.performPanics first
        cases second
        exact honours.1 _ others

end Dialogue
end Automation
