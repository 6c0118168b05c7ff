import Automation.Proofs.Owner
import Automation.Proofs.Pending
/-! Calls of a task runtime in any order. The owner of a run may run it, hand it a batch, or have
any applet evaluated, again and again and on whatever occasion; each of these is an errand, and a
session is one errand after another. Others do as they please with the world in between and at the
turns of every call. What is so at the end of every dialogue is so when a call comes back, and
executors that answer bring every call to its end. -/
namespace Automation
open Scene

namespace Demand

def Willing : Demand → Prop
  | panic | pend => False
  | _ => True

end Demand

namespace Process
variable {σ ρ τ : Type} {R : σ → σ → Prop} {Q : σ → ρ → Prop} {T : σ → τ → Prop}

def Attains (R : σ → σ → Prop) (Q : σ → ρ → Prop) : Process σ ρ → Prop
  | done s r => Q s r
  | yield s next => ∀ t, R s t → (next t).Attains R Q
  | pend _ => False
  | haltAll s next => ∀ n t, R s t → (next n t).Attains R Q

theorem attainsBind {p : Process σ ρ} {f : ρ → σ → Process σ τ} (first : p.Attains R Q)
    (second : ∀ r s, Q s r → (f r s).Attains R T) : (p.bind f).Attains R T := by
  induction p with
  | done s r => exact second r s first
  | yield s next ih => exact fun t between => ih t (first t between)
  | pend s => exact first.elim
  | haltAll s next ih => exact fun n t between => ih n t (first n t between)

theorem attainsWeaken {p : Process σ ρ} {Q' : σ → ρ → Prop} (first : p.Attains R Q)
    (weaker : ∀ s r, Q s r → Q' s r) : p.Attains R Q' := by
  induction p with
  | done s r => exact weaker s r first
  | yield s next ih => exact fun t between => ih t (first t between)
  | pend s => exact first.elim
  | haltAll s next ih => exact fun n t between => ih n t (first n t between)

theorem attainsComes {p : Process σ ρ} {u : σ} {r : ρ} (attains : p.Attains R Q)
    (comes : p.Comes R u (some r)) : Q u r := by
  generalize found : some r = b at comes
  induction comes with
  | done s a =>
    cases found
    exact attains
  | yields s next | pends s | halts s next => cases found
  | yield between later ih => exact ih (attains _ between) found
  | halt n between later ih => exact ih (attains n _ between) found

end Process

namespace Walk

theorem performAttains {α : Type} {script : Script α} (only : script.Only Demand.Willing)
    (s : Scene) :
    (perform script s).Attains Others fun t r => s.Others t ∧ ∃ a, r = .ok a := by
  -- What a script has done before its next turn, others may do as well.
  have onward {s t : Scene} {p : Process Scene (Except Stop α)} (step : s.Others t)
      (later : p.Attains Others fun u r => t.Others u ∧ ∃ a, r = .ok a) :
      p.Attains Others fun u r => s.Others u ∧ ∃ a, r = .ok a :=
    Process.attainsWeaken later fun u r ⟨others, answered⟩ => ⟨step.trans others, answered⟩
  induction script generalizing s with
  | done a => exact ⟨s.othersSame, a, rfl⟩
  | panic => exact only.elim
  | yield next ih => exact fun t between => onward between (ih only.2 t)
  | pend => exact only.elim
  | cancel handle next ih => exact onward (s.cancelOthers handle) (ih only.2 _)
  | haltAll next ih => exact fun n t between => onward between (ih n (only.2 n) t)
  | global key type init next ih =>
    rcases found : s.world.globals.obtain key type init with ⟨r, globals⟩
    have step : s.Others { s with world := { s.world with globals } } := ⟨rfl, rfl, rfl, rfl, id⟩
    simp only [perform, found]
    exact onward step (ih r (only.2 r) _)
  | argument id type init next ih =>
    rcases found : s.occasion.arguments.obtain id type init with ⟨r, arguments⟩
    have step : s.Others { s with occasion := { s.occasion with arguments } } :=
      ⟨rfl, rfl, rfl, rfl, fun cancelled => cancelled⟩
    simp only [perform, found]
    exact onward step (ih r (only.2 r) _)
  | pattern id text next ih =>
    rcases found : s.occasion.arguments.pattern id text with ⟨r, arguments⟩
    have step : s.Others { s with occasion := { s.occasion with arguments } } :=
      ⟨rfl, rfl, rfl, rfl, fun cancelled => cancelled⟩
    simp only [perform, found]
    exact onward step (ih r (only.2 r) _)

end Walk

namespace Dialogue
variable {α β : Type} {allowed : Demand → Prop} {ends : Scene → Except Stop α → Prop}
  {ends' : Scene → Except Stop β → Prop} {c : Dialogue α}

/- Whatever the executors answer, the dialogue is over in a scene and with an ending in `ends`, and
no script on the way makes other demands. -/
def Sure (allowed : Demand → Prop) (ends : Scene → Except Stop α → Prop) : Dialogue α → Prop
  | .finished s r => ends s r
  | .call s _ _ _ script next =>
    script.Only allowed ∧ ∀ answer t, s.Others t → (next answer t).Sure allowed ends

theorem sureBind {f : α → Scene → Dialogue β} (first : c.Sure allowed ends)
    (onward : ∀ s a, ends s (.ok a) → (f a s).Sure allowed ends')
    (stop : ∀ s e, ends s (.error e) → ends' s (.error e)) : (c.bind f).Sure allowed ends' := by
  induction c with
  | finished s r =>
    cases r with
    | ok a => exact onward s a first
    | error e => exact stop s e first
  | call s path info executor script next ih =>
    exact ⟨first.1, fun answer t others => ih answer t (first.2 answer t others)⟩

theorem sureWeaken {ends' : Scene → Except Stop α → Prop} (first : c.Sure allowed ends)
    (weaker : ∀ s r, ends s r → ends' s r) : c.Sure allowed ends' := by
  induction c with
  | finished s r => exact weaker s r first
  | call s path info executor script next ih =>
    exact ⟨first.1, fun answer t others => ih answer t (first.2 answer t others)⟩

theorem sureComes (sure : c.Sure allowed ends) {u : Scene} {r : Except Stop α}
    (comes : c.process.Comes Others u (some r)) : r = .error .panicked ∨ ends u r := by
  induction c with
  | finished s r =>
    cases comes
    exact .inr sure
  | call s path info executor script next ih =>
    unfold process at comes
    rcases Process.comesBind comes with ⟨_, absurd⟩ | ⟨t, a, first, second⟩
    · cases absurd
    · cases a with
      | ok answer => exact ih answer t (sure.2 answer t (Walk.performOthers first)) second
      | error e =>
        cases Walk.performPanics first
        cases second
        exact .inl rfl

theorem sureAttains (sure : c.Sure Demand.Willing ends) : c.process.Attains Others ends := by
  induction c with
  | finished s r => exact sure
  | call s path info executor script next ih =>
    rw [process]
    refine Process.attainsBind (Walk.performAttains sure.1 s) fun r t performed => ?_
    obtain ⟨others, answer, rfl⟩ := performed
    exact ih answer t (sure.2 answer t others)

end Dialogue

inductive Errand where
  | call (summons : Summons)
  | evaluate (path : List Nat) (applet : Applet)

namespace Errand

abbrev run : Errand := call .run

abbrev trigger : Errand := call .trigger

def walk : Errand → Walk (Option Outcome)
  | call summons => summons.walk
  | evaluate path applet => do
    let outcome ← Walk.evaluate path applet
    return some outcome

def tour : Errand → Tour (Option Outcome)
  | call summons => summons.tour
  | evaluate path applet => do
    let outcome ← Tour.visit .aggregate path applet
    return some outcome

theorem tourWalk (call : Errand) : call.tour.walk = call.walk := by
  cases call with
  | call summons => exact summons.tourWalk
  | evaluate path applet =>
    exact Tour.thenWalk (Tour.visitWalk .aggregate path applet) fun _ => rfl

theorem tourProcess (call : Errand) (s : Scene) : (call.tour s).process = call.walk s :=
  congrFun call.tourWalk s

def applet (task : Task) : Errand → Applet
  | call _ => task.tree
  | evaluate _ applet => applet

inductive Opens (s : Scene) : Errand → List Nat → Scene → Prop where
  | run (active : s.isActive = true) : Opens s run [] s
  | trigger (qualifies : s.run.qualifies s.occasion.batch.events = true)
      (active : s.isActive = true) : Opens s trigger [] s.resume
  | evaluate (path : List Nat) (applet : Applet) : Opens s (evaluate path applet) path s

inductive Refused (s : Scene) : Errand → Except Stop (Option Outcome) → Prop where
  | cancelled {summons} (cancelled : s.isActive = false) :
      Refused s (call summons) (.error .cancelled)
  | idle (idle : s.run.qualifies s.occasion.batch.events = false) : Refused s trigger (.ok none)

variable {s t : Scene} {call : Errand} {path : List Nat} {r : Except Stop (Option Outcome)}

theorem tourOpens (opens : Opens s call path t) :
    call.tour s = (Tour.visit .aggregate path (call.applet s.run.task) t).bind
      fun outcome u => .finished u (.ok (some outcome)) := by
  cases opens with
  | run active =>
    change (Tour.run s).bind _ = _
    rw [Tour.runActive active]
    rfl
  | trigger qualifies active => exact Tour.triggerActive qualifies active
  | evaluate path applet => rfl

theorem tourStarts (call : Errand) (s : Scene) :
    (∃ path t, Opens s call path t) ∨ ∃ r, Refused s call r ∧ call.tour s = .finished s r := by
  cases call with
  | evaluate path applet => exact .inl ⟨path, s, .evaluate path applet⟩
  | call summons =>
    cases summons with
    | run =>
      cases active : s.isActive with
      | true => exact .inl ⟨[], s, .run active⟩
      | false =>
        refine .inr ⟨_, .cancelled active, ?_⟩
        change (Tour.run s).bind _ = _
        rw [Tour.runInactive active]
        rfl
    | trigger =>
      cases qualifies : s.run.qualifies s.occasion.batch.events with
      | false => exact .inr ⟨_, .idle qualifies, Tour.triggerIdle qualifies⟩
      | true =>
        cases active : s.isActive with
        | true => exact .inl ⟨[], _, .trigger qualifies active⟩
        | false => exact .inr ⟨_, .cancelled active, Tour.triggerInactive qualifies active⟩

variable {G : Scene → Scene → Prop}

theorem walkGuarantees (trans : ∀ s t u, G s t → G t u → G s u) (same : ∀ s, G s s)
    (visits : ∀ path a s, (Walk.visit .aggregate path a s).Guarantees G s)
    (resumes : ∀ s : Scene, G s s.resume) (call : Errand) (s : Scene) :
    (call.walk s).Guarantees G s := by
  cases call with
  | call summons => exact summons.walkGuarantees trans same (visits []) resumes s
  | evaluate path applet =>
    refine Process.guaranteesBind trans (visits path applet s) fun r t => ?_
    cases r <;> exact same t

theorem comesKept (kept : Walk.Kept G) (resumes : ∀ s : Scene, G s s.resume) {u : Scene}
    {r : Option (Except Stop (Option Outcome))} (comes : (call.walk s).Comes Others u r) : G s u :=
  Process.guaranteesComes kept.trans kept.others
    (walkGuarantees kept.trans (fun s => kept.others s s s.othersSame)
      (fun path a s => Walk.builtKept kept (Walk.visitBuilt a.onlyAnything .aggregate path) s)
      resumes call s) comes

theorem taskKept {u : Scene} {r : Option (Except Stop (Option Outcome))}
    (comes : (call.walk s).Comes Others u r) : u.run.task = s.run.task :=
  comesKept Lone.taskKept (fun _ => rfl) comes

end Errand

structure Scene.Later (s t : Scene) : Prop where
  run : t.run = s.run
  journal : t.journal = s.journal
  cancelled : s.isActive = false → t.isActive = false

theorem Scene.laterSame (s : Scene) : s.Later s := ⟨rfl, rfl, id⟩

/- The scenes in which calls of a run begin, all of which the owner may make, with calls coming back
in between as they may. -/
inductive Session (may : Errand → Scene → Prop) (back : Except Stop (Option Outcome) → Prop)
    (start : Scene) : Errand → Scene → Prop where
  | first {call t} (later : start.Later t) (allowed : may call t) : Session may back start call t
  | next {call s r u call' t} (earlier : Session may back start call s)
      (comes : (call.walk s).Comes Others u (some r)) (returned : back r) (later : u.Later t)
      (allowed : may call' t) : Session may back start call' t

namespace Session
variable {may : Errand → Scene → Prop} {back : Except Stop (Option Outcome) → Prop}
  {start s u : Scene} {call : Errand} {r : Except Stop (Option Outcome)}

theorem allowed (session : Session may back start call s) : may call s := by
  cases session with
  | first later allowed => exact allowed
  | next earlier comes returned later allowed => exact allowed

theorem holds {P : Scene → Prop} (begun : P start) (handed : ∀ s t, s.Later t → P s → P t)
    (kept : ∀ call s u r, may call s → P s → (call.walk s).Comes Others u (some r) → back r → P u)
    (session : Session may back start call s) : P s := by
  induction session with
  | first later allowed => exact handed _ _ later begun
  | next earlier comes returned later allowed ih =>
    exact handed _ _ later (kept _ _ _ _ earlier.allowed ih comes returned)

theorem weaken {may' : Errand → Scene → Prop} (weaker : ∀ call s, may call s → may' call s)
    (session : Session may back start call s) : Session may' back start call s := by
  induction session with
  | first later allowed => exact .first later (weaker _ _ allowed)
  | next earlier comes returned later allowed ih =>
    exact .next ih comes returned later (weaker _ _ allowed)

end Session
end Automation
