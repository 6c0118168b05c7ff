import Automation.Proofs.Hygiene
/-! A process in which task runtimes for any tasks come and go. Runs are obtained, called and
recycled, calls are gone on with or given up at the ends of their turns, results are made and
dropped, and pools are configured and drained, in any order. A run that is obtained in the end knows
nothing of it. -/
namespace Automation
open Scene

/- A call of a run at the end of a turn. -/
abbrev Underway := Process Scene (Except Stop (Option Outcome))

def Process.state {σ ρ : Type} : Process σ ρ → σ
  | done s _ | yield s _ | pend s | haltAll s _ => s

def Process.over {σ ρ : Type} : Process σ ρ → Bool
  | done _ _ => true
  | _ => false

theorem Process.guaranteesState {σ ρ : Type} {G : σ → σ → Prop} {p : Process σ ρ} {s : σ}
    (turns : p.Guarantees G s) : G s p.state := by
  cases p with
  | done t r | pend t => exact turns
  | yield t next | haltAll t next => exact turns.1

structure Traffic where
  world : World
  resting : List Run
  calls : List Underway
  results : List AppletResult

namespace Traffic

def start : Traffic := ⟨World.fresh, [], [], []⟩

def settle (t : Traffic) : Underway → Traffic
  | .done s _ => { t with world := s.world, resting := s.run :: t.resting }
  | .yield s next => { t with world := s.world, calls := .yield s next :: t.calls }
  | .pend s => { t with world := s.world, calls := .pend s :: t.calls }
  | .haltAll s next => { t with world := s.world, calls := .haltAll s next :: t.calls }

inductive Happens (t : Traffic) : Traffic → Prop where
  | obtain (task : Task) (batch : Batch) (handle : Handle) :
      Happens t { t with
        world := (t.world.obtain task batch handle).2
        resting := (t.world.obtain task batch handle).1 :: t.resting }
  | change {before run after} (here : t.resting = before ++ run :: after) (run' : Run) :
      Happens t { t with resting := before ++ run' :: after }
  | take {before run after result} (here : t.resting = before ++ run :: after)
      (held : run.takeResult.1 = some result) :
      Happens t { t with
        resting := before ++ run.takeResult.2 :: after, results := result :: t.results }
  | call {before run after} (here : t.resting = before ++ run :: after) (errand : Errand)
      (occasion : Occasion) (journal : Journal) :
      Happens t (settle { t with resting := before ++ after }
        (errand.walk ⟨run, occasion, t.world, journal⟩))
  | resume {before s next after} (here : t.calls = before ++ .yield s next :: after)
      (occasion : Occasion) :
      Happens t (settle { t with calls := before ++ after }
        (next { s with occasion, world := t.world }))
  | answer {before s next after} (here : t.calls = before ++ .haltAll s next :: after)
      (occasion : Occasion) (released : Nat) :
      Happens t (settle { t with calls := before ++ after }
        (next released { s with occasion, world := t.world }))
  | abandon {before p after} (here : t.calls = before ++ p :: after) :
      Happens t { t with calls := before ++ after, resting := p.state.run :: t.resting }
  | recycle {before run after} (here : t.resting = before ++ run :: after) :
      Happens t { t with world := t.world.recycle run, resting := before ++ after }
  | make {make} (makes : AppletResult.Makes make) :
      Happens t { t with
        world := { t.world with bodies := (make t.world.bodies).2 }
        results := (make t.world.bodies).1 :: t.results }
  | drop {before result after} (here : t.results = before ++ result :: after) :
      Happens t { t with
        world := { t.world with bodies := result.release t.world.bodies }
        results := before ++ after }
  | configure (bodies slates : Nat) : Happens t { t with world := t.world.configurePools bodies slates }
  | drainBodies : Happens t { t with world := { t.world with bodies := t.world.bodies.drain.2 } }
  | drainSlates : Happens t { t with world := { t.world with slates := t.world.slates.drain.2 } }
  | outside (handles : Handles) (globals : Globals) :
      Happens t { t with world := { t.world with handles, globals } }

inductive Reached : Traffic → Prop where
  | start : Reached start
  | next {t u} (earlier : Reached t) (happens : t.Happens u) : Reached u

structure Tidy (t : Traffic) : Prop where
  clean : t.world.Clean
  calls : ∀ p ∈ t.calls, ∃ s, p.Guarantees Tidies s

variable {t u : Traffic}

theorem settleWorld (t : Traffic) (p : Underway) : (t.settle p).world = p.state.world := by
  cases p <;> rfl

section
variable {holds : Underway → Prop} {p : Underway}

theorem settleCalls (all : ∀ q ∈ t.calls, holds q) (new : holds p) :
    ∀ q ∈ (t.settle p).calls, holds q := by
  cases p with
  | done s r => exact all
  | yield s next | pend s | haltAll s next => exact List.forall_mem_cons.mpr ⟨new, all⟩

theorem callsApart (all : ∀ q ∈ t.calls, holds q) {before after : List Underway}
    (here : t.calls = before ++ p :: after) : holds p ∧ ∀ q ∈ before ++ after, holds q := by
  rw [here, List.forall_mem_append, List.forall_mem_cons] at all
  exact ⟨all.2.1, List.forall_mem_append.mpr ⟨all.1, all.2.2⟩⟩

end

theorem settleTidy {s : Scene} {p : Underway} (clean : s.world.Clean)
    (calls : ∀ q ∈ t.calls, ∃ s, q.Guarantees Tidies s) (turns : p.Guarantees Tidies s) :
    (t.settle p).Tidy := by
  have kept := Process.guaranteesState turns clean
  rw [← settleWorld t p] at kept
  exact ⟨kept, settleCalls calls ⟨s, turns⟩⟩

theorem settleOver {p : Underway} (ended : p.over = true) :
    t.settle p = { t with world := p.state.world, resting := p.state.run :: t.resting } := by
  cases p with
  | done s r => rfl
  | yield s next | pend s | haltAll s next => cases ended

theorem walkTidies (call : Errand) (s : Scene) : (call.walk s).Guarantees Tidies s :=
  Errand.walkGuarantees tidiesTrans (fun _ => id)
    (fun path a s => Walk.builtTidies (Walk.visitBuilt a.onlyAnything .aggregate path) s)
    (fun _ => id) call s

theorem happensTidy (tidy : t.Tidy) (happens : t.Happens u) : u.Tidy := by
  have bodied {bodies : Pool ResultBody} (clean : bodies.Clean) :
      ({ t.world with bodies } : World).Clean := ⟨clean, tidy.clean.slates⟩
  cases happens with
  | obtain task batch handle =>
    exact ⟨⟨tidy.clean.bodies, (Pool.takeClean tidy.clean.slates).2⟩, tidy.calls⟩
  | change here run' => exact ⟨tidy.clean, tidy.calls⟩
  | take here held => exact ⟨tidy.clean, tidy.calls⟩
  | call here errand occasion journal => exact settleTidy tidy.clean tidy.calls (walkTidies errand _)
  | @resume before s next after here occasion =>
    obtain ⟨⟨s₀, turns⟩, among⟩ := callsApart tidy.calls here
    exact settleTidy (s := { s with occasion, world := t.world }) tidy.clean among (turns.2 _)
  | @answer before s next after here occasion released =>
    obtain ⟨⟨s₀, turns⟩, among⟩ := callsApart tidy.calls here
    exact settleTidy (s := { s with occasion, world := t.world }) tidy.clean among
      (turns.2 released _)
  | abandon here => exact ⟨tidy.clean, (callsApart tidy.calls here).2⟩
  | recycle here => exact ⟨World.recycleClean tidy.clean _, tidy.calls⟩
  | make makes => exact ⟨bodied (AppletResult.makesClean makes tidy.clean.bodies), tidy.calls⟩
  | drop here => exact ⟨bodied (AppletResult.releaseClean tidy.clean.bodies _), tidy.calls⟩
  | configure n m =>
    exact ⟨⟨Pool.setCapacityClean tidy.clean.bodies n, Pool.setCapacityClean tidy.clean.slates m⟩,
      tidy.calls⟩
  | drainBodies => exact ⟨bodied (Pool.drainClean _), tidy.calls⟩
  | drainSlates => exact ⟨⟨tidy.clean.bodies, Pool.drainClean _⟩, tidy.calls⟩
  | outside handles globals => exact ⟨⟨tidy.clean.bodies, tidy.clean.slates⟩, tidy.calls⟩

theorem reachedTidy (reached : Reached t) : t.Tidy := by
  induction reached with
  | start => exact ⟨⟨(fun _ inside => nomatch inside), (fun _ inside => nomatch inside)⟩, by simp [start]⟩
  | next earlier happens ih => exact happensTidy ih happens

end Traffic

namespace Lone

abbrev Answer := Option (Except Stop (Option Outcome))

def serve (l : Lone) (occasions : Nat → Occasion) :
    List (Errand × Nat) → List Answer × Lone × (Nat → Occasion)
  | [] => ([], l, occasions)
  | (call, k) :: rest =>
    let (s, answer) := (call.walk ⟨l.run, occasions k, l.world, l.journal⟩).alone
    let (answers, out) :=
      serve (ofScene s) (fun i => if i = k then s.occasion else occasions i) rest
    (answer :: answers, out)

/- The same but for what is in the pools. -/
structure Matches (l m : Lone) : Prop where
  run : l.run = m.run
  journal : l.journal = m.journal
  handles : l.world.handles = m.world.handles
  globals : l.world.globals = m.world.globals

variable {l m : Lone}

theorem matchesUnpooled (same : l.Matches m) (occasion : Occasion) :
    (Scene.mk l.run occasion l.world l.journal).unpooled =
      (Scene.mk m.run occasion m.world m.journal).unpooled := by
  simp only [unpooled, same.run, same.journal, same.handles, same.globals]

theorem serveMatches (same : l.Matches m) (occasions : Nat → Occasion)
    (calls : List (Errand × Nat)) :
    (l.serve occasions calls).1 = (m.serve occasions calls).1 ∧
      (l.serve occasions calls).2.1.Matches (m.serve occasions calls).2.1 ∧
      (l.serve occasions calls).2.2 = (m.serve occasions calls).2.2 := by
  induction calls generalizing l m occasions with
  | nil => exact ⟨rfl, same, rfl⟩
  | cons first rest ih =>
    obtain ⟨call, k⟩ := first
    have alike := Process.alikeAlone
      (call.walkAlike unpooledForgetful (matchesUnpooled same (occasions k)))
    rw [serve, serve]
    generalize (call.walk ⟨l.run, occasions k, l.world, l.journal⟩).alone = out at alike ⊢
    generalize (call.walk ⟨m.run, occasions k, m.world, m.journal⟩).alone = out' at alike ⊢
    obtain ⟨s, answer⟩ := out
    obtain ⟨s', answer'⟩ := out'
    dsimp only at alike ⊢
    obtain ⟨unpooled, rfl⟩ := alike
    obtain ⟨run, occasion, journal, handles, globals⟩ := unpooledSame unpooled
    have goes := ih (l := ofScene s) (m := ofScene s') ⟨run, journal, handles, globals⟩
      fun i => if i = k then s.occasion else occasions i
    rw [occasion] at goes ⊢
    exact ⟨congrArg (answer :: ·) goes.1, goes.2⟩

def drained (w : World) : World := { w with bodies := w.bodies.drain.2, slates := w.slates.drain.2 }

theorem obtainMatches {world : World} (clean : world.slates.Clean) (task : Task) (handle : Handle)
    (observer : Option Observer) (batch : Batch) :
    (obtain world task handle observer batch).Matches
      (obtain (drained world) task handle observer batch) := by
  have fresh := (Pool.takeClean clean).1
  refine ⟨?_, rfl, rfl, rfl⟩
  simp only [obtain, World.obtain, fresh]
  rfl

/- Whatever has been going on, idle bodies and slates are as good as new. A run that is obtained
then, in a scope of its own, does what it would do with the pools drained: its calls come back the
same, it ends up the same with the same journal, and keeps the same globals and arguments; and
turn by turn its walks stay alike, whatever others do to both. -/
theorem poolsLeakNothing {t : Traffic} (reached : t.Reached) (handles : Handles) (globals : Globals)
    (task : Task) (handle : Handle) (observer : Option Observer) (batch : Batch) :
    t.world.bodies.Clean ∧ t.world.slates.Clean ∧
      let world := { t.world with handles, globals }
      let used := obtain world task handle observer batch
      let fresh := obtain (drained world) task handle observer batch
      (∀ (call : Errand) (occasion : Occasion),
        (call.walk ⟨used.run, occasion, used.world, []⟩).Alike unpooled
          (call.walk ⟨fresh.run, occasion, fresh.world, []⟩)) ∧
      ∀ (occasions : Nat → Occasion) (calls : List (Errand × Nat)),
        (used.serve occasions calls).1 = (fresh.serve occasions calls).1 ∧
          (used.serve occasions calls).2.1.Matches (fresh.serve occasions calls).2.1 ∧
          (used.serve occasions calls).2.2 = (fresh.serve occasions calls).2.2 := by
  obtain ⟨⟨bodies, slates⟩, -⟩ := Traffic.reachedTidy reached
  refine ⟨bodies, slates, ?_⟩
  intro world used fresh
  have same : used.Matches fresh :=
    obtainMatches (show world.slates.Clean from slates) task handle observer batch
  exact ⟨
    fun call occasion => call.walkAlike unpooledForgetful (matchesUnpooled same occasion),
    serveMatches same⟩

def launcherWalk : Underway :=
  let obtained := World.fresh.obtain launcherTask launcherBatch ⟨0⟩
  Errand.run.walk ⟨obtained.1, .ofBatch launcherTask launcherBatch, obtained.2, []⟩

def launcherTraffic : Traffic :=
  let world := launcherWalk.state.world.recycle launcherWalk.state.run
  let (result, bodies) := AppletResult.failedBy (.platform "offline") world.bodies
  { Traffic.start with world := { world with bodies := result.release bodies } }

theorem launcherReached : Traffic.Reached launcherTraffic := by
  have alone {α : Type} (a : α) : [a] = [] ++ a :: [] := rfl
  have obtained := Traffic.Reached.start.next (.obtain launcherTask launcherBatch ⟨0⟩)
  have called := obtained.next
    (.call (alone _) Errand.run (.ofBatch launcherTask launcherBatch) [])
  change (Traffic.settle ⟨(World.fresh.obtain launcherTask launcherBatch ⟨0⟩).2, [], [], []⟩
      launcherWalk).Reached at called
  rw [Traffic.settleOver (show launcherWalk.over = true from rfl)] at called
  have recycled := called.next (.recycle (alone _))
  have made := recycled.next (.make (.failedBy (.platform "offline")))
  have dropped := made.next (.drop (alone _))
  exact dropped

def launcherOccasions (k : Nat) : Occasion :=
  .ofBatch launcherTask ((launcherBatch :: launcherBatches).getD k launcherBatch)

def launcherScope : World :=
  { launcherTraffic.world with handles := Handles.none, globals := Registry.empty }

theorem poolsLeakNothingLauncher :
    launcherTraffic.Reached ∧ launcherTraffic.world.bodies.idle.length = 1 ∧
      launcherTraffic.world.slates.idle.length = 1 ∧
      ((obtain launcherScope launcherTask ⟨0⟩ none launcherBatch).serve launcherOccasions
          [(.run, 0), (.trigger, 2)]).1 =
        [some (.ok (some .suspended)), some (.ok (some .completed))] := by
  have answers := (poolsLeakNothing launcherReached Handles.none Registry.empty
    launcherTask ⟨0⟩ none launcherBatch).2.2.2 launcherOccasions [(.run, 0), (.trigger, 2)]
  have drained : ((obtain (drained launcherScope) launcherTask ⟨0⟩ none launcherBatch).serve
      launcherOccasions [(.run, 0), (.trigger, 2)]).1 =
        [some (.ok (some .suspended)), some (.ok (some .completed))] := by
    decide +kernel
  exact ⟨launcherReached, rfl, rfl, answers.1.trans drained⟩

end Lone
end Automation
