import Automation.Proofs.Sessions
/-! Two walks side by side. Scenes are alike when they are the same but for what is forgotten of
them, such as the observer or the pools. If no step of a walk depends on what is forgotten, walks
that begin in scenes alike call the same executors on the same scripts, pass through scenes alike
and end alike. -/
namespace Automation

def Executor.conclude (path : List Nat) (info : AppletInfo) :
    (e : Executor) → e.Answer → Scene → Scene
  | check, outcome, s =>
    (s.endCheck path info outcome).2.finish path info (s.endCheck path info outcome).1
  | action, outcome, s => (s.endAction path outcome).2.finish path info (s.endAction path outcome).1

namespace Scene
variable {forget : Scene → Scene}

def Blind (forget : Scene → Scene) (f : Scene → Scene) : Prop :=
  ∀ s, forget (f s) = forget (f (forget s))

structure Unaware (forget : Scene → Scene) {α : Type} (f : Scene → α × Scene) : Prop where
  value (s : Scene) : (f s).1 = (f (forget s)).1
  blind : Blind forget fun s => (f s).2

/- No step of a walk depends on what is forgotten. -/
structure Forgetful (forget : Scene → Scene) : Prop where
  task (s : Scene) : s.run.task = (forget s).run.task
  occasion (s : Scene) : s.occasion = (forget s).occasion
  globals (s : Scene) : s.world.globals = (forget s).world.globals
  active (s : Scene) : s.isActive = (forget s).isActive
  waits (s : Scene) : s.run.waitsFor? = (forget s).run.waitsFor?
  resuming (s : Scene) : s.run.slate.cursor.resuming = (forget s).run.slate.cursor.resuming
  levels (s : Scene) : s.run.slate.cursor.levels.map (fun l => (l.index, l.chain)) =
    (forget s).run.slate.cursor.levels.map fun l => (l.index, l.chain)
  expected (s : Scene) (info : AppletInfo) : s.run.expected? info = (forget s).run.expected? info
  resumes : Blind forget resume
  cancels (handle : Handle) : Blind forget fun s => { s with world := s.world.cancel handle }
  keeps (globals : Globals) : Blind forget fun s => { s with world := { s.world with globals } }
  caches (arguments : Arguments) :
    Blind forget fun s => { s with occasion := { s.occasion with arguments } }
  change {f : Scene → Scene} (step : Change f) : Blind forget f
  beginCheck (path info expected) : Unaware forget fun s => s.beginCheck path info expected
  beginAction (path info) : Unaware forget fun s => s.beginAction path info
  concludes (path info) (e : Executor) (answer) : Blind forget (e.conclude path info answer)
  tryWait (path info wait) : Unaware forget fun s => s.tryWait path info wait
  enterFlow : Unaware forget enterFlow
  choose (path spec level) : Unaware forget fun s => s.choose path spec level
  passOn (level kind) : Unaware forget fun s => s.passOn level kind
  leaves (path info spec level) : Blind forget fun s =>
    (s.leaveFlow spec level).2.finish path info (s.leaveFlow spec level).1

theorem Blind.comp {f g : Scene → Scene} (first : Blind forget f) (second : Blind forget g) :
    Blind forget fun s => g (f s) := by
  intro s
  change forget (g (f s)) = forget (g (f (forget s)))
  rw [second (f s), first s, ← second]

theorem Blind.alike {f : Scene → Scene} (blind : Blind forget f) {s t : Scene}
    (same : forget s = forget t) : forget (f s) = forget (f t) := by
  rw [blind s, same, ← blind t]

theorem Unaware.alike {α : Type} {f : Scene → α × Scene} (unaware : Unaware forget f) {s t : Scene}
    (same : forget s = forget t) : (f s).1 = (f t).1 ∧ forget (f s).2 = forget (f t).2 :=
  ⟨by rw [unaware.value s, same, ← unaware.value t], unaware.blind.alike same⟩

theorem readAlike {α : Type} {f : Scene → α} (unread : ∀ s, f s = f (forget s)) {s t : Scene}
    (same : forget s = forget t) : f s = f t := by
  rw [unread s, same, ← unread t]

end Scene

namespace Process
variable {ρ τ : Type} {forget : Scene → Scene}

inductive Alike (forget : Scene → Scene) : Process Scene ρ → Process Scene ρ → Prop where
  | done {s t r} (same : forget s = forget t) : Alike forget (done s r) (done t r)
  | yield {s t next next'} (same : forget s = forget t)
      (onward : ∀ u v, forget u = forget v → Alike forget (next u) (next' v)) :
      Alike forget (yield s next) (yield t next')
  | pend {s t} (same : forget s = forget t) : Alike forget (pend s) (pend t)
  | haltAll {s t next next'} (same : forget s = forget t)
      (onward : ∀ n u v, forget u = forget v → Alike forget (next n u) (next' n v)) :
      Alike forget (haltAll s next) (haltAll t next')

theorem alikeBind {p q : Process Scene ρ} {f g : ρ → Scene → Process Scene τ}
    (first : p.Alike forget q)
    (second : ∀ r s t, forget s = forget t → (f r s).Alike forget (g r t)) :
    (p.bind f).Alike forget (q.bind g) := by
  induction first with
  | done same => exact second _ _ _ same
  | yield same onward ih => exact .yield same ih
  | pend same => exact .pend same
  | haltAll same onward ih => exact .haltAll same ih

theorem alikeAlone {p q : Process Scene ρ} (alike : p.Alike forget q) :
    forget p.alone.1 = forget q.alone.1 ∧ p.alone.2 = q.alone.2 := by
  induction alike with
  | done same => exact ⟨same, rfl⟩
  | yield same onward ih => exact ih _ _ same
  | pend same => exact ⟨same, rfl⟩
  | haltAll same onward ih => exact ih 0 _ _ same

end Process

theorem Walk.performAlike {α : Type} {forget : Scene → Scene} (forgetful : Scene.Forgetful forget)
    (script : Script α) {s t : Scene} (same : forget s = forget t) :
    (perform script s).Alike forget (perform script t) := by
  induction script generalizing s t with
  | done a => exact .done same
  | panic => exact .done same
  | yield next ih => exact .yield same fun u v same => ih same
  | pend => exact .pend same
  | cancel handle next ih => exact ih ((forgetful.cancels handle).alike same)
  | haltAll next ih => exact .haltAll same fun n u v same => ih n same
  | global key type init next ih =>
    rcases found : s.world.globals.obtain key type init with ⟨r, globals⟩
    have found' : t.world.globals.obtain key type init = (r, globals) :=
      Scene.readAlike forgetful.globals same ▸ found
    simp only [perform, found, found']
    exact ih r ((forgetful.keeps globals).alike same)
  | argument id type init next ih =>
    rcases found : s.occasion.arguments.obtain id type init with ⟨r, arguments⟩
    have found' : t.occasion.arguments.obtain id type init = (r, arguments) :=
      Scene.readAlike forgetful.occasion same ▸ found
    simp only [perform, found, found']
    exact ih r ((forgetful.caches arguments).alike same)
  | pattern id text next ih =>
    rcases found : s.occasion.arguments.pattern id text with ⟨r, arguments⟩
    have found' : t.occasion.arguments.pattern id text = (r, arguments) :=
      Scene.readAlike forgetful.occasion same ▸ found
    simp only [perform, found, found']
    exact ih r ((forgetful.caches arguments).alike same)

namespace Dialogue
variable {α β : Type} {forget : Scene → Scene}

/- The dialogues call the same executors on the same scripts, and go on in the same way, and alike,
from the scenes in which the answer has become the result of the applet. -/
inductive Alike (forget : Scene → Scene) : Dialogue α → Dialogue α → Prop where
  | finished {s t r} (same : forget s = forget t) : Alike forget (.finished s r) (.finished t r)
  | call {s t path info} {executor : Executor} {script} (rest : Scene → Dialogue α)
      (same : forget s = forget t)
      (onward : ∀ u v, forget u = forget v → Alike forget (rest u) (rest v)) :
      Alike forget
        (.call s path info executor script fun answer u => rest (executor.conclude path info answer u))
        (.call t path info executor script fun answer u => rest (executor.conclude path info answer u))

theorem alikeBind {c d : Dialogue α} {f : α → Scene → Dialogue β} (first : c.Alike forget d)
    (second : ∀ a s t, forget s = forget t → (f a s).Alike forget (f a t)) :
    (c.bind f).Alike forget (d.bind f) := by
  induction first with
  | @finished s t r same =>
    cases r with
    | ok a => exact second a s t same
    | error e => exact .finished same
  | @call s t path info executor script rest same onward ih =>
    exact .call (fun u => (rest u).bind f) same ih

theorem alikeProcess (forgetful : Scene.Forgetful forget) {c d : Dialogue α}
    (alike : c.Alike forget d) : c.process.Alike forget d.process := by
  induction alike with
  | finished same => exact .done same
  | @call s t path info executor script rest same onward ih =>
    rw [process, process]
    refine Process.alikeBind (Walk.performAlike forgetful script same) fun r u v same => ?_
    cases r with
    | ok answer => exact ih _ _ ((forgetful.concludes path info executor answer).alike same)
    | error e => exact .done same

theorem leadsAlike {c d : Dialogue α} (leads : Leads c d) (alike : c.Alike forget c) :
    d.Alike forget d := by
  induction leads with
  | here c => exact alike
  | later returns leads ih =>
    cases alike with
    | call rest same onward => exact ih (onward _ _ rfl)

end Dialogue

namespace Tour
variable {α β : Type} {forget : Scene → Scene}

def Alike (forget : Scene → Scene) (w : Tour α) : Prop :=
  ∀ s t, forget s = forget t → (w s).Alike forget (w t)

theorem thenAlike {w : Tour α} {f : α → Tour β} (first : w.Alike forget)
    (second : ∀ a, (f a).Alike forget) : (w >>= f).Alike forget :=
  fun s t same => Dialogue.alikeBind (first s t same) fun a => second a

theorem pureAlike (a : α) : (Pure.pure a : Tour α).Alike forget := fun _ _ same => .finished same

theorem changeAlike {f : Scene → Scene} (blind : Scene.Blind forget f) :
    (change f).Alike forget := fun _ _ same => .finished (blind.alike same)

theorem actAlike {f : Scene → α × Scene} (unaware : Scene.Unaware forget f) :
    (act f).Alike forget := by
  intro s t same
  obtain ⟨value, alike⟩ := unaware.alike same
  unfold act
  rw [value]
  exact .finished alike

theorem readAlike {f : Scene → α} (unread : ∀ s, f s = f (forget s)) : (read f).Alike forget := by
  intro s t same
  unfold read
  rw [Scene.readAlike unread same]
  exact .finished same

section
variable (forgetful : Scene.Forgetful forget)
include forgetful

theorem activeAlike : ensureActive.Alike forget := by
  intro s t same
  unfold ensureActive
  rw [Scene.readAlike forgetful.active same]
  split <;> exact .finished same

theorem levelAlike {f : Level → Tour β} (depth : Nat) (second : ∀ l, (f l).Alike forget)
    (counts : ∀ l l' : Level, l.index = l'.index → l.chain = l'.chain → f l = f l') :
    (level depth >>= f).Alike forget := by
  intro s t same
  change ((level depth s).bind f).Alike forget ((level depth t).bind f)
  have levels := congrArg (fun shape => shape[depth]?) (Scene.readAlike forgetful.levels same)
  simp only [List.getElem?_map] at levels
  unfold level
  cases found : s.run.slate.cursor.levels[depth]? with
  | none =>
    rw [found, Option.map_none, eq_comm, Option.map_eq_none_iff] at levels
    rw [levels]
    exact .finished same
  | some l =>
    rw [found, Option.map_some, eq_comm, Option.map_eq_some_iff] at levels
    obtain ⟨l', found', shape⟩ := levels
    have goes := second l s t same
    rw [found']
    change (f l s).Alike forget (f l' t)
    rwa [counts l' l (congrArg Prod.fst shape) (congrArg Prod.snd shape)]

theorem criterionAlike (mode : Mode) (path : List Nat) (info : AppletInfo) (check : Check) :
    (visit mode path (.criterion info check)).Alike forget := by
  intro s t same
  have reached := Scene.Blind.alike (forgetful.change (.comp (.start path info) (.reachLeaf info))) same
  generalize from_s : (s.start path info).reachLeaf info = u at reached
  generalize from_t : (t.start path info).reachLeaf info = v at reached
  have expects := Scene.readAlike (fun s => forgetful.expected s info) reached
  cases found : u.run.expected? info with
  | none =>
    rw [visitUnresolved from_s found, visitUnresolved from_t (expects ▸ found)]
    exact .finished (Scene.Blind.alike (forgetful.change (.finish path info (.empty false))) reached)
  | some expected =>
    rw [visitResolved from_s found, visitResolved from_t (expects ▸ found)]
    obtain ⟨input, begun⟩ := (forgetful.beginCheck path info expected).alike reached
    rw [input]
    exact .call (fun u => .finished u (.ok Outcome.completed)) begun fun _ _ same => .finished same

theorem actionAlike (mode : Mode) (path : List Nat) (info : AppletInfo) (action : Action) :
    (visit mode path (.action info action)).Alike forget := by
  intro s t same
  have reached := Scene.Blind.alike (forgetful.change (.comp (.start path info) (.reachLeaf info))) same
  rw [visitAction rfl, visitAction rfl]
  obtain ⟨input, begun⟩ := (forgetful.beginAction path info).alike reached
  rw [input]
  exact .call (fun u => .finished u (.ok Outcome.completed)) begun fun _ _ same => .finished same

theorem closeFlowAlike (path : List Nat) (info : AppletInfo) (spec : FlowSpec) (depth : Nat)
    (outcome : Outcome) : (closeFlow path info spec depth outcome).Alike forget := by
  cases outcome with
  | suspended =>
    exact thenAlike (changeAlike (forgetful.change (.unwind depth))) fun _ => pureAlike _
  | completed => exact fun _ _ same => .finished ((forgetful.leaves path info spec depth).alike same)

theorem visitFromAlike {children : List Applet}
    (visits : ∀ c ∈ children, ∀ mode path, (visit mode path c).Alike forget) (mode : Mode)
    (path : List Nat) (flow : AppletInfo) (depth i : Nat) :
    (visitFrom mode path flow depth i children).Alike forget := by
  induction children generalizing i with
  | nil =>
    rw [visitFrom]
    exact pureAlike _
  | cons child rest ih =>
    have onward := ih fun c inside => visits c (List.mem_cons_of_mem child inside)
    rw [visitFrom]
    refine levelAlike forgetful depth (fun here => ?_) fun l l' index chain => by rw [index, chain]
    split
    · exact onward (i + 1)
    · refine thenAlike (activeAlike forgetful) fun _ => ?_
      refine thenAlike (readAlike forgetful.resuming) fun resuming => ?_
      cases (if resuming then Plan.evaluate else here.chain.plan child.flowKind?) with
      | skip | orphan =>
        exact thenAlike (changeAlike (forgetful.change (.comp (.skip ..) (.passOver ..))))
          fun _ => onward (i + 1)
      | evaluate =>
        refine thenAlike (changeAlike (forgetful.change (.setFlow flow))) fun _ => ?_
        refine thenAlike (visits child List.mem_cons_self mode _) fun outcome => ?_
        cases outcome with
        | suspended => exact pureAlike _
        | completed =>
          refine levelAlike forgetful depth (fun _ => ?_) fun _ _ _ _ => rfl
          refine thenAlike (actAlike (forgetful.passOn depth child.flowKind?)) fun successful => ?_
          split
          · exact thenAlike (changeAlike (forgetful.change (.skipFrom ..))) fun _ => pureAlike _
          · exact onward (i + 1)

theorem visitAlike (mode : Mode) (path : List Nat) (a : Applet) : (visit mode path a).Alike forget := by
  induction a using Applet.byChildren generalizing mode path with
  | criterion info check => exact criterionAlike forgetful mode path info check
  | action info action => exact actionAlike forgetful mode path info action
  | wait info wait =>
    rw [visit]
    refine thenAlike (changeAlike (forgetful.change (.comp (.start ..) (.reachLeaf ..)))) fun _ => ?_
    refine thenAlike (actAlike (forgetful.tryWait path info wait)) fun result => ?_
    cases result with
    | none => exact pureAlike _
    | some result =>
      exact thenAlike (changeAlike (forgetful.change (.finish ..))) fun _ => pureAlike _
  | flow info spec children ih =>
    rw [visit]
    refine thenAlike (changeAlike (forgetful.change (.start path info))) fun _ => ?_
    refine thenAlike (actAlike forgetful.enterFlow) fun entered => ?_
    have found : (findTarget path spec entered).Alike forget := by
      obtain ⟨depth, _ | _⟩ := entered
      · exact actAlike (forgetful.choose path spec depth)
      · exact pureAlike _
    refine thenAlike found fun available => ?_
    cases available with
    | false =>
      exact thenAlike (changeAlike (forgetful.change (.comp (.abandonFlow ..) (.finish ..))))
        fun _ => pureAlike _
    | true =>
      have inner := visitFromAlike forgetful (fun c inside mode path => ih c inside mode path)
        (spec.kind.mode mode) path info entered.1 0
      exact thenAlike inner (closeFlowAlike forgetful path info spec entered.1)

theorem treeAlike :
    (do let tree ← read fun s => s.run.task.tree; visit .aggregate [] tree : Tour Outcome).Alike
      forget :=
  thenAlike (readAlike fun s => congrArg Task.tree (forgetful.task s))
    fun tree => visitAlike forgetful .aggregate [] tree

theorem runAlike : run.Alike forget :=
  thenAlike (activeAlike forgetful) fun _ => treeAlike forgetful

theorem triggerAlike : trigger.Alike forget := by
  have qualifies (s : Scene) : s.run.qualifies s.occasion.batch.events =
      (forget s).run.qualifies (forget s).occasion.batch.events := by
    simp only [Run.qualifies, ← forgetful.waits s, ← forgetful.occasion s]
  refine thenAlike (readAlike qualifies) fun wanted => ?_
  split
  · refine thenAlike (activeAlike forgetful) fun _ => ?_
    refine thenAlike (changeAlike forgetful.resumes) fun _ => ?_
    refine thenAlike (readAlike fun s => congrArg Task.tree (forgetful.task s)) fun tree => ?_
    exact thenAlike (visitAlike forgetful .aggregate [] tree) fun _ => pureAlike _
  · exact pureAlike _

end
end Tour

namespace Errand
variable {forget : Scene → Scene}

theorem tourAlike (forgetful : Scene.Forgetful forget) (call : Errand) : call.tour.Alike forget := by
  cases call with
  | call summons =>
    cases summons with
    | run => exact Tour.thenAlike (Tour.runAlike forgetful) fun _ => Tour.pureAlike _
    | trigger => exact Tour.triggerAlike forgetful
  | evaluate path applet =>
    exact Tour.thenAlike (Tour.visitAlike forgetful .aggregate path applet) fun _ => Tour.pureAlike _

theorem walkAlike (forgetful : Scene.Forgetful forget) (call : Errand) {s t : Scene}
    (same : forget s = forget t) : (call.walk s).Alike forget (call.walk t) := by
  rw [← call.tourProcess s, ← call.tourProcess t]
  exact Dialogue.alikeProcess forgetful (tourAlike forgetful call s t same)

end Errand
end Automation
