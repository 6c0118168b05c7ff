import Automation.Proofs.Visits
import Automation.Proofs.Lone
/-! Task runtimes as their owner calls them. The owner runs a run on the first batch and hands it
the later ones; in between, and at the turns of every call, others may do as they please with the
world. At every moment the journal is a chronicle of the tree, and when a call is back the run is
over or held at a wait. -/
namespace Automation
open Scene

inductive Summons where
  | run
  | trigger
  deriving DecidableEq, Repr

namespace Summons

def walk : Summons → Walk (Option Outcome)
  | run => do
    let outcome ← Walk.run
    return some outcome
  | trigger => Walk.trigger

def tour : Summons → Tour (Option Outcome)
  | run => do
    let outcome ← Tour.run
    return some outcome
  | trigger => Tour.trigger

theorem tourWalk (call : Summons) : call.tour.walk = call.walk := by
  cases call with
  | run => exact Tour.thenWalk Tour.runWalk fun _ => rfl
  | trigger => exact Tour.triggerWalk

theorem tourProcess (call : Summons) (s : Scene) : (call.tour s).process = call.walk s :=
  congrFun call.tourWalk s

end Summons

structure Scene.Hands (s : Scene) (batch : Batch) (t : Scene) : Prop where
  run : t.run = s.run
  journal : t.journal = s.journal
  occasion : t.occasion = .ofBatch s.run.task batch
  cancelled : s.isActive = false → t.isActive = false

namespace Lone

def aim (l : Lone) (target : Option Json) : Lone := { l with run := l.run.setTarget target }

inductive Begins (l : Lone) (first : Batch) : List Batch → Summons → Scene → Prop where
  | run : Begins l first [] .run (l.scene first)
  | trigger {batches call s u r batch t} (earlier : Begins l first batches call s)
      (comes : (call.walk s).Comes Others u (some r)) (hands : u.Hands batch t) :
      Begins l first (batches ++ [batch]) .trigger t

/- The scenes at the turns of the last call, with what it came back with if it is back. -/
inductive Moment (l : Lone) (first : Batch) (batches : List Batch) (s : Scene)
    (r : Option (Except Stop (Option Outcome))) : Prop where
  | mk {call start} (begins : Begins l first batches call start)
      (comes : (call.walk start).Comes Others s r)

inductive Rests (target : Option Json) (task : Task) (run : Run) (journal : Journal) : Prop where
  | settled {r} (chronicle : Chronicle target [] task.tree journal r)
      (idle : run.slate.waiting = none)
  | held {below info wait}
      (pending : Pending target [] task.tree journal below run.slate.target info wait)
      (cursor : run.slate.cursor = .standing [] below false) (result : run.slate.result = none)
      (waiting : run.slate.waiting = some (.wait info wait))

inductive Back (target : Option Json) (task : Task) (s : Scene) :
    Except Stop (Option Outcome) → Prop where
  | walked {r} (leaves : Leaves [] [] target [] task.tree s r) : Back target task s (r.map some)
  | idle (rests : Rests target task s.run s.journal) : Back target task s (.ok none)
  | refused (rests : Rests target task s.run s.journal) :
      Back target task s (.error .cancelled)

def CallQuits (task : Task) (reply : Reply) (t u : Scene) (r : Except Stop (Option Outcome)) :
    Prop :=
  ∃ q, r = q.map some ∧ VisitQuits .aggregate [] task.tree reply t u q

variable {task : Task} {target : Option Json} {s t : Scene}

theorem backRests {r : Except Stop (Option Outcome)} (back : Back target task s r) :
    Rests target task s.run s.journal := by
  cases back with
  | idle rests | refused rests => exact rests
  | walked leaves =>
    cases leaves with
    | completed chronicle stands =>
      rw [stands.journal]
      exact .settled chronicle (standsIdle stands)
    | suspended pending stalls =>
      rw [stalls.journal]
      rw [← stalls.target] at pending
      exact .held pending (congrArg Footing.cursor stalls.footing)
        (congrArg Footing.result stalls.footing) (congrArg Footing.waiting stalls.footing)
    | stopped chronicle writes idle =>
      rw [writes]
      exact .settled chronicle idle

theorem restsChronicle {run : Run} {journal : Journal} (rests : Rests target task run journal) :
    ∃ r, Chronicle target [] task.tree journal r := by
  cases rests with
  | settled chronicle idle => exact ⟨_, chronicle⟩
  | held pending cursor result waiting => exact ⟨_, pendingChronicle pending⟩

theorem backCompleted (back : Back target task s (.ok (some .completed))) :
    s.run.slate.target = target := by
  generalize ending : (.ok (some .completed) : Except Stop (Option Outcome)) = q at back
  cases back with
  | @walked r leaves =>
    cases leaves with
    | completed chronicle stands => exact stands.target
    | suspended pending stalls => cases ending
    | stopped chronicle writes idle => cases ending
  | idle rests | refused rests => cases ending

theorem walkedHonours {c : Dialogue Outcome}
    (visits : Tour.Visits .aggregate [] task.tree [] target [] c) :
    (c.bind fun outcome s => .finished s (.ok (some outcome))).Honours (Back target task)
      (CallQuits task) := by
  refine Dialogue.honoursBind visits (fun s outcome leaves => .walked leaves)
    (fun s e leaves => .walked leaves) (fun reply t u outcome quits leaves => ?_)
    fun reply t u e quits => ⟨.error e, rfl, quits⟩
  exact ⟨u, _, rfl, .ok outcome, rfl, quits⟩

theorem runHonours (stands : s.Stands [] none target []) (same : s.run.task = task) :
    (Summons.run.tour s).Honours (Back target task) (CallQuits task) := by
  refine walkedHonours ?_
  cases active : s.isActive with
  | false =>
    rw [Tour.runInactive active]
    exact .stopped .ahead (by simp [stands.journal]) (standsIdle stands)
  | true =>
    rw [Tour.runActive active, same]
    exact (Tour.visitSound task.tree).forward .aggregate [] s [] target [] stands

theorem pendingDeep {journal : Journal} {below : List Level} {aim : Option Json} {info : AppletInfo}
    {wait : Wait} (pending : Pending target [] task.tree journal below aim info wait) :
    below ≠ [] := by
  have rooted := task.rooted
  revert pending rooted
  generalize task.tree = a
  intro pending rooted
  cases pending with
  | wait started => cases rooted
  | flow => simp

theorem resumeReturns {journal : Journal} {below : List Level} {info : AppletInfo} {wait : Wait}
    (pending : Pending target [] task.tree journal below s.run.slate.target info wait)
    (cursor : s.run.slate.cursor = .standing [] below false) (result : s.run.slate.result = none)
    (waiting : s.run.slate.waiting = some (.wait info wait)) (same : s.run.task = s.occasion.task)
    (writes : s.journal = journal) (active : s.isActive = true)
    (accepts : (wait.find? s.occasion.batch.events).isSome = true) :
    s.resume.Returns [] below info wait s.run.slate.target ([] ++ journal) := by
  refine ⟨?_, rfl, writes, active, accepts⟩
  have resumed : s.resume.footing = ⟨s.run.slate.cursor.beginResume, s.run.slate.result,
    s.run.slate.waiting, false, s.occasion.batch, s.run.task⟩ := rfl
  have back : (Cursor.standing [] below false).beginResume = .standing [] below true :=
    Cursor.resumeStanding (pendingDeep pending)
  rw [resumed, cursor, back, result, waiting, same]
  rfl

theorem triggerHonours (rests : Rests target task s.run s.journal) (same : s.run.task = task)
    (occasion : s.run.task = s.occasion.task) :
    (Summons.trigger.tour s).Honours (Back target task) (CallQuits task) := by
  rw [Summons.tour]
  cases qualifies : s.run.qualifies s.occasion.batch.events with
  | false =>
    rw [Tour.triggerIdle qualifies]
    exact .idle rests
  | true =>
    cases active : s.isActive with
    | false =>
      rw [Tour.triggerInactive qualifies active]
      exact .refused rests
    | true =>
      rw [Tour.triggerActive qualifies active, same]
      refine walkedHonours ?_
      cases rests with
      | settled chronicle idle => simp [Run.qualifies, Run.waitsFor?, idle] at qualifies
      | @held below info wait pending cursor result waiting =>
        simp [Run.qualifies, Run.waitsFor?, waiting, Applet.wait?] at qualifies
        have returns := resumeReturns pending cursor result waiting occasion rfl active qualifies
        exact (Tour.visitSound task.tree).again _ _ _ _ _ _ _ _ _ _ _ pending returns

theorem taskKept : Walk.Kept fun s t => t.run.task = s.run.task where
  trans := fun _ _ _ first second => second.trans first
  change := fun step s => congrArg Frame.task (Scene.changeFrame step s)
  act := fun step s => congrArg Frame.task (Scene.actFrame step s)
  others := fun _ _ others => congrArg Run.task others.run

end Lone

namespace Summons
variable {G : Scene → Scene → Prop} {call : Summons} {s u : Scene}
  {r : Option (Except Stop (Option Outcome))}

theorem walkGuarantees (trans : ∀ s t u, G s t → G t u → G s u) (same : ∀ s, G s s)
    (visits : ∀ a s, (Walk.visit .aggregate [] a s).Guarantees G s)
    (resumes : ∀ s : Scene, G s s.resume) (call : Summons) (s : Scene) :
    (call.walk s).Guarantees G s := by
  have mapped {w : Walk Outcome} {s : Scene} (turns : (w s).Guarantees G s) :
      ((w >>= fun outcome => return some outcome) s).Guarantees G s := by
    refine Process.guaranteesBind trans turns fun r t => ?_
    cases r <;> exact same t
  cases call with
  | run =>
    refine mapped ?_
    cases active : s.isActive with
    | false =>
      rw [Walk.runInactive active]
      exact same s
    | true =>
      rw [Walk.runActive active]
      exact visits _ s
  | trigger =>
    rw [walk]
    cases qualifies : s.run.qualifies s.occasion.batch.events with
    | false =>
      rw [Walk.triggerIdle qualifies]
      exact same s
    | true =>
      cases active : s.isActive with
      | false =>
        rw [Walk.triggerInactive qualifies active]
        exact same s
      | true =>
        rw [Walk.triggerActive qualifies active]
        exact Process.guaranteesFrom trans (resumes s) (mapped (visits _ s.resume))

theorem walkKept (kept : Walk.Kept G) (resumes : ∀ s : Scene, G s s.resume) (call : Summons)
    (s : Scene) : (call.walk s).Guarantees G s :=
  walkGuarantees kept.trans (fun s => kept.others s s s.othersSame)
    (fun a s => Walk.builtKept kept (Walk.visitBuilt a.onlyAnything .aggregate []) s) resumes call s

theorem comesKept (kept : Walk.Kept G) (resumes : ∀ s : Scene, G s s.resume)
    (comes : (call.walk s).Comes Others u r) : G s u :=
  Process.guaranteesComes kept.trans kept.others (walkKept kept resumes call s) comes

end Summons

namespace Lone
variable {l : Lone} {first : Batch} {batches : List Batch} {call : Summons} {task : Task}
  {target : Option Json} {s : Scene} {r : Option (Except Stop (Option Outcome))}

theorem momentHolds {P : Scene → Prop} (start : P (l.scene first))
    (kept : Walk.Kept fun s t => P s → P t) (resumes : ∀ s, P s → P s.resume)
    (hands : ∀ s batch t, s.Hands batch t → P s → P t) (moment : Moment l first batches s r) :
    P s := by
  have begun {batches : List Batch} {call : Summons} {s : Scene}
      (begins : Begins l first batches call s) : P s := by
    induction begins with
    | run => exact start
    | trigger earlier comes handed ih =>
      exact hands _ _ _ handed (Summons.comesKept kept resumes comes ih)
  obtain ⟨begins, comes⟩ := moment
  exact Summons.comesKept kept resumes comes (begun begins)

theorem beginsTask (same : l.run.task = task) (begins : Begins l first batches call s) :
    s.run.task = task := by
  induction begins with
  | run => exact same
  | trigger earlier comes handed ih =>
    rw [handed.run, Summons.comesKept taskKept (fun _ => rfl) comes, ih]

theorem beginsHonours (start : (l.scene first).Stands [] none target []) (same : l.run.task = task)
    (begins : Begins l first batches call s) :
    (call.tour s).Honours (Back target task) (CallQuits task) := by
  induction begins with
  | run => exact runHonours start same
  | @trigger batches call s u r batch t earlier comes handed ih =>
    have back : Back target task u r := by
      rw [← call.tourProcess s] at comes
      exact Dialogue.honoursComes ih comes
    have rests := backRests back
    have task' : t.run.task = task := beginsTask same (.trigger earlier comes handed)
    rw [← handed.run, ← handed.journal] at rests
    refine triggerHonours rests task' ?_
    rw [handed.occasion, handed.run]
    rfl

theorem momentBack (start : (l.scene first).Stands [] none target []) (same : l.run.task = task)
    (moment : Moment l first batches s r) : Back target task s (r.getD (.error .panicked)) := by
  obtain ⟨begins, comes⟩ := moment
  have honours := beginsHonours start same begins
  rw [← Summons.tourProcess] at comes
  exact Dialogue.honoursComes honours comes

theorem momentAlone (begins : Begins l first batches call s) :
    Moment l first batches (call.walk s).alone.1 (call.walk s).alone.2 :=
  ⟨begins, Process.comesAlone othersSame rfl⟩

theorem beginsAlone {b : Except Stop (Option Outcome)} (begins : Begins l first batches call s)
    (back : (call.walk s).alone.2 = some b) (batch : Batch) :
    Begins l first (batches ++ [batch]) .trigger ((ofScene (call.walk s).alone.1).scene batch) :=
  .trigger begins (Process.comesAlone othersSame (Prod.ext rfl back)) ⟨rfl, rfl, rfl, id⟩

theorem triggerAllMoment (begins : Begins l first batches call s)
    {b : Except Stop (Option Outcome)} (back : (call.walk s).alone.2 = some b)
    (later : List Batch) :
    ∃ batches' t r, Moment l first batches' t r ∧
      (triggerAll (ofScene (call.walk s).alone.1) later).1 = ofScene t := by
  induction later generalizing batches call s b with
  | nil => exact ⟨_, _, _, momentAlone begins, rfl⟩
  | cons batch rest ih =>
    have begun := beginsAlone begins back batch
    generalize (ofScene (call.walk s).alone.1) = u at begun ⊢
    have moment := momentAlone begun
    have again := fun b => ih begun (b := b)
    simp only [Summons.walk] at moment again
    rw [triggerAll]
    generalize (Walk.trigger (u.scene batch)).alone = ending at moment again ⊢
    obtain ⟨t, _ | (stop | (_ | outcome))⟩ := ending
    · exact ⟨_, t, _, moment, rfl⟩
    · exact again _ rfl
    · exact again _ rfl
    · exact again _ rfl

theorem driveMoment (l : Lone) (first : Batch) (later : List Batch) :
    ∃ batches t r, Moment l first batches t r ∧ (drive l first later).1 = ofScene t := by
  have begun : Begins l first [] .run (l.scene first) := .run
  have moment := momentAlone begun
  have again := fun b => triggerAllMoment begun (b := b)
  have ran : (Summons.run.walk (l.scene first)).alone =
      ((Walk.run (l.scene first)).alone.1, (Walk.run (l.scene first)).alone.2.map (·.map some)) := by
    rw [Summons.walk, Walk.aloneThen]
    rcases (Walk.run (l.scene first)).alone with ⟨t, _ | (stop | outcome)⟩ <;> rfl
  rw [ran] at moment again
  rw [drive]
  generalize (Walk.run (l.scene first)).alone = ending at moment again ⊢
  obtain ⟨t, _ | b⟩ := ending
  · exact ⟨_, t, _, moment, rfl⟩
  · exact again _ rfl later

theorem obtainStands {world : World} (clean : world.slates.Clean) (task : Task) (handle : Handle)
    (observer : Option Observer) (target : Option Json) (first : Batch) :
    (((obtain world task handle observer first).aim target).scene first).Stands [] none target [] :=
  ⟨(obtainForward clean task handle observer first []).1, rfl, rfl⟩

theorem driveChronicle {world : World} (clean : world.slates.Clean) (task : Task) (handle : Handle)
    (observer : Option Observer) (first : Batch) (later : List Batch) :
    ∃ target r, Chronicle target [] task.tree
      (drive (obtain world task handle observer first) first later).1.journal r := by
  let l := obtain world task handle observer first
  have start : (l.scene first).Stands [] none l.run.slate.target [] :=
    ⟨(obtainForward clean task handle observer first []).1, rfl, rfl⟩
  obtain ⟨batches, t, r, moment, same⟩ := driveMoment l first later
  rw [show (drive l first later).1.journal = t.journal by rw [same]; rfl]
  have back := momentBack start (rfl : l.run.task = task) moment
  obtain ⟨r, chronicle⟩ := restsChronicle (backRests back)
  exact ⟨_, r, chronicle⟩

def launcherLone : Lone :=
  (obtain World.fresh launcherTask ⟨0⟩ none launcherBatch).aim (some (.str "desktop"))

def launcherEnd : Scene :=
  let held := (Summons.run.walk (launcherLone.scene launcherBatch)).alone.1
  let refused := (Summons.trigger.walk ((ofScene held).scene launcherBatches[0])).alone.1
  (Summons.trigger.walk ((ofScene refused).scene launcherBatches[1])).alone.1

theorem launcherMoment :
    Moment launcherLone launcherBatch launcherBatches launcherEnd
      (some (.ok (some .completed))) := by
  have begun : Begins launcherLone launcherBatch [] .run (launcherLone.scene launcherBatch) := .run
  have held := beginsAlone (b := .ok (some .suspended)) begun rfl launcherBatches[0]
  have refused := beginsAlone (b := .ok none) held rfl launcherBatches[1]
  exact momentAlone refused

end Lone
end Automation
