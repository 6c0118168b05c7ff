import Automation.Proofs.Fairness
import Automation.Proofs.Traffic
import Mathlib.Algebra.BigOperators.Group.Multiset.Basic
/-! Who has the pooled result bodies and runtime frames. In a process where runs and results are
handed on but never copied, what is on loan is what runs, calls and owners of results have, and no
pool holds more than its capacity. So a run that comes and goes makes no difference to the loans. -/
namespace Automation
open Scene

def Run.bodies (r : Run) : Multiset ResultBody := AppletResult.bodies r.slate.held

namespace Traffic

def runs (t : Traffic) : Multiset Run := (t.resting ++ t.calls.map fun p => p.state.run : List Run)

def lent (t : Traffic) : Multiset ResultBody :=
  (t.runs.map Run.bodies).sum + AppletResult.bodies t.results

def bodyStock (t : Traffic) : Stock ResultBody := ⟨t.lent, t.world.bodies⟩

def slateStock (t : Traffic) : Stock Slate := ⟨t.runs.map Run.slate, t.world.slates⟩

/- What can happen next if runs and results are only handed on, and nobody has two of one or makes
one from nothing. -/
inductive Deals (t : Traffic) : Traffic → Prop where
  | obtain (task : Task) (batch : Batch) (handle : Handle) :
      Deals t { t with
        world := (t.world.obtain task batch handle).2
        resting := (t.world.obtain task batch handle).1 :: t.resting }
  | change {before run after} (here : t.resting = before ++ run :: after) {run' : Run}
      (held : run'.slate.held = run.slate.held) :
      Deals t { t with resting := before ++ run' :: after }
  | take {before run after result} (here : t.resting = before ++ run :: after)
      (held : run.takeResult.1 = some result) :
      Deals t { t with
        resting := before ++ run.takeResult.2 :: after, results := result :: t.results }
  | register {before run after front result back} (here : t.resting = before ++ run :: after)
      (held : t.results = front ++ result :: back) (info : AppletInfo) :
      Deals t { t with
        world := { t.world with bodies := (run.register info result t.world.bodies).2 }
        resting := before ++ (run.register info result t.world.bodies).1 :: after
        results := front ++ back }
  | call {before run after} (here : t.resting = before ++ run :: after) (errand : Errand)
      (occasion : Occasion) (journal : Journal) :
      Deals t (settle { t with resting := before ++ after }
        (errand.walk ⟨run, occasion, t.world, journal⟩))
  | resume {before s next after} (here : t.calls = before ++ .yield s next :: after)
      (occasion : Occasion) :
      Deals t (settle { t with calls := before ++ after }
        (next { s with occasion, world := t.world }))
  | answer {before s next after} (here : t.calls = before ++ .haltAll s next :: after)
      (occasion : Occasion) (released : Nat) :
      Deals t (settle { t with calls := before ++ after }
        (next released { s with occasion, world := t.world }))
  | abandon {before p after} (here : t.calls = before ++ p :: after) :
      Deals t { t with calls := before ++ after, resting := p.state.run :: t.resting }
  | recycle {before run after} (here : t.resting = before ++ run :: after) :
      Deals t { t with world := t.world.recycle run, resting := before ++ after }
  | make {make} (makes : AppletResult.Makes make) :
      Deals t { t with
        world := { t.world with bodies := (make t.world.bodies).2 }
        results := (make t.world.bodies).1 :: t.results }
  | drop {before result after} (here : t.results = before ++ result :: after) :
      Deals t { t with
        world := { t.world with bodies := result.release t.world.bodies }
        results := before ++ after }
  | configure (bodies slates : Nat) :
      Deals t { t with world := t.world.configurePools bodies slates }
  | drainBodies : Deals t { t with world := { t.world with bodies := t.world.bodies.drain.2 } }
  | drainSlates : Deals t { t with world := { t.world with slates := t.world.slates.drain.2 } }
  | outside (handles : Handles) (globals : Globals) :
      Deals t { t with world := { t.world with handles, globals } }

inductive Dealt : Traffic → Prop where
  | start : Dealt start
  | next {t u} (earlier : Dealt t) (deals : t.Deals u) : Dealt u

structure Conserved (t : Traffic) : Prop where
  bodies : t.bodyStock.Sound
  slates : t.slateStock.Sound
  clean : t.world.slates.Clean
  calls : ∀ p ∈ t.calls, ∃ s, p.Guarantees Scene.Trades s

variable {t u : Traffic}

theorem runsResting {before after : List Run} {run : Run}
    (here : t.resting = before ++ run :: after) :
    t.runs = run ::ₘ ({ t with resting := before ++ after } : Traffic).runs := by
  simp only [runs, here, List.append_assoc, List.cons_append]
  exact Multiset.coe_eq_coe.mpr List.perm_middle

theorem runsCalls {before after : List Underway} {p : Underway}
    (here : t.calls = before ++ p :: after) :
    t.runs = p.state.run ::ₘ ({ t with calls := before ++ after } : Traffic).runs := by
  simp only [runs, here, List.map_append, List.map_cons, ← List.append_assoc]
  exact Multiset.coe_eq_coe.mpr List.perm_middle

theorem runsMore (t : Traffic) (world : World) (run : Run) :
    ({ t with world, resting := run :: t.resting } : Traffic).runs = run ::ₘ t.runs := rfl

theorem runsSettle (t : Traffic) (p : Underway) : (t.settle p).runs = p.state.run ::ₘ t.runs := by
  cases p with
  | done s r => rfl
  | yield s next | pend s | haltAll s next => exact Multiset.coe_eq_coe.mpr List.perm_middle

theorem settleResults (t : Traffic) (p : Underway) : (t.settle p).results = t.results := by
  cases p <;> rfl

theorem lentCons {run : Run} {rest : Multiset Run} (runs : t.runs = run ::ₘ rest) :
    t.lent = run.bodies + ((rest.map Run.bodies).sum + AppletResult.bodies t.results) := by
  rw [lent, runs, Multiset.map_cons, Multiset.sum_cons, add_assoc]

theorem resultsMiddle (front back : List AppletResult) (result : AppletResult) :
    AppletResult.bodies (front ++ result :: back) =
      AppletResult.bodies [result] + AppletResult.bodies (front ++ back) := by
  rw [AppletResult.bodiesAppend, AppletResult.bodiesCons, AppletResult.bodiesAppend, add_left_comm]

theorem settleConserved (conserved : t.Conserved) {rest : Traffic} {s : Scene} {p : Underway}
    (runs : t.runs = s.run ::ₘ rest.runs) (results : rest.results = t.results)
    (given : s.world = t.world)
    (calls : ∀ q ∈ rest.calls, ∃ s, q.Guarantees Scene.Trades s)
    (turns : p.Guarantees Scene.Trades s) : (rest.settle p).Conserved := by
  obtain ⟨trades, kept⟩ := Process.guaranteesState turns
  have slates : (rest.settle p).world.slates = t.world.slates := by rw [settleWorld, kept, given]
  refine ⟨?_, ?_, slates ▸ conserved.clean, settleCalls calls ⟨s, turns⟩⟩
  · have moved := Stock.tradesBeside trades rest.lent
    simp only [stock, AppletResult.bodiesNil, zero_add, Stock.beside, given] at moved
    have before := conserved.bodies
    rw [bodyStock, lentCons runs, ← results] at before
    rw [bodyStock, settleWorld, lentCons (runsSettle rest p), settleResults]
    exact Stock.tradesSound moved before
  · refine Stock.soundAs conserved.slates slates ?_
    simp only [slateStock, runsSettle, runs, Multiset.map_cons, Multiset.card_cons]

theorem obtainConserved (conserved : t.Conserved) (task : Task) (batch : Batch) (handle : Handle) :
    ({ t with
      world := (t.world.obtain task batch handle).2
      resting := (t.world.obtain task batch handle).1 :: t.resting } : Traffic).Conserved := by
  obtain ⟨fresh, clean⟩ := Pool.takeClean conserved.clean
  refine ⟨?_, ?_, clean, conserved.calls⟩
  · refine Stock.soundAs conserved.bodies rfl (congrArg Multiset.card ?_)
    have none : (t.world.obtain task batch handle).1.bodies = 0 := by
      simp only [World.obtain, Run.bodies, fresh]
      rfl
    rw [bodyStock, lentCons (runsMore ..), none, zero_add]
    rfl
  · exact Stock.tradesSound (.single (.take _ t.world.slates _)) conserved.slates

theorem recycleConserved (conserved : t.Conserved) {before after : List Run} {run : Run}
    (here : t.resting = before ++ run :: after) :
    ({ t with world := t.world.recycle run, resting := before ++ after } : Traffic).Conserved := by
  have bodies := conserved.bodies
  have slates := conserved.slates
  rw [bodyStock, lentCons (runsResting here)] at bodies
  rw [slateStock, runsResting here, Multiset.map_cons] at slates
  refine ⟨?_, ?_, Pool.giveClean Slate.restored conserved.clean _, conserved.calls⟩
  · exact Stock.tradesSound (AppletResult.releaseAllTrades run.slate.held) bodies
  · exact Stock.tradesSound (.single (.give _ t.world.slates run.slate)) slates

theorem swapConserved (conserved : t.Conserved) {before after : List Run} {run run' : Run}
    {results : List AppletResult} {pool : Pool ResultBody}
    (here : t.resting = before ++ run :: after)
    (trades : ∀ more, Stock.Trades
      ⟨run.bodies + (more + AppletResult.bodies t.results), t.world.bodies⟩
      ⟨run'.bodies + (more + AppletResult.bodies results), pool⟩) :
    ({ t with
      world := { t.world with bodies := pool }
      resting := before ++ run' :: after, results } : Traffic).Conserved := by
  refine ⟨?_, ?_, conserved.clean, conserved.calls⟩
  · have bodies := conserved.bodies
    rw [bodyStock, lentCons (runsResting here)] at bodies
    rw [bodyStock, lentCons (runsResting rfl)]
    exact Stock.tradesSound (trades _) bodies
  · refine Stock.soundAs conserved.slates rfl ?_
    simp only [slateStock]
    rw [runsResting here, runsResting rfl]
    simp only [Multiset.map_cons, Multiset.card_cons]
    rfl

theorem bodiesConserved (conserved : t.Conserved) {results : List AppletResult}
    {pool : Pool ResultBody} (trades : Stock.Trades t.bodyStock
      ⟨(t.runs.map Run.bodies).sum + AppletResult.bodies results, pool⟩) :
    ({ t with world := { t.world with bodies := pool }, results } : Traffic).Conserved :=
  ⟨Stock.tradesSound trades conserved.bodies, conserved.slates, conserved.clean, conserved.calls⟩

theorem takeBodies (r : Run) {result : AppletResult} (held : r.takeResult.1 = some result) :
    r.bodies = r.takeResult.2.bodies + AppletResult.bodies [result] := by
  have recorded : r.slate.result = some result := held
  simp only [Run.bodies, Run.takeResult, Slate.held, recorded, AppletResult.bodiesAppend,
    Option.toList_some, Option.toList_none, AppletResult.bodiesNil, add_zero]

theorem dealsConserved (conserved : t.Conserved) (deals : t.Deals u) : u.Conserved := by
  -- Each deal moves bodies between the pool, the runs and the results outside; the sum is the same.
  cases deals with
  | obtain task batch handle => exact obtainConserved conserved task batch handle
  | @change before run after here run' held =>
    have same : run'.bodies = run.bodies := by rw [Run.bodies, held, Run.bodies]
    exact swapConserved conserved here fun more => by rw [same]
  | @take before run after result here held =>
    have moved (more : Multiset ResultBody) :
        run.takeResult.2.bodies + (more + AppletResult.bodies (result :: t.results)) =
          run.bodies + (more + AppletResult.bodies t.results) := by
      rw [takeBodies run held, AppletResult.bodiesCons]
      ac_rfl
    exact swapConserved conserved here fun more => by rw [moved]
  | @register before run after front result back here held info =>
    have registers := AppletResult.registerTrades run info result t.world.bodies
    refine swapConserved conserved here fun more => ?_
    have moved := Stock.tradesBeside registers (more + AppletResult.bodies (front ++ back))
    have brought : run.bodies + (more + AppletResult.bodies t.results) =
        AppletResult.bodies [result] + run.bodies +
          (more + AppletResult.bodies (front ++ back)) := by
      rw [held, resultsMiddle]
      ac_rfl
    rw [brought]
    exact moved
  | call here errand occasion journal =>
    exact settleConserved conserved (runsResting here) rfl rfl conserved.calls
      (errand.walkTrades _)
  | @resume before s next after here occasion =>
    obtain ⟨⟨s₀, turns⟩, among⟩ := callsApart conserved.calls here
    exact settleConserved (s := { s with occasion, world := t.world }) conserved
      (runsCalls here) rfl rfl among (turns.2 _)
  | @answer before s next after here occasion released =>
    obtain ⟨⟨s₀, turns⟩, among⟩ := callsApart conserved.calls here
    exact settleConserved (s := { s with occasion, world := t.world }) conserved
      (runsCalls here) rfl rfl among (turns.2 released _)
  | @abandon before p after here =>
    have bodies := conserved.bodies
    have slates := conserved.slates
    rw [bodyStock, lent, runsCalls here] at bodies
    rw [slateStock, runsCalls here] at slates
    exact ⟨bodies, slates, conserved.clean, (callsApart conserved.calls here).2⟩
  | recycle here => exact recycleConserved conserved here
  | @make make makes =>
    refine bodiesConserved conserved ?_
    rw [AppletResult.bodiesCons, add_left_comm]
    exact AppletResult.makesTrades makes
  | @drop before result after here =>
    refine bodiesConserved conserved ?_
    rw [bodyStock, lent, here, resultsMiddle, add_left_comm]
    exact AppletResult.releaseTrades result
  | configure n m =>
    exact ⟨Stock.soundCapacity conserved.bodies n, Stock.soundCapacity conserved.slates m,
      Pool.setCapacityClean conserved.clean m, conserved.calls⟩
  | drainBodies =>
    exact ⟨Stock.soundDrain conserved.bodies, conserved.slates, conserved.clean, conserved.calls⟩
  | drainSlates =>
    exact ⟨conserved.bodies, Stock.soundDrain conserved.slates, Pool.drainClean _, conserved.calls⟩
  | outside handles globals =>
    exact ⟨conserved.bodies, conserved.slates, conserved.clean, conserved.calls⟩

theorem dealtConserved (dealt : t.Dealt) : t.Conserved := by
  induction dealt with
  | start =>
    have idle (α : Type) [Recyclable α] (capacity : Nat) :
        (⟨0, Pool.ofCapacity capacity⟩ : Stock α).Sound := ⟨Nat.zero_le _, rfl⟩
    exact ⟨idle _ _, idle _ _, (fun _ inside => nomatch inside), (fun _ inside => nomatch inside)⟩
  | next earlier deals ih => exact dealsConserved ih deals

end Traffic

/- As many bodies and as many slates are on loan in the one world as in the other. -/
structure World.Even (w v : World) : Prop where
  bodies : w.bodies.loaned = v.bodies.loaned
  slates : w.slates.loaned = v.slates.loaned

namespace World
variable {w v u : World}

theorem evenTrans (first : w.Even v) (second : v.Even u) : w.Even u :=
  ⟨first.bodies.trans second.bodies, first.slates.trans second.slates⟩

theorem recycleLoans (w : World) (r : Run) :
    (w.recycle r).bodies.loaned = w.bodies.loaned - r.bodies.card ∧
      (w.recycle r).slates.loaned = w.slates.loaned - 1 := by
  refine ⟨?_, Stock.giveCounts w.slates r.slate⟩
  have back : Stock.Trades ⟨r.bodies + 0, w.bodies⟩ ⟨0, (w.recycle r).bodies⟩ :=
    AppletResult.releaseAllTrades r.slate.held
  have counts := Stock.tradesCount back
  simp only [add_zero, Multiset.card_zero] at counts
  omega

theorem recycleEven {r q : Run}
    (bodies : w.bodies.loaned - r.bodies.card = v.bodies.loaned - q.bodies.card)
    (slates : w.slates.loaned = v.slates.loaned) : (w.recycle r).Even (v.recycle q) := by
  obtain ⟨bodiesLeft, slatesLeft⟩ := recycleLoans w r
  obtain ⟨bodiesLeft', slatesLeft'⟩ := recycleLoans v q
  exact ⟨by rw [bodiesLeft, bodiesLeft', bodies], by rw [slatesLeft, slatesLeft', slates]⟩

end World

namespace Lone

def ended (l : Lone) : World := l.world.recycle l.run

structure Leave (s t : Scene) : Prop where
  run : t.run = s.run
  even : t.world.Even s.world

/- What may become of a run: it is called, and every call is over or given up at the end of a turn;
its owner leaves its results where they are, and others leave as many loans as they find. -/
inductive Becomes (l : Lone) : Lone → Prop where
  | same : Becomes l l
  | call {m s r} (earlier : Becomes l m) (call : Errand) (occasion : Occasion)
      (comes : (call.walk ⟨m.run, occasion, m.world, m.journal⟩).Comes Leave s r) :
      Becomes l (ofScene s)
  | change {m} (earlier : Becomes l m) {run : Run} (held : run.slate.held = m.run.slate.held) :
      Becomes l { m with run }
  | others {m} (earlier : Becomes l m) {world : World} (even : world.Even m.world) :
      Becomes l { m with world }

variable {l m : Lone}

def Squares (s t : Scene) : Prop := (ofScene t).ended.Even (ofScene s).ended

theorem squaresTrans (s t u : Scene) (first : Squares s t) (second : Squares t u) : Squares s u :=
  World.evenTrans second first

theorem tradesSquares (s t : Scene) (trades : s.Trades t) : Squares s t := by
  have counts := Stock.tradesCount trades.bodies
  simp only [stock, AppletResult.bodiesNil, zero_add] at counts
  exact World.recycleEven counts (congrArg Pool.loaned trades.slates)

theorem leaveSquares (s t : Scene) (leave : Leave s t) : Squares s t := by
  refine World.recycleEven ?_ leave.even.slates
  simp only [ofScene, leave.run, leave.even.bodies]

theorem comesSquares {call : Errand} {s t : Scene} {r : Option (Except Stop (Option Outcome))}
    (comes : (call.walk s).Comes Leave t r) : Squares s t :=
  Process.guaranteesComes squaresTrans leaveSquares
    (Process.guaranteesWeaken tradesSquares (call.walkTrades s)) comes

theorem becomesEven (becomes : l.Becomes m) : m.ended.Even l.ended := by
  induction becomes with
  | same => exact ⟨rfl, rfl⟩
  | call earlier call occasion comes ih => exact World.evenTrans (comesSquares comes) ih
  | change earlier held ih =>
    refine World.evenTrans (World.recycleEven ?_ rfl) ih
    rw [Run.bodies, held, Run.bodies]
  | others earlier even ih =>
    refine World.evenTrans (World.recycleEven ?_ even.slates) ih
    rw [even.bodies]

theorem obtainEven {world : World} (clean : world.slates.Clean) (task : Task) (handle : Handle)
    (observer : Option Observer) (batch : Batch) :
    (obtain world task handle observer batch).ended.Even world := by
  have fresh := (Pool.takeClean clean).1
  have none : (obtain world task handle observer batch).run.bodies = 0 := by
    simp only [obtain, World.obtain, Run.setObserver, Run.bodies, fresh]
    rfl
  obtain ⟨bodies, slates⟩ := World.recycleLoans (obtain world task handle observer batch).world
    (obtain world task handle observer batch).run
  have taken := (Stock.takeCounts world.slates).1
  refine ⟨bodies.trans ?_, slates.trans ?_⟩
  · rw [none, Multiset.card_zero]
    exact Int.sub_zero _
  · change world.slates.take.2.loaned - 1 = _
    omega

/- Pools are conserved, whatever goes on. They keep to their capacities, in the middle of a turn as
well, and what is on loan is what runs and results outside of runs have; a walk trades with the pool
only what its run has, each body once. So once a run has been recycled, be it between two calls or
at the end of any turn of one, as many bodies and slates are on loan as before it was obtained. A
drain drops all idle objects and says how many there were. -/
theorem poolsConserved {t : Traffic} (dealt : t.Dealt) :
    (∀ b, t.bodyStock.Trades b → b.Sound) ∧ t.slateStock.Sound ∧
      (∀ (call : Errand) (s : Scene), (call.walk s).Guarantees Scene.Trades s) ∧
      (∀ (task : Task) (handle : Handle) (observer : Option Observer) (batch : Batch) (l : Lone),
        (obtain t.world task handle observer batch).Becomes l → l.ended.Even t.world) ∧
      t.world.bodies.drain.1 = t.world.bodies.size ∧ t.world.bodies.drain.2.size = 0 ∧
      t.world.slates.drain.1 = t.world.slates.size ∧ t.world.slates.drain.2.size = 0 := by
  have conserved := Traffic.dealtConserved dealt
  refine ⟨fun b trades => Stock.tradesSound trades conserved.bodies, conserved.slates,
    Errand.walkTrades, fun task handle observer batch l becomes => ?_, rfl, rfl, rfl, rfl⟩
  exact World.evenTrans (becomesEven becomes)
    (obtainEven conserved.clean task handle observer batch)

def launcherHolding : Traffic :=
  { Traffic.start with world := launcherWalk.state.world, resting := [launcherWalk.state.run] }

theorem launcherDealt : launcherHolding.Dealt := by
  have alone (run : Run) : [run] = [] ++ run :: [] := rfl
  have obtained := Traffic.Dealt.start.next (.obtain launcherTask launcherBatch ⟨0⟩)
  have called := obtained.next
    (.call (alone _) Errand.run (.ofBatch launcherTask launcherBatch) [])
  change (Traffic.settle ⟨(World.fresh.obtain launcherTask launcherBatch ⟨0⟩).2, [], [], []⟩
      launcherWalk).Dealt at called
  rwa [Traffic.settleOver (show launcherWalk.over = true from rfl)] at called

theorem poolsConservedLauncher :
    let l := obtain launcherHolding.world launcherTask ⟨1⟩ none launcherBatch
    let called := Errand.run.walk ⟨l.run, .ofBatch launcherTask launcherBatch, l.world, l.journal⟩
    launcherHolding.Dealt ∧ launcherHolding.lent.card = 1 ∧
      launcherHolding.world.bodies.loaned = 1 ∧ launcherHolding.world.slates.loaned = 1 ∧
      called.alone.1.world.bodies.loaned = 2 ∧
      (ofScene called.alone.1).ended.bodies.loaned = 1 := by
  intro l called
  have held : launcherHolding.lent.card = 1 := by rfl
  obtain ⟨bodies, slates, -, even, -⟩ := poolsConserved launcherDealt
  have loaned : launcherHolding.world.bodies.loaned = 1 :=
    (bodies _ .refl).counts.trans (congrArg Nat.cast held)
  have stay (s : Scene) : Leave s s := ⟨rfl, rfl, rfl⟩
  have becomes : l.Becomes (ofScene called.alone.1) :=
    .call .same Errand.run _ (Process.comesAlone stay Prod.mk.eta.symm)
  exact ⟨launcherDealt, held, loaned, slates.counts, by decide +kernel,
    (even launcherTask ⟨1⟩ none launcherBatch _ becomes).bodies.trans loaned⟩

end Lone
end Automation
