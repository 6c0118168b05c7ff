import Automation.Proofs.Hygiene
import Mathlib.Algebra.Order.Group.Multiset
/-! Result bodies on loan. A walk has bodies from the pool on its run, as registered results and on
its levels, and, between two steps, in its hand. Every step of it takes bodies from the pool or
gives back ones that it has, each of them once, and no turn ends with anything in hand. So whatever
a walk takes and does not give back is on the run, from where it goes back in the end. -/
namespace Automation

def Pool.loaned {α : Type} (p : Pool α) : Int := p.taken - p.given

/- The objects on loan to someone, and the pool that they come from. -/
structure Stock (α : Type) where
  lent : Multiset α
  pool : Pool α

namespace Stock
variable {α : Type} [Recyclable α] {a b : Stock α}

inductive Trade : Stock α → Stock α → Prop where
  | take (lent : Multiset α) (pool : Pool α) (filled : α) :
      Trade ⟨lent, pool⟩ ⟨filled ::ₘ lent, pool.take.2⟩
  | give (lent : Multiset α) (pool : Pool α) (used : α) :
      Trade ⟨used ::ₘ lent, pool⟩ ⟨lent, pool.give used⟩

abbrev Trades : Stock α → Stock α → Prop := Relation.ReflTransGen Trade

theorem takeCounts (p : Pool α) : p.take.2.loaned = p.loaned + 1 ∧
    p.take.2.capacity = p.capacity ∧ p.take.2.size ≤ p.size := by
  have more : ((p.taken + 1 : Nat) : Int) - p.given = p.taken - p.given + 1 := by omega
  unfold Pool.take Pool.size
  cases p.idle with
  | nil => exact ⟨more, rfl, Nat.zero_le _⟩
  | cons first rest => exact ⟨more, rfl, Nat.le_succ _⟩

theorem giveCounts (p : Pool α) (used : α) : (p.give used).loaned = p.loaned - 1 := by
  simp only [Pool.loaned, Pool.give]
  omega

theorem tradesCount (trades : a.Trades b) :
    b.pool.loaned - b.lent.card = a.pool.loaned - a.lent.card := by
  induction trades with
  | refl => rfl
  | tail earlier trade ih =>
    cases trade with
    | take lent pool filled =>
      simp only [(takeCounts pool).1, Multiset.card_cons] at ih ⊢
      omega
    | give lent pool used =>
      simp only [giveCounts, Multiset.card_cons] at ih ⊢
      omega

theorem tradesSize (trades : a.Trades b) (bounded : a.pool.size ≤ a.pool.capacity) :
    b.pool.size ≤ b.pool.capacity := by
  induction trades with
  | refl => exact bounded
  | tail earlier trade ih =>
    cases trade with
    | take lent pool filled =>
      obtain ⟨-, capacity, smaller⟩ := takeCounts pool
      exact capacity ▸ smaller.trans ih
    | give lent pool used => exact Pool.giveSize pool used ih

def beside (more : Multiset α) (a : Stock α) : Stock α := ⟨a.lent + more, a.pool⟩

theorem tradesBeside (trades : a.Trades b) (more : Multiset α) :
    (a.beside more).Trades (b.beside more) := by
  induction trades with
  | refl => exact .refl
  | tail earlier trade ih =>
    refine ih.tail ?_
    cases trade with
    | take lent pool filled =>
      simp only [beside, Multiset.cons_add]
      exact .take (lent + more) pool filled
    | give lent pool used =>
      simp only [beside, Multiset.cons_add]
      exact .give (lent + more) pool used

/- The pool keeps to its capacity, and what is on loan is all here. -/
structure Sound (a : Stock α) : Prop where
  fits : a.pool.size ≤ a.pool.capacity
  counts : a.pool.loaned = a.lent.card

theorem tradesSound (trades : a.Trades b) (sound : a.Sound) : b.Sound := by
  refine ⟨tradesSize trades sound.fits, ?_⟩
  have same := tradesCount trades
  have counts := sound.counts
  omega

section
omit [Recyclable α]

theorem soundAs (sound : a.Sound) (pool : b.pool = a.pool) (card : b.lent.card = a.lent.card) :
    b.Sound :=
  ⟨by rw [pool]; exact sound.fits, by rw [pool, card]; exact sound.counts⟩

theorem soundCapacity (sound : a.Sound) (capacity : Nat) :
    Sound ⟨a.lent, a.pool.setCapacity capacity⟩ :=
  ⟨Pool.setCapacitySize a.pool capacity, sound.counts⟩

theorem soundDrain (sound : a.Sound) : Sound ⟨a.lent, a.pool.drain.2⟩ :=
  ⟨Nat.zero_le _, sound.counts⟩

end

end Stock

namespace AppletResult

def body? : AppletResult → Option ResultBody
  | empty _ => none
  | pooled body => some body

def bodies (results : List AppletResult) : Multiset ResultBody := ↑(results.filterMap body?)

@[simp] theorem bodiesNil : bodies [] = 0 := rfl

@[simp] theorem bodiesEmpty (successful : Bool) (rest : List AppletResult) :
    bodies (empty successful :: rest) = bodies rest := rfl

@[simp] theorem bodiesPooled (body : ResultBody) (rest : List AppletResult) :
    bodies (pooled body :: rest) = body ::ₘ bodies rest := rfl

@[simp] theorem bodiesAppend (left right : List AppletResult) :
    bodies (left ++ right) = bodies left + bodies right := by
  simp only [bodies, List.filterMap_append, Multiset.coe_add]

theorem bodiesCons (r : AppletResult) (rest : List AppletResult) :
    bodies (r :: rest) = bodies [r] + bodies rest := bodiesAppend [r] rest

theorem bodiesGetD (r : Option AppletResult) (successful : Bool) :
    bodies [r.getD (empty successful)] = bodies r.toList := by
  cases r <;> rfl

variable {lent : Multiset ResultBody} {pool : Bodies}

theorem releaseTrades (r : AppletResult) :
    Stock.Trades ⟨bodies [r] + lent, pool⟩ ⟨lent, r.release pool⟩ := by
  cases r with
  | empty successful =>
    rw [bodiesEmpty, bodiesNil, zero_add]
    exact .refl
  | pooled body =>
    rw [bodiesPooled, bodiesNil, Multiset.cons_add, zero_add]
    exact .single (.give lent pool body)

theorem releaseAllTrades (results : List AppletResult) :
    Stock.Trades ⟨bodies results + lent, pool⟩ ⟨lent, releaseAll results pool⟩ := by
  induction results generalizing pool with
  | nil =>
    rw [bodiesNil, zero_add]
    exact .refl
  | cons r rest ih =>
    rw [bodiesCons, add_assoc]
    exact (releaseTrades r).trans ih

theorem obtainTrades (successful : Bool) (returned : Option Payload) (actual : Option Json)
    (cause : Option ApplyError) :
    Stock.Trades ⟨lent, pool⟩ ⟨bodies [(obtain successful returned actual cause pool).1] + lent,
      (obtain successful returned actual cause pool).2⟩ := by
  rw [obtain, bodiesPooled, bodiesNil, Multiset.cons_add, zero_add]
  exact .single (.take lent pool _)

theorem makesTrades {make : Bodies → AppletResult × Bodies} (makes : Makes make) :
    Stock.Trades ⟨lent, pool⟩ ⟨bodies [(make pool).1] + lent, (make pool).2⟩ := by
  cases makes with
  | succeeded v | failed v =>
    simp only [succeeded, failed]
    split
    · rw [bodiesEmpty, bodiesNil, zero_add]
    · exact obtainTrades ..
  | succeededWith payload => exact obtainTrades ..
  | failedBy cause => exact obtainTrades ..

end AppletResult

namespace Cursor

theorem heldAppend (left right : List Level) : held (left ++ right) = held left ++ held right :=
  List.filterMap_append

theorem heldCons (l : Level) (rest : List Level) :
    held (l :: rest) = l.last.toList ++ held rest := by
  cases last : l.last <;> simp [held, last]

theorem heldModify {f : Level → Level} (same : ∀ l, (f l).last = l.last) (levels : List Level)
    (depth : Nat) : held (levels.modify depth f) = held levels := by
  induction levels generalizing depth with
  | nil => cases depth <;> rfl
  | cons l rest ih =>
    cases depth with
    | zero => rw [List.modify_zero_cons, heldCons, heldCons, same]
    | succ depth => rw [List.modify_succ_cons, heldCons, heldCons, ih]

theorem heldReplace {f : Level → Level} {here : Level} {levels : List Level} {depth : Nat}
    (found : levels[depth]? = some here) :
    AppletResult.bodies here.last.toList + AppletResult.bodies (held (levels.modify depth f)) =
      AppletResult.bodies (held levels) + AppletResult.bodies (f here).last.toList := by
  induction levels generalizing depth with
  | nil => cases found
  | cons l rest ih =>
    cases depth with
    | zero =>
      cases found
      simp only [List.modify_zero_cons, heldCons, AppletResult.bodiesAppend]
      ac_rfl
    | succ depth =>
      have later := ih (show rest[depth]? = some here from found)
      simp only [List.modify_succ_cons, heldCons, AppletResult.bodiesAppend]
      rw [add_left_comm, later, add_assoc]

end Cursor

namespace AppletResult

theorem registerTrades (r : Run) (info : AppletInfo) (result : AppletResult) (pool : Bodies) :
    Stock.Trades ⟨bodies [result] + bodies r.slate.held, pool⟩
      ⟨bodies (r.register info result pool).1.slate.held, (r.register info result pool).2⟩ := by
  have held : bodies (r.register info result pool).1.slate.held =
      bodies [result] + bodies (Cursor.held r.slate.cursor.levels) := by
    unfold Run.register
    cases result.published? <;>
      simp only [Slate.held, Option.toList_some, bodiesAppend, Run.publish] <;> rw [add_comm]
  have old : bodies [result] + bodies r.slate.held = bodies r.slate.result.toList +
      (bodies [result] + bodies (Cursor.held r.slate.cursor.levels)) := by
    simp only [Slate.held, bodiesAppend]
    ac_rfl
  rw [held, old]
  exact releaseAllTrades _

end AppletResult

namespace Scene
open AppletResult

def stock (s : Scene) (hand : List AppletResult) : Stock ResultBody :=
  ⟨bodies hand + bodies s.run.slate.held, s.world.bodies⟩

variable {s t : Scene}

theorem stockRelease (s : Scene) (results hand : List AppletResult) :
    (s.stock (results ++ hand)).Trades ((s.release results).stock hand) := by
  rw [stock, bodiesAppend, add_assoc]
  exact releaseAllTrades results

theorem stockMake (same : t.stock [] = s.stock [])
    {make : Pool ResultBody → AppletResult × Pool ResultBody} (makes : Makes make) :
    (s.stock []).Trades ((t.makeResult make).2.stock [(t.makeResult make).1]) := by
  rw [← same]
  simp only [stock, bodiesNil, zero_add]
  exact makesTrades makes

theorem stockDrop {results : List AppletResult} {run : Run}
    (off : bodies s.run.slate.held = bodies results + bodies run.slate.held) :
    (s.stock []).Trades ((({ s with run } : Scene).release results).stock []) := by
  have moved : s.stock [] = ({ s with run } : Scene).stock (results ++ []) := by
    simp only [stock, off, List.append_nil, bodiesNil, zero_add]
  rw [moved]
  exact stockRelease _ results []

theorem finishStock (s : Scene) (path : List Nat) (info : AppletInfo) (result : AppletResult) :
    (s.stock [result]).Trades ((s.finish path info result).stock []) := by
  have registers := registerTrades s.run info result s.world.bodies
  rw [← zero_add (bodies (Run.slate _).held)] at registers
  exact registers

theorem skipFromStock (s : Scene) (path : List Nat) (i : Nat) (children : List Applet) :
    (s.skipFrom path i children).stock [] = s.stock [] := by
  induction children generalizing s i with
  | nil => rfl
  | cons child rest ih => exact ih _ (i + 1)

theorem cutHeld (c : Cursor) (depth : Nat) : bodies (Cursor.held c.levels) =
    bodies (Cursor.held (c.levels.drop depth)) + bodies (Cursor.held (c.levels.take depth)) := by
  rw [add_comm, ← bodiesAppend, ← Cursor.heldAppend, List.take_append_drop]

theorem enterFlowStock (s : Scene) : (s.stock []).Trades (s.enterFlow.2.stock []) := by
  refine stockDrop ?_
  cases again : s.run.slate.cursor.reenters with
  | true => simp [Slate.held, Run.setCursor, Cursor.enter, Cursor.dropped, again, Cursor.held]
  | false =>
    have fresh : Cursor.held [Level.fresh] = [] := rfl
    simp only [Slate.held, Run.setCursor, Cursor.enter, Cursor.dropped, again, Bool.false_eq_true,
      if_false, bodiesAppend, Cursor.heldAppend, fresh, bodiesNil, add_zero,
      cutHeld s.run.slate.cursor s.run.slate.cursor.depth, add_assoc]

theorem headHeld (levels : List Level) : bodies (Cursor.held levels) =
    bodies (Cursor.held levels.tail) + bodies (levels.headD .fresh).last.toList := by
  cases levels with
  | nil => rfl
  | cons l rest =>
    rw [Cursor.heldCons, bodiesAppend, add_comm]
    rfl

theorem exitFlowStock (s : Scene) (level : Nat) :
    (s.stock []).Trades ((s.exitFlow level).2.stock (s.exitFlow level).1.last.toList) := by
  let below := s.run.slate.cursor.levels.drop level
  let left := s.onRun fun r => r.setCursor (s.run.slate.cursor.exit level)
  have cut : s.stock [] =
      left.stock (Cursor.held below.tail ++ (below.headD .fresh).last.toList) := by
    simp only [stock, left, below, onRun, Run.setCursor, Cursor.exit, Slate.held, bodiesAppend,
      bodiesNil, zero_add, ← headHeld, cutHeld s.run.slate.cursor level, add_assoc]
  rw [cut]
  exact stockRelease left _ _

theorem abandonFlowStock (s : Scene) (path : List Nat) (children : List Applet) (level : Nat) :
    (s.stock []).Trades ((s.abandonFlow path children level).stock []) := by
  have skipped := skipFromStock s path 0 children
  rw [abandonFlow]
  generalize s.skipFrom path 0 children = t at skipped ⊢
  rw [← skipped]
  refine (exitFlowStock t level).trans ?_
  have released := stockRelease (t.exitFlow level).2 (t.exitFlow level).1.last.toList []
  rwa [List.append_nil] at released

theorem leaveFlowStock (s : Scene) (spec : FlowSpec) (level : Nat) :
    (s.stock []).Trades ((s.leaveFlow spec level).2.stock [(s.leaveFlow spec level).1]) := by
  refine (exitFlowStock s level).trans ?_
  unfold leaveFlow
  generalize s.exitFlow level = exit
  obtain ⟨left, t⟩ := exit
  have passed (u : Scene) (held : u.run.slate.held = t.run.slate.held)
      (pool : u.world.bodies = t.world.bodies) :
      (t.stock left.last.toList).Trades (u.stock [left.last.getD (.empty true)]) := by
    rw [stock, stock, bodiesGetD, held, pool]
  dsimp only
  cases left.saved with
  | none => exact passed _ rfl rfl
  | some old =>
    cases t.run.slate.target with
    | none => exact passed _ rfl rfl
    | some target =>
      dsimp only
      split
      · have released := stockRelease (t.onRun fun r => r.setTarget old) left.last.toList []
        rw [List.append_nil] at released
        exact released.trans (stockMake rfl (.succeededWith _))
      · exact passed _ rfl rfl

theorem passOnStock (s : Scene) {level : Nat} {here : Level}
    (found : s.run.slate.cursor.levels[level]? = some here) (kind : Option FlowKind) :
    (s.stock []).Trades ((s.passOn level kind).2.stock []) := by
  have old : (s.run.slate.cursor.levels[level]?).bind Level.last = here.last := by rw [found]; rfl
  unfold passOn
  rw [old]
  refine stockDrop ?_
  have moved := Cursor.heldReplace (f := fun l =>
    { l with
      index := l.index + 1
      chain := .after kind (s.run.slate.result.getD (.empty true)).isSuccessful
      last := some (s.run.slate.result.getD (.empty true)) }) found
  rw [Option.toList_some, bodiesGetD] at moved
  simp only [Slate.held, Run.takeResult, Run.setCursor, Cursor.update, Option.toList_none,
    List.append_nil, bodiesAppend]
  exact moved.symm

theorem beginCheckStock (s : Scene) (path : List Nat) (info : AppletInfo) (expected : Option Json) :
    (s.beginCheck path info expected).2.stock [] = s.stock [] := by
  simp only [beginCheck, onRun, foldAllRun]
  rfl

theorem beginActionStock (s : Scene) (path : List Nat) (info : AppletInfo) :
    (s.beginAction path info).2.stock [] = s.stock [] := by
  simp only [beginAction, onRun, foldAllRun]
  rfl

theorem endCheckStock (s : Scene) (path : List Nat) (info : AppletInfo)
    (outcome : Except ApplyError Checked) : (s.stock []).Trades
      ((s.endCheck path info outcome).2.stock [(s.endCheck path info outcome).1]) := by
  cases outcome with
  | error cause => exact stockMake rfl (.failedBy cause)
  | ok c =>
    simp only [endCheck]
    split
    · exact stockMake rfl (.succeeded c.actual)
    · exact stockMake rfl (.failed c.actual)

theorem endActionStock (s : Scene) (path : List Nat) (outcome : Except ApplyError Json) :
    (s.stock []).Trades
      ((s.endAction path outcome).2.stock [(s.endAction path outcome).1]) := by
  cases outcome with
  | error cause => exact stockMake rfl (.failedBy cause)
  | ok returned => exact stockMake rfl (.succeeded returned)

theorem tryWaitStock (s : Scene) (path : List Nat) (info : AppletInfo) (wait : Wait) :
    (s.stock []).Trades
      ((s.tryWait path info wait).2.stock (s.tryWait path info wait).1.toList) := by
  simp only [tryWait]
  split
  · exact stockMake rfl (.succeeded _)
  · exact .refl

theorem updateStock {f : Level → Level} (same : ∀ l, (f l).last = l.last) (level : Nat)
    (slate : t.run.slate.held =
      Cursor.held (s.run.slate.cursor.update level f).levels ++ s.run.slate.result.toList)
    (pool : t.world.bodies = s.world.bodies) : t.stock [] = s.stock [] := by
  have held : t.run.slate.held = s.run.slate.held := by
    rw [slate, Cursor.update, Cursor.heldModify same]
    rfl
  rw [stock, stock, held, pool]

theorem chooseStock (s : Scene) (path : List Nat) (spec : FlowSpec) (level : Nat) :
    (s.choose path spec level).2.stock [] = s.stock [] := by
  simp only [choose]
  split
  · rfl
  · split
    · rfl
    · exact updateStock (f := fun l => { l with saved := some s.run.slate.target }) (fun _ => rfl)
        level rfl rfl

theorem passOverStock (s : Scene) (level : Nat) (chain : Chain) :
    (s.passOver level chain).stock [] = s.stock [] :=
  updateStock (f := fun l => { l with index := l.index + 1, chain }) (fun _ => rfl) level rfl rfl

theorem startStock (s : Scene) (path : List Nat) (info : AppletInfo) :
    (s.start path info).stock [] = s.stock [] := by
  unfold start
  split <;> rfl

end Scene
end Automation
