import Mathlib.Data.List.Chain
import Automation.Proofs.Consumption
/-! Runs that consume the same values. All that steers a walk besides what its executors answer is
either consumed or follows from what was consumed before, except for one thing: that a flow finds
no target. Two runs of a task that consume the same values, with executors that give the same
answers, invoke the same actions if no flow found a target in one of them only. -/
namespace Automation

structure Invocation where
  path : List Nat
  applet : AppletInfo
  args : List (Option Json)
  target : Option Json
  deriving DecidableEq, Repr

namespace Mark

def invoked? : Mark → Option Invocation
  | performing path input => some ⟨path, input.applet, input.args, input.target⟩
  | _ => none

def selected? : Mark → Option (List Nat)
  | selected path _ => some path
  | _ => none

def started? : Mark → Option (List Nat)
  | notice _ .started path _ => some path
  | _ => none

def checked? : Mark → Option (Except ApplyError Checked)
  | checked _ outcome => some outcome
  | _ => none

def performed? : Mark → Option (Except ApplyError Json)
  | performed _ outcome => some outcome
  | _ => none

end Mark

abbrev Record := List Mark

namespace Record

def consumed (r : Record) : List Json := r.flatMap Mark.consumed

def invoked (r : Record) : List Invocation := r.filterMap Mark.invoked?

def found (r : Record) : List (List Nat) := r.filterMap Mark.selected?

/- The applets that were started and did not go on to choose a target. -/
def missed (r : Record) : List (List Nat) :=
  (r.zip r.tail).filterMap fun (m, n) => if n.selected?.isSome then none else m.started?

/- No flow found a target in one of the records only. -/
def Even (r s : Record) : Prop :=
  (∀ path ∈ r.found, path ∉ s.missed) ∧ ∀ path ∈ s.found, path ∉ r.missed

instance (r s : Record) : Decidable (r.Even s) := inferInstanceAs (Decidable (_ ∧ _))

theorem missedNext {r before : Record} {m n : Mark} {path : List Nat}
    (inside : before ++ [m, n] <+: r) (started : m.started? = some path)
    (other : n.selected? = none) : path ∈ r.missed := by
  obtain ⟨rest, rfl⟩ := inside
  refine List.mem_filterMap.mpr ⟨(m, n), ?_, by simp [started, other]⟩
  induction before with
  | nil => simp
  | cons first before ih =>
    cases before with
    | nil => simp
    | cons second before => exact List.mem_cons_of_mem _ ih

end Record

/- What executors answer that go by nothing but their node, its declared value or its arguments,
and the target. -/
structure Answers where
  check : List Nat → Option Json → Option Json → Except ApplyError Checked
  perform : List Nat → List (Option Json) → Option Json → Except ApplyError Json

namespace Answers

def Fit (a : Answers) : Mark → Mark → Prop
  | .checking path input, n =>
    ∀ outcome ∈ n.checked?, outcome = a.check path input.expected input.target
  | .performing path input, n =>
    ∀ outcome ∈ n.performed?, outcome = a.perform path input.args input.target
  | _, _ => True

instance (a : Answers) : DecidableRel a.Fit
  | .checking .., n =>
    inferInstanceAs (Decidable (∀ outcome ∈ n.checked?, outcome = _))
  | .performing .., n =>
    inferInstanceAs (Decidable (∀ outcome ∈ n.performed?, outcome = _))
  | .notice .., _ | .selected .., _ | .checked .., _ | .performed .., _ | .released .., _ =>
    .isTrue trivial

def Given (a : Answers) (r : Record) : Prop := r.IsChain a.Fit

instance (a : Answers) (r : Record) : Decidable (a.Given r) :=
  inferInstanceAs (Decidable (r.IsChain a.Fit))

theorem givenFits {a : Answers} {r before : Record} {m n : Mark} (given : a.Given r)
    (inside : before ++ [m, n] <+: r) : a.Fit m n := by
  obtain ⟨rest, rfl⟩ := inside
  rw [Given, List.append_assoc] at given
  exact (List.isChain_append_cons_cons.mp given).2.1

end Answers

/- Two records that differ in nothing that steers a walk. -/
structure Record.Comparable (answers : Answers) (r s : Record) : Prop where
  consumed : r.consumed = s.consumed
  given : answers.Given r
  given' : answers.Given s
  even : r.Even s

namespace Passage
variable {p q : Passage}

structure Alike (p q : Passage) : Prop where
  referents : p.referents = q.referents
  successful : p.successful = q.successful
  target : p.target = q.target
  consumed : Record.consumed p.record = Record.consumed q.record
  invoked : Record.invoked p.record = Record.invoked q.record

theorem Alike.note {m n : Mark} (alike : p.Alike q) (consumed : m.consumed = n.consumed)
    (invoked : m.invoked? = n.invoked?) : (p.note m).Alike (q.note n) where
  referents := alike.referents
  successful := alike.successful
  target := alike.target
  consumed := by
    have before := alike.consumed
    simp only [Record.consumed] at before
    simp [Passage.note, Record.consumed, before, consumed]
  invoked := by
    have before := alike.invoked
    simp only [Record.invoked] at before
    simp [Passage.note, Record.invoked, before, invoked, List.filterMap_cons]

theorem Alike.moved (alike : p.Alike q) (there there' : Place) :
    (p.moved there).Alike (q.moved there') := { alike with }

theorem Alike.tell (alike : p.Alike q) (phase : Phase) (path : List Nat) (info : AppletInfo) :
    (p.tell phase path info).Alike (q.tell phase path info) := alike.note rfl rfl

theorem Alike.skipFrom (alike : p.Alike q) (path : List Nat) (i : Nat) (children : List Applet) :
    (p.skipFrom path i children).Alike (q.skipFrom path i children) := by
  induction children generalizing p q i with
  | nil => exact alike
  | cons child rest ih => exact ih (alike.tell .skipped (path ++ [i]) child.info) (i + 1)

theorem Alike.conclude (alike : p.Alike q) (path : List Nat) (info : AppletInfo)
    (result : AppletResult) : (p.conclude path info result).Alike (q.conclude path info result) := by
  unfold Passage.conclude
  refine Alike.tell ?_ .terminated path info
  cases result.published? with
  | none => exact { alike with successful := rfl }
  | some payload =>
    exact { alike with
      referents := by simp only [publish, alike.referents]
      successful := rfl }

theorem Alike.argument (alike : p.Alike q) (info : AppletInfo) (slot : Nat) :
    p.argument? info slot = q.argument? info slot := by
  simp only [argument?, alike.referents]

theorem Alike.arguments (alike : p.Alike q) (info : AppletInfo) :
    p.arguments info = q.arguments info := by
  have same : p.argument? info = q.argument? info := funext (alike.argument info)
  simp only [Passage.arguments, same]

theorem Alike.expected (alike : p.Alike q) (info : AppletInfo) :
    p.expected? info = q.expected? info := by
  simp only [expected?, alike.argument]

theorem Alike.beginCheck (alike : p.Alike q) (path : List Nat) (info : AppletInfo)
    (expected : Option Json) :
    (p.beginCheck path info expected).2.Alike (q.beginCheck path info expected).2 := by
  simp only [Passage.beginCheck, Scene.foldAllPassage]
  exact Alike.note { alike with } rfl rfl

theorem Alike.endCheck (alike : p.Alike q) (path : List Nat) (info : AppletInfo)
    (outcome : Except ApplyError Checked) :
    (p.endCheck path info outcome).1 = (q.endCheck path info outcome).1 ∧
      (p.endCheck path info outcome).2.Alike (q.endCheck path info outcome).2 := by
  have noted := alike.note (m := .checked path outcome) (n := .checked path outcome) rfl rfl
  cases outcome with
  | ok outcome => exact ⟨rfl, { noted with }⟩
  | error cause => exact ⟨rfl, noted⟩

theorem Alike.beginAction (alike : p.Alike q) (path : List Nat) (info : AppletInfo) :
    (p.beginAction path info).2.Alike (q.beginAction path info).2 := by
  simp only [Passage.beginAction, Scene.foldAllPassage]
  refine Alike.note { alike with } ?_ ?_
  · simp [Mark.consumed, alike.arguments]
  · simp [Mark.invoked?, alike.arguments, alike.target]

theorem Alike.endAction (alike : p.Alike q) (path : List Nat)
    (outcome : Except ApplyError Json) :
    (p.endAction path outcome).1 = (q.endAction path outcome).1 ∧
      (p.endAction path outcome).2.Alike (q.endAction path outcome).2 := by
  have noted := alike.note (m := .performed path outcome) (n := .performed path outcome) rfl rfl
  cases outcome <;> exact ⟨rfl, noted⟩

def aim (p : Passage) (path : List Nat) (target : Json) : Passage :=
  { p.fold target with target := some target }.note (.selected path target)

theorem Alike.aim (alike : p.Alike q) (path : List Nat) (target : Json) :
    (p.aim path target).Alike (q.aim path target) :=
  Alike.note { alike with target := rfl } rfl rfl

theorem Alike.release (alike : p.Alike q) (path : List Nat) {e f : Event}
    (same : e.passed = f.passed) : (p.release path e).Alike (q.release path f) :=
  Alike.note { alike with } (congrArg ([·]) same) rfl

theorem endCheckRecord (p : Passage) (path : List Nat) (info : AppletInfo)
    (outcome : Except ApplyError Checked) :
    (p.endCheck path info outcome).2.record = p.record ++ [.checked path outcome] := by
  cases outcome <;> rfl

theorem endActionRecord (p : Passage) (path : List Nat) (outcome : Except ApplyError Json) :
    (p.endAction path outcome).2.record = p.record ++ [.performed path outcome] := by
  cases outcome <;> rfl

variable {r s : Record} {answers : Answers}

theorem Alike.next {m n : Mark} {v w : Json} (alike : p.Alike q)
    (same : Record.consumed r = Record.consumed s)
    (grown : (p.note m).record <+: r) (grown' : (q.note n).record <+: s)
    (one : m.consumed = [v]) (other : n.consumed = [w]) : v = w := by
  obtain ⟨rest, rfl⟩ := grown
  obtain ⟨rest', rfl⟩ := grown'
  have before := alike.consumed
  simp only [Record.consumed, Passage.note, List.flatMap_append, List.append_assoc] at same before
  rw [before, List.append_cancel_left_eq] at same
  simp [one, other] at same
  exact same.1

end Passage

namespace Straight
variable {α β : Type} {r s : Record} {answers : Answers} {p q p' q' : Passage}

def Lockstep (r s : Record) (m : Straight α) : Prop :=
  ∀ ⦃p q p' q' : Passage⦄ ⦃a b : α⦄, p.Alike q → m p = (.ok a, p') → m q = (.ok b, q') →
    p'.record <+: r → q'.record <+: s → a = b ∧ p'.Alike q'

theorem changeLockstep {f : Passage → Passage} (alike : ∀ p q, p.Alike q → (f p).Alike (f q)) :
    Lockstep r s (change f) := by
  intro p q p' q' a b before came came' _ _
  cases came
  cases came'
  exact ⟨rfl, alike p q before⟩

theorem thenOk {m : Straight α} {f : α → Straight β} {b : β} (came : (m >>= f) p = (.ok b, q)) :
    ∃ a t, m p = (.ok a, t) ∧ f a t = (.ok b, q) :=
  nextOk ((thenNext m f p).symm.trans came)

theorem andThenLockstep {m : Straight α} {f : α → Straight β} (first : Lockstep r s m)
    (second : ∀ a, Lockstep r s (f a)) (made : ∀ a, Made (f a)) : Lockstep r s (m >>= f) := by
  intro p q p' q' b c alike came came' inside inside'
  obtain ⟨a, t, one, onward⟩ := thenOk came
  obtain ⟨a', t', one', onward'⟩ := thenOk came'
  have grows := madeGrows (made a) onward
  have grows' := madeGrows (made a') onward'
  obtain ⟨rfl, same⟩ := first alike one one' (grows.trans inside) (grows'.trans inside')
  exact second a same onward onward' inside inside'

theorem judgeOk {path : List Nat} {info : AppletInfo} {check : Check} {result : AppletResult}
    (came : judge path info check p = (.ok result, p')) :
    p.expected? info = none ∧ result = .empty false ∧ p' = p ∨
      ∃ expected outcome there, p.expected? info = some expected ∧
        ((p.beginCheck path info expected).2.moved there).endCheck path info outcome =
          (result, p') := by
  unfold judge at came
  obtain ⟨found, t, red, onward⟩ := thenOk came
  obtain ⟨expected, rfl⟩ : p.expected? info = found ∧ p = t := by
    cases red
    exact ⟨rfl, rfl⟩
  cases found with
  | none =>
    cases onward
    exact .inl ⟨expected, rfl, rfl⟩
  | some value =>
    obtain ⟨input, u, begun, performing⟩ := thenOk onward
    cases begun
    obtain ⟨outcome, v, performed, ended⟩ := thenOk performing
    obtain ⟨there, same⟩ := performMoves (check (p.beginCheck path info value).1)
      (p.beginCheck path info value).2
    rw [performed] at same
    cases same
    cases ended
    exact .inr ⟨value, outcome, there, expected, rfl⟩

theorem carryOutOk {path : List Nat} {info : AppletInfo} {action : Action} {result : AppletResult}
    (came : carryOut path info action p = (.ok result, p')) :
    ∃ outcome there,
      ((p.beginAction path info).2.moved there).endAction path outcome = (result, p') := by
  unfold carryOut at came
  obtain ⟨input, t, begun, performing⟩ := thenOk came
  cases begun
  obtain ⟨outcome, u, performed, ended⟩ := thenOk performing
  obtain ⟨there, same⟩ := performMoves (action (p.beginAction path info).1)
    (p.beginAction path info).2
  rw [performed] at same
  cases same
  cases ended
  exact ⟨outcome, there, rfl⟩

section
variable {there : Passage.Place} {path : List Nat} {info : AppletInfo} {result : AppletResult}

theorem askedCheck {expected : Option Json} {outcome : Except ApplyError Checked}
    (given : answers.Given r)
    (ended : ((p.beginCheck path info expected).2.moved there).endCheck path info outcome =
      (result, p')) (inside : p'.record <+: r) :
    outcome = answers.check path expected p.target := by
  have record := Passage.endCheckRecord ((p.beginCheck path info expected).2.moved there) path info
    outcome
  rw [ended] at record
  simp only [Passage.beginCheck, Passage.moved, Scene.foldAllPassage, Passage.note, List.append_assoc,
    List.singleton_append] at record
  rw [record] at inside
  exact Answers.givenFits given inside outcome rfl

theorem askedAction {outcome : Except ApplyError Json} (given : answers.Given r)
    (ended : ((p.beginAction path info).2.moved there).endAction path outcome = (result, p'))
    (inside : p'.record <+: r) :
    outcome = answers.perform path (p.arguments info) p.target := by
  have record := Passage.endActionRecord ((p.beginAction path info).2.moved there) path outcome
  rw [ended] at record
  simp only [Passage.beginAction, Passage.moved, Scene.foldAllPassage, Passage.note, List.append_assoc,
    List.singleton_append] at record
  rw [record] at inside
  exact Answers.givenFits given inside outcome rfl

end

theorem judgeLockstep (given : answers.Given r) (given' : answers.Given s) (path : List Nat)
    (info : AppletInfo) (check : Check) : Lockstep r s (judge path info check) := by
  intro p q p' q' a b alike came came' inside inside'
  have same := alike.expected info
  rcases judgeOk came with ⟨none, rfl, rfl⟩ | ⟨expected, outcome, there, found, ended⟩ <;>
    rcases judgeOk came' with ⟨none', rfl, rfl⟩ | ⟨expected', outcome', there', found', ended'⟩
  · exact ⟨rfl, alike⟩
  · simp [none, found'] at same
  · simp [found, none'] at same
  · obtain rfl : expected = expected' := by simpa [found, found'] using same
    have answer := askedCheck given ended inside
    have answer' := askedCheck given' ended' inside'
    obtain rfl : outcome = outcome' := by rw [answer, answer', alike.target]
    have begun := (alike.beginCheck path info expected).moved there there'
    have both := begun.endCheck path info outcome
    rw [ended, ended'] at both
    exact both

theorem carryOutLockstep (given : answers.Given r) (given' : answers.Given s) (path : List Nat)
    (info : AppletInfo) (action : Action) : Lockstep r s (carryOut path info action) := by
  intro p q p' q' a b alike came came' inside inside'
  obtain ⟨outcome, there, ended⟩ := carryOutOk came
  obtain ⟨outcome', there', ended'⟩ := carryOutOk came'
  have answer := askedAction given ended inside
  have answer' := askedAction given' ended' inside'
  obtain rfl : outcome = outcome' := by rw [answer, answer', alike.target, alike.arguments]
  have begun := (alike.beginAction path info).moved there there'
  have both := begun.endAction path outcome
  rw [ended, ended'] at both
  exact both

theorem awaitOk {path : List Nat} {info : AppletInfo} {wait : Wait} {result : AppletResult}
    (came : await path info wait p = (.ok result, p')) :
    ∃ event there, result = .passing event.passed ∧ p' = (p.moved there).release path event := by
  unfold await at came
  split at came
  · cases came
    exact ⟨_, p.place, rfl, rfl⟩
  · split at came
    · cases came
      exact ⟨_, ⟨p.handles, p.globals, _, _⟩, rfl, rfl⟩
    · cases came

theorem awaitLockstep (same : r.consumed = s.consumed) (path : List Nat) (info : AppletInfo)
    (wait : Wait) : Lockstep r s (await path info wait) := by
  intro p q p' q' a b alike came came' inside inside'
  obtain ⟨event, there, rfl, rfl⟩ := awaitOk came
  obtain ⟨event', there', rfl, rfl⟩ := awaitOk came'
  have moved := alike.moved there there'
  have passed : event.passed = event'.passed :=
    moved.next (m := .released path event) (n := .released path event') same inside inside' rfl rfl
  exact ⟨congrArg AppletResult.passing passed, moved.release path passed⟩

theorem leaveTarget (spec : FlowSpec) (saved : Option (Option Json)) (last : Option AppletResult)
    (target : Option Json) : ∃ result, ∀ p : Passage, p.target = target →
      leave spec saved last p = (.ok result, { p with target := saved.getD target }) := by
  unfold leave
  cases saved with
  | none =>
    refine ⟨last.getD (.empty true), fun p same => ?_⟩
    subst same
    rfl
  | some old =>
    cases target with
    | none => exact ⟨last.getD (.empty true), fun p same => by simp only [same, Option.getD_some]⟩
    | some target =>
      cases succeeded : last.all AppletResult.isSuccessful with
      | true => exact ⟨_, fun p same => by simp only [same, if_true, Option.getD_some]; rfl⟩
      | false => exact ⟨_, fun p same => by simp [same]; rfl⟩

theorem leaveLockstep (spec : FlowSpec) (saved : Option (Option Json))
    (last : Option AppletResult) : Lockstep r s (leave spec saved last) := by
  intro p q p' q' a b alike came came' _ _
  obtain ⟨result, left⟩ := leaveTarget spec saved last p.target
  rw [left p rfl] at came
  rw [left q alike.target.symm] at came'
  cases came
  cases came'
  exact ⟨rfl, { alike with target := rfl }⟩

theorem concludeLockstep (path : List Nat) (info : AppletInfo) (result : AppletResult) :
    Lockstep r s (conclude path info result) := by
  intro p q p' q' a b alike came came' _ _
  cases came
  cases came'
  exact ⟨rfl, alike.conclude path info result⟩

theorem chooseOk {path : List Nat} {spec : FlowSpec} {found : Option (Option (Option Json))}
    (came : choose path spec p = (.ok found, p')) :
    spec.selector = none ∧ found = some none ∧ p' = p ∨
      spec.selector ≠ none ∧ (found = none ∧ p' = p ∨
        ∃ target, found = some (some p.target) ∧ p' = p.aim path target) := by
  unfold choose at came
  split at came
  · rename_i absent
    cases came
    exact .inl ⟨absent, rfl, rfl⟩
  · rename_i select present
    refine .inr ⟨by simp [present], ?_⟩
    split at came
    · cases came
      exact .inl ⟨rfl, rfl⟩
    · cases came
      exact .inr ⟨_, rfl, rfl⟩

theorem concludeRecord (p : Passage) (path : List Nat) (info : AppletInfo)
    (result : AppletResult) : (p.conclude path info result).record =
      p.record ++ [.notice p.observer .terminated path info] := by
  unfold Passage.conclude
  cases result.published? <;> rfl

section
variable {path : List Nat} {info : AppletInfo} {children : List Applet}
  {onward : Option (Option Json) → Straight AppletResult} {result : AppletResult}

theorem pursueMissed
    (came : pursue path info children onward none (p.tell .started path info) = (.ok result, p'))
    (inside : p'.record <+: r) : path ∈ r.missed := by
  obtain ⟨_, t, skipped, ended⟩ := thenOk came
  cases skipped
  cases ended
  obtain ⟨phase, place, who, grown⟩ : ∃ phase place who, p.record ++
      [.notice p.observer .started path info, .notice p.observer phase place who] <+: r := by
    cases children with
    | nil =>
      rw [concludeRecord] at inside
      refine ⟨.terminated, path, info, ?_⟩
      simpa [Passage.skipFrom, Passage.tell, Passage.note] using inside
    | cons child rest =>
      have told := ((Passage.skipFromAccounts _ path 1 rest).trans
        (Passage.concludeAccounts _ path info _)).grows.trans inside
      refine ⟨.skipped, path ++ [0], child.info, ?_⟩
      simpa [Passage.tell, Passage.note] using told
  exact Record.missedNext grown rfl rfl

theorem pursueFound {target : Json} {saved : Option (Option Json)} (made : Made (onward saved))
    (came : onward saved (p.aim path target) = (.ok result, p')) (inside : p'.record <+: r) :
    path ∈ r.found := by
  obtain ⟨rest, rfl⟩ := (madeGrows made came).trans inside
  simp [Record.found, Passage.aim, Passage.note, Mark.selected?]

theorem flowLockstep (comparable : r.Comparable answers s) (spec : FlowSpec)
    (made : ∀ saved, Made (onward saved)) (chosen : ∀ saved, Lockstep r s (onward saved)) :
    Lockstep r s (do
      change fun p => p.tell .started path info
      let target ← choose path spec
      pursue path info children onward target) := by
  intro p q p' q' a b alike came came' inside inside'
  obtain ⟨_, _, told, choosing⟩ := thenOk came
  obtain ⟨_, _, told', choosing'⟩ := thenOk came'
  cases told
  cases told'
  have started := alike.tell .started path info
  obtain ⟨found, t, chose, pursued⟩ := thenOk choosing
  obtain ⟨found', t', chose', pursued'⟩ := thenOk choosing'
  rcases chooseOk chose with ⟨absent, rfl, rfl⟩ | ⟨present, ⟨rfl, rfl⟩ | ⟨target, rfl, rfl⟩⟩ <;>
    rcases chooseOk chose' with
      ⟨absent', rfl, rfl⟩ | ⟨present', ⟨rfl, rfl⟩ | ⟨target', rfl, rfl⟩⟩
  · exact chosen none started pursued pursued' inside inside'
  · exact absurd absent present'
  · exact absurd absent present'
  · exact absurd absent' present
  -- No target in either.
  · obtain ⟨_, _, skipped, ended⟩ := thenOk pursued
    obtain ⟨_, _, skipped', ended'⟩ := thenOk pursued'
    cases skipped
    cases skipped'
    have both := started.skipFrom path 0 children
    exact concludeLockstep path info _ both ended ended' inside inside'
  · exact absurd (pursueMissed pursued inside)
      (comparable.even.2 path (pursueFound (made _) pursued' inside'))
  · exact absurd absent' present
  · exact absurd (pursueMissed pursued' inside')
      (comparable.even.1 path (pursueFound (made _) pursued inside))
  -- A target in both, and consumed by both.
  · have grown := (madeGrows (made _) pursued).trans inside
    have grown' := (madeGrows (made _) pursued').trans inside'
    obtain rfl : target = target' := started.next comparable.consumed grown grown' rfl rfl
    have saved : (p.tell .started path info).target = (q.tell .started path info).target :=
      started.target
    rw [← saved] at pursued'
    exact chosen _ (started.aim path target) pursued pursued' inside inside'

end

theorem madeLockstep (comparable : r.Comparable answers s) {m : Straight α} (made : Made m) :
    Lockstep r s m := by
  induction made with
  | pure a =>
    intro p q p' q' b c alike came came' _ _
    cases came
    cases came'
    exact ⟨rfl, alike⟩
  | active =>
    intro p q p' q' b c alike came came' _ _
    unfold ensureActive at came came'
    split at came
    · split at came'
      · cases came
        cases came'
        exact ⟨rfl, alike⟩
      · cases came'
    · cases came
  | tell phase path info => exact changeLockstep fun p q alike => alike.tell phase path info
  | skipFrom path i children =>
    exact changeLockstep fun p q alike => alike.skipFrom path i children
  | judge path info check => exact judgeLockstep comparable.given comparable.given' path info check
  | carryOut path info action =>
    exact carryOutLockstep comparable.given comparable.given' path info action
  | await path info wait => exact awaitLockstep comparable.consumed path info wait
  | leave spec saved last => exact leaveLockstep spec saved last
  | conclude path info result => exact concludeLockstep path info result
  | flow path info spec children made ih => exact flowLockstep comparable spec made ih
  | andThen first second ihFirst ihSecond => exact andThenLockstep ihFirst ihSecond second

end Straight

structure Start where
  world : World
  clean : world.slates.Clean
  handle : Handle
  observer : Option Observer
  first : Batch
  later : List Batch

namespace Start
variable (s t : Start) (task : Task)

def drive : Lone × List Return :=
  Lone.drive (Lone.obtain s.world task s.handle s.observer s.first) s.first s.later

def run : Run := (s.drive task).1.run

def journal : Journal := (s.drive task).1.journal

def record : Record := (s.journal task).map Entry.mark

def Completes : Prop := some (.ok .completed) ∈ (s.drive task).2

instance : Decidable (s.Completes task) := inferInstanceAs (Decidable (_ ∈ _))

def passage : Passage := .start task s.handle s.observer s.world s.first s.later

theorem driveAgrees : Lone.Agrees (s.drive task) (Straight.walk task (s.passage task)) :=
  Lone.driveAgrees s.clean task s.handle s.observer s.first s.later

theorem passagesAlike : (s.passage task).Alike (t.passage task) := ⟨rfl, rfl, rfl, rfl, rfl⟩

end Start

/- Runs that consumed the same values and found the same targets have invoked the same actions, in
the same order and with the same arguments and targets, and have ended with the same success. -/
theorem Start.duplicatesInvoke {s t : Start} {task : Task} {answers : Answers}
    (completes : s.Completes task) (completes' : t.Completes task)
    (given : answers.Given (s.record task)) (given' : answers.Given (t.record task))
    (consumed : (s.journal task).consumed = (t.journal task).consumed)
    (even : (s.record task).Even (t.record task)) :
    (s.record task).invoked = (t.record task).invoked ∧
      (s.run task).slate.successful = (t.run task).slate.successful ∧
      (s.run task).fingerprint = (t.run task).fingerprint := by
  have agrees := s.driveAgrees task
  have agrees' := t.driveAgrees task
  obtain ⟨a, done⟩ := (Lone.agreesCompleted agrees).mp completes
  obtain ⟨b, done'⟩ := (Lone.agreesCompleted agrees').mp completes'
  have comparable : (s.record task).Comparable answers (t.record task) :=
    { consumed := by
        rw [← Journal.markConsumed, ← Journal.markConsumed] at consumed
        exact consumed
      given, given', even }
  have prints := Lone.fingerprintConsumed s.clean task s.handle s.observer s.first s.later
  have prints' := Lone.fingerprintConsumed t.clean task t.handle t.observer t.first t.later
  obtain ⟨-, alike⟩ := Straight.madeLockstep comparable (Straight.walkMade task)
    (s.passagesAlike t task) (Prod.ext done rfl) (Prod.ext done' rfl)
    (agrees.record ▸ List.prefix_rfl) (agrees'.record ▸ List.prefix_rfl)
  refine ⟨?_, ?_, ?_⟩
  · have invoked := alike.invoked
    rw [← agrees.record, ← agrees'.record] at invoked
    exact invoked
  · exact agrees.successful.trans (alike.successful.trans agrees'.successful.symm)
  · refine prints.trans ((congrArg _ (congrArg _ ?_)).trans prints'.symm)
    exact consumed

namespace Start

theorem freshClean : World.fresh.slates.Clean := fun _ inside => nomatch inside

def launched (observer : Option Observer) (later : List Batch) : Start :=
  ⟨World.fresh, freshClean, ⟨0⟩, observer, Lone.launcherBatch, later⟩

def launcherAnswers : Answers :=
  ⟨fun _ _ _ => .ok ⟨true, .str "com.example.launcher"⟩, fun _ _ _ => .ok .null⟩

theorem duplicatesInvokeLauncher :
    let s := launched none Lone.launcherBatches
    let t := launched (some ⟨"t"⟩) (Lone.launcherBatches.drop 1)
    s.Completes Lone.launcherTask ∧ t.Completes Lone.launcherTask ∧
      launcherAnswers.Given (s.record Lone.launcherTask) ∧
      launcherAnswers.Given (t.record Lone.launcherTask) ∧
      (s.journal Lone.launcherTask).consumed = (t.journal Lone.launcherTask).consumed ∧
      (s.record Lone.launcherTask).Even (t.record Lone.launcherTask) ∧
      (s.record Lone.launcherTask).invoked = (t.record Lone.launcherTask).invoked := by
  intro s t
  have completes : s.Completes Lone.launcherTask := by decide +kernel
  have completes' : t.Completes Lone.launcherTask := by decide +kernel
  have given : launcherAnswers.Given (s.record Lone.launcherTask) := by decide +kernel
  have given' : launcherAnswers.Given (t.record Lone.launcherTask) := by decide +kernel
  have consumed : (s.journal Lone.launcherTask).consumed =
      (t.journal Lone.launcherTask).consumed := by decide +kernel
  have even : (s.record Lone.launcherTask).Even (t.record Lone.launcherTask) := by decide +kernel
  exact ⟨completes, completes', given, given', consumed, even,
    (duplicatesInvoke completes completes' given given' consumed even).1⟩

def part (i : Nat) : Applet :=
  .flow { id := .unregistered }
    { kind := .container, selector := some fun b => (b.events[i]?).bind Event.payload }
    [.action { id := .unregistered } fun _ => .done (.ok .null)]

def twoParts : Task := ⟨{ title := "Parts" }, Sample.flow .root [part 0, part 1], rfl, rfl⟩

def pair (first second : Option Json) : Batch :=
  let event (payload : Option Json) : Event :=
    ⟨⟨"x"⟩, payload, ⟨Sample.start, 0⟩, Context.fresh (Ulid.make 0 0)⟩
  ⟨[event first, event second], 0, Context.fresh (Ulid.make 0 1), Nat.zero_lt_two⟩

def partsWith (b : Batch) : Start := ⟨World.fresh, freshClean, ⟨0⟩, none, b, []⟩

/- A target that is missing leaves no trace in the fingerprint: one run acts on the first event and
the other one on the second, both consume the same value, and the dispatcher takes the second run
for a duplicate of the first. -/
theorem duplicatesDiffer :
    let one := pair (some (.int 7)) none
    let other := pair none (some (.int 7))
    let s := partsWith one
    let t := partsWith other
    let answers : Answers := ⟨fun _ _ _ => .error (.platform ""), fun _ _ _ => .ok .null⟩
    let d := ((Dispatcher.ofSettings {} World.fresh none).register twoParts).2
    s.Completes twoParts ∧ t.Completes twoParts ∧ answers.Given (s.record twoParts) ∧
      answers.Given (t.record twoParts) ∧
      (s.journal twoParts).consumed = (t.journal twoParts).consumed ∧
      (((d.dispatch one).dispatcher.dispatch other).runs.map TaskRun.duplicate) = [true] ∧
      (s.record twoParts).invoked ≠ (t.record twoParts).invoked := by
  decide +kernel

end Start
end Automation
