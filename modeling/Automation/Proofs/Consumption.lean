import Automation.Proofs.Lone
/-! What a passage folds into its fingerprint. Passages are put together from a few kinds of steps,
and each of them folds into the checksum just what it puts into the record as consumed. So the
fingerprint of a run is that of the values its journal shows, in their order. -/
namespace Automation

namespace Mark

def consumed : Mark → List Json
  | notice .. => []
  | selected _ target => [target]
  | checking _ input => input.expected.toList
  | checked _ (.ok outcome) => [outcome.actual]
  | checked _ (.error _) => []
  | performing _ input => input.args.filterMap id
  | performed .. => []
  | released _ event => [event.passed]

end Mark

theorem Entry.markConsumed (e : Entry) : e.mark.consumed = e.consumed := by
  cases e with
  | checked path outcome => cases outcome <;> rfl
  | _ => rfl

theorem Journal.markConsumed (j : Journal) :
    (j.map Entry.mark).flatMap Mark.consumed = j.consumed := by
  simp [Journal.consumed, List.flatMap_map, Entry.markConsumed]

namespace Straight
variable {α β : Type}

def pursue (path : List Nat) (info : AppletInfo) (children : List Applet)
    (onward : Option (Option Json) → Straight AppletResult) :
    Option (Option (Option Json)) → Straight AppletResult
  | some saved => onward saved
  | none => do
    change fun p => p.skipFrom path 0 children
    conclude path info (.empty false)

inductive Made : {α : Type} → Straight α → Prop where
  | pure {α : Type} (a : α) : Made (Pure.pure a : Straight α)
  | active : Made ensureActive
  | tell (phase path info) : Made (change fun p => p.tell phase path info)
  | skipFrom (path i children) : Made (change fun p => p.skipFrom path i children)
  | judge (path info check) : Made (judge path info check)
  | carryOut (path info action) : Made (carryOut path info action)
  | await (path info wait) : Made (await path info wait)
  | leave (spec saved last) : Made (leave spec saved last)
  | conclude (path info result) : Made (conclude path info result)
  | flow (path info spec children) {onward} (chosen : ∀ saved, Made (onward saved)) :
      Made (do
        change fun p => p.tell .started path info
        let target ← choose path spec
        pursue path info children onward target)
  | andThen {α β : Type} {m : Straight α} {f : α → Straight β} (first : Made m)
      (second : ∀ a, Made (f a)) : Made (m >>= f)

theorem visitFromMade {children : List Applet}
    (visits : ∀ c ∈ children, ∀ mode path, Made (visit mode path c)) (mode : Mode)
    (path : List Nat) (chain : Chain) (last : Option AppletResult) (i : Nat) :
    Made (visitFrom mode path chain last i children) := by
  induction children generalizing chain last i with
  | nil => exact .pure last
  | cons child rest ih =>
    have onward := ih fun c inside => visits c (List.mem_cons_of_mem child inside)
    rw [visitFrom]
    refine .andThen .active fun _ => ?_
    split
    · exact .andThen (.tell ..) fun _ => onward chain last (i + 1)
    · exact .andThen (.tell ..) fun _ => onward .idle last (i + 1)
    · refine .andThen (visits child List.mem_cons_self mode _) fun result => ?_
      split
      · exact .andThen (.skipFrom ..) fun _ => .pure _
      · exact onward _ _ (i + 1)

theorem visitFlow (mode : Mode) (path : List Nat) (info : AppletInfo) (spec : FlowSpec)
    (children : List Applet) : visit mode path (.flow info spec children) = (do
      change fun p => p.tell .started path info
      let target ← choose path spec
      pursue path info children (fun saved => do
        let last ← visitFrom (spec.kind.mode mode) path .idle none 0 children
        closeFlow path info spec saved last) target) := by
  rw [visit]
  refine congrArg (change _ >>= ·) (funext fun _ => congrArg (choose path spec >>= ·) ?_)
  funext target
  cases target <;> rfl

theorem visitMade (mode : Mode) (path : List Nat) (a : Applet) : Made (visit mode path a) := by
  induction a using Applet.byChildren generalizing mode path with
  | criterion info check =>
    rw [visit]
    exact .andThen (.tell ..) fun _ => .andThen (.judge ..) fun _ => .conclude ..
  | action info action =>
    rw [visit]
    exact .andThen (.tell ..) fun _ => .andThen (.carryOut ..) fun _ => .conclude ..
  | wait info wait =>
    rw [visit]
    exact .andThen (.tell ..) fun _ => .andThen (.await ..) fun _ => .conclude ..
  | flow info spec children ih =>
    have visits (c : Applet) (inside : c ∈ children) (mode : Mode) (path : List Nat) :
        Made (visit mode path c) := ih c inside mode path
    rw [visitFlow]
    refine .flow path info spec children fun saved => ?_
    refine .andThen (visitFromMade visits _ path .idle none 0) fun last => ?_
    exact .andThen (.leave ..) fun result => .conclude ..

theorem walkMade (task : Task) : Made (walk task) :=
  .andThen .active fun _ => visitMade .aggregate [] task.tree

end Straight

namespace Passage
variable {p q r : Passage}

/- From `p` to `q` the record has grown, and what has been folded is what it shows as consumed. -/
def Accounts (p q : Passage) : Prop :=
  ∃ marks : List Mark, q.record = p.record ++ marks ∧
    q.checksum = (marks.flatMap Mark.consumed).foldl Fingerprint.fold p.checksum

theorem accountsSame (record : q.record = p.record) (checksum : q.checksum = p.checksum) :
    p.Accounts q := ⟨[], by simp [record], by simp [checksum]⟩

theorem accountsMark (m : Mark) (record : q.record = p.record ++ [m])
    (checksum : q.checksum = m.consumed.foldl Fingerprint.fold p.checksum) : p.Accounts q :=
  ⟨[m], record, by simp [checksum]⟩

theorem Accounts.trans (first : p.Accounts q) (second : q.Accounts r) : p.Accounts r := by
  obtain ⟨marks, record, checksum⟩ := first
  obtain ⟨more, record', checksum'⟩ := second
  exact ⟨marks ++ more, by simp [record', record], by simp [checksum', checksum]⟩

theorem Accounts.grows (accounts : p.Accounts q) : p.record <+: q.record := by
  obtain ⟨marks, record, -⟩ := accounts
  simp [record]

structure Place where
  handles : Handles
  globals : Globals
  occasion : Occasion
  ahead : List Batch

def moved (p : Passage) (place : Place) : Passage :=
  { p with
    handles := place.handles
    globals := place.globals
    occasion := place.occasion
    ahead := place.ahead }

def place (p : Passage) : Place := ⟨p.handles, p.globals, p.occasion, p.ahead⟩

theorem tellAccounts (p : Passage) (phase : Phase) (path : List Nat) (info : AppletInfo) :
    p.Accounts (p.tell phase path info) := accountsMark _ rfl rfl

theorem skipFromAccounts (p : Passage) (path : List Nat) (i : Nat) (children : List Applet) :
    p.Accounts (p.skipFrom path i children) := by
  induction children generalizing p i with
  | nil => exact accountsSame rfl rfl
  | cons child rest ih => exact (tellAccounts p _ _ _).trans (ih _ (i + 1))

theorem concludeAccounts (p : Passage) (path : List Nat) (info : AppletInfo)
    (result : AppletResult) : p.Accounts (p.conclude path info result) := by
  unfold conclude
  refine Accounts.trans ?_ (tellAccounts _ _ _ _)
  cases result.published? <;> exact accountsSame rfl rfl

theorem beginCheckAccounts (p : Passage) (path : List Nat) (info : AppletInfo)
    (expected : Option Json) : p.Accounts (p.beginCheck path info expected).2 := by
  refine accountsMark (.checking path (p.beginCheck path info expected).1) ?_ ?_ <;>
    simp [beginCheck, Scene.foldAllPassage, note, Mark.consumed]

theorem endCheckAccounts (p : Passage) (path : List Nat) (info : AppletInfo)
    (outcome : Except ApplyError Checked) : p.Accounts (p.endCheck path info outcome).2 := by
  refine accountsMark (.checked path outcome) ?_ ?_ <;> cases outcome <;> rfl

theorem beginActionAccounts (p : Passage) (path : List Nat) (info : AppletInfo) :
    p.Accounts (p.beginAction path info).2 := by
  refine accountsMark (.performing path (p.beginAction path info).1) ?_ ?_ <;>
    simp [beginAction, Scene.foldAllPassage, note, Mark.consumed]

theorem endActionAccounts (p : Passage) (path : List Nat) (outcome : Except ApplyError Json) :
    p.Accounts (p.endAction path outcome).2 := by
  refine accountsMark (.performed path outcome) ?_ ?_ <;> cases outcome <;> rfl

theorem releaseAccounts (p : Passage) (path : List Nat) (event : Event) :
    p.Accounts (p.release path event) := accountsMark _ rfl rfl

end Passage

namespace Straight
variable {α β : Type} {p : Passage}

theorem performMoves (script : Script α) (p : Passage) :
    ∃ place, (perform script p).2 = p.moved place := by
  induction script generalizing p with
  | done a => exact ⟨p.place, rfl⟩
  | panic => exact ⟨p.place, rfl⟩
  | yield next ih => exact ih p
  | pend => exact ⟨p.place, rfl⟩
  | cancel handle next ih => exact ih { p with handles := p.handles.cancel handle }
  | haltAll next ih => exact ih 0 p
  | global key type init next ih => exact ih _ { p with globals := _ }
  | argument id type init next ih => exact ih _ { p with occasion := _ }
  | pattern id text next ih => exact ih _ { p with occasion := _ }

theorem performAccounts (script : Script α) (p : Passage) : p.Accounts (perform script p).2 := by
  obtain ⟨place, same⟩ := performMoves script p
  rw [same]
  exact Passage.accountsSame rfl rfl

theorem andThenAccounts {m : Straight α} {f : α → Straight β} (first : p.Accounts (m p).2)
    (second : ∀ a q, (m p) = (.ok a, q) → q.Accounts (f a q).2) : p.Accounts ((m >>= f) p).2 := by
  rw [thenAt]
  rcases came : m p with ⟨_ | a, q⟩
  · simpa [came] using first
  · rw [came] at first
    exact first.trans (second a q came)

theorem judgeAccounts (path : List Nat) (info : AppletInfo) (check : Check) (p : Passage) :
    p.Accounts (judge path info check p).2 := by
  unfold judge
  cases expected : p.expected? info with
  | none =>
    simp only [thenAt, read, expected]
    exact Passage.accountsSame rfl rfl
  | some value =>
    simp only [thenAt, read, expected, act]
    have begun := Passage.beginCheckAccounts p path info value
    have performed := begun.trans (performAccounts (check (p.beginCheck path info value).1) _)
    rcases came : perform (check (p.beginCheck path info value).1) (p.beginCheck path info value).2
      with ⟨_ | outcome, q⟩ <;> rw [came] at performed
    · exact performed
    · exact performed.trans (Passage.endCheckAccounts q path info outcome)

theorem carryOutAccounts (path : List Nat) (info : AppletInfo) (action : Action) (p : Passage) :
    p.Accounts (carryOut path info action p).2 := by
  unfold carryOut
  simp only [thenAt, act]
  have begun := Passage.beginActionAccounts p path info
  have performed := begun.trans (performAccounts (action (p.beginAction path info).1) _)
  rcases came : perform (action (p.beginAction path info).1) (p.beginAction path info).2
    with ⟨_ | outcome, q⟩ <;> rw [came] at performed
  · exact performed
  · exact performed.trans (Passage.endActionAccounts q path outcome)

theorem awaitAccounts (path : List Nat) (info : AppletInfo) (wait : Wait) (p : Passage) :
    p.Accounts (await path info wait p).2 := by
  unfold await
  split
  · exact Passage.releaseAccounts p path _
  · split
    · exact Passage.accountsMark (.released path _) rfl rfl
    · exact Passage.accountsSame rfl rfl

theorem chooseAccounts (path : List Nat) (spec : FlowSpec) (p : Passage) :
    p.Accounts (choose path spec p).2 := by
  unfold choose
  split
  · exact Passage.accountsSame rfl rfl
  · split
    · exact Passage.accountsSame rfl rfl
    · exact Passage.accountsMark (.selected path _) rfl rfl

theorem leaveAccounts (spec : FlowSpec) (saved : Option (Option Json)) (last : Option AppletResult)
    (p : Passage) : p.Accounts (leave spec saved last p).2 := by
  unfold leave
  repeat' split
  all_goals exact Passage.accountsSame rfl rfl

theorem madeAccounts {m : Straight α} (made : Made m) (p : Passage) : p.Accounts (m p).2 := by
  induction made generalizing p with
  | pure a => exact Passage.accountsSame rfl rfl
  | active =>
    unfold ensureActive
    split <;> exact Passage.accountsSame rfl rfl
  | tell phase path info => exact Passage.tellAccounts p phase path info
  | skipFrom path i children => exact Passage.skipFromAccounts p path i children
  | judge path info check => exact judgeAccounts path info check p
  | carryOut path info action => exact carryOutAccounts path info action p
  | await path info wait => exact awaitAccounts path info wait p
  | leave spec saved last => exact leaveAccounts spec saved last p
  | conclude path info result => exact Passage.concludeAccounts p path info result
  | flow path info spec children chosen ih =>
    refine andThenAccounts (Passage.tellAccounts p .started path info) fun _ q _ => ?_
    refine andThenAccounts (chooseAccounts path spec q) fun target t _ => ?_
    cases target with
    | some saved => exact ih saved t
    | none =>
      refine andThenAccounts (Passage.skipFromAccounts t path 0 children) fun _ u _ => ?_
      exact Passage.concludeAccounts u path info _
  | andThen first second ihFirst ihSecond =>
    exact andThenAccounts (ihFirst p) fun a q _ => ihSecond a q

theorem madeGrows {m : Straight α} (made : Made m) {q : Passage} {a : Except Halt α}
    (came : m p = (a, q)) : p.record <+: q.record := by
  have accounts := madeAccounts made p
  rw [came] at accounts
  exact accounts.grows

end Straight

namespace Lone

theorem fingerprintConsumed {world : World} (clean : world.slates.Clean) (task : Task)
    (handle : Handle) (observer : Option Observer) (first : Batch) (later : List Batch) :
    let out := drive (obtain world task handle observer first) first later
    out.1.run.fingerprint = Checksum.ofBytes (Fingerprint.stream out.1.journal.consumed) := by
  intro out
  have agrees := driveAgrees clean task handle observer first later
  obtain ⟨marks, record, checksum⟩ := Straight.madeAccounts (Straight.walkMade task)
    (.start task handle observer world first later)
  have consumed : marks.flatMap Mark.consumed = out.1.journal.consumed := by
    rw [← Journal.markConsumed, agrees.record, record]
    rfl
  rw [Run.fingerprint, agrees.checksum, checksum, consumed, Fingerprint.foldAll]
  rfl

end Lone
end Automation
