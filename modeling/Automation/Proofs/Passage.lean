import Automation.Run.Walk
/-! Walks without a break. A passage is what the evaluator would work on if it never suspended: on
reaching a wait it looks through the batches ahead, throws away those that hold nothing the wait
accepts, and goes on in place with the first one that does. There are no levels, no cursor and no
pools; the chain among the children of a flow, the result of its last child and the target to
restore are passed down the recursion. -/
namespace Automation

inductive Mark where
  | notice (heard : Option Observer) (phase : Phase) (path : List Nat) (applet : AppletInfo)
  | selected (path : List Nat) (target : Json)
  | checking (path : List Nat) (input : CheckInput)
  | checked (path : List Nat) (outcome : Except ApplyError Checked)
  | performing (path : List Nat) (input : ActionInput)
  | performed (path : List Nat) (outcome : Except ApplyError Json)
  | released (path : List Nat) (event : Event)

def Entry.mark : Entry → Mark
  | .notice heard phase path applet _ => .notice heard phase path applet
  | .selected path target => .selected path target
  | .checking path input => .checking path input
  | .checked path outcome => .checked path outcome
  | .performing path input => .performing path input
  | .performed path outcome => .performed path outcome
  | .released path event => .released path event

inductive Halt where
  | cancelled
  | panicked
  | stuck
  | outOfBatches (path : List Nat) (info : AppletInfo) (wait : Wait)

structure Passage where
  handle : Handle
  occasion : Occasion
  ahead : List Batch
  handles : Handles
  globals : Globals
  observer : Option Observer
  referents : Referents
  checksum : Checksum
  successful : Bool
  target : Option Json
  record : List Mark

namespace AppletResult

def passing (returned : Json) : AppletResult :=
  if returned.isNull then empty true else pooled ⟨true, some (.plain returned), none, none⟩

def passingWith (returned : Payload) : AppletResult := pooled ⟨true, some returned, none, none⟩

def failing (actual : Json) : AppletResult :=
  if actual.isNull then empty false else pooled ⟨false, none, some actual, none⟩

def failingBy (cause : ApplyError) : AppletResult := pooled ⟨false, none, none, some cause⟩

end AppletResult

namespace Passage

def start (task : Task) (handle : Handle) (observer : Option Observer) (world : World)
    (batch : Batch) (ahead : List Batch) : Passage :=
  { handle, occasion := .ofBatch task batch, ahead, observer
    handles := world.handles, globals := world.globals
    referents := Table.empty, checksum := Checksum.start
    successful := true, target := none, record := [] }

def isActive (p : Passage) : Bool := !p.handles.isCancelled p.handle

def note (p : Passage) (mark : Mark) : Passage := { p with record := p.record ++ [mark] }

def tell (p : Passage) (phase : Phase) (path : List Nat) (info : AppletInfo) : Passage :=
  p.note (.notice p.observer phase path info)

def fold (p : Passage) (v : Json) : Passage :=
  { p with checksum := Fingerprint.fold p.checksum v }

def foldAll (p : Passage) (vs : List Json) : Passage := vs.foldl fold p

def argument? (p : Passage) (info : AppletInfo) (slot : Nat) : Option Json :=
  (info.references.name? slot).bind fun name => (p.referents.get? name).bind Binding.value?

def arguments (p : Passage) (info : AppletInfo) : List (Option Json) :=
  (List.range info.arity).map (p.argument? info)

def expected? (p : Passage) (info : AppletInfo) : Option (Option Json) :=
  if info.references.contains 0 then (p.argument? info 0).map some else some info.value

def publish (p : Passage) (info : AppletInfo) (payload : Payload) : Passage :=
  let referents := info.referents.rows.foldl
    (fun table row => table.insert row.2 ⟨row.1, payload⟩) p.referents
  { p with referents }

def conclude (p : Passage) (path : List Nat) (info : AppletInfo) (result : AppletResult) :
    Passage :=
  let p := match result.published? with
    | some payload => p.publish info payload
    | none => p
  { p with successful := result.isSuccessful }.tell .terminated path info

def beginCheck (p : Passage) (path : List Nat) (info : AppletInfo) (expected : Option Json) :
    CheckInput × Passage :=
  let p := p.foldAll expected.toList
  let input := ⟨info, p.target, expected, p.occasion.batch⟩
  (input, p.note (.checking path input))

def endCheck (p : Passage) (path : List Nat) (info : AppletInfo)
    (outcome : Except ApplyError Checked) : AppletResult × Passage :=
  let p := p.note (.checked path outcome)
  match outcome with
  | .ok c =>
    (if c.matched != info.inverted then .passing c.actual else .failing c.actual, p.fold c.actual)
  | .error cause => (.failingBy cause, p)

def beginAction (p : Passage) (path : List Nat) (info : AppletInfo) : ActionInput × Passage :=
  let args := p.arguments info
  let p := p.foldAll (args.filterMap id)
  let input := ⟨info, args, p.target, p.occasion.batch⟩
  (input, p.note (.performing path input))

def endAction (p : Passage) (path : List Nat) (outcome : Except ApplyError Json) :
    AppletResult × Passage :=
  let p := p.note (.performed path outcome)
  match outcome with
  | .ok returned => (.passing returned, p)
  | .error cause => (.failingBy cause, p)

def skipFrom (p : Passage) (path : List Nat) (i : Nat) : List Applet → Passage
  | [] => p
  | child :: rest => (p.tell .skipped (path ++ [i]) child.info).skipFrom path (i + 1) rest

def seek (wait : Wait) : List Batch → Option (Event × Batch × List Batch)
  | [] => none
  | batch :: rest =>
    match wait.find? batch.events with
    | some event => some (event, batch, rest)
    | none => seek wait rest

def release (p : Passage) (path : List Nat) (event : Event) : Passage :=
  (p.fold event.passed).note (.released path event)

end Passage

def Straight (α : Type) : Type := Passage → Except Halt α × Passage

namespace Straight

def pure {α : Type} (a : α) : Straight α := fun p => (.ok a, p)

def bind {α β : Type} (m : Straight α) (f : α → Straight β) : Straight β := fun p =>
  match m p with
  | (.ok a, q) => f a q
  | (.error e, q) => (.error e, q)

instance : Monad Straight where
  pure := pure
  bind := bind

def act {α : Type} (f : Passage → α × Passage) : Straight α := fun p => (.ok (f p).1, (f p).2)

def change (f : Passage → Passage) : Straight Unit := fun p => (.ok (), f p)

def read {α : Type} (f : Passage → α) : Straight α := fun p => (.ok (f p), p)

def next {α β : Type} (f : α → Straight β) : Except Halt α × Passage → Except Halt β × Passage
  | (.ok a, q) => f a q
  | (.error e, q) => (.error e, q)

@[simp] theorem thenAt {α β : Type} (m : Straight α) (f : α → Straight β) (p : Passage) :
    (m >>= f) p = match m p with
      | (.ok a, q) => f a q
      | (.error e, q) => (.error e, q) := rfl

theorem thenNext {α β : Type} (m : Straight α) (f : α → Straight β) (p : Passage) :
    (m >>= f) p = next f (m p) := by
  rw [thenAt]
  rcases m p with ⟨_ | a, q⟩ <;> rfl

theorem nextNext {α β γ : Type} (f : α → Straight β) (g : β → Straight γ)
    (ref : Except Halt α × Passage) : next g (next f ref) = next (fun a => f a >>= g) ref := by
  rcases ref with ⟨_ | a, q⟩
  · rfl
  · exact (thenNext (f a) g q).symm

theorem nextOk {α β : Type} {f : α → Straight β} {ref : Except Halt α × Passage} {b : β}
    {q : Passage} (done : next f ref = (.ok b, q)) : ∃ a p, ref = (.ok a, p) ∧ f a p = (.ok b, q) := by
  rcases ref with ⟨_ | a, p⟩
  · cases done
  · exact ⟨a, p, rfl, done⟩

@[simp] theorem changeAt (f : Passage → Passage) (p : Passage) : change f p = (.ok (), f p) := rfl

def perform {α : Type} : Script α → Straight α
  | .done a, p => (.ok a, p)
  | .panic, p => (.error .panicked, p)
  | .yield next, p => perform next p
  | .pend, p => (.error .stuck, p)
  | .cancel handle next, p => perform next { p with handles := p.handles.cancel handle }
  | .haltAll next, p => perform (next 0) p
  | .global key type init next, p =>
    let (r, globals) := p.globals.obtain key type init
    perform (next r) { p with globals }
  | .argument id type init next, p =>
    let (r, arguments) := p.occasion.arguments.obtain id type init
    perform (next r) { p with occasion := { p.occasion with arguments } }
  | .pattern id text next, p =>
    let (r, arguments) := p.occasion.arguments.pattern id text
    perform (next r) { p with occasion := { p.occasion with arguments } }

def ensureActive : Straight Unit := fun p =>
  if p.isActive then (.ok (), p) else (.error .cancelled, p)

def judge (path : List Nat) (info : AppletInfo) (check : Check) : Straight AppletResult := do
  match ← read fun p => p.expected? info with
  | none => return .empty false
  | some expected =>
    let input ← act fun p => p.beginCheck path info expected
    let outcome ← perform (check input)
    act fun p => p.endCheck path info outcome

def carryOut (path : List Nat) (info : AppletInfo) (action : Action) : Straight AppletResult := do
  let input ← act fun p => p.beginAction path info
  let outcome ← perform (action input)
  act fun p => p.endAction path outcome

def await (path : List Nat) (info : AppletInfo) (wait : Wait) : Straight AppletResult := fun p =>
  match wait.find? p.occasion.batch.events with
  | some event => (.ok (.passing event.passed), p.release path event)
  | none =>
    match Passage.seek wait p.ahead with
    | some (event, batch, ahead) =>
      let p := { p with occasion := .ofBatch p.occasion.task batch, ahead }
      (.ok (.passing event.passed), p.release path event)
    | none => (.error (.outOfBatches path info wait), { p with ahead := [] })

/- The target to restore, if the flow has chosen its own; none if there is none to choose. -/
def choose (path : List Nat) (spec : FlowSpec) : Straight (Option (Option (Option Json))) :=
  fun p =>
    match spec.selector with
    | none => (.ok (some none), p)
    | some select =>
      match select p.occasion.batch with
      | none => (.ok none, p)
      | some target =>
        (.ok (some (some p.target)),
          { p.fold target with target := some target }.note (.selected path target))

def leave (spec : FlowSpec) (saved : Option (Option Json)) (last : Option AppletResult) :
    Straight AppletResult := fun p =>
  match saved with
  | none => (.ok (last.getD (.empty true)), p)
  | some old =>
    match p.target with
    | some target =>
      if last.all AppletResult.isSuccessful then
        let payload := match spec.fields with
          | some names => Payload.fields target names
          | none => Payload.plain target
        (.ok (.passingWith payload), { p with target := old })
      else (.ok (last.getD (.empty true)), { p with target := old })
    | none => (.ok (last.getD (.empty true)), { p with target := old })

def conclude (path : List Nat) (info : AppletInfo) (result : AppletResult) :
    Straight AppletResult := fun p => (.ok result, p.conclude path info result)

mutual
def visit (mode : Mode) (path : List Nat) : Applet → Straight AppletResult
  | .criterion info check => do
    change fun p => p.tell .started path info
    let result ← judge path info check
    conclude path info result
  | .action info action => do
    change fun p => p.tell .started path info
    let result ← carryOut path info action
    conclude path info result
  | .wait info wait => do
    change fun p => p.tell .started path info
    let result ← await path info wait
    conclude path info result
  | .flow info spec children => do
    change fun p => p.tell .started path info
    match ← choose path spec with
    | some saved =>
      let last ← visitFrom (spec.kind.mode mode) path .idle none 0 children
      let result ← leave spec saved last
      conclude path info result
    | none =>
      change fun p => p.skipFrom path 0 children
      conclude path info (.empty false)

def visitFrom (mode : Mode) (path : List Nat) (chain : Chain) (last : Option AppletResult)
    (i : Nat) : List Applet → Straight (Option AppletResult)
  | [] => return last
  | child :: rest => do
    ensureActive
    match chain.plan child.flowKind? with
    | .skip =>
      change fun p => p.tell .skipped (path ++ [i]) child.info
      visitFrom mode path chain last (i + 1) rest
    | .orphan =>
      change fun p => p.tell .skipped (path ++ [i]) child.info
      visitFrom mode path .idle last (i + 1) rest
    | .evaluate =>
      let result ← visit mode (path ++ [i]) child
      if mode == .guard && !result.isSuccessful && !child.flowKind?.any FlowKind.steersChain then
        change fun p => p.skipFrom path (i + 1) rest
        return some result
      else
        visitFrom mode path (.after child.flowKind? result.isSuccessful) (some result) (i + 1) rest
end

def walk (task : Task) : Straight AppletResult := do
  ensureActive
  visit .aggregate [] task.tree

def goOn (mode : Mode) (path : List Nat) (i : Nat) (child : Applet) (rest : List Applet)
    (result : AppletResult) : Straight (Option AppletResult) :=
  if mode == .guard && !result.isSuccessful && !child.flowKind?.any FlowKind.steersChain then do
    change fun p => p.skipFrom path (i + 1) rest
    return some result
  else
    visitFrom mode path (.after child.flowKind? result.isSuccessful) (some result) (i + 1) rest

def closeFlow (path : List Nat) (info : AppletInfo) (spec : FlowSpec)
    (saved : Option (Option Json)) (last : Option AppletResult) : Straight AppletResult := do
  let result ← leave spec saved last
  conclude path info result

theorem leafAt (path : List Nat) (info : AppletInfo) (m : Straight AppletResult) (p : Passage) :
    (do
      change fun p => p.tell .started path info
      let result ← m
      conclude path info result : Straight AppletResult) p =
    next (conclude path info) (m (p.tell .started path info)) := thenNext m _ _

section
variable {mode : Mode} {path : List Nat} {info : AppletInfo} {spec : FlowSpec} {chain : Chain}
  {last : Option AppletResult} {i : Nat} {child : Applet} {rest children : List Applet}
  {p : Passage}

theorem visitFromCancelled (cancelled : p.isActive = false) :
    visitFrom mode path chain last i (child :: rest) p = (.error .cancelled, p) := by
  rw [visitFrom, thenAt]
  simp [ensureActive, cancelled]

theorem visitFromSkip (active : p.isActive = true) (skip : chain.plan child.flowKind? = .skip) :
    visitFrom mode path chain last i (child :: rest) p =
      visitFrom mode path chain last (i + 1) rest (p.tell .skipped (path ++ [i]) child.info) := by
  rw [visitFrom, thenAt]
  simp [ensureActive, active, skip]

theorem visitFromOrphan (active : p.isActive = true)
    (orphan : chain.plan child.flowKind? = .orphan) :
    visitFrom mode path chain last i (child :: rest) p =
      visitFrom mode path .idle last (i + 1) rest (p.tell .skipped (path ++ [i]) child.info) := by
  rw [visitFrom, thenAt]
  simp [ensureActive, active, orphan]

theorem visitFromEvaluate (active : p.isActive = true)
    (evaluate : chain.plan child.flowKind? = .evaluate) :
    visitFrom mode path chain last i (child :: rest) p =
      next (goOn mode path i child rest) (visit mode (path ++ [i]) child p) := by
  rw [visitFrom, thenAt]
  simp only [ensureActive, active, if_true, evaluate]
  exact thenNext _ _ _

theorem visitFlowChosen {saved : Option (Option Json)} {q : Passage}
    (chosen : choose path spec (p.tell .started path info) = (.ok (some saved), q)) :
    visit mode path (.flow info spec children) p =
      next (closeFlow path info spec saved)
        (visitFrom (spec.kind.mode mode) path .idle none 0 children q) := by
  rw [visit, thenAt, changeAt]
  simp only [thenAt (choose path spec), chosen]
  exact thenNext _ _ _

theorem visitFlowUnavailable {q : Passage}
    (chosen : choose path spec (p.tell .started path info) = (.ok none, q)) :
    visit mode path (.flow info spec children) p =
      conclude path info (.empty false) (q.skipFrom path 0 children) := by
  rw [visit, thenAt, changeAt]
  simp only [thenAt (choose path spec), chosen]
  rfl

end

end Straight
end Automation
