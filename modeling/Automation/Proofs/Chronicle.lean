import Automation.Proofs.Dialogue
import Automation.Proofs.Traversal
/-! Chronicles of nodes. A chronicle is all that a journal holds of one visit of a node, however
many batches it took: where it starts and ends, what its executor or its wait takes in and gives
out, which target a flow chooses on being entered, and the chronicles of its children. It need not
have come to its end: a pending one stops at the wait of a suspended run. Every applet is started
and ended at the same target. -/
namespace Automation

def FlowSpec.result (spec : FlowSpec) (target : Option Json) (last : Option AppletResult) :
    AppletResult :=
  match spec.selector, target with
  | some _, some v =>
    if last.all AppletResult.isSuccessful then
      .passingWith (match spec.fields with
        | some names => .fields v names
        | none => .plain v)
    else last.getD (.empty true)
  | _, _ => last.getD (.empty true)

inductive Deed (path : List Nat) (run : Run) (batch : Batch) :
    Applet → Journal → Option AppletResult → Prop where
  | unresolved {info check} (missing : run.expected? info = none) :
      Deed path run batch (.criterion info check) [] (some (.empty false))
  | checking {info check expected} (found : run.expected? info = some expected) :
      Deed path run batch (.criterion info check)
        [.checking path ⟨info, run.slate.target, expected, run.batch⟩] none
  | checked {info check expected} (found : run.expected? info = some expected)
      (outcome : Except ApplyError Checked) :
      Deed path run batch (.criterion info check)
        [.checking path ⟨info, run.slate.target, expected, run.batch⟩, .checked path outcome]
        (some (Executor.check.result info outcome))
  | performing {info action} :
      Deed path run batch (.action info action)
        [.performing path ⟨info, run.arguments info, run.slate.target, run.batch⟩] none
  | performed {info action} (outcome : Except ApplyError Json) :
      Deed path run batch (.action info action)
        [.performing path ⟨info, run.arguments info, run.slate.target, run.batch⟩,
          .performed path outcome]
        (some (Executor.action.result info outcome))
  | waiting {info wait} : Deed path run batch (.wait info wait) [] none
  | released {info wait event} (found : wait.find? batch.events = some event) :
      Deed path run batch (.wait info wait) [.released path event] (some (.passing event.passed))

inductive Opens (target : Option Json) (path : List Nat) (info : AppletInfo) (spec : FlowSpec) :
    Journal → Option Json → Prop where
  | plain {heard run} (started : run.slate.target = target) (plain : spec.selector = none) :
      Opens target path info spec [.notice heard .started path info run] target
  | chosen {heard run select v} (started : run.slate.target = target)
      (selector : spec.selector = some select) (selected : select run.batch = some v) :
      Opens target path info spec [.notice heard .started path info run, .selected path v] (some v)

structure Ended (target : Option Json) (result : AppletResult) (run : Run) : Prop where
  target : run.slate.target = target
  result : run.slate.result = some result

mutual
/- What the journal holds of a node that is started at `target`, and its result if it has come
to its end. -/
inductive Chronicle : Option Json → List Nat → Applet → Journal → Option AppletResult → Prop where
  | ahead {target path a} : Chronicle target path a [] none
  | leafOpen {target path a part heard run} (started : run.slate.target = target)
      (deed : Deed path run run.batch a part none) :
      Chronicle target path a (.notice heard .started path a.info run :: part) none
  | leaf {target path a part r heard run heard' run'} (started : run.slate.target = target)
      (deed : Deed path run run'.batch a part (some r)) (ended : Ended target r run') :
      Chronicle target path a
        (.notice heard .started path a.info run :: part ++
          [.notice heard' .terminated path a.info run']) (some r)
  | unavailable {target path info spec children select part heard run heard' run'}
      (started : run.slate.target = target) (selector : spec.selector = some select)
      (missing : select run.batch = none)
      (skips : Chapters target path none 0 children part (some none))
      (ended : Ended target (.empty false) run') :
      Chronicle target path (.flow info spec children)
        (.notice heard .started path info run :: part ++
          [.notice heard' .terminated path info run'])
        (some (.empty false))
  | flowOpen {target path info spec children opening inside part}
      (opens : Opens target path info spec opening inside)
      (inner : Chapters inside path none 0 children part none) :
      Chronicle target path (.flow info spec children) (opening ++ part) none
  | flow {target path info spec children opening inside part last heard run}
      (opens : Opens target path info spec opening inside)
      (inner : Chapters inside path none 0 children part (some last))
      (ended : Ended target (spec.result inside last) run) :
      Chronicle target path (.flow info spec children)
        (opening ++ part ++ [.notice heard .terminated path info run])
        (some (spec.result inside last))

inductive Chapters : Option Json → List Nat → Option AppletResult → Nat → List Applet → Journal →
    Option (Option AppletResult) → Prop where
  | ahead {target path last i children} : Chapters target path last i children [] none
  | done {target path last i} : Chapters target path last i [] [] (some last)
  | skipped {target path last i child rest part out heard run}
      (later : Chapters target path last (i + 1) rest part out) :
      Chapters target path last i (child :: rest)
        (.notice heard .skipped (path ++ [i]) child.info run :: part) out
  | visiting {target path last i child rest part}
      (inner : Chronicle target (path ++ [i]) child part none) :
      Chapters target path last i (child :: rest) part none
  | visited {target path last i child rest front r part out}
      (inner : Chronicle target (path ++ [i]) child front (some r))
      (later : Chapters target path (some r) (i + 1) rest part out) :
      Chapters target path last i (child :: rest) (front ++ part) out
end

/- A chronicle that stops at a wait. Of every flow around the wait it has the level that a
suspension leaves: the place of the child it stops in, the result of the last child before
that, and the target to restore. At the wait the target is `aim`. -/
inductive Pending : Option Json → List Nat → Applet → Journal → List Level → Option Json →
    AppletInfo → Wait → Prop where
  | wait {target path info wait heard run} (started : run.slate.target = target) :
      Pending target path (.wait info wait) [.notice heard .started path info run] [] target info
        wait
  | flow {target path info spec before child rest opening inside front part l below aim held wait}
      (opens : Opens target path info spec opening inside)
      (done : Chapters inside path none 0 before front (some l.last))
      (index : l.index = before.length) (saved : l.saved = spec.selector.map fun _ => target)
      (inner : Pending inside (path ++ [before.length]) child part below aim held wait) :
      Pending target path (.flow info spec (before ++ child :: rest)) (opening ++ (front ++ part))
        (l :: below) aim held wait

theorem chaptersAppend {target path last last' i before rest front part out}
    (first : Chapters target path last i before front (some last'))
    (second : Chapters target path last' (i + before.length) rest part out) :
    Chapters target path last i (before ++ rest) (front ++ part) out := by
  induction before generalizing last i front with
  | nil =>
    cases first
    exact second
  | cons child before ih =>
    rw [List.length_cons, Nat.add_comm before.length, ← Nat.add_assoc] at second
    cases first with
    | skipped later => exact .skipped (ih later second)
    | visited inner later =>
      rw [List.append_assoc]
      exact .visited inner (ih later second)

theorem pendingChronicle {target path a part below aim info wait}
    (pending : Pending target path a part below aim info wait) :
    Chronicle target path a part none := by
  induction pending with
  | wait started => exact .leafOpen (a := .wait ..) started .waiting
  | flow opens done index saved inner ih =>
    refine .flowOpen opens (chaptersAppend done ?_)
    rw [Nat.zero_add]
    exact .visiting ih

end Automation
