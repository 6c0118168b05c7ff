import Automation.Run.Journal
/-! The scene of a walk is what the evaluator works on: the run, the occasion, the shared world and
the journal. Its steps are the parts of the evaluator between two awaits, such as starting and
ending an applet, trying a wait, entering and leaving a flow, and registering a result. -/
namespace Automation

structure Scene where
  run : Run
  occasion : Occasion
  world : World
  journal : Journal

namespace Scene

def isActive (s : Scene) : Bool := s.run.isActive s.world

def onRun (s : Scene) (f : Run → Run) : Scene := { s with run := f s.run }

def note (s : Scene) (entry : Entry) : Scene := { s with journal := s.journal ++ [entry] }

def tell (s : Scene) (phase : Phase) (path : List Nat) (info : AppletInfo) : Scene :=
  s.note (.notice s.run.slate.observer phase path info s.run)

def release (s : Scene) (results : List AppletResult) : Scene :=
  { s with world := { s.world with bodies := AppletResult.releaseAll results s.world.bodies } }

def makeResult (s : Scene)
    (make : Pool ResultBody → AppletResult × Pool ResultBody) : AppletResult × Scene :=
  let (result, bodies) := make s.world.bodies
  (result, { s with world := { s.world with bodies } })

def start (s : Scene) (path : List Nat) (info : AppletInfo) : Scene :=
  if s.run.slate.cursor.resuming then s
  else (s.onRun fun r => r.setApplet info).tell .started path info

def reachLeaf (s : Scene) (info : AppletInfo) : Scene :=
  s.onRun fun r => (r.setCursor r.slate.cursor.endResume).setApplet info

def finish (s : Scene) (path : List Nat) (info : AppletInfo) (result : AppletResult) : Scene :=
  let (run, bodies) := s.run.register info result s.world.bodies
  ({ s with run, world := { s.world with bodies } } : Scene).tell .terminated path info

def skipFrom (s : Scene) (path : List Nat) (i : Nat) : List Applet → Scene
  | [] => s
  | child :: rest => (s.tell .skipped (path ++ [i]) child.info).skipFrom path (i + 1) rest

def beginCheck (s : Scene) (path : List Nat) (info : AppletInfo) (expected : Option Json) :
    CheckInput × Scene :=
  let s := s.onRun fun r => r.foldAll expected.toList
  let input := ⟨info, s.run.slate.target, expected, s.occasion.batch⟩
  (input, s.note (.checking path input))

def endCheck (s : Scene) (path : List Nat) (info : AppletInfo)
    (outcome : Except ApplyError Checked) : AppletResult × Scene :=
  let s := s.note (.checked path outcome)
  match outcome with
  | .ok c =>
    let s := s.onRun fun r => r.fold c.actual
    if c.matched != info.inverted then s.makeResult (AppletResult.succeeded c.actual)
    else s.makeResult (AppletResult.failed c.actual)
  | .error cause => s.makeResult (AppletResult.failedBy cause)

def beginAction (s : Scene) (path : List Nat) (info : AppletInfo) : ActionInput × Scene :=
  let args := s.run.arguments info
  let s := s.onRun fun r => r.foldAll (args.filterMap id)
  let input := ⟨info, args, s.run.slate.target, s.occasion.batch⟩
  (input, s.note (.performing path input))

def endAction (s : Scene) (path : List Nat) (outcome : Except ApplyError Json) :
    AppletResult × Scene :=
  let s := s.note (.performed path outcome)
  match outcome with
  | .ok returned => s.makeResult (AppletResult.succeeded returned)
  | .error cause => s.makeResult (AppletResult.failedBy cause)

/- Tries a wait on the events of the run: its result, or a suspension. -/
def tryWait (s : Scene) (path : List Nat) (info : AppletInfo) (wait : Wait) :
    Option AppletResult × Scene :=
  match wait.find? s.run.batch.events with
  | some event =>
    let s := s.onRun fun r => ((r.setWaiting none).setSuspending false).fold event.passed
    let (result, s) :=
      (s.note (.released path event)).makeResult (AppletResult.succeeded event.passed)
    (some result, s)
  | none =>
    (none, s.onRun fun r => (r.setWaiting (some (.wait info wait))).setSuspending true)

def enterFlow (s : Scene) : (Nat × Bool) × Scene :=
  let c := s.run.slate.cursor
  let s := s.onRun fun r => r.setCursor c.enter
  ((c.depth, c.reenters), s.release (Cursor.held c.dropped))

def choose (s : Scene) (path : List Nat) (spec : FlowSpec) (level : Nat) : Bool × Scene :=
  match spec.selector with
  | none => (true, s)
  | some select =>
    match select s.occasion.batch with
    | none => (false, s)
    | some target =>
      let old := s.run.slate.target
      let cursor := s.run.slate.cursor.update level fun l => { l with saved := some old }
      (true, (s.onRun fun r => ((r.fold target).setTarget (some target)).setCursor cursor).note
        (.selected path target))

def exitFlow (s : Scene) (level : Nat) : Level × Scene :=
  let c := s.run.slate.cursor
  let below := c.levels.drop level
  let s := s.onRun fun r => r.setCursor (c.exit level)
  (below.headD Level.fresh, s.release (Cursor.held below.tail))

def abandonFlow (s : Scene) (path : List Nat) (children : List Applet) (level : Nat) : Scene :=
  let (left, s) := (s.skipFrom path 0 children).exitFlow level
  s.release left.last.toList

/- Leaves a finished flow. A flow that chose a target restores the old one and, if its last
child succeeded, publishes the chosen one; any other flow passes on its last result. -/
def leaveFlow (s : Scene) (spec : FlowSpec) (level : Nat) : AppletResult × Scene :=
  let (left, s) := s.exitFlow level
  match left.saved with
  | none => (left.last.getD (.empty true), s)
  | some old =>
    let selected := s.run.slate.target
    let s := s.onRun fun r => r.setTarget old
    match selected with
    | some target =>
      if left.last.all AppletResult.isSuccessful then
        let payload := match spec.fields with
          | some names => Payload.fields target names
          | none => Payload.plain target
        (s.release left.last.toList).makeResult (AppletResult.succeededWith payload)
      else (left.last.getD (.empty true), s)
    | none => (left.last.getD (.empty true), s)

def passOver (s : Scene) (level : Nat) (chain : Chain) : Scene :=
  s.onRun fun r => r.setCursor <| r.slate.cursor.update level fun l =>
    { l with index := l.index + 1, chain }

def passOn (s : Scene) (level : Nat) (kind : Option FlowKind) : Bool × Scene :=
  let result := s.run.slate.result.getD (.empty true)
  let old := (s.run.slate.cursor.levels[level]?).bind Level.last
  let s := s.onRun fun r =>
    let r := r.takeResult.2
    r.setCursor <| r.slate.cursor.update level fun l =>
      { l with
        index := l.index + 1
        chain := .after kind result.isSuccessful
        last := some result }
  (result.isSuccessful, s.release old.toList)

def unwind (s : Scene) (level : Nat) : Scene :=
  s.onRun fun r => r.setCursor (r.slate.cursor.unwind level)

end Scene
end Automation
