import Automation.Run.Slate
import Automation.Task
/-! Runs of tasks (`TaskRuntime`), and the world they share: cancel handles, globals, and the pools
of result bodies and slates, which are the frames of runtimes. An occasion is the task context
(`TaskContext`): what the applets of one task share while they evaluate one batch. -/
namespace Automation

structure Run where
  task : Task
  origin : Context
  batch : Batch
  handle : Handle
  slate : Slate

structure World where
  handles : Handles
  globals : Globals
  bodies : Pool ResultBody
  slates : Pool Slate

structure Occasion where
  task : Task
  batch : Batch
  arguments : Arguments

namespace World

def defaultBodies : Nat := 20

def defaultSlates : Nat := 10

def fresh : World :=
  ⟨Handles.none, Registry.empty, Pool.ofCapacity defaultBodies, Pool.ofCapacity defaultSlates⟩

def issueHandle (w : World) : Handle × World :=
  (w.handles.issue.1, { w with handles := w.handles.issue.2 })

def cancel (w : World) (h : Handle) : World := { w with handles := w.handles.cancel h }

def configurePools (w : World) (bodies slates : Nat) : World :=
  { w with bodies := w.bodies.setCapacity bodies, slates := w.slates.setCapacity slates }

def obtain (w : World) (task : Task) (batch : Batch) (handle : Handle) : Run × World :=
  let (slate, slates) := w.slates.take
  (⟨task, batch.context, batch, handle, slate⟩, { w with slates })

def recycle (w : World) (r : Run) : World :=
  { w with
    bodies := AppletResult.releaseAll r.slate.held w.bodies
    slates := w.slates.give r.slate }

end World

namespace Occasion
open Text

def ofBatch (task : Task) (batch : Batch) : Occasion := ⟨task, batch, Registry.empty⟩

def shown (o : Occasion) : String :=
  Shown.record "TaskContext"
    [("task", quoted o.task.title), ("events", String.ofList (decimal o.batch.size)),
     ("hit", String.ofList (decimal o.batch.hit))]

end Occasion

namespace Run
open Text

def fingerprint (r : Run) : UInt32 := r.slate.checksum.value

def position (r : Run) : List Nat := r.slate.cursor.position

def isActive (r : Run) (w : World) : Bool := !w.handles.isCancelled r.handle

def waitsFor? (r : Run) : Option Wait := r.slate.waiting.bind Applet.wait?

def qualifies (r : Run) (events : List Event) : Bool :=
  r.waitsFor?.any fun wait => (wait.find? events).isSome

def argument? (r : Run) (info : AppletInfo) (slot : Nat) : Option Json :=
  (info.references.name? slot).bind fun name =>
    (r.slate.referents.get? name).bind Binding.value?

def arguments (r : Run) (info : AppletInfo) : List (Option Json) :=
  (List.range info.arity).map (r.argument? info)

/- The value a criterion compares with: the argument in its first slot if it names one,
else its own. None if the named argument is unresolved. -/
def expected? (r : Run) (info : AppletInfo) : Option (Option Json) :=
  if info.references.contains 0 then (r.argument? info 0).map some else some info.value

def requireTarget (r : Run) : Except RunError Json :=
  match r.slate.target with
  | some v => .ok v
  | none => .error .noTarget

def publish (r : Run) (info : AppletInfo) (payload : Payload) : Run :=
  let referents := info.referents.rows.foldl
    (fun table row => table.insert row.2 ⟨row.1, payload⟩) r.slate.referents
  { r with slate := { r.slate with referents } }

def fold (r : Run) (v : Json) : Run :=
  { r with slate := { r.slate with checksum := Fingerprint.fold r.slate.checksum v } }

def foldAll (r : Run) (vs : List Json) : Run := vs.foldl fold r

def setTarget (r : Run) (target : Option Json) : Run :=
  { r with slate := { r.slate with target } }

def setWaiting (r : Run) (waiting : Option Applet) : Run :=
  { r with slate := { r.slate with waiting } }

def setObserver (r : Run) (observer : Option Observer) : Run :=
  { r with slate := { r.slate with observer } }

def setSuspending (r : Run) (suspending : Bool) : Run :=
  { r with slate := { r.slate with suspending } }

def setCursor (r : Run) (cursor : Cursor) : Run := { r with slate := { r.slate with cursor } }

def setApplet (r : Run) (info : AppletInfo) : Run :=
  { r with slate := { r.slate with currentApplet := some info } }

def setFlow (r : Run) (info : AppletInfo) : Run :=
  { r with slate := { r.slate with currentFlow := some info } }

/- Records the result of an applet and publishes what it carries; the result recorded
before is given back. -/
def register (r : Run) (info : AppletInfo) (result : AppletResult) (bodies : Pool ResultBody) :
    Run × Pool ResultBody :=
  let bodies := AppletResult.releaseAll r.slate.result.toList bodies
  let r := match result.published? with
    | some payload => r.publish info payload
    | none => r
  ({ r with slate := { r.slate with successful := result.isSuccessful, result := some result } },
    bodies)

def takeResult (r : Run) : Option AppletResult × Run :=
  (r.slate.result, { r with slate := { r.slate with result := none } })

def shown (r : Run) : String :=
  Shown.record "TaskRuntime"
    [("task", quoted r.task.title), ("events", String.ofList (decimal r.batch.size)),
     ("position", Shown.list (r.position.map fun i => String.ofList (decimal i))),
     ("referents", String.ofList (decimal r.slate.referents.size)),
     ("fingerprint", hexWord 8 r.fingerprint.toNat),
     ("suspending", Shown.truth r.slate.suspending)]

end Run
end Automation
