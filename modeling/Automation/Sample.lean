import Automation.Applet.Criterion
import Automation.Dispatch
/-! A sample of tasks and events: one task warns when the battery runs low, the other one
announces the window that opens after the launcher came to the front. -/
namespace Automation.Sample

def named (title : String) (id : AppletId) : AppletInfo := { id, title := some title }

def flow (kind : FlowKind) (children : List Applet) : Applet :=
  .flow { id := .unregistered } { kind } children

def onHit (children : List Applet) : Applet :=
  .flow { id := .unregistered } { kind := .container, selector := some .hitPayload } children

def slot (name : String) : Slots := Slots.ofList [(0, name)]

def below (a b : Json) : Bool :=
  match a.int64?, b.int64? with
  | some m, some n => m < n
  | _, _ => false

def announce : Action := fun input => .done ((input.requireArg 0).map fun _ => .null)

def lowBattery : Applet :=
  let check : Applet :=
    .criterion
      { named "battery below" (.make 0x20 0x0101) with
        value := some (.int 20), referents := slot "battery_level" }
      (Check.field "level" below)
  let toast : Applet :=
    .action { named "show toast" (.make 0x50 0x0001) with references := slot "battery_level" }
      announce
  flow .root [onHit [flow .ifAll [check], flow .block [toast]]]

def launcherThenWindow : Applet :=
  let inLauncher : Applet :=
    .criterion
      { named "package is" (.make 0x10 0x0001) with value := some (.str "com.example.launcher") }
      (Check.field "package" fun a b => a.same b)
  let wait : Applet :=
    .wait { named "wait for window" (.make 0x60 0x0001) with referents := slot "window" }
      (Wait.ofType ⟨"new_window"⟩)
  let toast : Applet :=
    .action { named "announce window" (.make 0x50 0x0001) with references := slot "window" }
      announce
  flow .root [flow .when [onHit [inLauncher]], flow .block [wait, toast]]

def tasks : List (String × Applet) :=
  [("Low battery", lowBattery), ("Launcher window", launcherThenWindow)]

def start : Nat := 1767225600

def batch (second : Nat) (tag : String) (payload : List (String × Json)) : Batch :=
  let context (part : Nat) : Context :=
    Context.fresh (Ulid.make ((start + second) * 1000) (2 * second + part))
  .single ⟨⟨tag⟩, some (.record payload), ⟨start + second, 0⟩, context 0⟩ (context 1)

def batches : List Batch :=
  [batch 0 "battery_changed" [("level", .int 40)],
   batch 1 "battery_changed" [("level", .int 15)],
   batch 2 "battery_changed" [("level", .int 15)],
   batch 3 "component_changed"
     [("package", .str "com.example.launcher"), ("activity", .str ".Home")],
   batch 4 "new_window" [("title", .str "Settings")]]

def dispatcher (settings : Settings) : Except DispatchError Dispatcher :=
  tasks.foldlM (fun d (title, tree) => (d.registerTree { title } tree).map Prod.snd)
    (Dispatcher.ofSettings settings World.fresh none)

end Automation.Sample
