import Automation.Sample
import Automation.Settings.Load
/-! The command line: dispatches the sample batches to the sample tasks and prints a report
for each of them. The first argument, if there is one, is the path of the settings. -/
namespace Automation.CommandLine
open Automation.Settings (Environment Source)

def source (path : String) : IO Source := do
  try
    return .file (← IO.FS.readBinFile path)
  catch
    | .noFileOrDirectory .. => return .missing
    | .inappropriateType .. => return .directory
    | e => throw e

def environment (text : String) : IO Environment := do
  let names := match Yaml.Node.read text with
    | .ok node => Settings.variablesIn node
    | .error _ => []
  let rows ← names.mapM fun name => return (name, ← IO.getEnv name)
  return fun name => (rows.find? fun row => row.1 == name).bind Prod.snd

def load (path : String) : IO (Except SettingsError Settings) := do
  match (← source path).text with
  | .error e => return .error e
  | .ok text => return Settings.load (← environment text) text

def dispatchAll (d : Dispatcher) : List Batch → IO Dispatcher
  | [] => return d
  | batch :: rest => do
    let done := d.dispatch batch
    IO.println s!"{batch.hitEvent.type.tag} {done.report.toJson.canonical}"
    dispatchAll done.dispatcher rest

def run (settings : Settings) : IO UInt32 := do
  match Sample.dispatcher settings with
  | .error e =>
    IO.eprintln e.message
    return 1
  | .ok d =>
    let d ← dispatchAll d Sample.batches
    let (released, d) := d.haltAll
    let drained := d.world.bodies.size + d.world.slates.size
    IO.println s!"released {released} drained {drained}"
    return 0

end Automation.CommandLine

open Automation in
def main (args : List String) : IO UInt32 := do
  match args with
  | [] => CommandLine.run {}
  | path :: _ => match ← CommandLine.load path with
    | .ok settings => CommandLine.run settings
    | .error e =>
      IO.eprintln (e.message path)
      return 1
