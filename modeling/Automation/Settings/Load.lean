import Automation.Settings.Variable
import Automation.Yaml.Node.Decode
/-! Settings from the text of a document, or from what is stored at a path. -/
namespace Automation.Settings
open Automation.Json (Decoded DecodeError)
open Automation.Yaml (Node)

def setField (s : Settings) (name : String) (value : Node) : Decoded Settings :=
  let count := value.decodeCount "usize"
  match name with
  | "result_pool_capacity" => count.map fun n => { s with resultPoolCapacity := n }
  | "runtime_pool_capacity" => count.map fun n => { s with runtimePoolCapacity := n }
  | "max_parked_runtimes" => count.map fun n => { s with maxParkedRuntimes := n }
  | "log_level" => (value.decodeText "a string").map fun level => { s with logLevel := level }
  | _ => .error (.unknownField name fieldNames)

def setFields (s : Settings) (seen : List String) : List (Node × Node) → Decoded Settings
  | [] => .ok s
  | (key, value) :: rest => do
    let name ← key.decodeText "field identifier"
    if seen.contains name then throw (.duplicateField name)
    let s ← s.setField name value
    setFields s (name :: seen) rest

def ofNode : Node → Decoded Settings
  | .null => .ok {}
  | node => do
    let entries ← node.decodeEntries "EngineConfig"
    setFields {} [] entries

def readDocument (env : Environment) (text : String) : Except SettingsError Node :=
  match Node.read text with
  | .ok node => expand env node
  | .error .misplaced => .error .syntaxFault
  | .error fault => .error (.malformed fault.message)

def load (env : Environment) (text : String) : Except SettingsError Settings := do
  let document ← readDocument env text
  let s ← (ofNode document).mapError fun e => .malformed e.message
  s.validate
  return s

inductive Source where
  | missing
  | directory
  | file (content : ByteArray)

def Source.text : Source → Except SettingsError String
  | missing => .error (.unreadable "No such file or directory (os error 2)")
  | directory => .error (.unreadable "Is a directory (os error 21)")
  | file content =>
    match String.fromUTF8? content with
    | some text => .ok text
    | none => .error (.unreadable "stream did not contain valid UTF-8")

def loadSource (env : Environment) (source : Source) : Except SettingsError Settings :=
  source.text.bind (load env)

def readSource (env : Environment) (source : Source) : Except SettingsError Node :=
  source.text.bind (readDocument env)

end Automation.Settings
