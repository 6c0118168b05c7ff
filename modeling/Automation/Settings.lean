import Automation.Json.Decode
/-! Settings of the dispatcher and its pools. A record of settings names no other fields,
and each of its fields has a default. -/
namespace Automation

structure Settings where
  resultPoolCapacity : Nat := 20
  runtimePoolCapacity : Nat := 10
  logLevel : String := "info"
  maxParkedRuntimes : Nat := 64
  deriving DecidableEq, Repr, Inhabited

inductive SettingsError where
  | unreadable (reason : String)
  | syntaxFault
  | malformed (reason : String)
  | unknownTag (tag : String)
  | unsetVariable (name : String)
  | invalidValue (key reason : String)
  deriving DecidableEq, Repr

def SettingsError.message (source : String) : SettingsError → String
  | unreadable reason => "cannot read engine config " ++ source ++ ": " ++ reason
  | syntaxFault => "malformed engine config " ++ source
  | malformed reason => "malformed engine config " ++ source ++ ": " ++ reason
  | unknownTag tag => "tag '" ++ tag ++ "' is not understood by the engine config loader"
  | unsetVariable name => "environment variable '" ++ name ++ "' is unset and has no fallback"
  | invalidValue key reason => "setting '" ++ key ++ "' rejected: " ++ reason

namespace Settings
open Json

def fieldNames : List String :=
  ["result_pool_capacity", "runtime_pool_capacity", "log_level", "max_parked_runtimes"]

def countLimit : Nat := Nat.pow 2 64

def toJson (s : Settings) : Json :=
  .record
    [("result_pool_capacity", .int s.resultPoolCapacity),
     ("runtime_pool_capacity", .int s.runtimePoolCapacity),
     ("log_level", .str s.logLevel), ("max_parked_runtimes", .int s.maxParkedRuntimes)]

def ofJson (v : Json) : Decoded Settings := do
  let count := decodeWord countLimit "usize"
  let fields ← fieldsOf "EngineConfig"
    [rule "result_pool_capacity" count true, rule "runtime_pool_capacity" count true,
     rule "log_level" decodeText true, rule "max_parked_runtimes" count true] true v
  let preset : Settings := {}
  let results ← withDefault fields "result_pool_capacity" count preset.resultPoolCapacity
  let runtimes ← withDefault fields "runtime_pool_capacity" count preset.runtimePoolCapacity
  let level ← withDefault fields "log_level" decodeText preset.logLevel
  let parked ← withDefault fields "max_parked_runtimes" count preset.maxParkedRuntimes
  return ⟨results, runtimes, level, parked⟩

def levels : List String := ["trace", "debug", "info", "warn", "error"]

/- Checks what the form of a record cannot express: counts are positive, and the level,
in either case, is a known one. -/
def validate (s : Settings) : Except SettingsError Unit := do
  let positive (key : String) (n : Nat) : Except SettingsError Unit :=
    if n = 0 then .error (.invalidValue key "must be greater than zero") else .ok ()
  positive "result_pool_capacity" s.resultPoolCapacity
  positive "runtime_pool_capacity" s.runtimePoolCapacity
  positive "max_parked_runtimes" s.maxParkedRuntimes
  let level := s.logLevel.toLower
  if levels.contains level then .ok ()
  else .error (.invalidValue "log_level" ("unknown level '" ++ level ++ "'"))

end Settings
end Automation
