import Automation.Settings
import Automation.Text.Blank
import Automation.Yaml.Node.Compose
/-! Variables in documents. A text under the tag of variables gives the name of a variable
and maybe a fallback, and stands for the document written in the variable. No other tag is
understood. -/
namespace Automation.Settings
open Automation.Yaml (Node)

abbrev Environment := String → Option String

def variableTag : String := "env_var"

/- The document written in a text; a text that is no document stands for itself. -/
def reread (text : String) : Node :=
  match Node.read text with
  | .ok node => node
  | .error _ => .str text

def nameAndFallback (body : String) : String × Option String :=
  let body := Text.trim body.toList
  match Text.splitAtBlank body with
  | some (name, rest) => (String.ofList name, some (String.ofList (Text.trim rest)))
  | none => (String.ofList body, none)

def substitute (env : Environment) (body : String) : Except SettingsError Node :=
  let (name, fallback) := nameAndFallback body
  match (env name).or fallback with
  | some text => .ok (reread text)
  | none => .error (.unsetVariable name)

def resolveTagged (env : Environment) (tag : String) (value : Node) : Except SettingsError Node :=
  if tag != variableTag then .error (.unknownTag ("!" ++ tag))
  else match value with
    | .str body => substitute env body
    | _ => .error (.invalidValue ("!" ++ tag) "expected `NAME` or `NAME fallback`")

def putEntry (key value : Node) : List (Node × Node) → List (Node × Node)
  | [] => [(key, value)]
  | (k, v) :: rest => if k.same key then (k, value) :: rest else (k, v) :: putEntry key value rest

mutual
def expand (env : Environment) : Node → Except SettingsError Node
  | .tagged tag value => resolveTagged env tag value
  | .seq items => (expandItems env items).map .seq
  | .map entries => (expandEntries env [] entries).map .map
  | node => .ok node

def expandItems (env : Environment) : List Node → Except SettingsError (List Node)
  | [] => .ok []
  | item :: rest => do
    let item ← expand env item
    let rest ← expandItems env rest
    return item :: rest

def expandEntries (env : Environment) (done : List (Node × Node)) :
    List (Node × Node) → Except SettingsError (List (Node × Node))
  | [] => .ok done
  | (key, value) :: rest => do
    let key ← expand env key
    let value ← expand env value
    expandEntries env (putEntry key value done) rest
end

def variableOf? (tag : String) : Node → Option String
  | .str body => if tag == variableTag then some (nameAndFallback body).1 else none
  | _ => none

mutual
def variablesIn : Node → List String
  | .tagged tag value => (variableOf? tag value).toList
  | .seq items => variablesInItems items
  | .map entries => variablesInEntries entries
  | _ => []

def variablesInItems : List Node → List String
  | [] => []
  | item :: rest => variablesIn item ++ variablesInItems rest

def variablesInEntries : List (Node × Node) → List String
  | [] => []
  | (key, value) :: rest => variablesIn key ++ variablesIn value ++ variablesInEntries rest
end

end Automation.Settings
