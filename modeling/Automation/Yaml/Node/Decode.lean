import Automation.Double.Text
import Automation.Json.Decode
import Automation.Text.Shown
import Automation.Yaml.Node
/-! Decoding nodes into the values of records. Tags around a value say nothing about it. -/
namespace Automation.Yaml.Node
open Automation.Json (Decoded DecodeError)
open Automation.Text (quoted decimalInt Shown.truth)

def positionalNumber (d : Double) : String :=
  if d.isNaN then "NaN"
  else if d.isFinite then String.ofList (Double.positionalStyle.write d)
  else if d.isNegative then "-inf"
  else "inf"

def described : Node → String
  | null => "unit value"
  | bool b => "boolean `" ++ Shown.truth b ++ "`"
  | int n => "integer `" ++ String.ofList (decimalInt n) ++ "`"
  | double d => "floating point `" ++ positionalNumber d ++ "`"
  | str s => "string " ++ quoted s
  | seq _ => "sequence"
  | map _ => "map"
  | tagged _ _ => "enum"

def untagged : Node → Node
  | tagged _ value => untagged value
  | node => node

def mismatch {α : Type} (node : Node) (expected : String) : Decoded α :=
  .error (.invalidType node.described expected)

def decodeText (expected : String) (node : Node) : Decoded String :=
  match node.untagged with
  | str s => .ok s
  | other => mismatch other expected

def decodeCount (expected : String) (node : Node) : Decoded Nat :=
  match node.untagged with
  | int n =>
    if 0 ≤ n then .ok n.toNat else .error (.invalidValue (described (int n)) expected)
  | other => mismatch other expected

def decodeEntries (title : String) (node : Node) : Decoded (List (Node × Node)) :=
  match node.untagged with
  | map entries => .ok entries
  | other => mismatch other ("struct " ++ title)

end Automation.Yaml.Node
