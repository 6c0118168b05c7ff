import Automation.Json.Canonical
import Automation.Text.Quoted
/-! Decoding JSON values into records. An error names its cause; its text is one function
of the cause. A record is decoded from an object, whose fields are examined in their
stored order before anything is found missing, or from an array that lists the fields in
the order of declaration. -/
namespace Automation.Json
open Automation.Text (quoted decimalInt decimal)

inductive DecodeError where
  | missingField (name : String)
  | invalidType (found expected : String)
  | invalidValue (found expected : String)
  | unknownField (name : String) (known : List String)
  | duplicateField (name : String)
  | unknownVariant (name : String) (known : List String)
  | invalidLength (count : Nat) (expected : String)
  | malformedTime
  deriving DecidableEq, Repr

namespace DecodeError

def ticked (s : String) : String := "`" ++ s ++ "`"

def choices (names : List String) : String :=
  "expected one of " ++ String.intercalate ", " (names.map ticked)

def message : DecodeError → String
  | missingField name => "missing field " ++ ticked name
  | invalidType found expected => "invalid type: " ++ found ++ ", expected " ++ expected
  | invalidValue found expected => "invalid value: " ++ found ++ ", expected " ++ expected
  | duplicateField name => "duplicate field " ++ ticked name
  | unknownField name known => "unknown field " ++ ticked name ++ ", " ++ choices known
  | unknownVariant name known => "unknown variant " ++ ticked name ++ ", " ++ choices known
  | invalidLength count expected =>
    "invalid length " ++ String.ofList (decimal count) ++ ", expected " ++ expected
  | malformedTime => "malformed date and time"

end DecodeError

abbrev Decoded := Except DecodeError

def described : Json → String
  | null => "null"
  | bool b => "boolean `" ++ (if b then "true" else "false") ++ "`"
  | int n => "integer `" ++ String.ofList (decimalInt n) ++ "`"
  | double d => "floating point `" ++ String.ofList (writeNumber d) ++ "`"
  | str s => "string " ++ quoted s
  | arr _ => "sequence"
  | obj _ => "map"

def mismatch {α : Type} (v : Json) (expected : String) : Decoded α :=
  .error (.invalidType v.described expected)

def decodeText : Json → Decoded String
  | str s => .ok s
  | v => mismatch v "a string"

def decodeTruth : Json → Decoded Bool
  | bool b => .ok b
  | v => mismatch v "a boolean"

def decodeWord (limit : Nat) (name : String) : Json → Decoded Nat
  | int n =>
    if 0 ≤ n ∧ n < limit then .ok n.toNat
    else .error (.invalidValue (described (int n)) name)
  | v => mismatch v name

def decodeOptional {α : Type} (decode : Json → Decoded α) : Json → Decoded (Option α)
  | null => .ok none
  | v => (decode v).map some

structure Rule where
  name : String
  check : Json → Decoded Unit
  mayLack : Bool

def rule {α : Type} (name : String) (decode : Json → Decoded α) (mayLack : Bool) : Rule :=
  ⟨name, fun v => (decode v).map fun _ => (), mayLack⟩

def checkField (rules : List Rule) (strict : Bool) (field : String × Json) : Decoded Unit :=
  match rules.find? fun r => r.name == field.1 with
  | some r => r.check field.2
  | none =>
    if strict then .error (.unknownField field.1 (rules.map Rule.name)) else .ok ()

def checkItems (expected : String) (count : Nat) :
    List Rule → List Json → Decoded (List (String × Json))
  | [], [] => .ok []
  | [], extra => .error (.invalidLength (count + extra.length) "fewer elements in array")
  | r :: rules, [] =>
    if r.mayLack then checkItems expected count rules []
    else .error (.invalidLength count expected)
  | r :: rules, v :: items => do
    r.check v
    let rest ← checkItems expected (count + 1) rules items
    .ok ((r.name, v) :: rest)

def fieldsOf (title : String) (rules : List Rule) (strict : Bool) :
    Json → Decoded (List (String × Json))
  | obj fields => do
    for field in fields do
      checkField rules strict field
    for r in rules do
      if !r.mayLack && !(fields.any fun f => f.1 == r.name) then
        throw (.missingField r.name)
    .ok fields
  | arr items =>
    let count := String.ofList (decimal rules.length)
    checkItems ("struct " ++ title ++ " with " ++ count ++ " elements") 0 rules items
  | v => mismatch v ("struct " ++ title)

def required {α : Type} (fields : List (String × Json)) (name : String)
    (decode : Json → Decoded α) : Decoded α :=
  match fields.find? fun f => f.1 == name with
  | some f => decode f.2
  | none => .error (.missingField name)

def withDefault {α : Type} (fields : List (String × Json)) (name : String)
    (decode : Json → Decoded α) (fallback : α) : Decoded α :=
  match fields.find? fun f => f.1 == name with
  | some f => decode f.2
  | none => .ok fallback

end Automation.Json
