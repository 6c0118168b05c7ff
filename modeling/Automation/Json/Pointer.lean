import Automation.Json
import Automation.Text.Digits
/-! Pointers into JSON values: a slash before each step, `~1` for a slash and `~0` for a
tilde inside a step. A step into an object is a field name, a step into an array an index
in decimal without sign and without leading zeros. The empty pointer is the whole value;
any other text must begin with a slash. -/
namespace Automation.Json
open Automation.Text (isDecimal readDigits?)

def splitSteps : List Char → List (List Char)
  | [] => [[]]
  | c :: rest =>
    if c = '/' then [] :: splitSteps rest
    else match splitSteps rest with
      | [] => [[c]]
      | step :: steps => (c :: step) :: steps

/- Resolves one escape character, so that the result is not read for escapes again. -/
def unescapeSlash : List Char → List Char
  | '~' :: '1' :: rest => '/' :: unescapeSlash rest
  | c :: rest => c :: unescapeSlash rest
  | [] => []

def unescapeTilde : List Char → List Char
  | '~' :: '0' :: rest => '~' :: unescapeTilde rest
  | c :: rest => c :: unescapeTilde rest
  | [] => []

def index? (step : List Char) : Option Nat :=
  if step.all isDecimal && !(step.head? == some '0' && 1 < step.length) then
    (readDigits? 10 step).bind fun n => if n < Nat.pow 2 64 then some n else none
  else none

def step? (step : List Char) : Json → Option Json
  | arr items => (index? step).bind fun i => items[i]?
  | v => v.field? (String.ofList step)

def pointer? (pointer : String) (v : Json) : Option Json :=
  match pointer.toList with
  | [] => some v
  | '/' :: rest =>
    (splitSteps rest).foldl
      (fun found step => found.bind (step? (unescapeTilde (unescapeSlash step)))) (some v)
  | _ => none

end Automation.Json
