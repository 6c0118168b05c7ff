import Automation.Json.Canonical
import Automation.Text.Quoted
import Automation.Text.Shown
/-! Diagnostic texts of JSON values: every node carries the name of its kind. -/
namespace Automation.Json
open Automation.Text

mutual
def shown : Json → String
  | null => "Null"
  | bool b => Shown.tagged "Bool" (Shown.truth b)
  | int n => Shown.tagged "Number" (String.ofList (decimalInt n))
  | double d => Shown.tagged "Number" (String.ofList (writeNumber d))
  | str s => Shown.tagged "String" (quoted s)
  | arr items => "Array " ++ Shown.list (shownItems items)
  | obj fields => "Object " ++ Shown.map (shownFields fields)

def shownItems : List Json → List String
  | [] => []
  | a :: rest => shown a :: shownItems rest

def shownFields : List (String × Json) → List (String × String)
  | [] => []
  | (k, a) :: rest => (quoted k, shown a) :: shownFields rest
end

end Automation.Json
