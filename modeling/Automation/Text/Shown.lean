/-! The layout of diagnostic texts: records with named parts, tagged values, lists, maps
and optional values, all on one line. -/
namespace Automation.Text.Shown

def joined (parts : List String) : String := String.intercalate ", " parts

def record (name : String) (parts : List (String × String)) : String :=
  if parts.isEmpty then name
  else name ++ " \x7b " ++ joined (parts.map fun p => p.1 ++ ": " ++ p.2) ++ " \x7d"

def tagged (name : String) (inside : String) : String := name ++ "(" ++ inside ++ ")"

def list (items : List String) : String := "[" ++ joined items ++ "]"

def map (entries : List (String × String)) : String :=
  "\x7b" ++ joined (entries.map fun e => e.1 ++ ": " ++ e.2) ++ "\x7d"

def option : Option String → String
  | none => "None"
  | some inside => tagged "Some" inside

def truth (b : Bool) : String := if b then "true" else "false"

end Automation.Text.Shown
