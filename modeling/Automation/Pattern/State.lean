import Automation.Pattern.Basic
import Automation.Text.Blank
/-! Where the reading of a pattern stands: the text ahead, the flags in effect, the names of
the groups so far, and how deep the reading is nested. In verbose mode blanks and comments
between pieces are skipped. -/
namespace Automation.Pattern
open Automation.Text (isBlank)

structure Flags where
  caseless : Bool := false
  multiline : Bool := false
  dotAll : Bool := false
  unicode : Bool := true
  carriage : Bool := false
  verbose : Bool := false
  deriving DecidableEq, Repr

structure State where
  rest : List Char
  flags : Flags := {}
  names : List (List Char) := []
  depth : Nat := 0
  deriving Repr

def depthLimit : Nat := 250

def skipComment : List Char → List Char
  | [] => []
  | c :: rest => if c = '\n' then rest else skipComment rest

def skipVerbose (fuel : Nat) (cs : List Char) : List Char :=
  match fuel with
  | 0 => cs
  | fuel + 1 =>
    match cs with
    | '#' :: rest => skipVerbose fuel (skipComment rest)
    | c :: rest => if isBlank c then skipVerbose fuel rest else cs
    | [] => []

def State.skipped (st : State) (cs : List Char) : List Char :=
  if st.flags.verbose then skipVerbose (cs.length + 1) cs else cs

def State.skip (st : State) : State := { st with rest := st.skipped st.rest }

end Automation.Pattern
