import Automation.Text.Digits
/-! General categories of characters. -/
namespace Automation.Unicode
open Automation.Text (isDecimal digitIn?)

inductive Category where
  | upperLetter | lowerLetter | titleLetter | modifierLetter | otherLetter
  | nonspacingMark | spacingMark | enclosingMark
  | decimalNumber | letterNumber | otherNumber
  | connector | dash | openMark | closeMark | initialQuote | finalQuote | otherPunctuation
  | mathSymbol | currency | modifierSymbol | otherSymbol
  | spaceMark | lineMark | paragraphMark
  | control | format | surrogate | privateUse | unassigned
  deriving DecidableEq, Repr, Inhabited

namespace Category

def all : List (String × Category) :=
  [("Lu", upperLetter), ("Ll", lowerLetter), ("Lt", titleLetter), ("Lm", modifierLetter),
   ("Lo", otherLetter), ("Mn", nonspacingMark), ("Mc", spacingMark), ("Me", enclosingMark),
   ("Nd", decimalNumber), ("Nl", letterNumber), ("No", otherNumber), ("Pc", connector),
   ("Pd", dash), ("Ps", openMark), ("Pe", closeMark), ("Pi", initialQuote),
   ("Pf", finalQuote), ("Po", otherPunctuation), ("Sm", mathSymbol), ("Sc", currency),
   ("Sk", modifierSymbol), ("So", otherSymbol), ("Zs", spaceMark), ("Zl", lineMark),
   ("Zp", paragraphMark), ("Cc", control), ("Cf", format), ("Cs", surrogate),
   ("Co", privateUse), ("Cn", unassigned)]

def isLetter (c : Category) : Bool :=
  c == upperLetter || c == lowerLetter || c == titleLetter || c == modifierLetter ||
    c == otherLetter

def isMark (c : Category) : Bool :=
  c == nonspacingMark || c == spacingMark || c == enclosingMark

def ofCode? (c : Char) : Option Category :=
  let place := if c.toNat < 97 then c.toNat - 65 else c.toNat - 97 + 26
  all[place]?.map Prod.snd

def decodeRuns (cs : List Char) (start : Nat) : List (Nat × Category) :=
  let rec go (cs : List Char) (start : Nat) (open? : Option Category) (length : Option Nat) :
      List (Nat × Category) :=
    match cs with
    | [] => (open?.map fun c => (start, c)).toList
    | c :: rest =>
      if isDecimal c then
        go rest start open? (some (length.getD 0 * 10 + (digitIn? 10 c).getD 0))
      else match open? with
        | none => go rest start (ofCode? c) none
        | some cat => (start, cat) :: go rest (start + length.getD 1) (ofCode? c) none
  go cs start none none

end Category
end Automation.Unicode
