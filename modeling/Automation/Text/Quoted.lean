import Automation.Unicode.CategoryTable
/-! Texts in double quotes for messages and diagnostics. Quotes, backslashes and the usual
controls have short escapes; characters that show nothing of their own, and marks that
would attach themselves to the character before, are given by code point. -/
namespace Automation.Text
open Automation.Unicode (Category category)

def attachingExtras : List Nat :=
  [0x9BE, 0x9D7, 0xB3E, 0xB57, 0xBBE, 0xBD7, 0xCC0, 0xCC2, 0xCC7, 0xCC8, 0xCCA, 0xCCB, 0xCD5,
   0xCD6, 0xD3E, 0xD57, 0xDCF, 0xDDF, 0x1B35, 0x1B3B, 0x1B3D, 0x1B43, 0x1B44, 0x302E, 0x302F,
   0xFF9E, 0xFF9F, 0x1133E, 0x11357, 0x114B0, 0x114BD, 0x115AF, 0x11930, 0x1D165, 0x1D16E,
   0x1D16F, 0x1D170, 0x1D171, 0x1D172]

def attaches (c : Char) : Bool :=
  let cat := category c
  cat == .nonspacingMark || cat == .enclosingMark || attachingExtras.contains c.toNat

def shows (c : Char) : Bool :=
  if c.toNat < 0x7F then 0x20 ≤ c.toNat
  else match category c with
    | .control | .format | .surrogate | .privateUse | .unassigned
    | .spaceMark | .lineMark | .paragraphMark => false
    | _ => true

def escapeQuoted (c : Char) : List Char :=
  if c = '\x00' then ['\\', '0']
  else if c = '\t' then ['\\', 't']
  else if c = '\x0d' then ['\\', 'r']
  else if c = '\n' then ['\\', 'n']
  else if c = '\\' then ['\\', '\\']
  else if c = '\x22' then ['\\', '\x22']
  else if 0x20 ≤ c.toNat ∧ c.toNat < 0x7F then [c]
  else if !attaches c && shows c then [c]
  else '\\' :: 'u' :: '\x7b' :: Nat.toDigits 16 c.toNat ++ ['\x7d']

def quoted (s : String) : String :=
  String.ofList ('\x22' :: s.toList.flatMap escapeQuoted ++ ['\x22'])

end Automation.Text
