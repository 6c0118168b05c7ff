import Automation.Json
import Automation.Double.Text
import Automation.Text.Digits
/-! The canonical text of a JSON value: no white space, fields in their stored order,
the short escapes where there is one, other control characters as four hexadecimal
digits, and every other character as it is. Floating point numbers take their canonical
text, which always has a point or an exponent. -/
namespace Automation.Json
open Automation.Text (decimalInt padded)

def escape (c : Char) : List Char :=
  if c = '\x22' then ['\\', '\x22']
  else if c = '\\' then ['\\', '\\']
  else if c = '\x08' then ['\\', 'b']
  else if c = '\x0c' then ['\\', 'f']
  else if c = '\n' then ['\\', 'n']
  else if c = '\x0d' then ['\\', 'r']
  else if c = '\t' then ['\\', 't']
  else if c.toNat < 0x20 then '\\' :: 'u' :: padded 16 4 c.toNat
  else [c]

def quote (s : String) : List Char := '\x22' :: s.toList.flatMap escape ++ ['\x22']

def writeNumber (d : Double) : List Char :=
  if d.isFinite then d.canonical else ['n', 'u', 'l', 'l']

mutual
def write : Json → List Char
  | null => ['n', 'u', 'l', 'l']
  | bool true => ['t', 'r', 'u', 'e']
  | bool false => ['f', 'a', 'l', 's', 'e']
  | int n => decimalInt n
  | double d => writeNumber d
  | str s => quote s
  | arr items => '[' :: writeItems items ++ [']']
  | obj fields => '\x7b' :: writeFields fields ++ ['\x7d']

def writeItems : List Json → List Char
  | [] => []
  | [a] => write a
  | a :: b :: rest => write a ++ ',' :: writeItems (b :: rest)

def writeFields : List (String × Json) → List Char
  | [] => []
  | [(k, a)] => quote k ++ ':' :: write a
  | (k, a) :: b :: rest => quote k ++ ':' :: (write a ++ ',' :: writeFields (b :: rest))
end

def canonical (v : Json) : String := String.ofList (write v)

def bytes (v : Json) : List UInt8 := (write v).flatMap String.utf8EncodeChar

end Automation.Json
