import Automation.Text.Digits
/-! Sortable identifiers of 128 bits: the high 48 bits are a creation time in milliseconds,
the others are random. Their text is 26 digits in base thirty-two, without the letters I, L,
O and U; reading takes either case. Since 26 digits hold 130 bits, the two highest are
dropped in reading. -/
namespace Automation

structure Ulid where
  value : Nat
  deriving DecidableEq, Repr

namespace Ulid

def alphabet : List Char := "0123456789ABCDEFGHJKMNPQRSTVWXYZ".toList

def digit? (c : Char) : Option Nat :=
  let upper := if 97 ≤ c.toNat ∧ c.toNat ≤ 122 then Char.ofNat (c.toNat - 32) else c
  alphabet.findIdx? (· == upper)

def textLength : Nat := 26

def read? (text : String) : Option Ulid :=
  if text.toList.length = textLength then
    (text.toList.foldl (fun acc c => acc.bind fun n => (digit? c).map (n * 32 + ·)) (some 0)).map
      fun n => ⟨n % Nat.pow 2 128⟩
  else none

def write (u : Ulid) : String :=
  String.ofList ((List.range textLength).reverse.map fun place =>
    alphabet.getD (u.value / Nat.pow 32 place % 32) '0')

def make (millis random : Nat) : Ulid :=
  ⟨millis % Nat.pow 2 48 * Nat.pow 2 80 + random % Nat.pow 2 80⟩

def millis (u : Ulid) : Nat := u.value / Nat.pow 2 80

end Ulid
end Automation
