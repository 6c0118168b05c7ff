import Automation.Checksum
import Automation.Json.Canonical
/-! Fingerprints: the checksum over the values that a run has consumed. Each value is
written in its canonical form and closed by a byte that UTF-8 never uses, so that lists of
values keep their bounds. Folding value after value is the checksum of the whole stream
(`foldAll`). -/
namespace Automation.Fingerprint

def terminator : UInt8 := 0xFF

def framed (v : Json) : List UInt8 := v.bytes ++ [terminator]

def stream (vs : List Json) : List UInt8 := vs.flatMap framed

def fold (c : Checksum) (v : Json) : Checksum := c.update (framed v)

theorem foldAll (c : Checksum) (vs : List Json) : vs.foldl fold c = c.update (stream vs) := by
  induction vs generalizing c with
  | nil => rfl
  | cons v vs ih =>
    simp only [List.foldl_cons, ih, fold, stream, List.flatMap_cons, Checksum.updateAppend]

end Automation.Fingerprint
