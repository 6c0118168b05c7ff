/-! The cyclic redundancy check of 32 bits with the reflected polynomial 0xEDB88320. A
checksum is the running register; its value is the complement. Folding bytes one after
another is folding their concatenation (`updateAppend`). -/
namespace Automation

structure Checksum where
  register : UInt32
  deriving DecidableEq, Repr

namespace Checksum

def start : Checksum := ⟨0xFFFFFFFF⟩

instance : Inhabited Checksum := ⟨start⟩

def shiftBit (r : UInt32) : UInt32 :=
  if r &&& 1 = 1 then (r >>> 1) ^^^ 0xEDB88320 else r >>> 1

def shiftByte (r : UInt32) (b : UInt8) : UInt32 :=
  let r := r ^^^ b.toUInt32
  shiftBit (shiftBit (shiftBit (shiftBit (shiftBit (shiftBit (shiftBit (shiftBit r)))))))

def update (c : Checksum) (bytes : List UInt8) : Checksum :=
  ⟨bytes.foldl shiftByte c.register⟩

def value (c : Checksum) : UInt32 := c.register ^^^ 0xFFFFFFFF

def ofBytes (bytes : List UInt8) : UInt32 := (start.update bytes).value

theorem updateAppend (c : Checksum) (xs ys : List UInt8) :
    c.update (xs ++ ys) = (c.update xs).update ys := by
  simp [update, List.foldl_append]

end Checksum
end Automation
