import SnapshotAudit.Text

/-!
This module contains the CRC-32 checksum that pages, metafiles and frames carry: the reflected
polynomial `0xEDB88320`, all ones as the initial remainder, and the complement of the last remainder
as the result.
-/

namespace SnapshotAudit

namespace Crc32

def polynomial : UInt32 := 0xEDB88320

def shift (remainder : UInt32) : UInt32 :=
  if remainder &&& 1 = 1 then
    (remainder >>> 1) ^^^ polynomial
  else
    remainder >>> 1

def absorb (remainder : UInt32) (b : UInt8) : UInt32 :=
  Nat.repeat shift 8 (remainder ^^^ b.toUInt32)

def absorbAll (remainder : UInt32) (bs : Bytes) : UInt32 :=
  bs.foldl absorb remainder

theorem absorbAll_append (r : UInt32) (as bs : Bytes)
    : absorbAll r (as ++ bs) = absorbAll (absorbAll r as) bs := by
  simp [absorbAll]

end Crc32

def crc32 (bs : Bytes) : UInt32 :=
  ~~~ Crc32.absorbAll 0xFFFFFFFF bs

end SnapshotAudit
