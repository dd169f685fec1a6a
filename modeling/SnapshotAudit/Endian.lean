import SnapshotAudit.Text

/-!
This module contains the two ways in which numbers are laid out as bytes: the least significant byte
first, as in pages and membership datagrams, and the most significant byte first, as in messages and
metafiles.
-/

namespace SnapshotAudit

def littleEndian (width n : Nat) : Bytes :=
  match width with
  | 0 => []
  | width + 1 => n.toUInt8 :: littleEndian width (n / 256)

def ofLittleEndian (bs : Bytes) : Nat :=
  match bs with
  | [] => 0
  | b :: rest => b.toNat + 256 * ofLittleEndian rest

def bigEndian (width n : Nat) : Bytes :=
  (littleEndian width n).reverse

def ofBigEndian (bs : Bytes) : Nat :=
  ofLittleEndian bs.reverse

@[simp]
theorem length_littleEndian (width n : Nat) : (littleEndian width n).length = width := by
  induction width generalizing n with
  | zero => rfl
  | succ width ih => simp [littleEndian, ih]

@[simp]
theorem length_bigEndian (width n : Nat) : (bigEndian width n).length = width := by
  simp [bigEndian]

end SnapshotAudit
