import SnapshotAudit.Endian

/-!
This module contains the building blocks of messages and metafiles: words with their most
significant byte first, texts behind their length and lists behind their count. Writers append to
what was written before, readers take bytes from the front and hand on the rest.
-/

namespace SnapshotAudit

namespace Encode

def u8 (v : UInt8) : Bytes :=
  [v]

def flag (v : Bool) : Bytes :=
  [if v then 1 else 0]

def u16 (v : UInt16) : Bytes :=
  bigEndian 2 v.toNat

def u32 (v : UInt32) : Bytes :=
  bigEndian 4 v.toNat

def u64 (v : UInt64) : Bytes :=
  bigEndian 8 v.toNat

def i32 (v : Int32) : Bytes :=
  u32 v.toUInt32

def count (n : Nat) : Bytes :=
  u32 n.toUInt32

def text (t : Text) : Bytes :=
  count t.length ++ t

def list {α : Type} (element : α → Bytes) (vs : List α) : Bytes :=
  count vs.length ++ vs.flatMap element

end Encode

/--
A reader: takes a value from the front of some bytes and hands on the rest, or refuses them.
-/
abbrev Decoder (α : Type) := StateT Bytes Option α

namespace Decoder

def bytes (n : Nat) : Decoder Bytes := fun input =>
  let front := input.take n
  if front.length = n then some (front, input.drop n) else none

def u8 : Decoder UInt8 := do
  return (ofBigEndian (← bytes 1)).toUInt8

def flag : Decoder Bool := do
  return (← u8) != 0

def u16 : Decoder UInt16 := do
  return (ofBigEndian (← bytes 2)).toUInt16

def u32 : Decoder UInt32 := do
  return (ofBigEndian (← bytes 4)).toUInt32

def u64 : Decoder UInt64 := do
  return (ofBigEndian (← bytes 8)).toUInt64

def i32 : Decoder Int32 := do
  return (← u32).toInt32

def text : Decoder Text := do
  bytes (← u32).toNat

def times {α : Type} (element : Decoder α) (n : Nat) : Decoder (List α) := fun input =>
  go n [] input
where
  /-- The values that were read so far are kept with the latest in front. -/
  go (n : Nat) (seen : List α) (input : Bytes) : Option (List α × Bytes) :=
    match n with
    | 0 => some (seen.reverse, input)
    | n + 1 =>
      match element input with
      | none => none
      | some (v, rest) => go n (v :: seen) rest

def list {α : Type} (element : Decoder α) : Decoder (List α) := do
  times element (← u32).toNat

def require (holds : Bool) : Decoder Unit := fun input =>
  if holds then some ((), input) else none

def all {α : Type} (decoder : Decoder α) (input : Bytes) : Option α :=
  match decoder input with
  | some (v, []) => some v
  | _ => none

theorem bytes_eq (n : Nat) (input : Bytes)
    : bytes n input = if n ≤ input.length then some (input.take n, input.drop n) else none := by
  have hmin : min n input.length = n ↔ n ≤ input.length := by omega
  simp [bytes, hmin]

theorem go_times {α : Type} (element : Decoder α) (n : Nat) (seen : List α) (input : Bytes)
    : times.go element n seen input =
      (times.go element n [] input).map fun (vs, rest) => (seen.reverse ++ vs, rest) := by
  induction n generalizing seen input with
  | zero => simp [times.go]
  | succ n ih =>
    simp only [times.go]
    cases element input with
    | none => rfl
    | some read =>
      obtain ⟨v, rest⟩ := read
      simp only
      rw [ih (v :: seen), ih [v]]
      cases times.go element n [] rest <;> simp

@[simp]
theorem times_zero {α : Type} (element : Decoder α) : times element 0 = pure [] := rfl

theorem times_succ {α : Type} (element : Decoder α) (n : Nat)
    : times element (n + 1) = do
      let v ← element
      return v :: (← times element n) := by
  funext input
  simp only [times, times.go, bind, StateT.bind]
  cases element input with
  | none => rfl
  | some read =>
    obtain ⟨v, rest⟩ := read
    simp only [Option.bind]
    rw [go_times element n [v]]
    cases times.go element n [] rest <;> rfl

end Decoder

/--
A buffer that is written at its end and read from a position of its own.
-/
structure Cursor where
  buffer : Bytes
  offset : Nat

namespace Cursor

def append (cursor : Cursor) (bytes : Bytes) : Cursor :=
  { cursor with buffer := cursor.buffer ++ bytes }

def read {α : Type} (cursor : Cursor) (decoder : Decoder α) : Option α × Cursor :=
  match decoder (cursor.buffer.drop cursor.offset) with
  | none => (none, cursor)
  | some (v, rest) => (some v, { cursor with offset := cursor.buffer.length - rest.length })

/--
Read a text in two steps, first its length and then its bytes: when there are not enough bytes the
position stays behind the length.
-/
def readText (cursor : Cursor) : Option Text × Cursor :=
  match cursor.read Decoder.u32 with
  | (none, cursor) => (none, cursor)
  | (some length, cursor) => cursor.read (Decoder.bytes length.toNat)

end Cursor

end SnapshotAudit
