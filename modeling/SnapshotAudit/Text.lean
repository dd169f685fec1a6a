/-!
This module contains the byte strings of the project and the ways in which numbers are written in
them. A `Text` is whatever bytes a node was given: names of snapshots, groups and nodes are never
decoded, they are only compared, joined and sent on.
-/

namespace SnapshotAudit

abbrev Bytes := List UInt8

/--
Text as the nodes keep it: its bytes, in no particular encoding, ordered byte by byte.
-/
abbrev Text := Bytes

instance : Coe String Text where
  coe s := s.toUTF8.data.toList

instance : LawfulBEq Text := inferInstance

namespace Text

def join (parts : List Text) : Text :=
  parts.flatten

def joinWith (separator : Text) (parts : List Text) : Text :=
  (parts.intersperse separator).flatten

def digits (base n : Nat) : Text :=
  (Nat.toDigits base n).map fun c => c.toNat.toUInt8

def decimal (n : Nat) : Text :=
  digits 10 n

def signed (i : Int) : Text :=
  match i with
  | .ofNat n => decimal n
  | .negSucc n => "-" ++ decimal (n + 1)

def hexadecimal (n : Nat) : Text :=
  "0x" ++ digits 16 n

def quoted (t : Text) : Text :=
  34 :: t.flatMap (fun b => if b = 34 || b = 92 then [92, b] else [b]) ++ [34]

def splitAt (separator : UInt8) (t : Text) : List Text :=
  match t with
  | [] => [[]]
  | b :: rest =>
    if b = separator then
      [] :: splitAt separator rest
    else
      match splitAt separator rest with
      | [] => [[b]]
      | piece :: pieces => (b :: piece) :: pieces

def lines (t : Text) : List Text :=
  let pieces := t.splitAt 10
  if pieces.getLast? = some [] then pieces.dropLast else pieces

def printedLines (entries : List Text) : List Text :=
  entries.flatMap fun entry => entry.splitAt 10

/--
What stands in front of the first zero byte. Paths, arguments of a program and what a fault says are
read only so far.
-/
def beforeZero (t : Text) : Text :=
  t.takeWhile (· ≠ 0)

def isBlank (b : UInt8) : Bool :=
  b = 32 || (9 ≤ b && b ≤ 13)

def isDigit (b : UInt8) : Bool :=
  48 ≤ b && b ≤ 57

def digitsValue (t : Text) : Nat :=
  t.foldl (fun n b => 10 * n + (b.toNat - 48)) 0

/--
The number at the front of a text: blanks, at most one sign and a run of digits. Whatever follows
the digits is not looked at, and there is no number without a digit.
-/
def leadingInt? (t : Text) : Option Int :=
  match t.dropWhile isBlank with
  | 45 :: rest => (magnitude? rest).map fun n => -(n : Int)
  | 43 :: rest => (magnitude? rest).map Int.ofNat
  | rest => (magnitude? rest).map Int.ofNat
where
  magnitude? (t : Text) : Option Nat :=
    match t.takeWhile isDigit with
    | [] => none
    | ds => some (digitsValue ds)

@[simp]
theorem join_nil : join [] = [] := rfl

@[simp]
theorem join_cons (t : Text) (ts : List Text) : join (t :: ts) = t ++ join ts := by
  simp [join]

@[simp]
theorem printedLines_append (first second : List Text)
    : printedLines (first ++ second) = printedLines first ++ printedLines second := by
  simp [printedLines]

theorem beforeZero_eq_self {t : Text} (h : 0 ∉ t) : t.beforeZero = t := by
  simp only [beforeZero]
  induction t with
  | nil => rfl
  | cons b rest ih =>
    simp only [List.mem_cons, not_or] at h
    rw [List.takeWhile_cons_of_pos (by simpa using Ne.symm h.1), ih h.2]

theorem splitAt_ne_nil (separator : UInt8) (t : Text) : splitAt separator t ≠ [] := by
  induction t with
  | nil => simp [splitAt]
  | cons b rest ih =>
    simp only [splitAt]
    split
    · simp
    · split <;> simp

end Text

end SnapshotAudit
