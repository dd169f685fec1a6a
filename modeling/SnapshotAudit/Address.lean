import SnapshotAudit.Text

/-!
This module contains the addresses of nodes and which texts are addresses of hosts: IPv4 and IPv6
addresses in numbers. Names of hosts are not looked up.
-/

namespace SnapshotAudit

namespace HostAddress

def isOctet (t : Text) : Bool :=
  !t.isEmpty && t.length ≤ 3 && t.all Text.isDigit && Text.digitsValue t ≤ 255 &&
    (t.length = 1 || t.head? ≠ some 48)

def isIPv4 (t : Text) : Bool :=
  let parts := t.splitAt 46
  parts.length = 4 && parts.all isOctet

def isHexDigit (b : UInt8) : Bool :=
  Text.isDigit b || (97 ≤ b && b ≤ 102) || (65 ≤ b && b ≤ 70)

def isGroup (t : Text) : Bool :=
  !t.isEmpty && t.length ≤ 4 && t.all isHexDigit

def groupCount? (mayEndInIPv4 : Bool) (parts : List Text) : Option Nat :=
  match parts with
  | [] => some 0
  | [last] =>
    if isGroup last then some 1
    else if mayEndInIPv4 && isIPv4 last then some 2
    else none
  | part :: rest =>
    if isGroup part then (groupCount? mayEndInIPv4 rest).map (· + 1) else none

def parts (t : Text) : List Text :=
  if t.isEmpty then [] else t.splitAt 58

def splitGap? (t : Text) : Option (Text × Text) :=
  match t with
  | 58 :: 58 :: rest => some ([], rest)
  | b :: rest => (splitGap? rest).map fun (front, back) => (b :: front, back)
  | [] => none

def isIPv6 (t : Text) : Bool :=
  match splitGap? t with
  | none => !t.isEmpty && groupCount? true (parts t) = some 8
  | some (front, back) =>
    match groupCount? false (parts front), groupCount? true (parts back) with
    | some m, some n => m + n ≤ 7
    | _, _ => false

def isValid (host : Text) : Bool :=
  let host := host.beforeZero
  isIPv4 host || isIPv6 host

def invalidMessage : Text := "Invalid argument"

end HostAddress

structure NodeAddress where
  id : Text
  host : Text
  port : UInt16
deriving DecidableEq

namespace NodeAddress

def jobPortOffset : UInt16 := 1000

def jobPort (address : NodeAddress) : UInt16 :=
  address.port + jobPortOffset

end NodeAddress

end SnapshotAudit
