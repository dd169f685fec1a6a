import SnapshotAudit.Checksum
import SnapshotAudit.Wire.Primitive

/-!
This module contains frames, the envelopes of messages. A frame is a header of twelve bytes and a
body; the header has a magic number, the version of the protocol, the type of the message, and the
length and the checksum of the body.
-/

namespace SnapshotAudit

inductive MessageType where
  | verifyRequest
  | verifyResponse
  | cancelRequest
  | cancelAck
  | error
  | describeRequest
  | describeResponse
deriving DecidableEq

namespace MessageType

def code (type : MessageType) : UInt8 :=
  match type with
  | verifyRequest => 1
  | verifyResponse => 2
  | cancelRequest => 3
  | cancelAck => 4
  | error => 5
  | describeRequest => 6
  | describeResponse => 7

def ofCode? (code : UInt8) : Option MessageType :=
  match code with
  | 1 => some verifyRequest
  | 2 => some verifyResponse
  | 3 => some cancelRequest
  | 4 => some cancelAck
  | 5 => some error
  | 6 => some describeRequest
  | 7 => some describeResponse
  | _ => none

@[simp]
theorem ofCode?_code (type : MessageType) : ofCode? type.code = some type := by
  cases type <;> rfl

theorem code_of_ofCode? {code : UInt8} {type : MessageType} (h : ofCode? code = some type)
    : type.code = code := by
  unfold ofCode? at h
  split at h <;> cases h <;> rfl

end MessageType

structure FrameHeader where
  magic : UInt16
  version : UInt8
  type : UInt8
  length : UInt32
  crc : UInt32
deriving DecidableEq

namespace FrameHeader

def size : Nat := 12

def magicNumber : UInt16 := 0x5356

def protocolVersion : UInt8 := 1

def maximumLength : UInt32 := 64 * 1024 * 1024

def decoder : Decoder FrameHeader := do
  let magic ← Decoder.u16
  let version ← Decoder.u8
  let type ← Decoder.u8
  let length ← Decoder.u32
  let crc ← Decoder.u32
  return { magic, version, type, length, crc }

def encode (header : FrameHeader) : Bytes :=
  Encode.u16 header.magic ++ Encode.u8 header.version ++ Encode.u8 header.type ++
    Encode.u32 header.length ++ Encode.u32 header.crc

/--
A header is accepted when it has the magic number, the version and a type of the protocol and
announces a body that is not too long.
-/
def accepted (header : FrameHeader) : Bool :=
  header.magic = magicNumber && header.version = protocolVersion &&
    (MessageType.ofCode? header.type).isSome && header.length ≤ maximumLength

def matchesBody (header : FrameHeader) (body : Bytes) : Bool :=
  body.length = header.length.toNat && crc32 body = header.crc

def ofBody (type : UInt8) (body : Bytes) : FrameHeader where
  magic := magicNumber
  version := protocolVersion
  type := type
  length := body.length.toUInt32
  crc := crc32 body

end FrameHeader

def encodeFrame (type : UInt8) (body : Bytes) : Bytes :=
  (FrameHeader.ofBody type body).encode ++ body

end SnapshotAudit
