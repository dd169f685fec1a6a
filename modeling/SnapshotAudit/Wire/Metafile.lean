import SnapshotAudit.Checksum
import SnapshotAudit.Snapshot.Descriptor
import SnapshotAudit.Wire.Primitive

/-!
This module contains the two files that describe a snapshot on a node: the metafile of the node and
the data file of a cache group. Both start with a magic number and a version and end with the
checksum of everything before it.
-/

namespace SnapshotAudit

namespace Metafile

def version : UInt16 := 1

def snapshotMagic : UInt32 := 0x53534D46

def groupMagic : UInt32 := 0x53434744

def sealed (content : Bytes) : Bytes :=
  content ++ Encode.u32 (crc32 content)

def unsealed? (file : Bytes) : Option Bytes :=
  if 4 ≤ file.length then
    let content := file.take (file.length - 4)
    if ofBigEndian (file.drop (file.length - 4)) = (crc32 content).toNat then
      some content
    else
      none
  else
    none

end Metafile

structure SnapshotMetadata where
  descriptor : SnapshotDescriptor
  node : Text
deriving DecidableEq

namespace SnapshotMetadata

def encodeGroup (group : GroupDescriptor) : Bytes :=
  Encode.i32 group.id ++ Encode.text group.name ++ Encode.u32 group.partitions ++
    Encode.u32 group.backups ++ Encode.list Encode.text group.nodeFilter

def groupDecoder : Decoder GroupDescriptor := do
  let id ← Decoder.i32
  let name ← Decoder.text
  let partitions ← Decoder.u32
  let backups ← Decoder.u32
  let nodeFilter ← Decoder.list Decoder.text
  return { id, name, partitions, backups, nodeFilter }

def content (metadata : SnapshotMetadata) : Bytes :=
  Encode.u32 Metafile.snapshotMagic ++ Encode.u16 Metafile.version ++
    Encode.text metadata.descriptor.name ++ Encode.text metadata.node ++
    Encode.u64 metadata.descriptor.epoch ++ Encode.u32 metadata.descriptor.pageSize ++
    Encode.list Encode.text metadata.descriptor.baseline ++
    Encode.list encodeGroup metadata.descriptor.groups

def contentDecoder : Decoder SnapshotMetadata := do
  let magic ← Decoder.u32
  Decoder.require (magic = Metafile.snapshotMagic)
  let version ← Decoder.u16
  Decoder.require (version = Metafile.version)
  let name ← Decoder.text
  let node ← Decoder.text
  let epoch ← Decoder.u64
  let pageSize ← Decoder.u32
  let baseline ← Decoder.list Decoder.text
  let groups ← Decoder.list groupDecoder
  return { descriptor := { name, epoch, pageSize, baseline, groups }, node }

def encode (metadata : SnapshotMetadata) : Bytes :=
  Metafile.sealed metadata.content

def decode? (file : Bytes) : Option SnapshotMetadata := do
  contentDecoder.all (← Metafile.unsealed? file)

end SnapshotMetadata

structure GroupData where
  id : Int32
  name : Text
  partitions : UInt32
  backups : UInt32
deriving DecidableEq

namespace GroupData

def content (data : GroupData) : Bytes :=
  Encode.u32 Metafile.groupMagic ++ Encode.u16 Metafile.version ++ Encode.i32 data.id ++
    Encode.text data.name ++ Encode.u32 data.partitions ++ Encode.u32 data.backups

def contentDecoder : Decoder GroupData := do
  let magic ← Decoder.u32
  Decoder.require (magic = Metafile.groupMagic)
  let version ← Decoder.u16
  Decoder.require (version = Metafile.version)
  let id ← Decoder.i32
  let name ← Decoder.text
  let partitions ← Decoder.u32
  let backups ← Decoder.u32
  return { id, name, partitions, backups }

def encode (data : GroupData) : Bytes :=
  Metafile.sealed data.content

def decode? (file : Bytes) : Option GroupData := do
  contentDecoder.all (← Metafile.unsealed? file)

end GroupData

end SnapshotAudit
