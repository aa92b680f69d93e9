import Ssdfs.BlkDesc.Format

namespace Ssdfs

structure Signature where
  common : UInt32
  key : UInt16
  major : UInt8
  minor : UInt8
  deriving DecidableEq

def Signature.wire : Wire Signature :=
  (Wire.u32.pair <| Wire.u16.pair <| Wire.u8.pair Wire.u8).iso
    (fun (a, b, c, d) => ⟨a, b, c, d⟩) (fun s => (s.common, s.key, s.major, s.minor)) fun _ => rfl

structure TranslationExtent where
  logicalBlk : UInt16
  offsetId : UInt16
  len : UInt16
  sequenceId : UInt8
  state : UInt8
  deriving DecidableEq

def TranslationExtent.wire : Wire TranslationExtent :=
  (Wire.u16.pair <| Wire.u16.pair <| Wire.u16.pair <| Wire.u8.pair Wire.u8).iso
    (fun (a, b, c, d, e) => ⟨a, b, c, d, e⟩)
    (fun t => (t.logicalBlk, t.offsetId, t.len, t.sequenceId, t.state)) fun _ => rfl

structure PebPageDescriptor where
  logicalOffset : UInt32
  logicalBlk : UInt16
  pebPage : UInt16
  deriving DecidableEq

def PebPageDescriptor.wire : Wire PebPageDescriptor :=
  (Wire.u32.pair <| Wire.u16.pair Wire.u16).iso (fun (a, b, c) => ⟨a, b, c⟩)
    (fun d => (d.logicalOffset, d.logicalBlk, d.pebPage)) fun _ => rfl

structure PhysOffsetDescriptor where
  pageDesc : PebPageDescriptor
  blkState : BlkStateOffset
  deriving DecidableEq

def PhysOffsetDescriptor.wire : Wire PhysOffsetDescriptor :=
  (PebPageDescriptor.wire.pair BlkStateOffset.wire).iso (fun (a, b) => ⟨a, b⟩)
    (fun d => (d.pageDesc, d.blkState)) fun _ => rfl

structure PhysOffsetTableHeader where
  startId : UInt16
  idCount : UInt16
  byteSize : UInt32
  pebIndex : UInt16
  sequenceId : UInt16
  type : UInt16
  flags : UInt16
  magic : UInt32
  checksum : UInt32
  usedLogicalBlks : UInt16
  freeLogicalBlks : UInt16
  lastAllocatedBlk : UInt16
  nextFragmentOff : UInt16
  deriving DecidableEq

def PhysOffsetTableHeader.wire : Wire PhysOffsetTableHeader :=
  (Wire.u16.pair <| Wire.u16.pair <| Wire.u32.pair <| Wire.u16.pair <| Wire.u16.pair <|
    Wire.u16.pair <| Wire.u16.pair <| Wire.u32.pair <| Wire.u32.pair <| Wire.u16.pair <|
    Wire.u16.pair <| Wire.u16.pair Wire.u16).iso
    (fun (a, b, c, d, e, f, g, h, i, j, k, l, m) => ⟨a, b, c, d, e, f, g, h, i, j, k, l, m⟩)
    (fun h => (h.startId, h.idCount, h.byteSize, h.pebIndex, h.sequenceId, h.type, h.flags, h.magic,
      h.checksum, h.usedLogicalBlks, h.freeLogicalBlks, h.lastAllocatedBlk, h.nextFragmentOff))
    fun _ => rfl

@[simp] theorem Signature.wire_size : Signature.wire.size = 8 := rfl
@[simp] theorem TranslationExtent.wire_size : TranslationExtent.wire.size = 8 := rfl
@[simp] theorem PhysOffsetDescriptor.wire_size : PhysOffsetDescriptor.wire.size = 16 := rfl
@[simp] theorem PhysOffsetTableHeader.wire_size : PhysOffsetTableHeader.wire.size = 32 := rfl

def blk2offTblHdrSize : Nat := 128
def chainHdrOffset : Nat := 16
def fragmentSlotsOffset : Nat := 32
def blk2offTblMax : Nat := 6

def translationExtentSize : Nat := 8
def physOffTblHdrSize : Nat := 32
def physOffDescSize : Nat := 16

def superMagic : UInt32 := 0x53734466
def blk2offTableHdrMagic : UInt16 := 0x5474
def majorRevision : UInt8 := 1
def minorRevision : UInt8 := 20

def physOffTableMagic : UInt32 := 0x504F5448
def segOffTable : UInt16 := 1
def offTableHasCsum : UInt16 := 1
def offTableHasNextFragment : UInt16 := 2

def logicalBlkUsed : UInt8 := 2
def logAreaMax : UInt8 := 4

def fragmentUncomprBlob : UInt8 := 1
def blk2offDescZstd : UInt8 := 22
def fragmentDescFlagsMask : UInt8 := 1

end Ssdfs
