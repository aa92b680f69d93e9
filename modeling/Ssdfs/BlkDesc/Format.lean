import Ssdfs.Lib.Wire

namespace Ssdfs

structure FragmentsChainHeader where
  comprBytes : UInt32
  uncomprBytes : UInt32
  fragmentsCount : UInt16
  descSize : UInt16
  magic : UInt8
  type : UInt8
  flags : UInt16
  deriving DecidableEq

def FragmentsChainHeader.wire : Wire FragmentsChainHeader :=
  (Wire.u32.pair <| Wire.u32.pair <| Wire.u16.pair <| Wire.u16.pair <| Wire.u8.pair <|
    Wire.u8.pair Wire.u16).iso
    (fun (a, b, c, d, e, f, g) => ⟨a, b, c, d, e, f, g⟩)
    (fun h => (h.comprBytes, h.uncomprBytes, h.fragmentsCount, h.descSize, h.magic, h.type, h.flags))
    fun _ => rfl

structure FragmentDesc where
  offset : UInt32
  comprSize : UInt16
  uncomprSize : UInt16
  checksum : UInt32
  sequenceId : UInt8
  magic : UInt8
  type : UInt8
  flags : UInt8
  deriving DecidableEq

def FragmentDesc.wire : Wire FragmentDesc :=
  (Wire.u32.pair <| Wire.u16.pair <| Wire.u16.pair <| Wire.u32.pair <| Wire.u8.pair <|
    Wire.u8.pair <| Wire.u8.pair Wire.u8).iso
    (fun (a, b, c, d, e, f, g, i) => ⟨a, b, c, d, e, f, g, i⟩)
    (fun d => (d.offset, d.comprSize, d.uncomprSize, d.checksum, d.sequenceId, d.magic, d.type,
      d.flags))
    fun _ => rfl

def fragmentsChainMax : Nat := 14
def nextBlkTableIndex : Nat := fragmentsChainMax
def blkTableMax : Nat := fragmentsChainMax + 1

structure AreaBlockTable where
  chainHdr : FragmentsChainHeader
  blk : Fin blkTableMax → FragmentDesc

def AreaBlockTable.wire : Wire AreaBlockTable :=
  (FragmentsChainHeader.wire.pair (FragmentDesc.wire.array blkTableMax)).iso
    (fun (a, b) => ⟨a, b⟩) (fun t => (t.chainHdr, t.blk)) fun _ => rfl

structure BlkStateOffset where
  logStartPage : UInt16
  logArea : UInt8
  pebMigrationId : UInt8
  byteOffset : UInt32
  deriving DecidableEq

def BlkStateOffset.wire : Wire BlkStateOffset :=
  (Wire.u16.pair <| Wire.u8.pair <| Wire.u8.pair Wire.u32).iso
    (fun (a, b, c, d) => ⟨a, b, c, d⟩)
    (fun s => (s.logStartPage, s.logArea, s.pebMigrationId, s.byteOffset)) fun _ => rfl

def blkStateOffMax : Nat := 6

instance : NeZero blkStateOffMax := ⟨by decide⟩

structure BlockDescriptor where
  ino : UInt64
  logicalOffset : UInt32
  pebIndex : UInt16
  pebPage : UInt16
  state : Fin blkStateOffMax → BlkStateOffset

def BlockDescriptor.wire : Wire BlockDescriptor :=
  (Wire.u64.pair <| Wire.u32.pair <| Wire.u16.pair <| Wire.u16.pair <|
    BlkStateOffset.wire.array blkStateOffMax).iso
    (fun (a, b, c, d, e) => ⟨a, b, c, d, e⟩)
    (fun d => (d.ino, d.logicalOffset, d.pebIndex, d.pebPage, d.state)) fun _ => rfl

@[simp] theorem FragmentsChainHeader.wire_size : FragmentsChainHeader.wire.size = 16 := rfl
@[simp] theorem FragmentDesc.wire_size : FragmentDesc.wire.size = 16 := rfl
@[simp] theorem AreaBlockTable.wire_size : AreaBlockTable.wire.size = 256 := rfl
@[simp] theorem BlockDescriptor.wire_size : BlockDescriptor.wire.size = 64 := rfl

def logMainArea : UInt8 := 1
def logJournalArea : UInt8 := 3
def logBlkDescArea : UInt8 := 0

def pebMigrationIdStart : UInt8 := 1

def chainHdrMagic : UInt8 := 0x63
def blkDescChainHdr : UInt8 := 0x3
def blk2offChainHdr : UInt8 := 0x6
def multipleHdrChain : UInt16 := 1

def fragmentDescMagic : UInt8 := 0x66
def dataBlkDesc : UInt8 := 5
def blk2offExtentDesc : UInt8 := 8
def blk2offDesc : UInt8 := 11
def nextTableDesc : UInt8 := 14
def fragmentHasCsum : UInt8 := 1

end Ssdfs
