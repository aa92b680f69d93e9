import Ssdfs.Commit.SegHeader

namespace Ssdfs

open Memory

def logFooterMagic : UInt16 := 0x4C46
def partialLogHdrMagic : UInt16 := 0x5048

/-- `memcpy` of `len` bytes. -/
def copyRange (dst : Bytes) (off : Nat) (src : Bytes) (srcOff len : Nat) : Bytes :=
  fun i => if off ≤ i ∧ i < off + len then src (srcOff + (i - off)) else dst i

namespace VolumeState

def size : Nat := 0x400
def nsegsOffset : Nat := 0x10
def freePagesOffset : Nat := 0x18
def flagsOffset : Nat := 0x30
def migrationThresholdOffset : Nat := 0x98
def openZonesOffset : Nat := 0xAC
def rootFolderOffset : Nat := 0xB0
def inodesBtreeOffset : Nat := 0x200
def sharedExtentsBtreeOffset : Nat := 0x280
def sharedDictBtreeOffset : Nat := 0x300

end VolumeState

def magicKeyOffset : Nat := 4

namespace LogFooter

def timestampOffset : Nat := 0x400
def cnoOffset : Nat := 0x408
def logBytesOffset : Nat := 0x410
def logFlagsOffset : Nat := 0x414
def descArrayOffset : Nat := 0x420
def pebCreateTimeOffset : Nat := 0x450

end LogFooter

namespace PartialLogHeader

def size : Nat := 2048
def timestampOffset : Nat := 0x10
def cnoOffset : Nat := 0x18
def logPagesOffset : Nat := 0x20
def segTypeOffset : Nat := 0x22
def plFlagsOffset : Nat := 0x24
def logBytesOffset : Nat := 0x28
def flagsOffset : Nat := 0x2C
def descArrayOffset : Nat := 0x30
def nsegsOffset : Nat := 0xC0
def freePagesOffset : Nat := 0xC8
def rootFolderOffset : Nat := 0xD0
def inodesBtreeOffset : Nat := 0x1D0
def sharedExtentsBtreeOffset : Nat := 0x250
def sharedDictBtreeOffset : Nat := 0x2D0
def sequenceIdOffset : Nat := 0x350
def geometryOffset : Nat := 0x354
def lebsPerPebIndexOffset : Nat := 0x358
def createThreadsOffset : Nat := 0x35C
def openZonesOffset : Nat := 0x3E0
def pebCreateTimeOffset : Nat := 0x3E8
def segIdOffset : Nat := 0x480
def lebIdOffset : Nat := 0x488
def pebIdOffset : Nat := 0x490
def relationPebIdOffset : Nat := 0x498
def uuidOffset : Nat := 0x4A0
def volumeCreateTimeOffset : Nat := 0x4B0

/-- `SSDFS_LOG_IS_PARTIAL`, with a partial header, which stands for the footer. -/
def partialFlags : UInt32 := 256 ||| 512 ||| 1024

end PartialLogHeader

namespace VolumeHeader

def geometryOffset : Nat := 0x10
def lebsPerPebIndexOffset : Nat := 0x2C
def createThreadsOffset : Nat := 0x1DE

end VolumeHeader

def SegType.code : SegType → UInt16
  | .unknown => 0
  | .sb => 1
  | .initialSnapshot => 2
  | .segbmap => 3
  | .maptbl => 4
  | .leafNode => 5
  | .hybridNode => 6
  | .indexNode => 7
  | .userData => 8

section

variable (crc32 : UInt32 → List UInt8 → UInt32) (layout : VolumeLayout) (src : CommitSource)

def commitBackup (extent : ExtentDesc) (hasBackupCopy : Bool) (off : Nat) (flag : UInt32)
    (prepare : ExtentDesc → Mkfs MetadataDescriptor) (st : Bytes × UInt32) : Mkfs (Bytes × UInt32) :=
  if hasBackupCopy ∧ extent.bytesCount.toNat > 0 then do
    let desc ← prepare extent
    .ok (MetadataDescriptorRecord.wire.write st.1 off desc.record, st.2 ||| flag)
  else .ok st

/-- The descriptors of both copies in the array at `descArray`, and their flags. -/
def commitBackups (peb : PebContent) (descArray : Nat) (st : Bytes × UInt32) :
    Mkfs (Bytes × UInt32) := do
  let st ← commitBackup (peb.extents .blockBitmapBackup) src.blkbmapBackup
    (descArray + SegHdr.descIndex .blockBitmap * 16) 1 (prepareBlkbmapMetadataDescriptor crc32 layout)
    st
  commitBackup (peb.extents .offsetTableBackup) src.blk2offBackup
    (descArray + SegHdr.descIndex .offsetTable * 16) 2 (prepareOffsetTableMetadataDescriptor layout) st

def fillLogFooter (logBytes : Nat) (buf : Bytes) : Bytes :=
  let buf := copyRange buf 0 src.vs 0 VolumeState.size
  let buf := Wire.u16.write buf magicKeyOffset logFooterMagic
  let buf := Wire.u64.write buf LogFooter.timestampOffset src.createTimestamp
  let buf := Wire.u64.write buf LogFooter.pebCreateTimeOffset src.createTimestamp
  let buf := Wire.u64.write buf LogFooter.cnoOffset src.createCno
  Wire.u32.write buf LogFooter.logBytesOffset (UInt32.ofNat logBytes)

def sealLogFooter (st : Bytes × UInt32) : Bytes :=
  let buf := Wire.u32.write st.1 VolumeState.openZonesOffset src.calculatedOpenZones
  let buf := Wire.u32.write buf LogFooter.logFlagsOffset st.2
  sealRecord crc32 buf recordCheckOffset logFooterSize

/-- `__commit_log_footer`. -/
def commitFullLogFooter (segType : Option MetaIndex) (blksCount : Nat) (peb : PebContent) :
    Mkfs PebContent := do
  let pageSize := match segType with
    | some .superblock | some .initialSnapshot => pageCacheSize
    | _ => layout.pageSize.bytes
  let buf ← (peb.extents .logFooter).contents
  let st ← commitBackups crc32 layout src peb LogFooter.descArrayOffset
    (fillLogFooter src (blksCount * pageSize) buf, 0)
  .ok (peb.setBuf .logFooter (sealLogFooter crc32 src st))

def startPartialLogHeader (segType : Option MetaIndex) (logPages logBytes : Nat) : Bytes :=
  let buf := Signature.wire.write (fun _ => 0) 0
    ⟨superMagic, partialLogHdrMagic, majorRevision, minorRevision⟩
  let buf := Wire.u64.write buf PartialLogHeader.timestampOffset src.createTimestamp
  let buf := Wire.u64.write buf PartialLogHeader.pebCreateTimeOffset src.createTimestamp
  let buf := Wire.u64.write buf PartialLogHeader.cnoOffset src.createCno
  let buf := Wire.u16.write buf PartialLogHeader.logPagesOffset (UInt16.ofNat logPages)
  let buf := Wire.u16.write buf PartialLogHeader.segTypeOffset
    (match segType with
      | some metaIndex => (meta2segType metaIndex).code
      | none => SegType.unknown.code)
  let buf := Wire.u32.write buf PartialLogHeader.logBytesOffset (UInt32.ofNat logBytes)
  copyRange buf PartialLogHeader.flagsOffset src.vs VolumeState.flagsOffset 4

def fillPartialLogHeader (seg : SegmentDesc) (peb : PebContent) (buf : Bytes) : Bytes :=
  let buf := copyRange buf PartialLogHeader.nsegsOffset src.vs VolumeState.nsegsOffset 8
  let buf := copyRange buf PartialLogHeader.freePagesOffset src.vs VolumeState.freePagesOffset 8
  let buf := copyRange buf PartialLogHeader.rootFolderOffset src.vs VolumeState.rootFolderOffset 256
  let buf := copyRange buf PartialLogHeader.inodesBtreeOffset src.vs VolumeState.inodesBtreeOffset 128
  let buf := copyRange buf PartialLogHeader.sharedExtentsBtreeOffset src.vs
    VolumeState.sharedExtentsBtreeOffset 128
  let buf := copyRange buf PartialLogHeader.sharedDictBtreeOffset src.vs
    VolumeState.sharedDictBtreeOffset 128
  let buf := Wire.u32.write buf PartialLogHeader.sequenceIdOffset 0
  let buf := copyRange buf PartialLogHeader.geometryOffset src.vh VolumeHeader.geometryOffset 4
  let buf := copyRange buf PartialLogHeader.lebsPerPebIndexOffset src.vh
    VolumeHeader.lebsPerPebIndexOffset 4
  let buf := copyRange buf PartialLogHeader.createThreadsOffset src.vh
    VolumeHeader.createThreadsOffset 2
  let buf := Wire.u32.write buf PartialLogHeader.openZonesOffset src.calculatedOpenZones
  let buf := Wire.u64.write buf PartialLogHeader.segIdOffset (UInt64.ofNat seg.segId)
  let buf := Wire.u64.write buf PartialLogHeader.lebIdOffset (UInt64.ofNat peb.lebId)
  let buf := Wire.u64.write buf PartialLogHeader.pebIdOffset (UInt64.ofNat peb.pebId)
  let buf := Wire.u64.write buf PartialLogHeader.relationPebIdOffset 0xFFFFFFFFFFFFFFFF
  let buf := Wire.u64.write buf PartialLogHeader.volumeCreateTimeOffset src.createTimestamp
  copyRange buf PartialLogHeader.uuidOffset src.uuid 0 16

/-- `__commit_partial_log_header`, which clears what the footer had. -/
def commitPartialLogHeader (seg : SegmentDesc) (blksCount : Nat) (peb : PebContent) :
    Mkfs PebContent := do
  let _ ← (peb.extents .logFooter).contents
  bugOn (blksCount ≥ ushrtMax)
  let (logPages, less) ← committedLogPages layout src seg.segType blksCount
  let st ← commitBackups crc32 layout src peb PartialLogHeader.descArrayOffset
    (startPartialLogHeader src seg.segType logPages (blksCount * layout.pageSize.bytes),
      if less then PartialLogHeader.partialFlags else 0)
  let buf := fillPartialLogHeader src seg peb st.1
  let buf := Wire.u32.write buf PartialLogHeader.plFlagsOffset st.2
  .ok (peb.setBuf .logFooter (sealRecord crc32 buf recordCheckOffset PartialLogHeader.size))

def commitLogFooter (seg : SegmentDesc) (blksCount : Nat) (peb : PebContent) : Mkfs PebContent := do
  bugOn (blksCount > Word.u32Max / layout.pageSize.bytes)
  match seg.segType with
  | some .initialSnapshot | some .superblock =>
    commitFullLogFooter crc32 layout src seg.segType blksCount peb
  | some .segbmap =>
    if src.segbmapLogPages.toNat ≠ blksCount then commitPartialLogHeader crc32 layout src seg blksCount peb
    else commitFullLogFooter crc32 layout src seg.segType blksCount peb
  | some .pebMappingTable =>
    if src.maptblLogPages.toNat ≠ blksCount then commitPartialLogHeader crc32 layout src seg blksCount peb
    else commitFullLogFooter crc32 layout src seg.segType blksCount peb
  | _ => .ok peb

end

end Ssdfs
