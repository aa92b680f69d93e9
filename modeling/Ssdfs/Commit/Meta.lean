import Ssdfs.Commit.Footer
import Ssdfs.Maptbl.Tables
import Ssdfs.Segbmap.Policy

namespace Ssdfs

open Memory

namespace SegHdr

def timestampOffset : Nat := 0x400
def cnoOffset : Nat := 0x408
def segTypeOffset : Nat := 0x412
def pebMigrationIdOffset : Nat := 0x4A8
def pebCreateTimeOffset : Nat := 0x4B0
def segIdOffset : Nat := 0x4B8
def lebIdOffset : Nat := 0x4C0
def pebIdOffset : Nat := 0x4C8
def relationPebIdOffset : Nat := 0x4D0

end SegHdr

section

variable (crc32 : UInt32 → List UInt8 → UInt32) (layout : VolumeLayout) (src : CommitSource)

/-- The checksum goes over the bytes that the fragment at `ptr` records. -/
def sealFragment (checksumOffset bytes ptr : Nat) (buf : Bytes) : Bytes :=
  let buf := Wire.u32.write buf (ptr + checksumOffset) 0
  Wire.u32.write buf (ptr + checksumOffset) (ssdfsCrc32Le crc32 (slice buf ptr bytes))

/-- `calculate_peb_fragments_checksum` of the segment bitmap. -/
def segbmapFragmentsChecksum (g : SegbmapGeometry) (buf : Bytes) : Mkfs Bytes :=
  Checked.forRange g.fragmentsPerPeb (fun i buf =>
    let ptr := i * g.fragmentSize
    .ok (sealFragment crc32 20 (Wire.u16.read buf (ptr + 18)).toNat ptr buf)) buf

def tableFragmentChecksum (magic hdrSize ptr : Nat) (buf : Bytes) : Mkfs Bytes := do
  bugOn ((Wire.u16.read buf ptr).toNat ≠ magic)
  let bytesCount := (Wire.u32.read buf (ptr + 28)).toNat
  bugOn (bytesCount < hdrSize)
  .ok (sealFragment crc32 4 bytesCount ptr buf)

def calculateLebtblFragmentChecksum (ptr : Nat) (buf : Bytes) : Mkfs Bytes :=
  tableFragmentChecksum crc32 lebTableMagic lebTableFragmentHeaderSize ptr buf

def calculatePebtblFragmentChecksum (ptr : Nat) (buf : Bytes) : Mkfs Bytes :=
  tableFragmentChecksum crc32 pebTableMagic pebTableFragmentHeaderSize ptr buf

/-- `calculate_peb_fragments_checksum` of the mapping table. -/
def maptblFragmentsChecksum (buf : Bytes) : Mkfs Bytes := do
  let page := layout.pageSize.bytes
  let lebtblMempages := Word.u16 (layout.maptbl.lebtblPortionBytes / page)
  bugOn (lebtblMempages = 0)
  Checked.forRange layout.maptbl.portionsPerFragment (fun i buf => do
    let ptr := i * layout.maptbl.portionSize
    let buf ← Checked.forRange lebtblMempages
      (fun j => calculateLebtblFragmentChecksum crc32 (ptr + j * page)) buf
    Checked.forRange layout.maptbl.stripesPerPortion
      (fun j => calculatePebtblFragmentChecksum crc32
        (ptr + layout.maptbl.lebtblPortionBytes + j * page)) buf) buf

structure MetaLogs where
  metaIndex : MetaIndex
  segType : SegType
  segsMax : Nat
  pebsPerSeg : Nat
  fragmentsCount : Nat
  magic : UInt16
  migrationThreshold : UInt16
  calculatePebFragmentsChecksum : Bytes → Mkfs Bytes

def preCommitSegmentHeader (segType : SegType) (a : SegsArray) (segIndex pebIndex : Nat)
    (peb : PebContent) : Mkfs PebContent := do
  failIf (segIndex ≥ a.segsCapacity) .einval
  failIf (pebIndex ≥ (a.segs segIndex).pebsCapacity) .einval
  let buf ← (peb.extents .segHeader).contents
  let buf := copyRange buf 0 src.vh 0 1024
  let buf := Wire.u16.write buf magicKeyOffset segmentHdrMagic
  let buf := Wire.u64.write buf SegHdr.timestampOffset src.createTimestamp
  let buf := Wire.u64.write buf SegHdr.cnoOffset src.createCno
  let buf := Wire.u16.write buf SegHdr.segTypeOffset segType.code
  let buf := Wire.u8.write buf SegHdr.pebMigrationIdOffset 0
  let buf := Wire.u8.write buf (SegHdr.pebMigrationIdOffset + 1) 1
  let buf := Wire.u64.write buf SegHdr.pebCreateTimeOffset src.createTimestamp
  let buf := Wire.u64.write buf SegHdr.segIdOffset (UInt64.ofNat (a.segs segIndex).segId)
  let buf := Wire.u64.write buf SegHdr.lebIdOffset (UInt64.ofNat peb.lebId)
  let buf := Wire.u64.write buf SegHdr.pebIdOffset (UInt64.ofNat peb.pebId)
  let buf := Wire.u64.write buf SegHdr.relationPebIdOffset 0xFFFFFFFFFFFFFFFF
  .ok (peb.setBuf .segHeader buf)

def preCommitLogFooter (a : SegsArray) (segIndex pebIndex : Nat) (peb : PebContent) : Mkfs Unit := do
  failIf (segIndex ≥ a.segsCapacity) .einval
  failIf (pebIndex ≥ (a.segs segIndex).pebsCapacity) .einval
  let _ ← (peb.extents .logFooter).contents
  .ok ()

/-- `segbmap_define_migration_threshold` and `maptbl_define_migration_threshold`. -/
def defineMigrationThreshold (migrationThreshold : UInt16) (peb : PebContent) : Mkfs PebContent := do
  let buf ← (peb.extents .logFooter).contents
  .ok (peb.setBuf .logFooter
    (Wire.u16.write buf VolumeState.migrationThresholdOffset migrationThreshold))

def calculateMetadataBlks (segType : SegType) (peb : PebContent) : Mkfs Nat := do
  let pageSize := logPageSize layout segType
  let bytesCount := Word.u32 (peb.size .segHeader + peb.size .blockBitmap)
  let bytesCount := roundUp32 pageSize (Word.u32 (bytesCount + peb.size .offsetTable))
  let bytesCount := roundUp32 pageSize (Word.u32 (bytesCount + peb.size .maptblCache))
  let bytesCount := Word.u32 (bytesCount + peb.size .logFooter)
  let bytesCount := Word.u32 (bytesCount + peb.size .blockBitmapBackup)
  let bytesCount := Word.u32 (bytesCount + peb.size .offsetTableBackup)
  let bytesCount := Word.u32 (bytesCount + (pageSize - 1))
  bugOn (bytesCount > layout.env.eraseSize.toNat)
  .ok (bytesCount / pageSize)

/-- `__commit_block_bitmap`, which gets the number of blocks in 16 bits. -/
def commitBlockBitmap (k : ExtentIndex) (metadataBlks : Nat) (peb : PebContent) : Mkfs PebContent := do
  let buf ← (peb.extents k).contents
  bugOn (Word.u16 metadataBlks ≥ layout.pagesPerPeb)
  let hdr := BlockBitmapFragment.wire.read buf blkBmapHdrSize
  .ok (peb.setBuf k (BlockBitmapFragment.wire.write buf blkBmapHdrSize
    { hdr with metadataBlks := UInt32.ofNat (Word.u16 metadataBlks) }))

def commitBlockBitmapBackup (metadataBlks : Nat) (peb : PebContent) : Mkfs PebContent :=
  if src.blkbmapBackup then commitBlockBitmap layout .blockBitmapBackup metadataBlks peb else .ok peb

def commitOffsetTableBackup (peb : PebContent) : Mkfs PebContent :=
  if src.blk2offBackup then commitOffsetTable crc32 .offsetTableBackup peb else .ok peb

def commitAreas (logs : MetaLogs) (a : SegsArray) (segIndex pebIndex : Nat) (peb : PebContent) :
    Mkfs PebContent := do
  let peb ← preCommitSegmentHeader src logs.segType a segIndex pebIndex peb
  let payload ← (peb.extents .logPayload).contents
  let payload ← logs.calculatePebFragmentsChecksum payload
  let peb := peb.setBuf .logPayload payload
  preCommitLogFooter a segIndex pebIndex peb
  let peb ← defineMigrationThreshold logs.migrationThreshold peb
  let metadataBlks ← calculateMetadataBlks layout logs.segType peb
  let peb ← commitBlockBitmap layout .blockBitmap metadataBlks peb
  let peb ← commitOffsetTable crc32 .offsetTable peb
  let peb ← commitBlockBitmapBackup layout src metadataBlks peb
  commitOffsetTableBackup crc32 src peb

def commitPeb (logs : MetaLogs) (a : SegsArray) (segIndex pebIndex : Nat) (peb : PebContent) :
    Mkfs PebContent := do
  let peb ← commitAreas crc32 layout src logs a segIndex pebIndex peb
  let blks ← calculateLogPages layout logs.segType peb
  let peb ← commitLogFooter crc32 layout src (a.segs segIndex) blks peb
  commitSegmentHeader crc32 layout src (a.segs segIndex).segType blks peb

/-- The PEBs of a segment from `pebIndex` on, with the fragments counted so far. A payload without
the magic ends the loop. -/
def commitPebs (logs : MetaLogs) (segIndex : Nat) : Nat → Nat → SegsArray × Nat →
    Mkfs (SegsArray × Nat)
  | 0, _, st => .ok st
  | rest + 1, pebIndex, (a, fragmentIndex) =>
    if fragmentIndex ≥ logs.fragmentsCount then .ok (a, fragmentIndex)
    else do
      let seg := a.segs segIndex
      bugOn (pebIndex ≥ seg.pebsCapacity)
      let payload ← ((seg.pebs pebIndex).extents .logPayload).contents
      if Wire.u16.read payload 0 ≠ logs.magic then .ok (a, fragmentIndex)
      else do
        let peb ← commitPeb crc32 layout src logs a segIndex pebIndex (seg.pebs pebIndex)
        commitPebs logs segIndex rest (pebIndex + 1)
          (a.setSeg segIndex { seg with pebs := Function.update seg.pebs pebIndex peb },
            fragmentIndex + 1)

/-- The loops that `segbmap_mkfs_commit` and `maptbl_mkfs_commit` share. -/
def metaMkfsCommit (logs : MetaLogs) (a : SegsArray) : Mkfs SegsArray := do
  let desc := a.metaArray logs.metaIndex
  failIf (desc.segsCount = 0 ∨ desc.segsCount > logs.segsMax) .erange
  failIf (desc.startSegIndex ≥ a.segsCapacity) .erange
  let (a, _) ← Checked.forRange desc.segsCount (fun i =>
    commitPebs crc32 layout src logs (desc.startSegIndex + i) logs.pebsPerSeg 0) (a, 0)
  .ok { a with segsCount := a.segsCount + desc.segsCount }

def segbmapLogs (g : SegbmapGeometry) (migrationThreshold : UInt16) : MetaLogs where
  metaIndex := .segbmap
  segType := .segbmap
  segsMax := segbmapSegsMax * 2
  pebsPerSeg := g.pebsPerSeg
  fragmentsCount := g.fragmentsCount
  magic := segbmapHdrMagic
  migrationThreshold
  calculatePebFragmentsChecksum := segbmapFragmentsChecksum crc32 g

def segbmapMkfsCommit (g : SegbmapGeometry) (migrationThreshold : UInt16) (a : SegsArray) :
    Mkfs SegsArray :=
  metaMkfsCommit crc32 layout src (segbmapLogs crc32 g migrationThreshold) a

def maptblLogs (migrationThreshold : UInt16) : MetaLogs where
  metaIndex := .pebMappingTable
  segType := .maptbl
  segsMax := Word.u32 (layout.maptbl.maptblPebs + layout.pebsPerSeg - 1) / layout.pebsPerSeg
  pebsPerSeg := layout.pebsPerSeg
  fragmentsCount := layout.maptbl.portionsCount
  magic := UInt16.ofNat lebTableMagic
  migrationThreshold
  calculatePebFragmentsChecksum := maptblFragmentsChecksum crc32 layout

def maptblMkfsCommit (migrationThreshold : UInt16) (a : SegsArray) : Mkfs SegsArray := do
  let _ ← quot (Word.u32 (layout.maptbl.maptblPebs + layout.pebsPerSeg - 1)) layout.pebsPerSeg
  metaMkfsCommit crc32 layout src (maptblLogs crc32 layout migrationThreshold) a

end

end Ssdfs
