import Ssdfs.OffTable.Format
import Ssdfs.BlkDesc.Encode

/-! The table of physical offsets of a log, in portions of at most six fragments. -/

namespace Ssdfs

def VolumeLayout.pagesPerSeg (layout : VolumeLayout) : Nat :=
  Word.u32 (layout.segSize.toNat / layout.pageSize.bytes)

def offDescPerFragment : Nat :=
  (pageCacheSize - translationExtentSize - physOffTblHdrSize) / physOffDescSize

def calculateOffsetTableFragments (validBlks : Nat) : Mkfs Nat := do
  let fragmentsCount := (validBlks + offDescPerFragment - 1) / offDescPerFragment
  bugOn (fragmentsCount ≥ Word.u16Max)
  let portionsCount := Word.u16 (fragmentsCount + blk2offTblMax - 1) / blk2offTblMax
  .ok (Word.u16 (fragmentsCount + portionsCount))

def calculateOffsetTableSize (fragments validBlks : Nat) : Nat :=
  let blksInLastFragment := validBlks % offDescPerFragment
  let portionsCount := Word.u16 (fragments + blk2offTblMax - 1) / blk2offTblMax
  let itemFragments := Word.sub32 fragments portionsCount
  Word.u64 (blk2offTblHdrSize * portionsCount + translationExtentSize * portionsCount +
    physOffTblHdrSize * itemFragments +
    Word.sub32 itemFragments 1 * (offDescPerFragment * physOffDescSize) +
    blksInLastFragment * physOffDescSize)

def defineBlockDescriptorOffset (blkId : Nat) : Nat :=
  let blkDescPerArea := blkDescPerFragment * fragmentsChainMax
  let areaIndex := blkId / blkDescPerArea
  Word.u32 ((areaIndex + 1) * areaBlockTableSize + blkId * blockDescriptorSize)

structure OffTableSource where
  pebIndex : Nat
  pagesPerSeg : Nat
  startLogicalBlk : Nat
  validBlks : Nat
  usedLogicalBlks : Nat
  lastAllocatedBlk : Nat

structure OffTableState where
  buf : Buf
  offset : Nat
  curFragment : Nat
  curPhysOffTblFrag : Nat
  startId : Nat
  restBlks : Nat
  logicalStartPage : Nat
  logicalBlk : Nat
  startPebPage : Nat
  fragmentsCount : Int
  slot : Nat

section

variable (crc32 : List UInt8 → UInt32) (src : OffTableSource)

def fragmentDescriptorInit (buf : Buf) (desc fragment offset comprSize uncomprSize sequenceId : Nat)
    (type flags : UInt8) : Mkfs Buf := do
  failIf (comprSize = 0 ∨ uncomprSize = 0 ∨ comprSize > uncomprSize) .einval
  failIf (type < fragmentUncomprBlob ∨ type > blk2offDescZstd) .einval
  failIf (flags &&& ~~~fragmentDescFlagsMask ≠ 0) .einval
  let old ← buf.get Errno FragmentDesc.wire desc
  let bytes ← buf.bytes Errno fragment uncomprSize
  buf.put Errno FragmentDesc.wire desc
    { offset := UInt32.ofNat offset
      comprSize := UInt16.ofNat comprSize
      uncomprSize := UInt16.ofNat uncomprSize
      checksum := if flags &&& fragmentHasCsum ≠ 0 then crc32 bytes else old.checksum
      sequenceId := UInt8.ofNat sequenceId
      magic := fragmentDescMagic
      type
      flags }

def physOffset (areaType : UInt8) (logicalStartPage logicalBlk startPebPage i : Nat) :
    PhysOffsetDescriptor where
  pageDesc :=
    { logicalOffset := UInt32.ofNat (logicalStartPage + i)
      logicalBlk := UInt16.ofNat (logicalBlk + i)
      pebPage := UInt16.ofNat (logicalBlk + i) }
  blkState :=
    { logStartPage := 0
      logArea := areaType
      pebMigrationId := pebMigrationIdStart
      byteOffset := UInt32.ofNat
        (defineBlockDescriptorOffset (Word.u16 (Word.u32 (startPebPage + i)))) }

def writeOffset (fragment : Nat) (areaType : UInt8) (logicalStartPage logicalBlk startPebPage i : Nat)
    (buf : Buf) : Mkfs Buf :=
  buf.put Errno PhysOffsetDescriptor.wire (fragment + physOffTblHdrSize + i * physOffDescSize)
    (physOffset areaType logicalStartPage logicalBlk startPebPage i)

def physOffsetTableHeader (sequenceId startId restBlks idCount : Nat) : PhysOffsetTableHeader :=
  let byteSize := physOffTblHdrSize + idCount * physOffDescSize
  let hasNext := idCount < restBlks
  let freeItems := min src.pagesPerSeg offDescPerFragment - src.usedLogicalBlks
  { startId := UInt16.ofNat startId
    idCount := UInt16.ofNat idCount
    byteSize := UInt32.ofNat byteSize
    pebIndex := UInt16.ofNat src.pebIndex
    sequenceId := UInt16.ofNat sequenceId
    type := segOffTable
    flags := if hasNext then offTableHasCsum ||| offTableHasNextFragment else offTableHasCsum
    magic := physOffTableMagic
    checksum := 0
    usedLogicalBlks := UInt16.ofNat src.usedLogicalBlks
    freeLogicalBlks := UInt16.ofNat freeItems
    lastAllocatedBlk := UInt16.ofNat src.lastAllocatedBlk
    nextFragmentOff := if hasNext then UInt16.ofNat byteSize else 0xFFFF }

def prepareOffsetsTableFragment (fragment sequenceId : Nat) (areaType : UInt8)
    (logicalStartPage logicalBlk startPebPage startId restBlks : Nat) (buf : Buf) :
    Mkfs (Buf × Nat) := do
  bugOn (src.validBlks = 0)
  bugOn (areaType ≥ logAreaMax)
  bugOn (src.pebIndex ≥ Word.u16Max)
  bugOn (Word.u32 (src.lastAllocatedBlk + 1) ≠ src.usedLogicalBlks)
  bugOn (src.usedLogicalBlks ≥ Word.u16Max)
  bugOn (src.lastAllocatedBlk ≥ Word.u16Max)
  let idCount := min restBlks offDescPerFragment
  let buf ← Checked.forRange idCount
    (writeOffset fragment areaType logicalStartPage logicalBlk startPebPage) buf
  let byteSize := physOffTblHdrSize + idCount * physOffDescSize
  bugOn (src.usedLogicalBlks > min src.pagesPerSeg offDescPerFragment)
  bugOn (byteSize ≥ Word.u16Max)
  let hdr := physOffsetTableHeader src sequenceId startId restBlks idCount
  let buf ← buf.put Errno PhysOffsetTableHeader.wire fragment hdr
  let bytes ← buf.bytes Errno fragment byteSize
  let buf ← buf.put Errno PhysOffsetTableHeader.wire fragment { hdr with checksum := crc32 bytes }
  .ok (buf, idCount)

def prepareTranslationExtent (portion : Nat) (st : OffTableState) : Mkfs OffTableState := do
  let buf ← st.buf.put Errno TranslationExtent.wire st.offset
    { logicalBlk := UInt16.ofNat src.startLogicalBlk
      offsetId := 0
      len := UInt16.ofNat src.validBlks
      sequenceId := 0
      state := logicalBlkUsed }
  let buf ← fragmentDescriptorInit crc32 buf (portion + fragmentSlotsOffset + st.slot * 16) st.offset
    st.offset translationExtentSize translationExtentSize st.curFragment blk2offExtentDesc
    fragmentHasCsum
  .ok { st with
    buf
    curFragment := Word.u32 (st.curFragment + 1)
    fragmentsCount := st.fragmentsCount - 1
    offset := Word.u32 (st.offset + translationExtentSize)
    slot := st.slot + 1 }

def prepareSlot (portion : Nat) (st : OffTableState) : Mkfs OffTableState :=
  if st.fragmentsCount < 0 then fail .erange
  else if st.fragmentsCount = 0 then .ok st
  else do
    let (buf, processedBlks) ← prepareOffsetsTableFragment crc32 src st.offset
      (Word.u16 st.curPhysOffTblFrag) logBlkDescArea (Word.u32 st.logicalStartPage)
      (Word.u16 st.logicalBlk) (Word.u16 st.startPebPage) st.startId st.restBlks st.buf
    let fragSize := physOffTblHdrSize + processedBlks * physOffDescSize
    let buf ← fragmentDescriptorInit crc32 buf (portion + fragmentSlotsOffset + st.slot * 16)
      st.offset st.offset (Word.u16 fragSize) (Word.u16 fragSize) st.curFragment blk2offDesc
      fragmentHasCsum
    bugOn (src.startLogicalBlk ≥ Word.u16Max)
    .ok
      { buf
        offset := Word.u32 (st.offset + fragSize)
        curFragment := Word.u32 (st.curFragment + 1)
        curPhysOffTblFrag := Word.u32 (st.curPhysOffTblFrag + 1)
        startId := Word.u16 (st.startId + processedBlks)
        restBlks := st.restBlks - processedBlks
        logicalStartPage := Word.u64 (st.logicalStartPage + processedBlks)
        logicalBlk := Word.u32 (st.logicalBlk + processedBlks)
        startPebPage := Word.u32 (st.startPebPage + processedBlks)
        fragmentsCount := st.fragmentsCount - 1
        slot := st.slot + 1 }

def preparePortion (portionsCount i : Nat) (st : OffTableState) : Mkfs OffTableState := do
  let portion := st.offset
  let buf ← st.buf.put Errno Signature.wire portion
    { common := superMagic
      key := blk2offTableHdrMagic
      major := majorRevision
      minor := minorRevision }
  let st := { st with buf, offset := Word.u32 (portion + blk2offTblHdrSize), slot := 0 }
  let st ← if i = 0 then prepareTranslationExtent crc32 src portion st else .ok st
  let st ← Checked.forRange (blk2offTblMax - st.slot) (fun _ => prepareSlot crc32 src portion) st
  let portionSize := Word.sub32 st.offset portion
  let buf ← st.buf.put Errno FragmentsChainHeader.wire (portion + chainHdrOffset)
    { comprBytes := UInt32.ofNat portionSize
      uncomprBytes := UInt32.ofNat portionSize
      fragmentsCount := UInt16.ofNat st.slot
      descSize := 16
      magic := chainHdrMagic
      type := blk2offChainHdr
      flags := if i + 1 < portionsCount then multipleHdrChain else 0 }
  .ok { st with buf }

end

def preCommitOffsetTable (crc32 : List UInt8 → UInt32) (layout : VolumeLayout) (pebIndex : Nat)
    (extent : ExtentDesc) (logicalByteOffset : UInt64) (startLogicalBlk : UInt32)
    (validBlks : UInt16) (usedLogicalBlks lastAllocatedBlk : UInt32) : Mkfs Buf := do
  bugOn extent.buf.isSome
  bugOn (startLogicalBlk.toNat ≥ Word.u16Max)
  bugOn (layout.pageSize.bytes > layout.env.eraseSize.toNat)
  let pagesPerPeb := layout.env.eraseSize.toNat / layout.pageSize.bytes
  failIf (validBlks.toNat > pagesPerPeb) .einval
  let fragmentsCount ← calculateOffsetTableFragments validBlks.toNat
  let allocationSize := Word.u32 (calculateOffsetTableSize fragmentsCount validBlks.toNat)
  let portionsCount := Word.u16 (fragmentsCount + blk2offTblMax - 1) / blk2offTblMax
  let logicalStartPage := logicalByteOffset.toNat / layout.pageSize.bytes
  bugOn (logicalStartPage ≥ Word.u32Max)
  let src := ⟨pebIndex, layout.pagesPerSeg, startLogicalBlk.toNat, validBlks.toNat,
    usedLogicalBlks.toNat, lastAllocatedBlk.toNat⟩
  let st ← Checked.forRange portionsCount (preparePortion crc32 src portionsCount)
    ⟨Buf.zero allocationSize, 0, 0, 0, 0, validBlks.toNat, logicalStartPage, startLogicalBlk.toNat, 0,
      fragmentsCount, 0⟩
  .ok st.buf

end Ssdfs
