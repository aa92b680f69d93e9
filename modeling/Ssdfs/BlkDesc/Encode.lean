import Ssdfs.BlkDesc.Format
import Ssdfs.Write.Check

/-! The block descriptors of a log, in fragments under a chain of area block tables. -/

namespace Ssdfs

def areaBlockTableSize : Nat := 256
def blockDescriptorSize : Nat := 64

def blkDescPerFragment : Nat := (pageCacheSize - areaBlockTableSize) / blockDescriptorSize

def blkDescTableFragments (blksCount : Nat) : Nat :=
  (blksCount + blkDescPerFragment - 1) / blkDescPerFragment

def calculateBlkDescTableSize (fragments validBlks : Nat) : Nat :=
  let blkDescInLastFragment := validBlks % blkDescPerFragment
  let hdrsCount := (fragments + fragmentsChainMax - 1) / fragmentsChainMax
  let allocationSize := hdrsCount * areaBlockTableSize
  let allocationSize := Word.u64 (allocationSize +
    Word.sub64 fragments 1 * (blkDescPerFragment * blockDescriptorSize))
  Word.u64 (allocationSize + blkDescInLastFragment * blockDescriptorSize)

def defineAreaBlkTblHdrOffset (areaIndex : Nat) : Nat :=
  let blkDescPerArea := blkDescPerFragment * fragmentsChainMax
  let offset := Word.u32 (areaIndex * areaBlockTableSize)
  Word.u32 (offset + areaIndex * (blkDescPerArea * blockDescriptorSize))

def fragmentsPerArea (areaIndex fragmentsCount : Nat) : Nat :=
  let areaCount := (fragmentsCount + fragmentsChainMax - 1) / fragmentsChainMax
  if areaIndex ≥ areaCount then Word.u16Max
  else if areaIndex + 1 < areaCount then fragmentsChainMax
  else fragmentsCount % fragmentsChainMax

def blksPerArea (areaIndex fragmentsCount validBlks : Nat) : Nat :=
  let areaCount := (fragmentsCount + fragmentsChainMax - 1) / fragmentsChainMax
  let blkDescPerArea := blkDescPerFragment * fragmentsChainMax
  if areaIndex ≥ areaCount then Word.u16Max
  else if areaIndex + 1 < areaCount then blkDescPerArea
  else validBlks % blkDescPerArea

structure BlkDescSource where
  pebIndex : Nat
  inodeId : UInt64
  itemSize : UInt32
  pageSize : Nat
  payloadOffsetInBytes : UInt32

structure BlkDescState where
  buf : Buf
  curByteOffset : Nat

section

variable (crc32 : List UInt8 → UInt32) (src : BlkDescSource)

/-- Five states are left as `memset` has filled them. -/
def blockDescriptor (curByteOffset pebPage : Nat) : BlockDescriptor where
  ino := src.inodeId
  logicalOffset :=
    UInt32.ofNat (Word.u32 (src.payloadOffsetInBytes.toNat + curByteOffset) / src.pageSize)
  pebIndex := UInt16.ofNat src.pebIndex
  pebPage := UInt16.ofNat pebPage
  state i :=
    if i.val = 0 then
      let areaType := if src.itemSize.toNat ≥ src.pageSize then logMainArea else logJournalArea
      ⟨0, areaType, pebMigrationIdStart, UInt32.ofNat curByteOffset⟩
    else ⟨0xFFFF, 0xFF, 0xFF, 0xFFFFFFFF⟩

def writeBlockDescriptor (array startLogicalBlk i : Nat) (st : BlkDescState) :
    Mkfs BlkDescState := do
  bugOn (src.pebIndex ≥ Word.u16Max)
  let pebPage := Word.u32 (startLogicalBlk + i)
  bugOn (pebPage ≥ Word.u16Max)
  let buf ← st.buf.put Errno BlockDescriptor.wire (array + i * blockDescriptorSize)
    (blockDescriptor src st.curByteOffset pebPage)
  .ok ⟨buf, Word.u32 (st.curByteOffset + src.itemSize.toNat)⟩

def prepareBlockDescriptorFragment (fragmentIndex fdesc array fragmentOffset startLogicalBlk
    validBlks : Nat) (st : BlkDescState) : Mkfs BlkDescState := do
  failIf (fragmentIndex ≥ fragmentsChainMax) .erange
  let st ← Checked.forRange validBlks (writeBlockDescriptor src array startLogicalBlk) st
  bugOn (fragmentIndex ≥ 255)
  let bytesCount := Word.u32 (blockDescriptorSize * validBlks)
  bugOn (bytesCount ≥ Word.u16Max)
  let bytes ← st.buf.bytes Errno array bytesCount
  let buf ← st.buf.put Errno FragmentDesc.wire fdesc
    { offset := UInt32.ofNat fragmentOffset
      comprSize := UInt16.ofNat bytesCount
      uncomprSize := UInt16.ofNat bytesCount
      checksum := crc32 bytes
      sequenceId := UInt8.ofNat fragmentIndex
      magic := fragmentDescMagic
      type := dataBlkDesc
      flags := fragmentHasCsum }
  .ok { st with buf }

/-- The descriptor of fragment `i` in the table at `ptr`. -/
def blkOffset (ptr i : Nat) : Nat := ptr + (16 + i * 16)

def prepareFragment (ptr fragmentsCount validBlks i : Nat) (st : BlkDescState × Nat) :
    Mkfs (BlkDescState × Nat) := do
  let offset := Word.u32 (areaBlockTableSize + i * (blkDescPerFragment * blockDescriptorSize))
  let blkDescCount :=
    if i + 1 < fragmentsCount then blkDescPerFragment else validBlks % blkDescPerFragment
  let st' ← prepareBlockDescriptorFragment crc32 src i (blkOffset ptr i) (ptr + offset) offset st.2
    blkDescCount st.1
  .ok (st', Word.u32 (st.2 + blkDescCount))

def prepareAreaBlockTable (areaIndex areaOffset ptr fragmentsCount : Nat) (hasNextArea : Bool)
    (startLogicalBlk validBlks : Nat) (st : BlkDescState) : Mkfs BlkDescState := do
  failIf (fragmentsCount > fragmentsChainMax) .erange
  let sequenceId := Word.u16 (areaIndex * blkTableMax)
  let bytesCount := Word.u32 (areaBlockTableSize + validBlks * blockDescriptorSize)
  let buf ← st.buf.put Errno FragmentsChainHeader.wire ptr
    { comprBytes := UInt32.ofNat bytesCount
      uncomprBytes := UInt32.ofNat bytesCount
      fragmentsCount := UInt16.ofNat fragmentsCount
      descSize := 16
      magic := chainHdrMagic
      type := blkDescChainHdr
      flags := if hasNextArea then multipleHdrChain else 0 }
  let (st, _) ← Checked.forRange fragmentsCount (prepareFragment crc32 src ptr fragmentsCount validBlks)
    ({ st with buf }, startLogicalBlk)
  if hasNextArea then
    let buf ← st.buf.put Errno FragmentDesc.wire (blkOffset ptr nextBlkTableIndex)
      { offset := UInt32.ofNat (areaOffset + bytesCount)
        comprSize := UInt16.ofNat areaBlockTableSize
        uncomprSize := UInt16.ofNat areaBlockTableSize
        checksum := 0
        sequenceId := UInt8.ofNat (sequenceId + fragmentsChainMax)
        magic := fragmentDescMagic
        type := nextTableDesc
        flags := 0 }
    .ok { st with buf }
  else .ok st

def prepareArea (fragmentsCount hdrsCount validBlks i : Nat) (st : BlkDescState × Nat) :
    Mkfs (BlkDescState × Nat) := do
  let areaOffset := defineAreaBlkTblHdrOffset i
  let fragmentsPerArea := fragmentsPerArea i fragmentsCount
  failIf (fragmentsPerArea ≥ Word.u16Max) .erange
  let blksPerArea := blksPerArea i fragmentsCount validBlks
  failIf (blksPerArea ≥ Word.u16Max) .erange
  let st' ← prepareAreaBlockTable crc32 src i areaOffset areaOffset fragmentsPerArea
    (i + 1 < hdrsCount) st.2 blksPerArea st.1
  .ok (st', Word.u32 (st.2 + blksPerArea))

def preCommitBlockDescriptors (layout : VolumeLayout) (a : SegsArray) (segIndex pebIndex : Nat)
    (startLogicalBlk : UInt32) (validBlks : UInt16) (inodeId : UInt64)
    (payloadOffsetInBytes itemSize : UInt32) : Mkfs Buf := do
  failIf (segIndex ≥ a.segsCapacity) .einval
  failIf (pebIndex ≥ (a.segs segIndex).pebsCapacity) .einval
  bugOn (((a.segs segIndex).pebs pebIndex).extents .blockDescriptors).buf.isSome
  bugOn (layout.pageSize.bytes > layout.env.eraseSize.toNat)
  let pagesPerPeb := layout.env.eraseSize.toNat / layout.pageSize.bytes
  failIf (validBlks.toNat > pagesPerPeb) .einval
  let fragmentsCount := Word.u16 (blkDescTableFragments validBlks.toNat)
  let allocationSize := Word.u32 (calculateBlkDescTableSize fragmentsCount validBlks.toNat)
  let hdrsCount := (fragmentsCount + fragmentsChainMax - 1) / fragmentsChainMax
  let src := ⟨pebIndex, inodeId, itemSize, layout.pageSize.bytes, payloadOffsetInBytes⟩
  let (st, _) ← Checked.forRange hdrsCount
    (prepareArea crc32 src fragmentsCount hdrsCount validBlks.toNat)
    (⟨Buf.zero allocationSize, 0⟩, startLogicalBlk.toNat)
  .ok st.buf

end

end Ssdfs
