import Ssdfs.OffTable.Decode
import Ssdfs.Segbmap.Policy

/-! The two tables that each log of the segment bitmap and of the mapping table gets. -/

namespace Ssdfs

/-- What goes into the logs: buffers of `fragmentsPerPeb` fragments, one for each PEB. -/
structure PayloadSource where
  fragmentSize : Nat
  fragmentsPerPeb : Nat
  fragmentsCount : Nat
  pebsPerSeg : Nat
  buffersCount : Nat
  inodeId : UInt64

def segbmapIno : UInt64 := 14
def maptblIno : UInt64 := 12

structure LogTables where
  offsetTable : Buf
  blockDescriptors : Buf

structure DefineState where
  fragmentIndex : Nat
  payloadOffsetInBytes : Nat
  startLogicalBlk : Nat
  logs : List LogTables

section

variable (crc32 : List UInt8 → UInt32) (layout : VolumeLayout) (a : SegsArray)
  (src : PayloadSource)

def PayloadSource.pebBufferSize : Nat := Word.u64 (src.fragmentSize * src.fragmentsPerPeb)

def PayloadSource.validBlks : Nat :=
  Word.u32 (Word.u64 (src.pebBufferSize + layout.pageSize.bytes - 1) / layout.pageSize.bytes)

def preCommitPebOffsetTable (segIndex pebIndex : Nat) (logicalByteOffset : UInt64)
    (startLogicalBlk : UInt32) (validBlks : UInt16) (usedLogicalBlks lastAllocatedBlk : UInt32) :
    Mkfs Buf := do
  failIf (segIndex ≥ a.segsCapacity) .einval
  failIf (pebIndex ≥ (a.segs segIndex).pebsCapacity) .einval
  preCommitOffsetTable crc32 layout pebIndex
    (((a.segs segIndex).pebs pebIndex).extents .offsetTable) logicalByteOffset startLogicalBlk
    validBlks usedLogicalBlks lastAllocatedBlk

def takeBuffer (fragmentIndex : Nat) : Mkfs Unit :=
  if fragmentIndex ≥ src.buffersCount then .error .stray else .ok ()

def definePebTables (segIndex usedLogicalBlks lastAllocatedBlk j : Nat) (st : DefineState) :
    Mkfs DefineState :=
  if st.fragmentIndex ≥ src.fragmentsCount then .ok st
  else do
    let validBlks := src.validBlks layout
    let logicalByteOffset := Word.u64 (st.fragmentIndex * src.fragmentSize)
    let offsetTable ← preCommitPebOffsetTable crc32 layout a segIndex j
      (UInt64.ofNat logicalByteOffset) (UInt32.ofNat st.startLogicalBlk) (UInt16.ofNat validBlks)
      (UInt32.ofNat usedLogicalBlks) (UInt32.ofNat lastAllocatedBlk)
    let blockDescriptors ← preCommitBlockDescriptors crc32 layout a segIndex j
      (UInt32.ofNat st.startLogicalBlk) (UInt16.ofNat validBlks) src.inodeId
      (UInt32.ofNat st.payloadOffsetInBytes) (UInt32.ofNat layout.pageSize.bytes)
    takeBuffer src st.fragmentIndex
    .ok
      { fragmentIndex := st.fragmentIndex + 1
        payloadOffsetInBytes := Word.u32 (st.payloadOffsetInBytes + src.pebBufferSize)
        startLogicalBlk := Word.u32 (st.startLogicalBlk + validBlks)
        logs := st.logs ++ [⟨offsetTable, blockDescriptors⟩] }

def countUsedBlks (_ usedLogicalBlks : Nat) : Mkfs Nat := do
  let usedLogicalBlks := Word.u32 (usedLogicalBlks + src.validBlks layout)
  failIf (usedLogicalBlks = 0) .erange
  .ok usedLogicalBlks

def defineSegTables (startSegIndex i : Nat) (st : DefineState) : Mkfs DefineState := do
  let usedLogicalBlks ← Checked.forRange src.pebsPerSeg (countUsedBlks layout src) 0
  let lastAllocatedBlk :=
    if src.pebsPerSeg = 0 then Word.u16Max else Word.sub32 usedLogicalBlks 1
  Checked.forRange src.pebsPerSeg
    (definePebTables crc32 layout a src (startSegIndex + i) usedLogicalBlks lastAllocatedBlk)
    { st with startLogicalBlk := 0 }

def defineLogTables (desc : MetadataDesc) : Mkfs (List LogTables) := do
  failIf (desc.startSegIndex ≥ a.segsCapacity) .erange
  failIf (a.segsCount + desc.segsCount > a.segsCapacity) .e2big
  let st ← Checked.forRange desc.segsCount (defineSegTables crc32 layout a src desc.startSegIndex)
    ⟨0, 0, 0, []⟩
  .ok st.logs

end

section

variable (crc32 : List UInt8 → UInt32) (layout : VolumeLayout) (a : SegsArray)

def segbmapPayload (segbmap : SegbmapGeometry) : PayloadSource where
  fragmentSize := segbmap.fragmentSize
  fragmentsPerPeb := segbmap.fragmentsPerPeb
  fragmentsCount := segbmap.fragmentsCount
  pebsPerSeg := segbmap.pebsPerSeg
  buffersCount := segbmap.segsPerChain * segbmap.pebsPerSeg
  inodeId := segbmapIno

/-- The tables that `segbmap_mkfs_define_layout` puts into the logs. -/
def segbmapDefineLogTables (segbmap : SegbmapGeometry) : Mkfs (List LogTables) := do
  let desc := a.metaArray .segbmap
  failIf (desc.segsCount = 0 ∨ desc.segsCount > segbmapSegsMax * 2) .erange
  defineLogTables crc32 layout a (segbmapPayload segbmap) desc

def maptblPayload : PayloadSource where
  fragmentSize := layout.maptbl.portionSize
  fragmentsPerPeb := layout.maptbl.portionsPerFragment
  fragmentsCount := layout.maptbl.portionsCount
  pebsPerSeg := layout.pebsPerSeg
  buffersCount := layout.maptbl.maptblPebs
  inodeId := maptblIno

/-- The tables that `maptbl_mkfs_define_layout` puts into the logs. -/
def maptblDefineLogTables : Mkfs (List LogTables) := do
  let desc := a.metaArray .pebMappingTable
  let segs ← quot (Word.u32 (layout.maptbl.maptblPebs + layout.pebsPerSeg - 1)) layout.pebsPerSeg
  failIf (desc.segsCount = 0 ∨ desc.segsCount > segs) .erange
  defineLogTables crc32 layout a (maptblPayload layout) desc

end

end Ssdfs
