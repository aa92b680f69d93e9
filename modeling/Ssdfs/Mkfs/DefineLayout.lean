import Ssdfs.Commit.HeaderLogs
import Ssdfs.HandOut.Buffers
import Ssdfs.Log.UserData

/-! The last phases of `mkfs_create`, which lay out the logs and commit them. -/

namespace Ssdfs

open Memory

/-- The volume under construction. What the phases find out about the logs goes into `src`. -/
structure Creation where
  a : SegsArray
  src : CommitSource
  userData : UserDataState

structure LogOptions where
  compression : Compression
  segbmapLogPages : UInt16
  maptblLogPages : UInt16
  segbmapMigrationThreshold : UInt16
  maptblMigrationThreshold : UInt16

def sbSegLogPagesOffset : Nat := 0x1D0
def segbmapLogPagesOffset : Nat := 0x1D2
def maptblLogPagesOffset : Nat := 0x1D4
def userDataLogPagesOffset : Nat := 0x1DC
def userDataOptionsOffset : Nat := 0xA4

def curSbSeg : Nat := 0
def reservedSbSeg : Nat := 2
def sbSegCopyMax : Nat := 2
def sbChainMax : Nat := 4

namespace PebContent

/-- An extent gets memory, `bytesCount` bytes of which belong to it. -/
def fill (peb : PebContent) (k : ExtentIndex) (buf : Bytes) (bytesCount : Nat) : PebContent :=
  (peb.setBuf k buf).setSize k (UInt32.ofNat bytesCount)

end PebContent

def SegsArray.setPeb (a : SegsArray) (segIndex pebIndex : Nat) (peb : PebContent) : SegsArray :=
  let seg := a.segs segIndex
  a.setSeg segIndex { seg with pebs := Function.update seg.pebs pebIndex peb }

section

variable (a : SegsArray) (segIndex pebIndex : Nat)

def checkPlace : Mkfs Unit := do
  failIf (segIndex ≥ a.segsCapacity) .einval
  failIf (pebIndex ≥ (a.segs segIndex).pebsCapacity) .einval

def defineSegmentHeaderLayout (peb : PebContent) : Mkfs PebContent := do
  checkPlace a segIndex pebIndex
  bugOn ((peb.extents .segHeader).buf.isSome = true)
  .ok (peb.fill .segHeader (fun _ => 0) segmentHeaderSize)

def defineLogFooterLayout (layout : VolumeLayout) (peb : PebContent) : Mkfs PebContent := do
  checkPlace a segIndex pebIndex
  bugOn ((peb.extents .logFooter).buf.isSome = true)
  bugOn (logFooterSize > layout.pageSize.bytes)
  .ok (peb.fill .logFooter (fun _ => 0) logFooterSize)

end

structure TableSite where
  segIndex : Nat
  pebIndex : Nat
  fragmentIndex : Nat
  startLogicalBlk : Nat
  payloadOffsetInBytes : Nat
  usedLogicalBlks : Nat
  lastAllocatedBlk : Nat

structure TableState where
  a : SegsArray
  fragments : Nat → Option Buf
  calculatedOpenZones : UInt32
  logPages : Nat
  fragmentIndex : Nat
  payloadOffsetInBytes : Nat
  startLogicalBlk : Nat

section

variable (crc32 : UInt32 → List UInt8 → UInt32) (libs : CompressionLibs) (layout : VolumeLayout)
  (options : LogOptions) (segType : SegType) (payload : PayloadSource)

section

variable (a : SegsArray) (site : TableSite)

/-- `pre_commit_block_bitmap` and its sibling for the copy. -/
def layoutBlockBitmap (hasBackupCopy : Bool) (k : ExtentIndex) (peb : PebContent) :
    Mkfs PebContent := do
  let peb := setExtentStartOffset layout segType peb k
  checkPlace a site.segIndex site.pebIndex
  let extent ← preCommitBlockBitmap (ssdfsCrc32Le crc32) libs layout
    ⟨hasBackupCopy, options.compression⟩ (peb.extents k) site.pebIndex payload.pebBufferSize
    (UInt32.ofNat site.startLogicalBlk) (UInt16.ofNat (payload.validBlks layout))
  .ok (peb.fill k extent.buf.data extent.bytesCount)

/-- `pre_commit_offset_table` and its sibling for the copy. -/
def layoutOffsetTable (k : ExtentIndex) (peb : PebContent) : Mkfs PebContent := do
  let peb := setExtentStartOffset layout segType peb k
  checkPlace a site.segIndex site.pebIndex
  let buf ← preCommitOffsetTable (ssdfsCrc32Le crc32) layout site.pebIndex (peb.extents k)
    (UInt64.ofNat (Word.u64 (site.fragmentIndex * payload.fragmentSize)))
    (UInt32.ofNat site.startLogicalBlk) (UInt16.ofNat (payload.validBlks layout))
    (UInt32.ofNat site.usedLogicalBlks) (UInt32.ofNat site.lastAllocatedBlk)
  .ok (peb.fill k buf.data buf.size)

def layoutBlockDescriptors (peb : PebContent) : Mkfs PebContent := do
  let peb := setExtentStartOffset layout segType peb .blockDescriptors
  let buf ← preCommitBlockDescriptors (ssdfsCrc32Le crc32) layout
    (a.setPeb site.segIndex site.pebIndex peb) site.segIndex site.pebIndex
    (UInt32.ofNat site.startLogicalBlk) (UInt16.ofNat (payload.validBlks layout)) payload.inodeId
    (UInt32.ofNat site.payloadOffsetInBytes) (UInt32.ofNat layout.pageSize.bytes)
  .ok (peb.fill .blockDescriptors buf.data buf.size)

def layoutPayload (fragments : Nat → Option Buf) (peb : PebContent) :
    Mkfs (PebContent × (Nat → Option Buf)) :=
  let peb := setExtentStartOffset layout segType peb .logPayload
  if (peb.extents .logPayload).buf.isSome then .error .abort
  else if site.fragmentIndex ≥ payload.buffersCount then .error .stray
  else
    match fragments site.fragmentIndex with
    | none => fail .erange
    | some buf =>
      .ok (peb.fill .logPayload buf.data payload.pebBufferSize,
        Function.update fragments site.fragmentIndex none)

def layoutBlockBitmapBackup (src : CommitSource) (peb : PebContent) : Mkfs PebContent :=
  if src.blkbmapBackup then
    layoutBlockBitmap crc32 libs layout options segType payload a site true .blockBitmapBackup peb
  else .ok peb

def layoutOffsetTableBackup (src : CommitSource) (peb : PebContent) : Mkfs PebContent :=
  if src.blk2offBackup then
    layoutOffsetTable crc32 layout segType payload a site .offsetTableBackup peb
  else .ok peb

def layoutLog (src : CommitSource) (fragments : Nat → Option Buf) (peb : PebContent) :
    Mkfs (PebContent × (Nat → Option Buf)) := do
  let peb := setExtentStartOffset layout segType peb .segHeader
  let peb ← defineSegmentHeaderLayout a site.segIndex site.pebIndex peb
  let peb ← layoutBlockBitmap crc32 libs layout options segType payload a site src.blkbmapBackup
    .blockBitmap peb
  let peb ← layoutOffsetTable crc32 layout segType payload a site .offsetTable peb
  let peb ← layoutBlockDescriptors crc32 layout segType payload a site peb
  let (peb, fragments) ← layoutPayload layout segType payload site fragments peb
  let peb := setExtentStartOffset layout segType peb .logFooter
  let peb ← defineLogFooterLayout a site.segIndex site.pebIndex layout peb
  let peb ← layoutBlockBitmapBackup crc32 libs layout options segType payload a site src peb
  let peb ← layoutOffsetTableBackup crc32 layout segType payload a site src peb
  .ok (peb, fragments)

end

variable (src : CommitSource) (startSegIndex : Nat)

def layoutPeb (usedLogicalBlks lastAllocatedBlk i j : Nat) (st : TableState) : Mkfs TableState :=
  if st.fragmentIndex ≥ payload.fragmentsCount then .ok st
  else do
    let segIndex := startSegIndex + i
    let seg := st.a.segs segIndex
    let seg := { seg with pebsCount := Word.u16 (seg.pebsCount + 1) }
    bugOn (seg.pebsCount > seg.pebsCapacity)
    let a := st.a.setSeg segIndex seg
    let site := ⟨segIndex, j, st.fragmentIndex, st.startLogicalBlk, st.payloadOffsetInBytes,
      usedLogicalBlks, lastAllocatedBlk⟩
    let (peb, fragments) ← layoutLog crc32 libs layout options segType payload a site src
      st.fragments (seg.pebs j)
    let blks ← calculateLogPages layout segType peb
    .ok
      { a := a.setPeb segIndex j peb
        fragments
        calculatedOpenZones := st.calculatedOpenZones + 1
        logPages := max blks st.logPages
        fragmentIndex := st.fragmentIndex + 1
        payloadOffsetInBytes := Word.u32 (st.payloadOffsetInBytes + payload.pebBufferSize)
        startLogicalBlk := Word.u32 (st.startLogicalBlk + payload.validBlks layout) }

def layoutSeg (i : Nat) (st : TableState) : Mkfs TableState := do
  let usedLogicalBlks ← Checked.forRange payload.pebsPerSeg (countUsedBlks layout payload) 0
  let lastAllocatedBlk :=
    if payload.pebsPerSeg = 0 then Word.u16Max else Word.sub32 usedLogicalBlks 1
  Checked.forRange payload.pebsPerSeg
    (layoutPeb crc32 libs layout options segType payload src startSegIndex usedLogicalBlks
      lastAllocatedBlk i)
    { st with startLogicalBlk := 0 }

end

section

variable (crc32 : UInt32 → List UInt8 → UInt32) (libs : CompressionLibs) (layout : VolumeLayout)
  (options : LogOptions)

/-- What `segbmap_mkfs_define_layout` and `maptbl_mkfs_define_layout` share, with the pages of the
longest log. -/
def metaMkfsDefineLayout (metaIndex : MetaIndex) (segType : SegType) (segsMax : Nat)
    (payload : PayloadSource) (buffers : Nat → Buf) (c : Creation) : Mkfs (Creation × Nat) := do
  let desc := c.a.metaArray metaIndex
  failIf (desc.segsCount = 0 ∨ desc.segsCount > segsMax) .erange
  failIf (desc.startSegIndex ≥ c.a.segsCapacity) .erange
  failIf (c.a.segsCount + desc.segsCount > c.a.segsCapacity) .e2big
  let st ← Checked.forRange desc.segsCount
    (layoutSeg crc32 libs layout options segType payload c.src desc.startSegIndex)
    ⟨c.a, fun b => some (buffers b), c.src.calculatedOpenZones, 0, 0, 0, 0⟩
  .ok ({ c with a := st.a, src := { c.src with calculatedOpenZones := st.calculatedOpenZones } },
    st.logPages)

def sbSetLogPages (blks : Nat) : Mkfs UInt16 := do
  bugOn (blks = 0)
  bugOn (blks = Word.u16Max)
  let pagesPerPeb ← quot layout.env.eraseSize.toNat layout.pageSize.bytes
  let blks := min blks logMaxPages
  bugOn (blks / 2 > pagesPerPeb)
  let _ ← rem pagesPerPeb blks
  bugOn (blks ≥ Word.u16Max)
  .ok (UInt16.ofNat blks)

def layoutMaptblCache (cache : MaptblCache) (peb : PebContent) : Mkfs PebContent := do
  let peb := setExtentStartOffset layout .sb peb .maptblCache
  bugOn ((peb.extents .maptblCache).buf.isSome = true)
  let peb := peb.fill .maptblCache (cache.buffer layout.pageSize) cache.bytesCount
  if peb.size .maptblCache ≤ layout.pageSize.bytes - segmentHeaderSize then
    .ok (peb.setOffset .maptblCache (Word.u32 (peb.finish .segHeader)))
  else .ok peb

def layoutSbLog (a : SegsArray) (segIndex : Nat) (cache : MaptblCache) (peb : PebContent) :
    Mkfs PebContent := do
  let peb := setExtentStartOffset layout .sb peb .segHeader
  let peb ← defineSegmentHeaderLayout a segIndex 0 peb
  let peb ← layoutMaptblCache layout cache peb
  let peb := setExtentStartOffset layout .sb peb .logFooter
  defineLogFooterLayout a segIndex 0 layout peb

def layoutSnapLog (a : SegsArray) (segIndex : Nat) (peb : PebContent) : Mkfs PebContent := do
  let peb := setExtentStartOffset layout .initialSnapshot peb .segHeader
  let peb := peb.setOffset .segHeader (Word.u32 (peb.start .segHeader + reservedVbrSize))
  let peb ← defineSegmentHeaderLayout a segIndex 0 peb
  let peb := setExtentStartOffset layout .initialSnapshot peb .logFooter
  defineLogFooterLayout a segIndex 0 layout peb

/-- The first PEB of a segment is the only one with a log. -/
def layoutFirstPeb (log : SegsArray → Nat → PebContent → Mkfs PebContent) (segIndex : Nat)
    (a : SegsArray) : Mkfs (SegsArray × PebContent) := do
  let seg := { a.segs segIndex with pebsCount := 1 }
  bugOn (1 > seg.pebsCapacity)
  let a := a.setSeg segIndex seg
  let peb ← log a segIndex (seg.pebs 0)
  .ok (a.setPeb segIndex 0 peb, peb)

def layoutSbSeg (startSegIndex i j : Nat) (st : Creation × Nat) : Mkfs (Creation × Nat) :=
  if i ≠ curSbSeg then .ok st
  else do
    let (c, logPages) := st
    let (a, peb) ← layoutFirstPeb (fun a segIndex => layoutSbLog layout a segIndex c.src.cache)
      (startSegIndex + (i * sbSegCopyMax + j)) c.a
    let blks ← calculateLogPages layout .sb peb
    .ok ({ c with
        a
        src := { c.src with calculatedOpenZones := c.src.calculatedOpenZones + 1 } },
      max blks logPages)

namespace Creation

def snapMkfsDefineLayout (c : Creation) : Mkfs Creation := do
  let desc := c.a.metaArray .initialSnapshot
  failIf (desc.segsCount = 0 ∨ desc.segsCount > 1) .erange
  failIf (desc.startSegIndex ≥ c.a.segsCapacity) .erange
  failIf (c.a.segsCount + desc.segsCount > c.a.segsCapacity) .e2big
  let (a, _) ← layoutFirstPeb (layoutSnapLog layout) desc.startSegIndex c.a
  .ok { c with a }

def sbMkfsDefineLayout (c : Creation) : Mkfs Creation := do
  let desc := c.a.metaArray .superblock
  failIf (desc.segsCount = 0 ∨ desc.segsCount > sbChainMax * sbSegCopyMax) .erange
  failIf (desc.startSegIndex ≥ c.a.segsCapacity) .erange
  failIf (c.a.segsCount + desc.segsCount > c.a.segsCapacity) .e2big
  let (c, blks) ← Checked.forRange (reservedSbSeg + 1) (fun i =>
    Checked.forRange sbSegCopyMax (layoutSbSeg layout desc.startSegIndex i)) (c, 0)
  let logPages ← sbSetLogPages layout blks
  .ok { c with src := { c.src with
    sbLogPages := logPages
    vh := Wire.u16.write c.src.vh sbSegLogPagesOffset logPages } }

/-- `fuel` bounds the rounds in which the pages of a log are aligned. -/
def segbmapMkfsDefineLayout (fuel : Nat) (g : SegbmapGeometry) (buffers : Nat → Buf) (c : Creation) :
    Mkfs Creation := do
  let (c, blks) ← metaMkfsDefineLayout crc32 libs layout options .segbmap .segbmap
    (segbmapSegsMax * 2) (segbmapPayload g) buffers c
  let (logPages, recorded) ← segbmapSetLogPages fuel layout options.segbmapLogPages.toNat blks
  .ok { c with src := { c.src with
    segbmapLogPages := UInt16.ofNat logPages
    vh := Wire.u16.write c.src.vh segbmapLogPagesOffset recorded } }

def maptblMkfsDefineLayout (fuel : Nat) (buffers : Nat → Buf) (c : Creation) : Mkfs Creation := do
  let segs ← quot (Word.u32 (layout.maptbl.maptblPebs + layout.pebsPerSeg - 1)) layout.pebsPerSeg
  let (c, blks) ← metaMkfsDefineLayout crc32 libs layout options .pebMappingTable .maptbl segs
    (maptblPayload layout) buffers c
  let (logPages, recorded) ← maptblSetLogPages fuel layout options.maptblLogPages.toNat blks
  .ok { c with src := { c.src with
    maptblLogPages := UInt16.ofNat logPages
    vh := Wire.u16.write c.src.vh maptblLogPagesOffset recorded } }

def userDataMkfsDefineLayout (c : Creation) : Mkfs Creation := do
  let (err, st) ← Ssdfs.userDataMkfsDefineLayout layout c.userData
  match err with
  | some e => fail e
  | none =>
    let vs := Wire.u16.write c.src.vs userDataOptionsOffset st.options.flags
    let vs := Wire.u8.write vs (userDataOptionsOffset + 2) st.options.compression
    let vs := Wire.u16.write vs (userDataOptionsOffset + 4) st.options.migrationThreshold
    .ok { c with
      userData := st
      src := { c.src with vh := Wire.u16.write c.src.vh userDataLogPagesOffset st.vhLogPages, vs } }

def mkfsDefineLayout (fuel : Nat) (g : SegbmapGeometry) (segbmapBuffers maptblBuffers : Nat → Buf)
    (c : Creation) : Mkfs Creation := do
  let c ← c.snapMkfsDefineLayout layout
  let c ← c.sbMkfsDefineLayout layout
  let c ← c.segbmapMkfsDefineLayout crc32 libs layout options fuel g segbmapBuffers
  let c ← c.maptblMkfsDefineLayout crc32 libs layout options fuel maptblBuffers
  c.userDataMkfsDefineLayout layout

end Creation

/-- The log of a segment without a payload is committed. -/
def commitFirstPeb (segType : SegType) (segIndex : Nat) (c : Creation) : Mkfs Creation := do
  let peb ← commitHeaderLog crc32 layout c.src segType c.a segIndex ((c.a.segs segIndex).pebs 0)
  .ok { c with a := c.a.setPeb segIndex 0 peb }

def commitSbSeg (startSegIndex i j : Nat) (c : Creation) : Mkfs Creation :=
  if i ≠ curSbSeg then .ok c
  else commitFirstPeb crc32 layout .sb (startSegIndex + (i * sbSegCopyMax + j)) c

namespace Creation

def snapMkfsCommit (c : Creation) : Mkfs Creation := do
  let desc := c.a.metaArray .initialSnapshot
  failIf (desc.segsCount = 0 ∨ desc.segsCount > 1) .erange
  failIf (desc.startSegIndex ≥ c.a.segsCapacity) .erange
  let c ← commitFirstPeb crc32 layout .initialSnapshot desc.startSegIndex c
  .ok { c with a := { c.a with segsCount := c.a.segsCount + desc.segsCount } }

def sbMkfsCommit (c : Creation) : Mkfs Creation := do
  let desc := c.a.metaArray .superblock
  failIf (desc.segsCount = 0 ∨ desc.segsCount > sbChainMax * sbSegCopyMax) .erange
  failIf (desc.startSegIndex ≥ c.a.segsCapacity) .erange
  let c ← Checked.forRange (sbChainMax - 1) (fun i =>
    Checked.forRange sbSegCopyMax (commitSbSeg crc32 layout desc.startSegIndex i)) c
  .ok { c with a := { c.a with segsCount := c.a.segsCount + desc.segsCount } }

def mkfsCommit (g : SegbmapGeometry) (c : Creation) : Mkfs Creation := do
  let c ← c.snapMkfsCommit crc32 layout
  let c ← c.sbMkfsCommit crc32 layout
  let a ← segbmapMkfsCommit crc32 layout c.src g options.segbmapMigrationThreshold c.a
  let a ← maptblMkfsCommit crc32 layout c.src options.maptblMigrationThreshold a
  .ok { c with a }

/-- The phases of `mkfs_create` behind the validation. -/
def mkfsCreate (fuel : Nat) (g : SegbmapGeometry) (segbmapBuffers maptblBuffers : Nat → Buf)
    (c : Creation) : Mkfs Creation := do
  let c ← c.mkfsDefineLayout crc32 libs layout options fuel g segbmapBuffers maptblBuffers
  c.mkfsCommit crc32 layout options g

end Creation

end

end Ssdfs
