import Ssdfs.Dump.BlkDesc
import Ssdfs.Dump.LogWalk
import Ssdfs.Lib.Report
import Ssdfs.Recover.BlockState
import Ssdfs.Segbmap.Payload

namespace Ssdfs

open Memory

/-- A state without a name is shown as unknown. -/
def shownState : Nat → Option SegbmapState
  | 0x0 => some .clean
  | 0x1 => some .dataUsing
  | 0x5 => some .hybridNodeUsing
  | 0x2 => some .leafNodeUsing
  | 0x3 => some .indexNodeUsing
  | 0x9 => some .reserved
  | 0x7 => some .used
  | 0x6 => some .preDirty
  | 0x4 => some .dirty
  | 0x8 => some .bad
  | 0xA => some .dataUsingInvalidated
  | _ => none

abbrev ShownItem := Nat × Option SegbmapState

structure ShownFragment where
  blockIndex : Nat
  hdr : SegbmapFragmentHeader
  items : List ShownItem

abbrev Shown := Report Errno (List ShownFragment)

def segbmapGetItemByteOffset (fragmentItem : Nat) : Nat :=
  segbmapFragmentHeaderSize + fragmentItem / itemsPerByte segStateBits

def segbmapGetStateFromByte (value : UInt8) (byteItem : Nat) : Nat :=
  value.toNat >>> (byteItem * segStateBits) &&& segStateMask

/-- `rest` items from `i` on; the first one behind the end of the fragment ends with `-ERANGE`. -/
def showItems (fragBuf : Buf) (startSeg fragSize : Nat) :
    Nat → Nat → Mkfs (Report Errno (List ShownItem))
  | 0, _ => .ok (none, [])
  | rest + 1, i =>
    let byteOffset := segbmapGetItemByteOffset i
    if byteOffset ≥ fragSize then .ok (some .erange, [])
    else do
      let byteItem := i - (byteOffset - segbmapFragmentHeaderSize) * itemsPerByte segStateBits
      let value ← fragBuf.get Errno Wire.u8 byteOffset
      let state := segbmapGetStateFromByte value byteItem
      let (e, items) ← showItems fragBuf startSeg fragSize rest (i + 1)
      .ok (e, (Word.u64 (startSeg + i), shownState state) :: items)

def parseSegbmapFragment (blockIndex : Nat) (fragBuf : Buf) (fragSize pageSize : Nat) :
    Mkfs Shown := do
  let fragSize := min fragSize pageSize
  let hdr ← fragBuf.get Errno SegbmapFragmentHeader.wire 0
  let (e, items) ← showItems fragBuf hdr.startItem.toNat fragSize hdr.totalSegs.toNat 0
  .ok (e, [⟨blockIndex, hdr, items⟩])

def areaDesc (hdr : Bytes) (index : Fin segHdrDescMax) : MetadataDescriptorRecord :=
  MetadataDescriptorRecord.wire.read hdr
    (SegHdr.descArrayOffset + index.val * MetadataDescriptorRecord.wire.size)

structure DumpedLog where
  dev : Buf
  pebId : Nat
  pebSize : Nat
  pageSize : Nat
  hdr : Bytes

structure MetadataState where
  parsedBytes : Nat
  err : Option Errno
  shown : List ShownFragment

namespace DumpedLog

variable (log : DumpedLog)

def readAt (offset size : Nat) : Mkfs Bytes :=
  deviceRead log.dev (Word.u64 (Word.u64 (log.pebId * log.pebSize) + offset)) size

/-- Shows a whole page, unless it cannot be read. -/
def parseMetadataPlainBlock (blockIndex byteOffset : Nat) : Mkfs Shown :=
  let offset := Word.u32 ((areaDesc log.hdr coldPayloadAreaIndex).offset.toNat + byteOffset)
  Report.attempt (log.readAt offset log.pageSize) [] fun block =>
    parseSegbmapFragment blockIndex ⟨log.pageSize, block⟩ log.pageSize log.pageSize

variable (portion : Nat → Nat → Nat → Mkfs Shown)
  (decompress : UInt8 → Buf → Nat → Nat → Buf → Nat → Mkfs Buf)

/-- `portion` shows the fragments of a portion: of a block, in an area, at an offset. The journal has
no `break` and ends like an area that is not known. -/
def parseMetadataBlock (desc : BlockDescriptor) : Mkfs Shown :=
  let blkState := desc.state ⟨0, by decide⟩
  let blockIndex := desc.logicalOffset.toNat
  let offsetInsideArea := blkState.byteOffset.toNat
  if blkState.logArea = logMainArea then log.parseMetadataPlainBlock blockIndex offsetInsideArea
  else if blkState.logArea = logDiffsArea then
    let areaOffset := (areaDesc log.hdr warmPayloadAreaIndex).offset.toNat
    portion blockIndex areaOffset (Word.u32 (areaOffset + offsetInsideArea))
  else if blkState.logArea = logJournalArea then do
    let areaOffset := (areaDesc log.hdr hotPayloadAreaIndex).offset.toNat
    let (_, shown) ← portion blockIndex areaOffset (Word.u32 (areaOffset + offsetInsideArea))
    .ok (some .eio, shown)
  else .ok (some .eio, [])

/-- A block that is not shown is passed over. -/
def parseNextBlock (data : Buf) (offset i : Nat) (st : Shown) : Mkfs Shown := do
  let desc ← data.get Errno BlockDescriptor.wire (offset + i * blockDescriptorSize)
  let (e, shown) ← log.parseMetadataBlock portion desc
  .ok (e, st.2 ++ shown)

def parseMetadataBlocks (data : Buf) (offset uncomprSize : Nat) (shown : List ShownFragment) :
    Mkfs Shown :=
  Checked.forRange (uncomprSize / blockDescriptorSize) (log.parseNextBlock portion data offset)
    (none, shown)

/-- The blocks of a fragment of the table, unless it cannot be decompressed. -/
def parseFragmentData (areaBuf : Buf) (frag : FragmentDesc) (parsedBytes : Nat)
    (shown : List ShownFragment) : Mkfs Shown :=
  let uncomprSize := frag.uncomprSize.toNat
  if frag.type = dataBlkDescZlib ∨ frag.type = dataBlkDescLzo then
    Report.attempt (decompress frag.type areaBuf parsedBytes frag.comprSize.toNat
        (Buf.zero uncomprSize) uncomprSize) shown fun data =>
      log.parseMetadataBlocks portion data 0 uncomprSize shown
  else log.parseMetadataBlocks portion areaBuf parsedBytes uncomprSize shown

def parseMetadataFragment (areaBuf : Buf) (areaHdr : AreaBlockTable) (i : Nat)
    (st : MetadataState) : Mkfs (Report Errno MetadataState) :=
  if h : i < blkTableMax then
    let frag := areaHdr.blk ⟨i, h⟩
    let comprSize := frag.comprSize.toNat
    if Word.sub32 areaBuf.size st.parsedBytes < comprSize then .ok (some .eio, st)
    else do
      let (err, shown) ← log.parseFragmentData portion decompress areaBuf frag st.parsedBytes st.shown
      .ok (none, ⟨Word.u32 (st.parsedBytes + comprSize), err, shown⟩)
  else .error .stray

def parseMetadataTable (areaBuf : Buf) (areaHdr : AreaBlockTable) (st : MetadataState) :
    Mkfs (Report Errno MetadataState) :=
  let st := { st with parsedBytes := Word.u32 (st.parsedBytes + areaBlockTableSize) }
  let fragmentsCount := areaHdr.chainHdr.fragmentsCount.toNat
  if fragmentsCount > blkTableMax then .ok (some .erange, st)
  else
    Report.each (log.parseMetadataFragment portion decompress areaBuf areaHdr)
      (List.range (min fragmentsCount nextBlkTableIndex)) st

/-- The tables from the one at the bytes that are parsed on; `fuel` bounds their number. -/
def parseMetadataTables (areaBuf : Buf) : Nat → MetadataState → Mkfs (Report Errno MetadataState)
  | 0, _ => .error .fuel
  | fuel + 1, st => do
    let areaHdr ← areaBuf.get Errno AreaBlockTable.wire st.parsedBytes
    Report.andThen (log.parseMetadataTable portion decompress areaBuf areaHdr st) fun st =>
      if areaHdr.chainHdr.flags &&& multipleHdrChain ≠ 0 then
        Report.attempt (nextTableOffset (areaHdr.blk ⟨nextBlkTableIndex, by decide⟩) st.parsedBytes) st fun parsedBytes =>
          parseMetadataTables areaBuf fuel { st with parsedBytes }
      else .ok (none, st)

def parseMetadata (fuel : Nat) : Mkfs Shown :=
  let desc := areaDesc log.hdr blkDescAreaIndex
  let areaSize := desc.size.toNat
  if isAreaValid desc.offset.toNat areaSize then
    Report.attempt (log.readAt desc.offset.toNat areaSize) [] fun area =>
      if areaSize < areaBlockTableSize then .ok (some .eio, [])
      else do
        let (e, st) ← log.parseMetadataTables portion decompress ⟨areaSize, area⟩ fuel ⟨0, none, []⟩
        .ok (e <|> st.err, st.shown)
  else .ok (none, [])

end DumpedLog

section

variable {fragBuf : Buf} {startSeg fragSize pageSize blockIndex rest i : Nat}

theorem segbmapGetState_eq (value : UInt8) : segbmapGetStateFromByte value
    (i - (segbmapGetItemByteOffset i - segbmapFragmentHeaderSize) * itemsPerByte segStateBits) =
      stateInByte value segStateBits segStateMask (i % 2) := by
  have hitem : i - (segbmapGetItemByteOffset i - segbmapFragmentHeaderSize) *
      itemsPerByte segStateBits = i % 2 := by
    change i - (32 + i / 2 - 32) * 2 = i % 2
    omega
  rw [hitem]
  rfl

theorem showItems_ok (hbuf : fragSize ≤ fragBuf.size) (hfit : ∀ k < i + rest, 32 + k / 2 < fragSize) :
    showItems fragBuf startSeg fragSize rest i = .ok (none, (List.range' i rest).map fun k =>
      (Word.u64 (startSeg + k), shownState (itemState fragBuf.data segbmapFragmentHeaderSize k))) := by
  induction rest generalizing i with
  | zero => rfl
  | succ rest ih =>
    have hin : segbmapGetItemByteOffset i < fragSize := hfit i (by omega)
    have hget : segbmapGetItemByteOffset i + Wire.u8.size ≤ fragBuf.size := Nat.le_trans hin hbuf
    unfold showItems
    rw [if_neg (Nat.not_le.2 hin), Buf.get_ok hget, Checked.ok_bind,
      ih fun k hk => hfit k (by omega), Checked.ok_bind, segbmapGetState_eq]
    rfl

theorem parseSegbmapFragment_ok (hsize : 32 ≤ pageSize) (hbuf : pageSize ≤ fragBuf.size)
    (hfit : ∀ k < (SegbmapFragmentHeader.wire.read fragBuf.data 0).totalSegs.toNat,
      32 + k / 2 < pageSize) :
    parseSegbmapFragment blockIndex fragBuf pageSize pageSize =
      .ok (none, [⟨blockIndex, SegbmapFragmentHeader.wire.read fragBuf.data 0,
        (List.range (SegbmapFragmentHeader.wire.read fragBuf.data 0).totalSegs.toNat).map fun k =>
          (Word.u64 ((SegbmapFragmentHeader.wire.read fragBuf.data 0).startItem.toNat + k),
            shownState (itemState fragBuf.data segbmapFragmentHeaderSize k))⟩]) := by
  have hget : 0 + SegbmapFragmentHeader.wire.size ≤ fragBuf.size := by
    rw [SegbmapFragmentHeader.wire_size]
    omega
  unfold parseSegbmapFragment
  simp only
  rw [Buf.get_ok hget, Checked.ok_bind, Nat.min_self,
    showItems_ok hbuf fun k hk => hfit k (by rwa [Nat.zero_add] at hk), Checked.ok_bind,
    ← List.range_eq_range']

end

namespace DumpedLog

section

variable {log : DumpedLog} {portion : Nat → Nat → Nat → Mkfs Shown}
  {decompress : UInt8 → Buf → Nat → Nat → Buf → Nat → Mkfs Buf} {crc32 : List UInt8 → UInt32}
  {src : BlkDescSource} {areaBuf : Buf} {f n page s fuel : Nat} {shown : List ShownFragment}
  {block : Nat → List ShownFragment}

/-- Each descriptor from the first one of the log on shows what `block` has for it. -/
def ShowsBlocks (log : DumpedLog) (portion : Nat → Nat → Nat → Mkfs Shown) (src : BlkDescSource)
    (page n : Nat) (block : Nat → List ShownFragment) : Prop :=
  ∀ k < n, log.parseMetadataBlock portion
    (blockDescriptor src (Word.u32 (k * src.itemSize.toNat)) (Word.u32 (page + k))) =
      .ok (none, block k)

theorem parseMetadataBlocks_ok {offset : Nat}
    (hblocks : log.ShowsBlocks portion src page (s + n) block)
    (hitems : ItemsAt src areaBuf.data offset (page + s) (s * src.itemSize.toNat) n)
    (hfit : offset + n * 64 ≤ areaBuf.size) :
    log.parseMetadataBlocks portion areaBuf offset (n * 64) shown =
      .ok (none, shown ++ (List.range' s n).flatMap block) := by
  have hcount : n * 64 / blockDescriptorSize = n := by
    unfold blockDescriptorSize
    omega
  unfold parseMetadataBlocks
  rw [hcount]
  obtain ⟨st, hst, rfl⟩ := @Checked.forRange_ok _ _ (log.parseNextBlock portion areaBuf offset)
    (fun k (st : Shown) => st = (none, shown ++ (List.range' s k).flatMap block)) n (none, shown)
    (by simp) fun k hk st hst => by
      have hitem := hitems k hk
      rw [Nat.add_assoc, ← Nat.add_mul] at hitem
      refine ⟨_, ?_, rfl⟩
      unfold parseNextBlock blockDescriptorSize
      rw [Buf.get_ok (by rw [BlockDescriptor.wire_size]; omega), Checked.ok_bind, hitem,
        hblocks (s + k) (by omega), Checked.ok_bind, hst, List.range'_concat, List.flatMap_append,
        ← List.append_assoc]
      simp
  exact hst

theorem parseMetadataFragment_ok {i : Nat} (hi : i < f) (hf : f ≤ fragmentsChainMax) (hn : n ≤ 60)
    (hblocks : log.ShowsBlocks portion src page (i * 60 + n) block)
    (hfragment : FragmentAt crc32 src areaBuf.data (blkOffset 0 i) (0 + (256 + i * 3840))
      (256 + i * 3840) i (page + i * 60) (0 + i * 60 * src.itemSize.toNat) n)
    (hfit : 256 + i * 3840 + n * 64 ≤ areaBuf.size) (hsize : areaBuf.size < 4294967296) :
    log.parseMetadataFragment portion decompress areaBuf (AreaBlockTable.wire.read areaBuf.data 0) i
        ⟨256 + i * 3840, none, shown⟩ =
      .ok (none, ⟨256 + (i * 60 + n) * 64, none, shown ++ (List.range' (i * 60) n).flatMap block⟩) := by
  have hindex : i < blkTableMax := by
    unfold blkTableMax
    omega
  have hcount : (UInt16.ofNat (n * 64)).toNat = n * 64 :=
    UInt16.toNat_ofNat_of_lt' (show n * 64 < 65536 by omega)
  have hitems := hfragment.items
  rw [Nat.zero_add, Nat.zero_add] at hitems
  unfold parseMetadataFragment
  simp only
  rw [dif_pos hindex, areaBlockTable_blk, hfragment.desc]
  unfold fragmentDesc
  simp only [hcount]
  rw [Word.sub32_of_le (by omega) hsize, if_neg (by omega)]
  unfold parseFragmentData
  simp only [hcount]
  rw [if_neg (by decide), parseMetadataBlocks_ok hblocks hitems hfit, Checked.ok_bind,
    Word.u32_of_lt (by omega)]
  congr 3
  omega

theorem eachFragment_ok (htable : TableAt crc32 src areaBuf.data 0 0 f false page n 0)
    (hf : f ≤ fragmentsChainMax)
    (hblocks : log.ShowsBlocks portion src page (itemsBefore f n f) block)
    (hfit : 256 + itemsBefore f n f * 64 ≤ areaBuf.size) (hsize : areaBuf.size < 4294967296)
    {j : Nat} (hj : j ≤ f) :
    Report.each (log.parseMetadataFragment portion decompress areaBuf
        (AreaBlockTable.wire.read areaBuf.data 0)) (List.range j) ⟨256, none, []⟩ =
      .ok (none, ⟨256 + itemsBefore f n j * 64, none, (List.range (itemsBefore f n j)).flatMap block⟩) := by
  induction j with
  | zero => rfl
  | succ j ih =>
    have hend := fragmentItems_end (n := n) hj
    have hbefore := itemsBefore_of_lt (n := n) hj
    have hle : j * 60 + fragmentItems f n j ≤ itemsBefore f n f := hend
    have hfragment := @parseMetadataFragment_ok log portion decompress crc32 src areaBuf f
      (fragmentItems f n j) page ((List.range (j * 60)).flatMap block) block j hj hf fragmentItems_le
      (fun k hk => hblocks k (by omega)) (htable.fragments j hj) (by omega) hsize
    have hoffset : j * 60 * 64 = j * 3840 := by omega
    rw [List.range_succ, Report.each_append, ih (by omega), Report.andThen_ok, hbefore, hoffset,
      Report.each, hfragment, Report.andThen_ok, itemsBefore, hbefore, List.range_add,
      List.flatMap_append, List.range'_eq_map_range]
    rfl

theorem parseMetadataTables_single (htable : TableAt crc32 src areaBuf.data 0 0 f false page n 0)
    (hf : f ≤ fragmentsChainMax)
    (hblocks : log.ShowsBlocks portion src page (itemsBefore f n f) block)
    (hfit : 256 + itemsBefore f n f * 64 ≤ areaBuf.size) (hsize : areaBuf.size < 4294967296) :
    log.parseMetadataTables portion decompress areaBuf (fuel + 1) ⟨0, none, []⟩ =
      .ok (none, ⟨256 + itemsBefore f n f * 64, none,
        (List.range (itemsBefore f n f)).flatMap block⟩) := by
  have hchain : (AreaBlockTable.wire.read areaBuf.data 0).chainHdr = areaHeader f n false :=
    htable.header
  have hcount : (UInt16.ofNat f).toNat = f := UInt16.toNat_ofNat_of_lt' (by
    unfold fragmentsChainMax at hf
    change f < 65536
    omega)
  have hmin : min f nextBlkTableIndex = f := Nat.min_eq_left hf
  have hstart : Word.u32 (0 + areaBlockTableSize) = 256 := rfl
  have hflag : (areaHeader f n false).flags &&& multipleHdrChain = 0 :=
    (by decide : (0 : UInt16) &&& multipleHdrChain = 0)
  have hslots : ¬f > blkTableMax := by
    unfold blkTableMax
    omega
  have hfragments : (areaHeader f n false).fragmentsCount.toNat = f := hcount
  have hget : 0 + AreaBlockTable.wire.size ≤ areaBuf.size := by
    rw [AreaBlockTable.wire_size]
    omega
  unfold parseMetadataTables
  simp only
  rw [Buf.get_ok hget, Checked.ok_bind]
  unfold parseMetadataTable
  simp only
  rw [hchain, hfragments, hstart, if_neg hslots, hmin,
    eachFragment_ok htable hf hblocks hfit hsize (Nat.le_refl f), Report.andThen_ok,
    if_neg fun h => h hflag]

theorem parseMetadata_ok {area : Bytes} {areaSize : Nat}
    (hvalid : isAreaValid (areaDesc log.hdr blkDescAreaIndex).offset.toNat areaSize = true)
    (hareaSize : (areaDesc log.hdr blkDescAreaIndex).size.toNat = areaSize)
    (hread : log.readAt (areaDesc log.hdr blkDescAreaIndex).offset.toNat areaSize = .ok area)
    (htable : TableAt crc32 src area 0 0 f false page n 0) (hf : f ≤ fragmentsChainMax)
    (hblocks : log.ShowsBlocks portion src page (itemsBefore f n f) block)
    (hfit : 256 + itemsBefore f n f * 64 ≤ areaSize) :
    log.parseMetadata portion decompress (fuel + 1) =
      .ok (none, (List.range (itemsBefore f n f)).flatMap block) := by
  have hsize : areaSize < 4294967296 := hareaSize ▸ UInt32.toNat_lt _
  have hhdr : ¬areaSize < areaBlockTableSize := by
    unfold areaBlockTableSize
    omega
  unfold parseMetadata
  simp only
  rw [hareaSize, if_pos hvalid, hread, Report.attempt_ok, if_neg hhdr,
    @parseMetadataTables_single log portion decompress crc32 src ⟨areaSize, area⟩ f n page fuel block
      htable hf hblocks hfit hsize, Checked.ok_bind]
  rfl

theorem parseMetadata_zero {area : Bytes} {areaSize : Nat} {r : Shown}
    (hvalid : isAreaValid (areaDesc log.hdr blkDescAreaIndex).offset.toNat areaSize = true)
    (hareaSize : (areaDesc log.hdr blkDescAreaIndex).size.toNat = areaSize)
    (hread : log.readAt (areaDesc log.hdr blkDescAreaIndex).offset.toNat areaSize = .ok area)
    (hfit : 256 ≤ areaSize) : log.parseMetadata portion decompress 0 ≠ .ok r := fun h => by
  have hhdr : ¬areaSize < areaBlockTableSize := Nat.not_lt.2 hfit
  unfold parseMetadata at h
  simp only at h
  rw [hareaSize, if_pos hvalid, hread, Report.attempt_ok, if_neg hhdr] at h
  cases h

end

end DumpedLog

end Ssdfs
