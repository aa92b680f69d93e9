import Ssdfs.Blkbmap.Run
import Ssdfs.LogTables.Payload
import Ssdfs.Mkfs.LaidOut

namespace Ssdfs

open Memory

namespace PebContent

variable {peb peb' : PebContent} {j k : ExtentIndex} {n offset : Nat} {buf : Bytes}

structure Fills (k : ExtentIndex) (n : Nat) (peb peb' : PebContent) : Prop where
  size : peb'.size k = n
  others : ∀ j, j ≠ k → peb'.extents j = peb.extents j

theorem Fills.size_of_ne (h : Fills k n peb peb') (hj : j ≠ k) : peb'.size j = peb.size j := by
  unfold PebContent.size
  rw [h.others j hj]

theorem fill_fills (hn : n < 4294967296) : Fills k n peb ((peb.setOffset k offset).fill k buf n) where
  size := by
    unfold fill PebContent.size setSize
    simp only [Function.update_self]
    exact UInt32.toNat_ofNat_of_lt' hn
  others j hj := by
    unfold fill setSize setBuf setOffset
    simp only [Function.update_of_ne hj]

@[simp] theorem setOffset_buf : ((peb.setOffset k offset).extents j).buf = (peb.extents j).buf := by
  unfold setOffset
  simp only [Function.update_apply]
  split
  case isTrue hj => rw [hj]
  case isFalse => rfl

end PebContent

section

variable {crc32 : List UInt8 → UInt32} {libs : CompressionLibs} {layout : VolumeLayout}
  {blkbmap : BlkbmapLayout} {extent : ExtentDesc} {pebIndex bytesCount blks pages : Nat}
  {startLogicalBlk : UInt32} {blksCount : UInt16}

def smallBitmapBytes (pages : Nat) : Nat := 64 + (pages + 3) / 4

theorem preCommitFragment_small {bitmap : Buf} {bytes : Nat} (hpos : 0 < bytes) (hlt : bytes < 64)
    (hsize : bitmap.size = 64 + bytes) :
    ∃ st, preCommitFragment crc32 libs blkbmap bitmap 64 bytes (64 + bytes) 0
      ⟨Buf.zero (64 + bytes), 64, 0, 0⟩ = .ok st ∧ st.buf.size = 64 + bytes ∧
        st.writtenComprBytes = bytes := by
  have hmin : min (bytes - 0) blkBmapFragmentSize = bytes := by
    unfold blkBmapFragmentSize
    omega
  unfold preCommitFragment
  simp only
  rw [bugOn_of_not (by omega), Checked.ok_bind, hmin, bugOn_of_not (by unfold Word.u16Max; omega),
    Checked.ok_bind, bugOn_of_not (by decide), Checked.ok_bind, Buf.bytes_ok (by omega),
    Checked.ok_bind]
  unfold compressFragment
  rw [length_slice, if_pos (show bytes < minSizeCompressionThreshold from hlt), Checked.ok_bind]
  simp only
  rw [Buf.putBytes_ok (by rw [length_slice, Buf.zero]), Checked.ok_bind, length_slice,
    Word.u16_of_lt (show bytes < 65536 by omega)]
  unfold fragmentDescriptorInitFrom
  rw [failIf_of_not (by omega), Checked.ok_bind, failIf_of_not (by decide), Checked.ok_bind,
    failIf_of_not (by decide), Checked.ok_bind, Buf.get_ok (by
      rw [FragmentDesc.wire_size, Buf.zero]
      exact Nat.le_add_right 64 bytes), Checked.ok_bind,
    Buf.bytes_ok (by omega), Checked.ok_bind, Buf.put_ok (by
      rw [FragmentDesc.wire_size, Buf.zero]
      exact Nat.le_add_right 64 bytes), Checked.ok_bind]
  refine ⟨_, rfl, rfl, ?_⟩
  rw [Nat.zero_add]
  exact Word.u32_of_lt (by omega)

theorem preCommitBlockBitmap_small (hempty : extent.buf.isSome = false)
    (hpages : layout.pagesPerPeb < 253) (htype : blkbmap.compression ≠ .unknown)
    (hpos : 0 < blksCount.toNat) (hbytes : bytesCount / layout.pageSize.bytes = blksCount.toNat)
    (hinside : startLogicalBlk.toNat + blksCount.toNat ≤ layout.pagesPerPeb) :
    ∃ e, preCommitBlockBitmap crc32 libs layout blkbmap extent pebIndex bytesCount startLogicalBlk
      blksCount = .ok e ∧ e.bytesCount = smallBitmapBytes layout.pagesPerPeb := by
  have hpage : layout.pageSize.bytes ≠ 0 := by
    have hge := layout.pageSize.bytes_ge
    omega
  have hle : layout.pageSize.bytes ≤ layout.env.eraseSize.toNat := by
    by_contra hgt
    have hnone : layout.pagesPerPeb = 0 := Nat.div_eq_of_lt (Nat.not_le.1 hgt)
    omega
  have hmap : blkBmapBytes layout.pagesPerPeb = (layout.pagesPerPeb + 3) / 4 := by
    unfold blkBmapBytes
    rw [show layout.pagesPerPeb + itemsPerByte blkStateBits - 1 = layout.pagesPerPeb + 3 from rfl,
      Word.u32_of_lt (by omega)]
    rfl
  generalize hlen : (layout.pagesPerPeb + 3) / 4 = bytes at hmap
  have hfragments : blkBmapFragments bytes = 1 := by
    unfold blkBmapFragments
    rw [show bytes + blkBmapFragmentSize - 1 = bytes + 4095 from rfl, Word.u32_of_lt (by omega),
      show blkBmapFragmentSize = 4096 from rfl]
    omega
  have halloc : Word.u32 (bytes + blkBmapHdrSize + blkBmapFragHdrSize + 1 * fragmentDescSize) =
      64 + bytes := by
    unfold blkBmapHdrSize blkBmapFragHdrSize fragmentDescSize
    rw [Word.u32_of_lt (by omega)]
    omega
  have hoffset : blkBmapOffset 1 = 64 := rfl
  obtain ⟨type, htype⟩ : ∃ type, blkBmapTypeOf blkbmap.compression = .ok type := by
    cases hc : blkbmap.compression
    case unknown => exact absurd hc htype
    all_goals exact ⟨_, rfl⟩
  have hreq : BlksRequested blksCount.toNat blksCount.toNat := ⟨Nat.le_refl _, Nat.le_succ _⟩
  obtain ⟨areas, hareas, rfl⟩ := (@blkAreas_exact layout bytesCount startLogicalBlk.toNat _ _
    blksCount.toNat_lt hbytes (by unfold Word.u32Max; omega)).succeeds hreq
  obtain ⟨bitmap, hmarking, hmarked⟩ := (@setBlkAreas_exact startLogicalBlk.toNat blksCount.toNat
    blksCount.toNat 64 bytes (Buf.zero (64 + bytes)) hreq startLogicalBlk.toNat_lt blksCount.toNat_lt
    (by omega) rfl).succeeds fun _ => by omega
  obtain ⟨st, hst, hsize, hwritten⟩ := @preCommitFragment_small crc32 libs blkbmap bitmap bytes (by omega)
    (by omega) hmarked.size
  have hloop : Checked.forRange 1 (preCommitFragment crc32 libs blkbmap bitmap 64 bytes (64 + bytes))
      ⟨Buf.zero (64 + bytes), 64, 0, 0⟩ = .ok st := by
    unfold Checked.forRange Checked.forRange
    exact hst
  have hend : Word.u32 (64 + st.writtenComprBytes) = 64 + bytes := by
    rw [hwritten]
    exact Word.u32_of_lt (by omega)
  unfold preCommitBlockBitmap
  rw [bugOn_of_not (by rw [hempty]; decide), Checked.ok_bind, bugOn_of_not hpage, Checked.ok_bind,
    bugOn_of_not (Nat.not_lt.2 hle), Checked.ok_bind, failIf_of_not (by omega), Checked.ok_bind]
  simp only
  rw [hmap, hfragments, halloc, hoffset, bugOn_of_not (by decide), Checked.ok_bind,
    bugOn_of_not (by decide), Checked.ok_bind, htype, Checked.ok_bind, hareas, Checked.ok_bind,
    hmarking, Checked.ok_bind, hloop, Checked.ok_bind, hend,
    Buf.put_ok (by rw [BlockBitmapHeader.wire_size, hsize]; omega), Checked.ok_bind,
    Buf.put_ok (by
      rw [BlockBitmapFragment.wire_size, blkBmapHdrSize]
      simp only [hsize]
      omega), Checked.ok_bind]
  exact ⟨_, rfl, by unfold smallBitmapBytes; rw [hlen]⟩

end

/-- The bytes of a table of a single portion with the offsets of `blks` blocks. -/
def offsetTableBytes (blks : Nat) : Nat := 168 + blks * 16

/-- The bytes of an area table with the descriptors of `blks` blocks. -/
def blockDescriptorsBytes (blks : Nat) : Nat := 256 + ((blks + 59) / 60 - 1) * 3840 + blks % 60 * 64

/-- How long the extents of a log with a payload of `blks` blocks become where its tables are short. -/
def tableLogSize (layout : VolumeLayout) (src : CommitSource) (blks : Nat) : ExtentIndex → Nat
  | .segHeader => segmentHeaderSize
  | .blockBitmap => smallBitmapBytes layout.pagesPerPeb
  | .offsetTable => offsetTableBytes blks
  | .blockDescriptors => blockDescriptorsBytes blks
  | .maptblCache => 0
  | .logPayload => blks * layout.pageSize.bytes
  | .logFooter => logFooterSize
  | .blockBitmapBackup => if src.blkbmapBackup then smallBitmapBytes layout.pagesPerPeb else 0
  | .offsetTableBackup => if src.blk2offBackup then offsetTableBytes blks else 0

structure SiteFits (layout : VolumeLayout) (options : LogOptions) (payload : PayloadSource)
    (a : SegsArray) (site : TableSite) : Prop where
  seg : site.segIndex < a.segsCapacity
  peb : site.pebIndex < (a.segs site.segIndex).pebsCapacity
  pebIndex : site.pebIndex < 253
  pages : layout.pagesPerPeb < 253
  compression : options.compression ≠ .unknown
  inside : site.startLogicalBlk + payload.validBlks layout ≤ layout.pagesPerPeb
  described : payload.validBlks layout < 253
  valid_le : payload.validBlks layout ≤ site.usedLogicalBlks
  used_le : site.usedLogicalBlks ≤ min layout.pagesPerSeg 253
  last : site.lastAllocatedBlk + 1 = site.usedLogicalBlks
  offset : site.fragmentIndex * payload.fragmentSize / layout.pageSize.bytes < Word.u32Max
  buffer : site.fragmentIndex < payload.buffersCount

section

variable {crc32 : UInt32 → List UInt8 → UInt32} {libs : CompressionLibs} {layout : VolumeLayout}
  {options : LogOptions} {segType : SegType} {payload : PayloadSource} {a : SegsArray}
  {site : TableSite} {src : CommitSource} {peb : PebContent} {k : ExtentIndex} {m : Nat}
  {fragments : Nat → Option Buf}

theorem checkPlace_ok {segIndex pebIndex : Nat} (hseg : segIndex < a.segsCapacity)
    (hpeb : pebIndex < (a.segs segIndex).pebsCapacity) : checkPlace a segIndex pebIndex = .ok () := by
  unfold checkPlace
  rw [failIf_of_not (Nat.not_le.2 hseg), Checked.ok_bind, failIf_of_not (Nat.not_le.2 hpeb)]

@[simp] theorem SegsArray.setPeb_capacity {segIndex pebIndex : Nat} :
    (a.setPeb segIndex pebIndex peb).segsCapacity = a.segsCapacity := rfl

@[simp] theorem SegsArray.setPeb_pebsCapacity {segIndex pebIndex : Nat} :
    ((a.setPeb segIndex pebIndex peb).segs segIndex).pebsCapacity = (a.segs segIndex).pebsCapacity := by
  unfold setPeb setSeg
  simp only [Function.update_self]

@[simp] theorem SegsArray.setPeb_pebs {segIndex pebIndex : Nat} :
    ((a.setPeb segIndex pebIndex peb).segs segIndex).pebs pebIndex = peb := by
  unfold setPeb setSeg
  simp only [Function.update_self]

namespace SiteFits

variable (h : SiteFits layout options payload a site) (hpayload : payload.Sound layout m)

include h

theorem blks_eq : (UInt16.ofNat (payload.validBlks layout)).toNat = payload.validBlks layout :=
  UInt16.toNat_ofNat_of_lt' (Nat.lt_trans h.described (by decide))

theorem start_eq : (UInt32.ofNat site.startLogicalBlk).toNat = site.startLogicalBlk := by
  have hinside := h.inside
  have hpages := h.pages
  exact UInt32.toNat_ofNat_of_lt' (show site.startLogicalBlk < 4294967296 by omega)

theorem used_eq : (UInt32.ofNat site.usedLogicalBlks).toNat = site.usedLogicalBlks ∧
    (UInt32.ofNat site.lastAllocatedBlk).toNat = site.lastAllocatedBlk := by
  have hle := Nat.le_trans h.used_le (Nat.min_le_right _ _)
  have hlast := h.last
  exact ⟨UInt32.toNat_ofNat_of_lt' (show site.usedLogicalBlks < 4294967296 by omega),
    UInt32.toNat_ofNat_of_lt' (show site.lastAllocatedBlk < 4294967296 by omega)⟩

theorem offset_eq : (UInt64.ofNat (Word.u64 (site.fragmentIndex * payload.fragmentSize))).toNat =
    site.fragmentIndex * payload.fragmentSize := by
  have hoffset := h.offset
  have hpage := layout.pageSize.bytes_le
  have hge := layout.pageSize.bytes_ge
  unfold Word.u32Max at hoffset
  have hlt := (Nat.div_lt_iff_lt_mul (by omega)).1 hoffset
  have hmul := Nat.mul_le_mul_left 4294967295 hpage
  have hword : site.fragmentIndex * payload.fragmentSize < 18446744073709551616 := by omega
  rw [Word.u64_of_lt hword]
  exact UInt64.toNat_ofNat_of_lt' hword

include hpayload

theorem page_le : layout.pageSize.bytes ≤ layout.env.eraseSize.toNat := by
  have hpos := hpayload.validBlks_pos
  have hinside := h.inside
  by_contra hgt
  have hnone : layout.pagesPerPeb = 0 := Nat.div_eq_of_lt (Nat.not_le.1 hgt)
  omega

theorem blockBitmap {hasBackupCopy : Bool} (hempty : (peb.extents k).buf = none) :
    ∃ peb', layoutBlockBitmap crc32 libs layout options segType payload a site hasBackupCopy k peb =
      .ok peb' ∧ peb.Fills k (smallBitmapBytes layout.pagesPerPeb) peb' := by
  have hpages := h.pages
  obtain ⟨e, he, hbytes⟩ := @preCommitBlockBitmap_small (ssdfsCrc32Le crc32) libs layout
    ⟨hasBackupCopy, options.compression⟩ ((setExtentStartOffset layout segType peb k).extents k)
    site.pebIndex payload.pebBufferSize (UInt32.ofNat site.startLogicalBlk)
    (UInt16.ofNat (payload.validBlks layout))
    (by unfold setExtentStartOffset; rw [PebContent.setOffset_buf, hempty]; rfl) h.pages h.compression
    (by rw [h.blks_eq]; exact hpayload.validBlks_pos) (by rw [h.blks_eq]; exact hpayload.bufferBlks)
    (by rw [h.blks_eq, h.start_eq]; exact h.inside)
  unfold layoutBlockBitmap
  simp only
  rw [checkPlace_ok h.seg h.peb, Checked.ok_bind, he, Checked.ok_bind, hbytes]
  exact ⟨_, rfl, PebContent.fill_fills (by unfold smallBitmapBytes; omega)⟩

theorem offsetTable (hempty : (peb.extents k).buf = none) :
    ∃ peb', layoutOffsetTable crc32 layout segType payload a site k peb = .ok peb' ∧
      peb.Fills k (offsetTableBytes (payload.validBlks layout)) peb' := by
  have hpos := hpayload.validBlks_pos
  have hlt := h.described
  have hinside := h.inside
  have hused := Nat.le_min.1 h.used_le
  obtain ⟨huse, hlast⟩ := h.used_eq
  have hexact := @preCommitOffsetTable_exact (ssdfsCrc32Le crc32) layout site.pebIndex
    ((setExtentStartOffset layout segType peb k).extents k)
    (UInt64.ofNat (Word.u64 (site.fragmentIndex * payload.fragmentSize)))
    (UInt32.ofNat site.startLogicalBlk) (UInt16.ofNat (payload.validBlks layout))
    (UInt32.ofNat site.usedLogicalBlks) (UInt32.ofNat site.lastAllocatedBlk)
    (Nat.lt_trans h.pebIndex (by decide))
    (by unfold setExtentStartOffset; rw [PebContent.setOffset_buf, hempty]) (h.page_le hpayload)
    (by rw [h.blks_eq]; exact hpos)
    (by rw [h.blks_eq]; exact Nat.le_trans (Nat.le_add_left _ _) hinside)
    (by rw [h.blks_eq, huse]; exact h.valid_le) (by rw [huse]; exact hused.1)
  obtain ⟨buf, hbuf, hsize, -⟩ := hexact.succeeds
    { used := by rw [huse]; exact hused.2
      valid := by rw [h.blks_eq]; omega
      start := by
        have hpages := h.pages
        rw [h.start_eq, Word.u16Max]
        omega
      last := by rw [hlast, huse]; exact h.last
      page := by rw [h.offset_eq]; exact h.offset }
  rw [h.blks_eq] at hsize
  unfold layoutOffsetTable
  simp only
  rw [checkPlace_ok h.seg h.peb, Checked.ok_bind, hbuf, Checked.ok_bind, hsize]
  exact ⟨_, rfl, PebContent.fill_fills (show 168 + payload.validBlks layout * 16 < 4294967296 by omega)⟩

theorem blockDescriptors (hempty : (peb.extents .blockDescriptors).buf = none) :
    ∃ peb', layoutBlockDescriptors crc32 layout segType payload a site peb = .ok peb' ∧
      peb.Fills .blockDescriptors (blockDescriptorsBytes (payload.validBlks layout)) peb' := by
  have hpos := hpayload.validBlks_pos
  have hlt := h.described
  have hinside := h.inside
  have hpages := h.pages
  have hexact := @preCommitBlockDescriptors_exact (ssdfsCrc32Le crc32) layout
    (a.setPeb site.segIndex site.pebIndex (setExtentStartOffset layout segType peb .blockDescriptors))
    site.segIndex site.pebIndex (UInt32.ofNat site.startLogicalBlk)
    (UInt16.ofNat (payload.validBlks layout)) payload.inodeId
    (UInt32.ofNat site.payloadOffsetInBytes) (UInt32.ofNat layout.pageSize.bytes)
    h.seg (by rw [SegsArray.setPeb_pebsCapacity]; exact h.peb) (Nat.lt_trans h.pebIndex (by decide))
    (by
      rw [SegsArray.setPeb_pebs]
      unfold setExtentStartOffset
      rw [PebContent.setOffset_buf, hempty]) (h.page_le hpayload)
    (by rw [h.blks_eq]; exact hpos)
    (by rw [h.blks_eq]; exact Nat.le_trans (Nat.le_add_left _ _) hinside)
  simp only [h.blks_eq, h.start_eq] at hexact
  have hone : ((payload.validBlks layout + 59) / 60 + 13) / 14 = 1 := by omega
  rw [hone] at hexact
  obtain ⟨buf, hbuf, hsize, -⟩ := hexact.succeeds fun i hi f hf k hk => by
    have hi : i = 0 := Nat.lt_one_iff.1 hi
    have hf' := fragmentsPerArea_le hone.symm (show i < 1 by omega)
    have hk' := @fragmentItems_le (fragmentsPerArea i ((payload.validBlks layout + 59) / 60))
      (blksPerArea i ((payload.validBlks layout + 59) / 60) (payload.validBlks layout)) f
    rw [Word.u32_of_lt (by omega), Word.u16Max]
    omega
  unfold layoutBlockDescriptors
  simp only
  rw [hbuf, Checked.ok_bind, hsize]
  exact ⟨_, rfl, PebContent.fill_fills (by unfold blockDescriptorsBytes; omega)⟩

theorem payload_taken {buf : Buf} (hempty : (peb.extents .logPayload).buf = none)
    (hbuf : fragments site.fragmentIndex = some buf) :
    ∃ peb' fragments', layoutPayload layout segType payload site fragments peb =
      .ok (peb', fragments') ∧
        peb.Fills .logPayload (payload.validBlks layout * layout.pageSize.bytes) peb' := by
  have hlt := Nat.mul_le_mul (Nat.le_of_lt h.described) layout.pageSize.bytes_le
  have hsize : payload.pebBufferSize = payload.validBlks layout * layout.pageSize.bytes := by
    rw [hpayload.pebBufferSize_eq, hpayload.validBlks_eq]
  unfold layoutPayload setExtentStartOffset
  simp only [PebContent.setOffset_buf, hempty, Option.isSome_none, Bool.false_eq_true, if_false,
    if_neg (Nat.not_le.2 h.buffer), hbuf, hsize]
  exact ⟨_, _, rfl, PebContent.fill_fills (by omega)⟩

end SiteFits

theorem defineSegmentHeaderLayout_fills (hseg : site.segIndex < a.segsCapacity)
    (hpeb : site.pebIndex < (a.segs site.segIndex).pebsCapacity)
    (hempty : (peb.extents .segHeader).buf = none) :
    ∃ peb', defineSegmentHeaderLayout a site.segIndex site.pebIndex
      (setExtentStartOffset layout segType peb .segHeader) = .ok peb' ∧
        peb.Fills .segHeader segmentHeaderSize peb' := by
  unfold defineSegmentHeaderLayout setExtentStartOffset
  rw [checkPlace_ok hseg hpeb, Checked.ok_bind, PebContent.setOffset_buf, hempty,
    bugOn_of_not (by decide), Checked.ok_bind]
  exact ⟨_, rfl, PebContent.fill_fills (by decide)⟩

theorem defineLogFooterLayout_fills (hseg : site.segIndex < a.segsCapacity)
    (hpeb : site.pebIndex < (a.segs site.segIndex).pebsCapacity)
    (hempty : (peb.extents .logFooter).buf = none) :
    ∃ peb', defineLogFooterLayout a site.segIndex site.pebIndex layout
      (setExtentStartOffset layout segType peb .logFooter) = .ok peb' ∧
        peb.Fills .logFooter logFooterSize peb' := by
  have hpage := layout.pageSize.bytes_ge
  unfold defineLogFooterLayout setExtentStartOffset
  rw [checkPlace_ok hseg hpeb, Checked.ok_bind, PebContent.setOffset_buf, hempty,
    bugOn_of_not (by decide), Checked.ok_bind,
    bugOn_of_not (by rw [show logFooterSize = 2048 from rfl]; omega), Checked.ok_bind]
  exact ⟨_, rfl, PebContent.fill_fills (by decide)⟩

theorem layoutBackups_fill (h : SiteFits layout options payload a site)
    (hpayload : payload.Sound layout m) (hbitmap : peb.extents .blockBitmapBackup = ⟨none, 0, 0⟩)
    (htable : peb.extents .offsetTableBackup = ⟨none, 0, 0⟩) :
    ∃ peb₁ peb₂, layoutBlockBitmapBackup crc32 libs layout options segType payload a site src peb =
        .ok peb₁ ∧
      layoutOffsetTableBackup crc32 layout segType payload a site src peb₁ = .ok peb₂ ∧
        peb₂.size .blockBitmapBackup =
          (if src.blkbmapBackup then smallBitmapBytes layout.pagesPerPeb else 0) ∧
        peb₂.size .offsetTableBackup =
          (if src.blk2offBackup then offsetTableBytes (payload.validBlks layout) else 0) ∧
        ∀ j, j ≠ .blockBitmapBackup → j ≠ .offsetTableBackup → peb₂.extents j = peb.extents j := by
  have hfirst : ∃ peb₁,
      layoutBlockBitmapBackup crc32 libs layout options segType payload a site src peb = .ok peb₁ ∧
        peb.Fills .blockBitmapBackup
          (if src.blkbmapBackup then smallBitmapBytes layout.pagesPerPeb else 0) peb₁ := by
    unfold layoutBlockBitmapBackup
    split
    case isTrue => exact h.blockBitmap hpayload (by rw [hbitmap])
    case isFalse => exact ⟨peb, rfl, by unfold PebContent.size; rw [hbitmap]; rfl, fun _ _ => rfl⟩
  obtain ⟨peb₁, h₁, hfills₁⟩ := hfirst
  have hempty : peb₁.extents .offsetTableBackup = ⟨none, 0, 0⟩ := by
    rw [hfills₁.others _ (by decide), htable]
  have hsecond : ∃ peb₂,
      layoutOffsetTableBackup crc32 layout segType payload a site src peb₁ = .ok peb₂ ∧
        peb₁.Fills .offsetTableBackup
          (if src.blk2offBackup then offsetTableBytes (payload.validBlks layout) else 0) peb₂ := by
    unfold layoutOffsetTableBackup
    split
    case isTrue => exact h.offsetTable hpayload (by rw [hempty])
    case isFalse => exact ⟨peb₁, rfl, by unfold PebContent.size; rw [hempty]; rfl, fun _ _ => rfl⟩
  obtain ⟨peb₂, h₂, hfills₂⟩ := hsecond
  refine ⟨peb₁, peb₂, h₁, h₂, ?_, hfills₂.size, fun j hj hj' => ?_⟩
  · rw [hfills₂.size_of_ne (by decide), hfills₁.size]
  · rw [hfills₂.others j hj', hfills₁.others j hj]

theorem layoutLog_succeeds {buf : Buf} (h : SiteFits layout options payload a site)
    (hpayload : payload.Sound layout m) (hblank : peb.IsBlank)
    (hbuf : fragments site.fragmentIndex = some buf) :
    ∃ peb' fragments', layoutLog crc32 libs layout options segType payload a site src fragments peb =
      .ok (peb', fragments') ∧ peb'.size = tableLogSize layout src (payload.validBlks layout) := by
  obtain ⟨peb₁, h₁, hfills₁⟩ := @defineSegmentHeaderLayout_fills layout segType a site peb h.seg h.peb
    (by rw [hblank])
  have hempty₁ : ∀ j, j ≠ .segHeader → peb₁.extents j = ⟨none, 0, 0⟩ := fun j hj => by
    rw [hfills₁.others j hj, hblank]
  obtain ⟨peb₂, h₂, hfills₂⟩ := @SiteFits.blockBitmap crc32 libs layout options segType payload a site
    peb₁ .blockBitmap m h hpayload src.blkbmapBackup (by rw [hempty₁ _ (by decide)])
  have hempty₂ : ∀ j, j ≠ .segHeader → j ≠ .blockBitmap → peb₂.extents j = ⟨none, 0, 0⟩ :=
    fun j hj hj' => by rw [hfills₂.others j hj', hempty₁ j hj]
  obtain ⟨peb₃, h₃, hfills₃⟩ := @SiteFits.offsetTable crc32 layout options segType payload a site peb₂
    .offsetTable m h hpayload (by rw [hempty₂ _ (by decide) (by decide)])
  obtain ⟨peb₄, h₄, hfills₄⟩ := @SiteFits.blockDescriptors crc32 layout options segType payload a site
    peb₃ m h hpayload (by rw [hfills₃.others _ (by decide), hempty₂ _ (by decide) (by decide)])
  obtain ⟨peb₅, fragments', h₅, hfills₅⟩ := @SiteFits.payload_taken layout options segType payload a
    site peb₄ m fragments h hpayload buf
    (by rw [hfills₄.others _ (by decide), hfills₃.others _ (by decide), hempty₂ _ (by decide) (by decide)])
    hbuf
  have hempty₅ : ∀ j, 6 ≤ j.rank → peb₅.extents j = ⟨none, 0, 0⟩ := fun j hj => by
    have hne : ∀ k : ExtentIndex, k.rank < 6 → j ≠ k := fun k hk heq => by
      subst heq
      omega
    rw [hfills₅.others j (hne _ (by decide)), hfills₄.others j (hne _ (by decide)),
      hfills₃.others j (hne _ (by decide)), hempty₂ j (hne _ (by decide)) (hne _ (by decide))]
  obtain ⟨peb₆, h₆, hfills₆⟩ := @defineLogFooterLayout_fills layout segType a site peb₅ h.seg h.peb
    (by rw [hempty₅ _ (by decide)])
  obtain ⟨peb₇, peb₈, h₇, h₈, hbitmap, htable, hothers⟩ := @layoutBackups_fill crc32 libs layout options
    segType payload a site src peb₆ m h hpayload
    (by rw [hfills₆.others _ (by decide), hempty₅ _ (by decide)])
    (by rw [hfills₆.others _ (by decide), hempty₅ _ (by decide)])
  refine ⟨peb₈, fragments', ?_, ?_⟩
  · unfold layoutLog
    simp only
    rw [h₁, Checked.ok_bind, h₂, Checked.ok_bind, h₃, Checked.ok_bind, h₄, Checked.ok_bind, h₅,
      Checked.ok_bind]
    simp only
    rw [h₆, Checked.ok_bind, h₇, Checked.ok_bind, h₈, Checked.ok_bind]
  · have hlast : ∀ j : ExtentIndex, j.rank < 7 → peb₈.size j = peb₆.size j := fun j hj => by
      unfold PebContent.size
      rw [hothers j (fun heq => by subst heq; exact absurd hj (by decide))
        fun heq => by subst heq; exact absurd hj (by decide)]
    funext j
    cases j
    case segHeader =>
      rw [hlast _ (by decide), hfills₆.size_of_ne (by decide), hfills₅.size_of_ne (by decide),
        hfills₄.size_of_ne (by decide), hfills₃.size_of_ne (by decide), hfills₂.size_of_ne (by decide),
        hfills₁.size]
      rfl
    case blockBitmap =>
      rw [hlast _ (by decide), hfills₆.size_of_ne (by decide), hfills₅.size_of_ne (by decide),
        hfills₄.size_of_ne (by decide), hfills₃.size_of_ne (by decide), hfills₂.size]
      rfl
    case offsetTable =>
      rw [hlast _ (by decide), hfills₆.size_of_ne (by decide), hfills₅.size_of_ne (by decide),
        hfills₄.size_of_ne (by decide), hfills₃.size]
      rfl
    case blockDescriptors =>
      rw [hlast _ (by decide), hfills₆.size_of_ne (by decide), hfills₅.size_of_ne (by decide),
        hfills₄.size]
      rfl
    case maptblCache =>
      rw [hlast _ (by decide), hfills₆.size_of_ne (by decide), hfills₅.size_of_ne (by decide),
        hfills₄.size_of_ne (by decide), hfills₃.size_of_ne (by decide)]
      unfold PebContent.size
      rw [hempty₂ _ (by decide) (by decide)]
      rfl
    case logPayload =>
      rw [hlast _ (by decide), hfills₆.size_of_ne (by decide), hfills₅.size]
      rfl
    case logFooter =>
      rw [hlast _ (by decide), hfills₆.size]
      rfl
    case blockBitmapBackup => exact hbitmap
    case offsetTableBackup => exact htable

end

end Ssdfs
