import Ssdfs.OffTable.Run
import Ssdfs.BlkDesc.Decode

namespace Ssdfs

open Memory

structure OffsetTable where
  extents : List TranslationExtent
  offsets : List PhysOffsetDescriptor

section

variable (buf : Buf)

def readSlot (portion slot : Nat) (t : OffsetTable) : Mkfs OffsetTable := do
  let desc ← buf.get Errno FragmentDesc.wire (portion + fragmentSlotsOffset + slot * 16)
  let fragment := desc.offset.toNat
  if desc.type = blk2offExtentDesc then
    let extents ← buf.getArray Errno TranslationExtent.wire fragment
      (desc.uncomprSize.toNat / translationExtentSize)
    .ok { t with extents := t.extents ++ extents }
  else if desc.type = blk2offDesc then
    let hdr ← buf.get Errno PhysOffsetTableHeader.wire fragment
    let offsets ← buf.getArray Errno PhysOffsetDescriptor.wire (fragment + physOffTblHdrSize)
      hdr.idCount.toNat
    .ok { t with offsets := t.offsets ++ offsets }
  else fail .eio

def readPortions : Nat → Nat → OffsetTable → Mkfs OffsetTable
  | 0, _, _ => .error .fuel
  | fuel + 1, portion, t => do
    let hdr ← buf.get Errno FragmentsChainHeader.wire (portion + chainHdrOffset)
    failIf (hdr.fragmentsCount.toNat > blk2offTblMax) .eio
    let t ← Checked.forRange hdr.fragmentsCount.toNat (readSlot buf portion) t
    if hdr.flags &&& multipleHdrChain ≠ 0 then
      readPortions fuel (portion + hdr.comprBytes.toNat) t
    else .ok t

def readOffsetTable : Mkfs OffsetTable := readPortions buf buf.size 0 ⟨[], []⟩

end

section

variable {buf : Buf} {src : OffTableSource} {page n : Nat} {t : OffsetTable}

theorem readSlot_extent (hat : PortionAt src buf.data page n) (hfit : 168 ≤ buf.size) :
    readSlot buf 0 0 t = .ok { t with extents := t.extents ++
      [⟨UInt16.ofNat src.startLogicalBlk, 0, UInt16.ofNat src.validBlks, 0, logicalBlkUsed⟩] } := by
  obtain ⟨checksum, hdesc⟩ := hat.extentDesc
  have hslot : 0 + fragmentSlotsOffset + 0 * 16 = 32 := rfl
  unfold readSlot
  rw [hslot, Buf.get_ok (by rw [FragmentDesc.wire_size]; omega), Checked.ok_bind, hdesc]
  have hcount : (slotDesc 128 8 0 blk2offExtentDesc checksum).uncomprSize.toNat /
    translationExtentSize = 1 := by
    change (UInt16.ofNat 8).toNat / translationExtentSize = 1
    decide
  have hoffset : (slotDesc 128 8 0 blk2offExtentDesc checksum).offset.toNat = 128 := rfl
  have htype : (slotDesc 128 8 0 blk2offExtentDesc checksum).type = blk2offExtentDesc := rfl
  simp only [hcount, hoffset, htype, if_true]
  rw [Buf.getArray_ok (by rw [TranslationExtent.wire_size]; omega), Checked.ok_bind, List.range_one,
    List.map_singleton, Nat.zero_mul, hat.extent]

theorem readSlot_offsets (hat : PortionAt src buf.data page n) (hn : n ≤ 253)
    (hfit : 168 + n * 16 ≤ buf.size) :
    readSlot buf 0 1 t = .ok ⟨t.extents, t.offsets ++ (List.range n).map
      (physOffset logBlkDescArea (Word.u32 page) (Word.u16 src.startLogicalBlk) 0)⟩ := by
  obtain ⟨checksum, hdesc⟩ := hat.offsetsDesc
  obtain ⟨checksum', hheader⟩ := hat.offsets.header
  have hslot : 0 + fragmentSlotsOffset + 1 * 16 = 48 := rfl
  have hoffset : (slotDesc 136 (32 + n * 16) 1 blk2offDesc checksum).offset.toNat = 136 := rfl
  have htype : (slotDesc 136 (32 + n * 16) 1 blk2offDesc checksum).type = blk2offDesc := rfl
  have hnot : blk2offDesc ≠ blk2offExtentDesc := by decide
  have hcount : (UInt16.ofNat n).toNat = n := UInt16.toNat_ofNat_of_lt' (show n < 65536 by omega)
  unfold readSlot
  rw [hslot, Buf.get_ok (by rw [FragmentDesc.wire_size]; omega), Checked.ok_bind, hdesc]
  simp only [hoffset, htype, hnot, if_false, if_true]
  rw [Buf.get_ok (by rw [PhysOffsetTableHeader.wire_size]; omega), Checked.ok_bind, hheader]
  unfold physOffsetTableHeader
  simp only [hcount]
  rw [Buf.getArray_ok (by
    rw [PhysOffsetDescriptor.wire_size]
    unfold physOffTblHdrSize
    omega), Checked.ok_bind]
  congr 3
  exact List.map_congr_left fun k hk => hat.offsets.offsets k (List.mem_range.1 hk)

theorem readOffsetTable_ok (hat : PortionAt src buf.data page n) (hn : n ≤ 253)
    (hfit : 168 + n * 16 ≤ buf.size) :
    readOffsetTable buf = .ok
      ⟨[⟨UInt16.ofNat src.startLogicalBlk, 0, UInt16.ofNat src.validBlks, 0, logicalBlkUsed⟩],
        (List.range n).map
          (physOffset logBlkDescArea (Word.u32 page) (Word.u16 src.startLogicalBlk) 0)⟩ := by
  obtain ⟨fuel, hfuel⟩ := Nat.exists_eq_succ_of_ne_zero (show buf.size ≠ 0 by omega)
  have hcount : (2 : UInt16).toNat = 2 := rfl
  have hflags : ¬(0 &&& multipleHdrChain ≠ 0) := by decide
  unfold readOffsetTable
  rw [hfuel]
  unfold readPortions
  rw [Buf.get_ok (by
    rw [FragmentsChainHeader.wire_size]
    unfold chainHdrOffset
    omega), Checked.ok_bind, Nat.zero_add]
  have hhdr : FragmentsChainHeader.wire.read buf.data chainHdrOffset = _ := hat.chainHdr
  rw [hhdr]
  simp only [hcount]
  rw [failIf_of_not (by decide), Checked.ok_bind]
  simp only [hflags, if_false]
  unfold Checked.forRange Checked.forRange Checked.forRange
  rw [Checked.ok_bind, readSlot_extent hat (by omega), Checked.ok_bind, readSlot_offsets hat hn hfit]
  rfl

end

/-- One extent of `validBlks` blocks from `startLogicalBlk` on, with their places in order. -/
structure Translates (startLogicalBlk validBlks : Nat) (t : OffsetTable) : Prop where
  extent : ∃ e, t.extents = [e] ∧ e.logicalBlk.toNat = startLogicalBlk ∧ e.len.toNat = validBlks
  length : t.offsets.length = validBlks
  logicalBlk : ∀ k (h : k < t.offsets.length),
    t.offsets[k].pageDesc.logicalBlk.toNat = startLogicalBlk + k

section

variable {crc32 : List UInt8 → UInt32} {layout : VolumeLayout} {pebIndex : Nat}
  {extent : ExtentDesc} {logicalByteOffset : UInt64} {startLogicalBlk : UInt32} {validBlks : UInt16}
  {usedLogicalBlks lastAllocatedBlk : UInt32}

theorem preCommitOffsetTable_decodes_iff (hpeb : pebIndex < Word.u16Max) (hbuf : extent.buf = none)
    (hpage : layout.pageSize.bytes ≤ layout.env.eraseSize.toNat) (hvalid : 1 ≤ validBlks.toNat)
    (hmax : validBlks.toNat ≤ layout.env.eraseSize.toNat / layout.pageSize.bytes)
    (hused : validBlks.toNat ≤ usedLogicalBlks.toNat)
    (hseg : usedLogicalBlks.toNat ≤ layout.pagesPerSeg) :
    (∃ buf t, preCommitOffsetTable crc32 layout pebIndex extent logicalByteOffset startLogicalBlk
        validBlks usedLogicalBlks lastAllocatedBlk = .ok buf ∧ readOffsetTable buf = .ok t ∧
        Translates startLogicalBlk.toNat validBlks.toNat t) ↔
      OffTableFits layout logicalByteOffset startLogicalBlk validBlks usedLogicalBlks
          lastAllocatedBlk ∧ startLogicalBlk.toNat + validBlks.toNat ≤ 65536 := by
  have hwrite := @preCommitOffsetTable_exact crc32 layout pebIndex extent logicalByteOffset
    startLogicalBlk validBlks usedLogicalBlks lastAllocatedBlk hpeb hbuf hpage hvalid hmax hused hseg
  have hblk : ∀ k, (physOffset logBlkDescArea (Word.u32 (logicalByteOffset.toNat /
      layout.pageSize.bytes)) (Word.u16 startLogicalBlk.toNat) 0 k).pageDesc.logicalBlk.toNat =
      (startLogicalBlk.toNat + k) % 65536 := fun k => Nat.mod_add_mod ..
  constructor
  · rintro ⟨buf, t, hbuf, ht, htranslates⟩
    have hfits := hwrite.only buf hbuf
    obtain ⟨hsize, hat⟩ := hwrite.result hbuf
    have hle := Nat.le_trans hused hfits.used
    rw [readOffsetTable_ok hat hle (by omega)] at ht
    have hlength := htranslates.length
    have hlast := htranslates.logicalBlk (validBlks.toNat - 1) (by omega)
    cases ht
    rw [List.getElem_map, List.getElem_range, hblk] at hlast
    exact ⟨hfits, by omega⟩
  · rintro ⟨hfits, hend⟩
    obtain ⟨buf, hbuf, hsize, hat⟩ := hwrite.succeeds hfits
    have hle := Nat.le_trans hused hfits.used
    have hstart := hfits.start
    unfold Word.u16Max at hstart
    refine ⟨buf, _, hbuf, readOffsetTable_ok hat hle (by omega), ⟨_, rfl, ?_, ?_⟩, by simp,
      fun k hk => ?_⟩
    · exact UInt16.toNat_ofNat_of_lt' (show startLogicalBlk.toNat < 65536 by omega)
    · exact UInt16.toNat_ofNat_of_lt' validBlks.toNat_lt
    · simp only [List.length_map, List.length_range] at hk
      simp only [List.getElem_map, List.getElem_range]
      rw [hblk]
      omega

end

theorem preCommitOffsetTable_decodes_61 :
    ∃ buf t, preCommitOffsetTable (fun _ => 0) widePebs 0 ⟨none, 0, 0⟩ 0 0 61 61 60 = .ok buf ∧
      readOffsetTable buf = .ok t ∧ Translates 0 61 t :=
  (@preCommitOffsetTable_decodes_iff (fun _ => 0) widePebs 0 ⟨none, 0, 0⟩ 0 0 61 61 60 (by decide) rfl
    (by decide) (by decide) (by decide) (by decide) (by decide)).2
    ⟨⟨by decide, by decide, by decide, by decide, by decide⟩, by decide⟩

/-- The assertion compares the blocks in use with the items of one fragment. -/
theorem preCommitOffsetTable_aborts_300 :
    ¬∃ buf t, preCommitOffsetTable (fun _ => 0) widePebs 0 ⟨none, 0, 0⟩ 0 0 1 300 299 = .ok buf ∧
      readOffsetTable buf = .ok t ∧ Translates 0 1 t := by
  rintro ⟨buf, t, hbuf, -⟩
  have hfits := (@preCommitOffsetTable_exact (fun _ => 0) widePebs 0 ⟨none, 0, 0⟩ 0 0 1 300 299
    (by decide) rfl (by decide) (by decide) (by decide) (by decide) (by decide)).only buf hbuf
  exact absurd hfits.used (by decide)

end Ssdfs
