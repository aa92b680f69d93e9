import Ssdfs.BlkDesc.Run
import Ssdfs.BlkDesc.Decode
import Ssdfs.Dump.OffTable
import Ssdfs.OffTable.Single

namespace Ssdfs

open Memory

/-- The place of block `k`, under its number. -/
def shownOffset (page startLogicalBlk k : Nat) : Nat × PhysOffsetDescriptor :=
  (k, physOffset logBlkDescArea (Word.u32 page) (Word.u16 startLogicalBlk) 0 k)

section

variable {decompress : UInt8 → Buf → Nat → Nat → Buf → Nat → Mkfs Buf} {areaBuf : Buf}
  {src : OffTableSource} {st : OffTableDump} {page start a i j n : Nat}

theorem physOffset_shift {areaType : UInt8} :
    physOffset areaType (Word.u32 (page + a)) (Word.u16 (start + a)) a i =
      physOffset areaType (Word.u32 page) (Word.u16 start) 0 (a + i) := by
  have hoffset : UInt32.ofNat (Word.u32 (page + a) + i) = UInt32.ofNat (Word.u32 page + (a + i)) := by
    rw [← UInt32.toNat_inj, UInt32.toNat_ofNat', UInt32.toNat_ofNat']
    unfold Word.u32
    omega
  have hblk : UInt16.ofNat (Word.u16 (start + a) + i) = UInt16.ofNat (Word.u16 start + (a + i)) := by
    rw [← UInt16.toNat_inj, UInt16.toNat_ofNat', UInt16.toNat_ofNat']
    unfold Word.u16
    omega
  unfold physOffset
  rw [hoffset, hblk, Nat.zero_add]

theorem parsePotTable_ok {sequenceId startId restBlks fragment uncomprSize : Nat} (hn : n ≤ 253)
    (hid : startId < 65536) (huncompr : uncomprSize = 32 + n * 16)
    (hat : OffsetsAt src areaBuf.data fragment sequenceId (Word.u32 (page + startId))
      (Word.u16 (src.startLogicalBlk + startId)) startId startId restBlks n)
    (hfit : fragment + 32 + n * 16 ≤ areaBuf.size) :
    parsePotTable areaBuf fragment uncomprSize =
      .ok ((List.range n).map fun k => shownOffset page src.startLogicalBlk (startId + k)) := by
  obtain ⟨checksum, hheader⟩ := hat.header
  have hcount : (UInt16.ofNat n).toNat = n := UInt16.toNat_ofNat_of_lt' (show n < 65536 by omega)
  have hstart : (UInt16.ofNat startId).toNat = startId := UInt16.toNat_ofNat_of_lt' hid
  have hbytes : (UInt32.ofNat (physOffTblHdrSize + n * physOffDescSize)).toNat = 32 + n * 16 :=
    UInt32.toNat_ofNat_of_lt' (show 32 + n * 16 < 4294967296 by omega)
  unfold parsePotTable
  rw [Buf.get_ok (by rw [PhysOffsetTableHeader.wire_size]; omega), Checked.ok_bind, hheader]
  unfold physOffsetTableHeader
  simp only [hcount, hstart, hbytes]
  rw [failIf_of_not (by omega), Checked.ok_bind,
    failIf_of_not (by unfold physOffDescSize; omega), Checked.ok_bind, Buf.getArray_ok (by
      rw [PhysOffsetDescriptor.wire_size]
      unfold physOffTblHdrSize
      omega), Checked.ok_bind]
  congr 1
  refine List.ext_getElem (by simp) fun k hk _ => ?_
  have hk : k < n := by simpa using hk
  have hoffset := hat.offsets k hk
  rw [physOffset_shift] at hoffset
  simp only [List.getElem_mapIdx, List.getElem_map, List.getElem_range]
  unfold shownOffset
  rw [← hoffset]
  rfl

theorem dumpSlot_extent (hfilled : SlotsFilled src areaBuf.data page n) (hfit : 136 ≤ areaBuf.size)
    (hparsed : st.parsedBytes = 128) :
    dumpSlot decompress areaBuf 0 0 st = .ok { st with
      parsedBytes := 136
      extents := st.extents ++
        [⟨UInt16.ofNat src.startLogicalBlk, 0, UInt16.ofNat src.validBlks, 0, logicalBlkUsed⟩] } := by
  obtain ⟨checksum, hdesc⟩ := hfilled.extentDesc
  have hslot : 0 + fragmentSlotsOffset + 0 * 16 = 32 := rfl
  have hcount : (slotDesc 128 8 0 blk2offExtentDesc checksum).comprSize.toNat /
      translationExtentSize = 1 := by
    change (UInt16.ofNat 8).toNat / translationExtentSize = 1
    decide
  have hend : Word.u32 (128 + (slotDesc 128 8 0 blk2offExtentDesc checksum).comprSize.toNat) = 136 :=
    rfl
  have htype : (slotDesc 128 8 0 blk2offExtentDesc checksum).type = blk2offExtentDesc := rfl
  unfold dumpSlot
  rw [hslot, Buf.get_ok (by rw [FragmentDesc.wire_size]; omega), Checked.ok_bind, hdesc]
  simp only [htype]
  rw [if_pos (.inl trivial)]
  unfold parseExtentsFragment
  simp only [htype, if_true, hparsed, hcount, hend]
  rw [Buf.getArray_ok (by rw [TranslationExtent.wire_size]; omega), Checked.ok_bind, List.range_one,
    List.map_singleton, Nat.zero_mul, hfilled.extent]

theorem dumpSlot_offsets (hfilled : SlotsFilled src areaBuf.data page n) (hn : n ≤ 5) (hj : j < n)
    (hfit : 136 + j * 4080 + 32 + offsetsIn src.validBlks j * 16 ≤ areaBuf.size)
    (hsize : areaBuf.size < 4294967296) (hparsed : st.parsedBytes = 136 + j * 4080) :
    dumpSlot decompress areaBuf 0 (j + 1) st = .ok { st with
      parsedBytes := 136 + j * 4080 + 32 + offsetsIn src.validBlks j * 16
      offsets := st.offsets ++ (List.range (offsetsIn src.validBlks j)).map fun k =>
        shownOffset page src.startLogicalBlk (j * 253 + k) } := by
  obtain ⟨checksum, hdesc⟩ := hfilled.descs j hj
  have hle : offsetsIn src.validBlks j ≤ 253 := Nat.min_le_right ..
  have hslot : 0 + fragmentSlotsOffset + (j + 1) * 16 = 48 + j * 16 := by
    unfold fragmentSlotsOffset
    omega
  have hcompr : (UInt16.ofNat (32 + offsetsIn src.validBlks j * 16)).toNat =
      32 + offsetsIn src.validBlks j * 16 :=
    UInt16.toNat_ofNat_of_lt' (show 32 + offsetsIn src.validBlks j * 16 < 65536 by omega)
  unfold dumpSlot
  rw [hslot, Buf.get_ok (by rw [FragmentDesc.wire_size]; omega), Checked.ok_bind, hdesc]
  unfold slotDesc
  simp only
  rw [if_neg (by decide), if_pos (.inl trivial)]
  unfold parseBlk2offTableFragment blk2offFragmentData
  simp only [hparsed, hcompr, if_true]
  rw [failIf_of_not (by omega), Checked.ok_bind, Word.sub32_of_le (by omega) hsize,
    failIf_of_not (by omega), Checked.ok_bind, Checked.ok_bind,
    failIf_of_not (by unfold physOffTblHdrSize; omega), Checked.ok_bind,
    parsePotTable_ok hle (by omega) rfl (hfilled.offsets j hj) hfit, Checked.ok_bind,
    Word.u32_of_lt (by omega), ← Nat.add_assoc]

/-- The state before slot `i`, where the extent has slot 0. -/
def shownBefore (src : OffTableSource) (page : Nat) : Nat → OffTableDump
  | 0 => ⟨128, false, [], []⟩
  | j + 1 => ⟨136 + j * 32 + offsetsBefore src.validBlks j * 16, false,
      [⟨UInt16.ofNat src.startLogicalBlk, 0, UInt16.ofNat src.validBlks, 0, logicalBlkUsed⟩],
      (List.range (offsetsBefore src.validBlks j)).map (shownOffset page src.startLogicalBlk)⟩

theorem dumpSlot_shownBefore (hfilled : SlotsFilled src areaBuf.data page n)
    (hn : n = src.validBlks / 253 + 1) (hn' : n ≤ 5)
    (hsize : areaBuf.size = 136 + n * 32 + src.validBlks * 16) (hi : i < n + 1) :
    dumpSlot decompress areaBuf 0 i (shownBefore src page i) = .ok (shownBefore src page (i + 1)) := by
  cases i with
  | zero =>
    have hbefore : offsetsBefore src.validBlks 0 = 0 := by
      unfold offsetsBefore
      omega
    rw [dumpSlot_extent hfilled (by omega) rfl]
    simp only [shownBefore, hbefore]
    rfl
  | succ j =>
    have hbefore : offsetsBefore src.validBlks j = j * 253 := Nat.min_eq_left (by omega)
    have hnext : offsetsBefore src.validBlks (j + 1) = j * 253 + offsetsIn src.validBlks j := by
      unfold offsetsBefore offsetsIn
      omega
    have hle : offsetsIn src.validBlks j ≤ src.validBlks - j * 253 := Nat.min_le_left ..
    rw [dumpSlot_offsets hfilled hn' (by omega) (by omega) (by omega) (by
      simp only [shownBefore, hbefore]
      omega)]
    simp only [shownBefore]
    rw [hnext, hbefore, List.range_add, List.map_append, List.map_map]
    congr 2
    omega

theorem parseBlk2offTable_single {fuel bytes : _} (hfilled : SlotsFilled src areaBuf.data page n)
    (hn : n = src.validBlks / 253 + 1) (hn' : n ≤ 5)
    (hsize : areaBuf.size = 136 + n * 32 + src.validBlks * 16)
    (hchain : FragmentsChainHeader.wire.read areaBuf.data 16 =
      ⟨bytes, bytes, UInt16.ofNat (n + 1), 16, chainHdrMagic, blk2offChainHdr, 0⟩) :
    parseBlk2offTable decompress areaBuf (fuel + 1) = .ok (shownBefore src page (n + 1)) := by
  have hbefore : offsetsBefore src.validBlks n = src.validBlks := Nat.min_eq_right (by omega)
  have hcount : (UInt16.ofNat (n + 1)).toNat = n + 1 :=
    UInt16.toNat_ofNat_of_lt' (show n + 1 < 65536 by omega)
  obtain ⟨st, hrun, rfl⟩ := @Checked.forRange_ok _ _ (dumpSlot decompress areaBuf 0)
    (fun i st => st = shownBefore src page i) (n + 1) (shownBefore src page 0) rfl
    fun i hi st hst => ⟨_, by rw [hst]; exact dumpSlot_shownBefore hfilled hn hn' hsize hi, rfl⟩
  unfold parseBlk2offTable
  rw [failIf_of_not (by unfold blk2offTblHdrSize; omega), Checked.ok_bind]
  unfold dumpPortions
  rw [failIf_of_not (by simp only; omega), Checked.ok_bind]
  simp only
  have hplace : 0 + chainHdrOffset = 16 := rfl
  rw [hplace, Buf.get_ok (by rw [FragmentsChainHeader.wire_size]; omega), Checked.ok_bind, hchain]
  simp only [hcount]
  rw [Buf.getArray_ok (by rw [FragmentDesc.wire_size]; unfold fragmentSlotsOffset; omega),
    Checked.ok_bind]
  change (Checked.forRange (n + 1) (dumpSlot decompress areaBuf 0) (shownBefore src page 0) >>= _) >>= _
    = _
  rw [hrun, Checked.ok_bind]
  simp only [shownBefore, hbefore]
  rw [if_neg (by decide), Checked.ok_bind, failIf_of_not (by simp only; omega), Checked.ok_bind]

theorem parseBlk2offTable_blank {fuel size : Nat} (hsize : 128 ≤ size) :
    parseBlk2offTable decompress (Buf.zero size) (fuel + 1) = .ok ⟨128, false, [], []⟩ := by
  have hread : (Buf.zero size).get Errno FragmentsChainHeader.wire (0 + chainHdrOffset) =
      .ok (FragmentsChainHeader.wire.read (Buf.zero size).data (0 + chainHdrOffset)) := Buf.get_ok (by
    rw [FragmentsChainHeader.wire_size]
    exact Nat.le_trans (by decide) hsize)
  have hportion : dumpPortions decompress (Buf.zero size) (fuel + 1) ⟨0, false, [], []⟩ =
      .ok ⟨128, false, [], []⟩ := by
    unfold dumpPortions
    rw [failIf_of_not (Nat.not_lt_zero _), Checked.ok_bind]
    simp only [hread, Checked.ok_bind]
    have hslots : (Buf.zero size).getArray Errno FragmentDesc.wire (0 + fragmentSlotsOffset)
        (FragmentsChainHeader.wire.read (Buf.zero size).data (0 + chainHdrOffset)).fragmentsCount.toNat =
        .ok [] := Buf.getArray_ok (show 32 ≤ size by omega)
    rw [hslots]
    rfl
  have hfit : ¬(Buf.zero size).size < 128 := Nat.not_lt.2 hsize
  unfold parseBlk2offTable blk2offTblHdrSize
  rw [failIf_of_not hfit, Checked.ok_bind, hportion, Checked.ok_bind]
  simp only
  rw [failIf_of_not hfit, Checked.ok_bind]

end

section

variable {crc32 : List UInt8 → UInt32} {decompress : UInt8 → Buf → Nat → Nat → Buf → Nat → Mkfs Buf}
  {layout : VolumeLayout} {pebIndex : Nat} {extent : ExtentDesc} {logicalByteOffset : UInt64}
  {startLogicalBlk : UInt32} {validBlks : UInt16} {usedLogicalBlks lastAllocatedBlk : UInt32}

/-- Every extent once, and the place of every block once, in the order of their numbers. -/
structure OffTableDump.Shows (st : OffTableDump) (page startLogicalBlk validBlks : Nat) : Prop where
  extents : st.extents = if validBlks = 0 then [] else
    [⟨UInt16.ofNat startLogicalBlk, 0, UInt16.ofNat validBlks, 0, logicalBlkUsed⟩]
  offsets : st.offsets = (List.range validBlks).map (shownOffset page startLogicalBlk)

theorem dumpOffsetTable_iff (hchecked : OffTableChecked layout pebIndex extent logicalByteOffset
      startLogicalBlk validBlks usedLogicalBlks lastAllocatedBlk) :
    (∃ buf fuel st, preCommitOffsetTable crc32 layout pebIndex extent logicalByteOffset
        startLogicalBlk validBlks usedLogicalBlks lastAllocatedBlk = .ok buf ∧
        parseBlk2offTable decompress buf fuel = .ok st ∧
        st.Shows (logicalByteOffset.toNat / layout.pageSize.bytes) startLogicalBlk.toNat
          validBlks.toNat) ↔
      validBlks.toNat = 0 ∨ validBlks.toNat % 253 ≠ 0 ∧ validBlks.toNat ≤ 1264 := by
  constructor
  · rintro ⟨buf, -, -, hwrite, -⟩
    rcases Nat.eq_zero_or_pos validBlks.toNat with hzero | hvalid
    · exact .inl hzero
    · exact .inr (preCommitOffsetTable_memory hvalid hwrite)
  · rintro (hzero | ⟨hrest, hmax⟩)
    · obtain ⟨size, hsize, hwrite⟩ := preCommitOffsetTable_blank hchecked hzero
      refine ⟨_, 1, _, hwrite, parseBlk2offTable_blank hsize, ?_⟩
      rw [hzero]
      exact ⟨rfl, rfl⟩
    · obtain ⟨buf, hwrite, hsize, hfilled, bytes, hchain⟩ :=
        preCommitOffsetTable_single hchecked hrest hmax
      refine ⟨buf, 1, _, hwrite, parseBlk2offTable_single hfilled rfl (by omega) hsize hchain, ?_, ?_⟩
      · rw [if_neg (by omega)]
        rfl
      · have hall : offsetsBefore validBlks.toNat (validBlks.toNat / 253 + 1) = validBlks.toNat :=
          Nat.min_eq_right (by omega)
        simp only [shownBefore, hall]

end

theorem dumpOffsetTable_300 : ∃ buf fuel st, preCommitOffsetTable (fun _ => 0) widePebs 0 ⟨none, 0, 0⟩
      0 0 300 61 60 = .ok buf ∧ parseBlk2offTable noDecompress buf fuel = .ok st ∧ st.Shows 0 0 300 :=
  dumpOffsetTable_iff ⟨rfl, by decide, by decide, by decide, by decide, fun _ =>
    ⟨by decide, by decide, by decide, by decide, by decide, by decide⟩⟩ |>.2
      (.inr ⟨by decide, by decide⟩)

def largePebs : VolumeLayout :=
  { widePebs with segSize := 8388608, env := ⟨33554432, 8388608, .blk⟩ }

/-- Of 1265 blocks the last ones need a second portion. -/
theorem dumpOffsetTable_misses_1265 :
    OffTableChecked largePebs 0 ⟨none, 0, 0⟩ 0 0 1265 61 60 ∧
      ¬∃ buf fuel st, preCommitOffsetTable (fun _ => 0) largePebs 0 ⟨none, 0, 0⟩ 0 0 1265 61 60 =
        .ok buf ∧ parseBlk2offTable noDecompress buf fuel = .ok st ∧ st.Shows 0 0 1265 := by
  refine ⟨⟨rfl, by decide, by decide, by decide, by decide, fun _ =>
    ⟨by decide, by decide, by decide, by decide, by decide, by decide⟩⟩, ?_⟩
  rintro ⟨buf, -, -, hwrite, -⟩
  exact absurd (preCommitOffsetTable_memory (by decide) hwrite).2 (by decide)

end Ssdfs
