import Ssdfs.OffTable.Account

namespace Ssdfs

open Memory

/-- The blocks of fragment `j`, and those of the fragments before it. -/
def offsetsIn (v j : Nat) : Nat := min (v - j * 253) 253
def offsetsBefore (v j : Nat) : Nat := min (j * 253) v

/-- The slots of the extent and of the first `k` fragments are filled. -/
structure SlotsFilled (src : OffTableSource) (m : Bytes) (page k : Nat) : Prop where
  extentDesc : ∃ checksum, FragmentDesc.wire.read m 32 = slotDesc 128 8 0 blk2offExtentDesc checksum
  extent : TranslationExtent.wire.read m 128 =
    ⟨UInt16.ofNat src.startLogicalBlk, 0, UInt16.ofNat src.validBlks, 0, logicalBlkUsed⟩
  descs : ∀ j < k, ∃ checksum, FragmentDesc.wire.read m (48 + j * 16) =
    slotDesc (136 + j * 4080) (32 + offsetsIn src.validBlks j * 16) (j + 1) blk2offDesc checksum
  offsets : ∀ j < k, OffsetsAt src m (136 + j * 4080) j (Word.u32 (page + j * 253))
    (Word.u16 (src.startLogicalBlk + j * 253)) (j * 253) (j * 253) (src.validBlks - j * 253)
    (offsetsIn src.validBlks j)

/-- The counters behind `k` of the `n` fragments. -/
structure SlotCounters (src : OffTableSource) (size page n k : Nat) (st : OffTableState) : Prop where
  size : st.buf.size = size
  offset : st.offset = 136 + k * 32 + offsetsBefore src.validBlks k * 16
  curFragment : st.curFragment = k + 1
  curPhysOffTblFrag : st.curPhysOffTblFrag = k
  startId : st.startId = offsetsBefore src.validBlks k
  restBlks : st.restBlks = src.validBlks - offsetsBefore src.validBlks k
  logicalStartPage : st.logicalStartPage = page + offsetsBefore src.validBlks k
  logicalBlk : st.logicalBlk = src.startLogicalBlk + offsetsBefore src.validBlks k
  startPebPage : st.startPebPage = offsetsBefore src.validBlks k
  fragmentsCount : st.fragmentsCount = ((n - k : Nat) : Int)
  slot : st.slot = k + 1

section

variable {crc32 : List UInt8 → UInt32} {src : OffTableSource} {st : OffTableState} {m m' : Bytes}
  {size page n k : Nat}

theorem SlotsFilled.congr (h : SlotsFilled src m page k) (hk : k ≤ 5)
    (hm : ∀ x, 32 ≤ x → x < 48 + k * 16 ∨ 128 ≤ x ∧ x < 136 + k * 4080 → m' x = m x) :
    SlotsFilled src m' page k where
  extentDesc := by
    obtain ⟨checksum, hdesc⟩ := h.extentDesc
    refine ⟨checksum, ?_⟩
    rw [← hdesc]
    refine FragmentDesc.wire.read_congr fun i hi => ?_
    rw [FragmentDesc.wire_size] at hi
    exact hm _ (by omega) (by omega)
  extent := by
    rw [← h.extent]
    refine TranslationExtent.wire.read_congr fun i hi => ?_
    rw [TranslationExtent.wire_size] at hi
    exact hm _ (by omega) (by omega)
  descs j hj := by
    obtain ⟨checksum, hdesc⟩ := h.descs j hj
    refine ⟨checksum, ?_⟩
    rw [← hdesc]
    refine FragmentDesc.wire.read_congr fun i hi => ?_
    rw [FragmentDesc.wire_size] at hi
    exact hm _ (by omega) (by omega)
  offsets j hj := (h.offsets j hj).congr fun x hlo hhi => by
    have hle : offsetsIn src.validBlks j ≤ 253 := Nat.min_le_right ..
    exact hm x (by omega) (by omega)

theorem SlotCounters.step (hn : n = src.validBlks / 253 + 1) (hn' : n ≤ 5)
    (hsize : size = 136 + n * 32 + src.validBlks * 16)
    (hpage : page < Word.u32Max) (hstart : src.startLogicalBlk < Word.u16Max)
    (haccepted : src.Accepted) (hk : k < n) (hc : SlotCounters src size page n k st)
    (hf : SlotsFilled src st.buf.data page k) :
    ∃ st', prepareSlot crc32 src 0 st = .ok st' ∧ SlotCounters src size page n (k + 1) st' ∧
      SlotsFilled src st'.buf.data page (k + 1) := by
  have hbefore : offsetsBefore src.validBlks k = k * 253 := Nat.min_eq_left (by omega)
  have hnext : offsetsBefore src.validBlks (k + 1) = k * 253 + offsetsIn src.validBlks k := by
    unfold offsetsBefore offsetsIn
    omega
  have hrest : min (src.validBlks - k * 253) 253 = offsetsIn src.validBlks k := rfl
  have hle : offsetsIn src.validBlks k ≤ src.validBlks - k * 253 := Nat.min_le_left ..
  have hle' : offsetsIn src.validBlks k ≤ 253 := Nat.min_le_right ..
  obtain ⟨hsz, hoffset, hcur, hcurTbl, hid, hblks, hlsp, hlblk, hpeb, hcount, hslot⟩ := hc
  unfold Word.u32Max at hpage
  unfold Word.u16Max at hstart
  rw [hbefore] at hoffset hid hblks hlsp hlblk hpeb
  have hexact := @prepareSlot_exact crc32 src st (offsetsIn src.validBlks k) 0 (by omega)
    (by rw [hblks]; exact hrest) (by unfold Word.u16Max; omega) (by omega) (by omega) (by omega)
  obtain ⟨st', hst', -, -, -, -, hdesc, hoffsets, hframe⟩ := hexact.succeeds ⟨haccepted, by omega⟩
  have hstep := prepareSlot_step (by omega) hst'
  rw [hblks, hrest] at hstep
  obtain ⟨hsz', -, hoffset', hcur', hcurTbl', hid', hblks', hlsp', hlblk', hpeb', hcount', hslot'⟩ :=
    hstep
  have hpos : 136 + k * 32 + k * 253 * 16 = 136 + k * 4080 := by omega
  refine ⟨st', hst', ⟨?_, ?_, ?_, ?_, ?_, ?_, ?_, ?_, ?_, ?_, ?_⟩, ?_⟩
  · rw [hsz', hsz]
  · rw [hoffset', Word.u32_of_lt (by omega), hnext]
    omega
  · rw [hcur', Word.u32_of_lt (by omega), hcur]
  · rw [hcurTbl', Word.u32_of_lt (by omega), hcurTbl]
  · rw [hid', Word.u16_of_lt (by omega), hnext, hid]
  · rw [hblks', hnext]
    omega
  · rw [hlsp', Word.u64_of_lt (by omega), hnext, hlsp, Nat.add_assoc]
  · rw [hlblk', Word.u32_of_lt (by omega), hnext, hlblk, Nat.add_assoc]
  · rw [hpeb', Word.u32_of_lt (by omega), hnext, hpeb]
  · omega
  · rw [hslot', hslot]
  · rw [hoffset, hpos, hslot] at hdesc hframe
    rw [hoffset, hpos, hcurTbl, hid, hlsp, hlblk, hpeb, hblks] at hoffsets
    rw [Word.u16_of_lt (n := k) (by omega), Word.u16_of_lt (n := k * 253) (by omega)] at hoffsets
    have hplace : 0 + 32 + (k + 1) * 16 = 48 + k * 16 := by omega
    rw [hplace] at hdesc hframe
    have hkeep : SlotsFilled src st'.buf.data page k :=
      hf.congr (by omega) fun x _ hx => hframe x (by omega) (by omega)
    refine ⟨hkeep.extentDesc, hkeep.extent, fun j hj => ?_, fun j hj => ?_⟩
    · rcases Nat.lt_succ_iff_lt_or_eq.1 hj with hlt | rfl
      · exact hkeep.descs j hlt
      · rw [hcur] at hdesc
        exact hdesc
    · rcases Nat.lt_succ_iff_lt_or_eq.1 hj with hlt | rfl
      · exact hkeep.offsets j hlt
      · exact hoffsets

theorem preparePortion_single {buf : Buf} (hn : n = src.validBlks / 253 + 1) (hn' : n ≤ 5)
    (hsize : buf.size = 136 + n * 32 + src.validBlks * 16) (hpage : page < Word.u32Max)
    (hstart : src.startLogicalBlk < Word.u16Max) (haccepted : src.Accepted) :
    ∃ st', preparePortion crc32 src 1 0
        ⟨buf, 0, 0, 0, 0, src.validBlks, page, src.startLogicalBlk, 0, (n + 1 : Nat), 0⟩ = .ok st' ∧
      st'.buf.size = buf.size ∧ SlotsFilled src st'.buf.data page n ∧
      ∃ bytes, FragmentsChainHeader.wire.read st'.buf.data 16 =
        ⟨bytes, bytes, UInt16.ofNat (n + 1), 16, chainHdrMagic, blk2offChainHdr, 0⟩ := by
  unfold preparePortion
  simp only [if_true]
  rw [Buf.put_ok (by rw [Signature.wire_size]; omega), Checked.ok_bind]
  obtain ⟨t, ht, hsz, hoffset, hslot, hcur, hcurTbl, hid, hblks, hlsp, hlblk, hpeb, hcount, hdesc,
    hextent⟩ := @prepareTranslationExtent_exact crc32 src
      ⟨⟨buf.size, Signature.wire.write buf.data 0
        ⟨superMagic, blk2offTableHdrMagic, majorRevision, minorRevision⟩⟩,
        Word.u32 (0 + blk2offTblHdrSize), 0, 0, 0, src.validBlks, page, src.startLogicalBlk, 0,
        (n + 1 : Nat), 0⟩ rfl rfl (by simp only; omega)
  simp only at hsz hcurTbl hid hblks hlsp hlblk hpeb hcount
  have hzero : offsetsBefore src.validBlks 0 = 0 := by
    unfold offsetsBefore
    omega
  have hcounters : SlotCounters src buf.size page n 0 t :=
    ⟨hsz, by omega, hcur, hcurTbl, by omega, by omega, by omega, by omega, by omega, by omega, hslot⟩
  have hfilled : SlotsFilled src t.buf.data page 0 :=
    ⟨hdesc, hextent, fun j hj => absurd hj (Nat.not_lt_zero j), fun j hj => absurd hj (Nat.not_lt_zero j)⟩
  have hslots : blk2offTblMax - t.slot = 5 := by
    rw [hslot]
    rfl
  obtain ⟨u, hu, hcounters', hfilled'⟩ := @Checked.forRange_ok _ _ (fun _ => prepareSlot crc32 src 0)
    (fun i (u : OffTableState) => SlotCounters src buf.size page n (min i n) u ∧
      SlotsFilled src u.buf.data page (min i n)) 5 t (by rw [Nat.zero_min]; exact ⟨hcounters, hfilled⟩)
    fun i hi u ⟨hc, hf⟩ => by
      rcases Nat.lt_or_ge i n with hlt | hge
      · rw [Nat.min_eq_left (Nat.le_of_lt hlt)] at hc hf
        rw [Nat.min_eq_left (Nat.succ_le_of_lt hlt)]
        exact hc.step hn hn' hsize hpage hstart haccepted hlt hf
      · rw [Nat.min_eq_right hge] at hc hf
        rw [Nat.min_eq_right (Nat.le_succ_of_le hge)]
        have hnone := hc.fragmentsCount
        refine ⟨u, ?_, hc, hf⟩
        unfold prepareSlot
        rw [if_neg (by omega), if_pos (by omega)]
  rw [Nat.min_eq_right hn'] at hcounters' hfilled'
  have hsz' := hcounters'.size
  rw [ht, Checked.ok_bind, hslots, hu, Checked.ok_bind, Buf.put_ok (by
    rw [FragmentsChainHeader.wire_size, hsz']
    unfold chainHdrOffset
    omega), Checked.ok_bind, hcounters'.slot]
  refine ⟨_, rfl, hsz', hfilled'.congr hn' fun x hx _ => ?_, _, FragmentsChainHeader.wire.read_write ..⟩
  exact FragmentsChainHeader.wire.write_frame (.inr hx)

end

section

variable {crc32 : List UInt8 → UInt32} {layout : VolumeLayout} {pebIndex v : Nat}
  {extent : ExtentDesc} {logicalByteOffset : UInt64} {startLogicalBlk : UInt32} {validBlks : UInt16}
  {usedLogicalBlks lastAllocatedBlk : UInt32} {buf : Buf}

/-- What is checked of the arguments; the numbers of blocks only if there are blocks to describe. -/
structure OffTableChecked (layout : VolumeLayout) (pebIndex : Nat) (extent : ExtentDesc)
    (logicalByteOffset : UInt64) (startLogicalBlk : UInt32) (validBlks : UInt16)
    (usedLogicalBlks lastAllocatedBlk : UInt32) : Prop where
  extent : extent.buf = none
  start : startLogicalBlk.toNat < Word.u16Max
  pageSize : layout.pageSize.bytes ≤ layout.env.eraseSize.toNat
  valid : validBlks.toNat ≤ layout.env.eraseSize.toNat / layout.pageSize.bytes
  page : logicalByteOffset.toNat / layout.pageSize.bytes < Word.u32Max
  accepted : validBlks.toNat ≠ 0 → OffTableSource.Accepted ⟨pebIndex, layout.pagesPerSeg,
    startLogicalBlk.toNat, validBlks.toNat, usedLogicalBlks.toNat, lastAllocatedBlk.toNat⟩

theorem preCommitOffsetTable_single (hchecked : OffTableChecked layout pebIndex extent
      logicalByteOffset startLogicalBlk validBlks usedLogicalBlks lastAllocatedBlk)
    (hrest : validBlks.toNat % 253 ≠ 0) (hmax : validBlks.toNat ≤ 1264) :
    ∃ buf, preCommitOffsetTable crc32 layout pebIndex extent logicalByteOffset startLogicalBlk
        validBlks usedLogicalBlks lastAllocatedBlk = .ok buf ∧
      buf.size = 136 + (validBlks.toNat / 253 + 1) * 32 + validBlks.toNat * 16 ∧
      SlotsFilled ⟨pebIndex, layout.pagesPerSeg, startLogicalBlk.toNat, validBlks.toNat,
        usedLogicalBlks.toNat, lastAllocatedBlk.toNat⟩ buf.data
        (logicalByteOffset.toNat / layout.pageSize.bytes) (validBlks.toNat / 253 + 1) ∧
      ∃ bytes, FragmentsChainHeader.wire.read buf.data 16 =
        ⟨bytes, bytes, UInt16.ofNat (validBlks.toNat / 253 + 1 + 1), 16, chainHdrMagic,
          blk2offChainHdr, 0⟩ := by
  have hv := validBlks.toNat_lt
  have hsize := @calculateOffsetTableSize_general validBlks.toNat (validBlks.toNat / 253 + 2) 1
    (by omega) (by omega) (by omega)
  have hbytes : Word.u32 (calculateOffsetTableSize (validBlks.toNat / 253 + 2) validBlks.toNat) =
      136 + (validBlks.toNat / 253 + 1) * 32 + validBlks.toNat * 16 := by
    rw [hsize, Word.u32_of_lt (by omega)]
    omega
  have hcount : (validBlks.toNat + 252) / 253 + ((validBlks.toNat + 252) / 253 + 5) / 6 =
      validBlks.toNat / 253 + 2 := by omega
  have hportions : (validBlks.toNat / 253 + 2 + 5) / 6 = 1 := by omega
  unfold preCommitOffsetTable
  rw [bugOn_of_not (by rw [hchecked.extent]; decide), Checked.ok_bind,
    bugOn_of_not (Nat.not_le.2 hchecked.start), Checked.ok_bind,
    bugOn_of_not (Nat.not_lt.2 hchecked.pageSize), Checked.ok_bind]
  simp only
  rw [failIf_of_not (Nat.not_lt.2 hchecked.valid), Checked.ok_bind,
    calculateOffsetTableFragments_eq (by omega) hv, Checked.ok_bind, hcount,
    hbytes, portionsCount_eq (by omega), hportions, bugOn_of_not (Nat.not_le.2 hchecked.page),
    Checked.ok_bind]
  obtain ⟨st, hst, hsz, hfilled, hhdr⟩ := @preparePortion_single crc32
    ⟨pebIndex, layout.pagesPerSeg, startLogicalBlk.toNat, validBlks.toNat, usedLogicalBlks.toNat,
      lastAllocatedBlk.toNat⟩ (logicalByteOffset.toNat / layout.pageSize.bytes)
    (validBlks.toNat / 253 + 1)
    (Buf.zero (136 + (validBlks.toNat / 253 + 1) * 32 + validBlks.toNat * 16)) rfl (by omega) rfl
    hchecked.page hchecked.start (hchecked.accepted (by omega))
  refine ⟨st.buf, ?_, hsz, hfilled, hhdr⟩
  unfold Checked.forRange Checked.forRange
  rw [Checked.ok_bind]
  have hst' := congrArg (· >>= fun st : OffTableState => (.ok st.buf : Mkfs Buf)) hst
  exact hst'

theorem preCommitOffsetTable_blank (hchecked : OffTableChecked layout pebIndex extent
      logicalByteOffset startLogicalBlk validBlks usedLogicalBlks lastAllocatedBlk)
    (hzero : validBlks.toNat = 0) :
    ∃ size, 128 ≤ size ∧ preCommitOffsetTable crc32 layout pebIndex extent logicalByteOffset
      startLogicalBlk validBlks usedLogicalBlks lastAllocatedBlk = .ok (Buf.zero size) := by
  have hcount : calculateOffsetTableFragments 0 = .ok 0 := rfl
  refine ⟨Word.u32 (calculateOffsetTableSize 0 0), by decide, ?_⟩
  unfold preCommitOffsetTable
  rw [bugOn_of_not (by rw [hchecked.extent]; decide), Checked.ok_bind,
    bugOn_of_not (Nat.not_le.2 hchecked.start), Checked.ok_bind,
    bugOn_of_not (Nat.not_lt.2 hchecked.pageSize), Checked.ok_bind]
  simp only
  rw [failIf_of_not (Nat.not_lt.2 hchecked.valid), Checked.ok_bind, hzero, hcount, Checked.ok_bind,
    bugOn_of_not (Nat.not_le.2 hchecked.page), Checked.ok_bind]
  rfl

end

end Ssdfs
