import Ssdfs.OffTable.Table

namespace Ssdfs

open Memory

section

variable {crc32 : List UInt8 → UInt32} {src : OffTableSource} {buf : Buf} {st st' : OffTableState}
  {m : Bytes} {n p page : Nat}

theorem prepareTranslationExtent_exact (hslot : st.slot = 0) (hoffset : st.offset = 128)
    (hfit : 136 ≤ st.buf.size) :
    ∃ st', prepareTranslationExtent crc32 src 0 st = .ok st' ∧ st'.buf.size = st.buf.size ∧
      st'.offset = 136 ∧ st'.slot = 1 ∧ st'.curFragment = Word.u32 (st.curFragment + 1) ∧
      st'.curPhysOffTblFrag = st.curPhysOffTblFrag ∧ st'.startId = st.startId ∧
      st'.restBlks = st.restBlks ∧ st'.logicalStartPage = st.logicalStartPage ∧
      st'.logicalBlk = st.logicalBlk ∧ st'.startPebPage = st.startPebPage ∧
      st'.fragmentsCount = st.fragmentsCount - 1 ∧
      (∃ checksum, FragmentDesc.wire.read st'.buf.data 32 =
        slotDesc 128 8 st.curFragment blk2offExtentDesc checksum) ∧
      TranslationExtent.wire.read st'.buf.data 128 =
        ⟨UInt16.ofNat src.startLogicalBlk, 0, UInt16.ofNat src.validBlks, 0, logicalBlkUsed⟩ := by
  unfold prepareTranslationExtent
  rw [hslot, hoffset, Buf.put_ok (by rw [TranslationExtent.wire_size]; omega), Checked.ok_bind]
  obtain ⟨checksum, hdesc⟩ := @fragmentDescriptorInit_ok crc32
    ⟨st.buf.size, TranslationExtent.wire.write st.buf.data 128
      ⟨UInt16.ofNat src.startLogicalBlk, 0, UInt16.ofNat src.validBlks, 0, logicalBlkUsed⟩⟩
    128 32 128 8 st.curFragment blk2offExtentDesc (.inl rfl) (by decide)
    (by simp only; omega) (by simp only; omega)
  have hslot : 0 + fragmentSlotsOffset + 0 * 16 = 32 := rfl
  unfold translationExtentSize
  rw [hslot, hdesc, Checked.ok_bind]
  refine ⟨_, rfl, rfl, rfl, rfl, rfl, rfl, rfl, rfl, rfl, rfl, rfl, rfl,
    ⟨checksum, FragmentDesc.wire.read_write ..⟩, ?_⟩
  rw [TranslationExtent.wire.read_write_of_disjoint FragmentDesc.wire (.inr (by decide))]
  exact TranslationExtent.wire.read_write ..

theorem preparePortion_accepted (hcount : 1 < st.fragmentsCount)
    (h : preparePortion crc32 src p 0 st = .ok st') : src.Accepted := by
  obtain ⟨b, -, h⟩ := Checked.bind_eq_ok.1 h
  obtain ⟨t, ht, h⟩ := Checked.bind_eq_ok.1 h
  obtain ⟨t', ht', -⟩ := Checked.bind_eq_ok.1 h
  obtain ⟨b', -, ht⟩ := Checked.bind_eq_ok.1 ht
  obtain ⟨b'', -, ht⟩ := Checked.bind_eq_ok.1 ht
  cases ht
  obtain ⟨u, u', hu, hu'⟩ := Checked.forRange_step ht' (show 0 < blk2offTblMax - (0 + 1) by decide)
  cases hu
  exact prepareSlot_accepted (by simp only; omega) hu'

/-- A table of one portion, with its extent and a fragment of `n` offsets. -/
structure PortionAt (src : OffTableSource) (m : Bytes) (page n : Nat) : Prop where
  chainHdr : FragmentsChainHeader.wire.read m 16 =
    ⟨UInt32.ofNat (168 + n * 16), UInt32.ofNat (168 + n * 16), 2, 16, chainHdrMagic, blk2offChainHdr, 0⟩
  extentDesc : ∃ checksum, FragmentDesc.wire.read m 32 = slotDesc 128 8 0 blk2offExtentDesc checksum
  extent : TranslationExtent.wire.read m 128 =
    ⟨UInt16.ofNat src.startLogicalBlk, 0, UInt16.ofNat src.validBlks, 0, logicalBlkUsed⟩
  offsetsDesc : ∃ checksum, FragmentDesc.wire.read m 48 =
    slotDesc 136 (32 + n * 16) 1 blk2offDesc checksum
  offsets : OffsetsAt src m 136 0 (Word.u32 page) (Word.u16 src.startLogicalBlk) 0 0 n n

theorem preparePortion_exact (hn : n ≤ 253) (hstart : src.startLogicalBlk < Word.u16Max)
    (hfit : 168 ≤ buf.size) (hsize : buf.size < 4294967296) :
    Checked.Exact (preparePortion crc32 src 1 0
        ⟨buf, 0, 0, 0, 0, n, page, src.startLogicalBlk, 0, 2, 0⟩)
      (src.Accepted ∧ 168 + n * 16 ≤ buf.size)
      fun st' => st'.buf.size = buf.size ∧ PortionAt src st'.buf.data page n := by
  unfold preparePortion
  simp only [if_true]
  rw [Buf.put_ok (by rw [Signature.wire_size]; omega), Checked.ok_bind]
  obtain ⟨t, ht, hsz, hoffset, hslot, hcur, hcurTbl, hstartId, hrest, hpage, hblk, hpebPage, hcount,
    ⟨checksum, hextentDesc⟩, hextent⟩ := @prepareTranslationExtent_exact crc32 src
      ⟨⟨buf.size, Signature.wire.write buf.data 0
        ⟨superMagic, blk2offTableHdrMagic, majorRevision, minorRevision⟩⟩,
        Word.u32 (0 + blk2offTblHdrSize), 0, 0, 0, n, page, src.startLogicalBlk, 0, 2, 0⟩ rfl rfl
      (by simp only; omega)
  simp only at hsz hcurTbl hstartId hrest hpage hblk hpebPage hcount
  have hcur' : t.curFragment = 1 := hcur
  rw [ht, Checked.ok_bind, hslot]
  have hstep := @prepareSlot_exact crc32 src t n 0 (by omega)
    (by rw [hrest]; exact (Nat.min_eq_left hn).symm) hstart (by omega) (by omega) (by omega)
  have hloop := @Checked.Exact.forRange_once _ _ _ (prepareSlot crc32 src 0) _ 4 _ hstep
    fun u hu => by
      unfold prepareSlot
      rw [if_neg (by omega), if_pos (by omega)]
  refine (hloop.bind (D := True) fun u hu => ?_).congr (by
    rw [and_true, hoffset, hsz]) fun _ h => h
  obtain ⟨hsz', hoffset', -, hslot', hdesc, hoffsets, hframe⟩ := hu
  rw [hslot] at hslot' hdesc hframe
  rw [hoffset] at hoffset' hdesc hoffsets hframe
  rw [hcurTbl, hpage, hblk, hpebPage, hstartId, hrest] at hoffsets
  rw [hcur'] at hdesc
  simp only [show 0 + 32 + 1 * 16 = 48 from rfl, show 136 + 32 = 168 from rfl] at hoffset' hdesc hframe
  have hportion : Word.sub32 u.offset 0 = 168 + n * 16 := by
    rw [hoffset']
    exact Word.sub32_of_le (Nat.zero_le _) (by omega)
  rw [hslot', hportion, Buf.put_ok (by
    rw [FragmentsChainHeader.wire_size]
    unfold chainHdrOffset
    omega), Checked.ok_bind]
  have hkeep : ∀ x, 32 ≤ x → ∀ h : FragmentsChainHeader,
      FragmentsChainHeader.wire.write u.buf.data (0 + chainHdrOffset) h x = u.buf.data x :=
    fun x hx h => FragmentsChainHeader.wire.write_frame (.inr hx)
  obtain ⟨checksum', hdesc⟩ := hdesc
  refine Checked.Exact.ok ⟨by rw [hsz', hsz], FragmentsChainHeader.wire.read_write .., ⟨checksum, ?_⟩, ?_,
    ⟨checksum', ?_⟩, ?_⟩
  · rw [← hextentDesc]
    refine FragmentDesc.wire.read_congr fun i hi => ?_
    rw [FragmentDesc.wire_size] at hi
    simp only
    rw [hkeep _ (by omega), hframe _ (by omega) (by omega)]
  · rw [← hextent]
    refine TranslationExtent.wire.read_congr fun i hi => ?_
    rw [TranslationExtent.wire_size] at hi
    simp only
    rw [hkeep _ (by omega), hframe _ (by omega) (by omega)]
  · rw [← hdesc]
    refine FragmentDesc.wire.read_congr fun i hi => ?_
    simp only
    rw [hkeep _ (by omega)]
  · exact hoffsets.congr fun x hx _ => hkeep x (by omega) _

end

section

variable {crc32 : List UInt8 → UInt32} {layout : VolumeLayout} {pebIndex v : Nat}
  {extent : ExtentDesc} {logicalByteOffset : UInt64} {startLogicalBlk : UInt32} {validBlks : UInt16}
  {usedLogicalBlks lastAllocatedBlk : UInt32}

theorem calculateOffsetTableFragments_eq (hv : 0 < v) (hv' : v < 65536) :
    calculateOffsetTableFragments v =
      .ok ((v + 252) / 253 + ((v + 252) / 253 + 5) / 6) := by
  have hfragments : (v + offDescPerFragment - 1) / offDescPerFragment = (v + 252) / 253 := rfl
  have hportions : ∀ f, Word.u16 (f + blk2offTblMax - 1) / blk2offTblMax = Word.u16 (f + 5) / 6 :=
    fun _ => rfl
  unfold calculateOffsetTableFragments
  simp only [hfragments, hportions]
  rw [bugOn_of_not (by unfold Word.u16Max; omega), Checked.ok_bind,
    Word.u16_of_lt (n := _ + 5) (by omega), Word.u16_of_lt (by omega)]

theorem calculateOffsetTableSize_eq : calculateOffsetTableSize 2 v = 168 + v % 253 * 16 := by
  unfold calculateOffsetTableSize
  have hrest : v % offDescPerFragment = v % 253 := rfl
  simp only [hrest]
  refine Word.u64_of_lt (n := 168 + v % 253 * 16) ?_
  omega

theorem portionsCount_eq {c : Nat} (hc : c + 5 < 65536) :
    Word.u16 (c + blk2offTblMax - 1) / blk2offTblMax = (c + 5) / 6 := by
  have hsum : c + blk2offTblMax - 1 = c + 5 := rfl
  rw [hsum, Word.u16_of_lt hc]
  rfl

/-- The arguments for which the table can be written. -/
structure OffTableFits (layout : VolumeLayout) (logicalByteOffset : UInt64)
    (startLogicalBlk : UInt32) (validBlks : UInt16) (usedLogicalBlks lastAllocatedBlk : UInt32) :
    Prop where
  used : usedLogicalBlks.toNat ≤ 253
  valid : validBlks.toNat ≠ 253
  start : startLogicalBlk.toNat < Word.u16Max
  last : lastAllocatedBlk.toNat + 1 = usedLogicalBlks.toNat
  page : logicalByteOffset.toNat / layout.pageSize.bytes < Word.u32Max

theorem preCommitOffsetTable_portion (hvalid : 1 ≤ validBlks.toNat) {buf : Buf}
    (h : preCommitOffsetTable crc32 layout pebIndex extent logicalByteOffset startLogicalBlk validBlks
      usedLogicalBlks lastAllocatedBlk = .ok buf) :
    startLogicalBlk.toNat < Word.u16Max ∧
      logicalByteOffset.toNat / layout.pageSize.bytes < Word.u32Max ∧
      ∃ c st, c = (validBlks.toNat + 252) / 253 + ((validBlks.toNat + 252) / 253 + 5) / 6 ∧
        preparePortion crc32 ⟨pebIndex, layout.pagesPerSeg, startLogicalBlk.toNat, validBlks.toNat,
          usedLogicalBlks.toNat, lastAllocatedBlk.toNat⟩ ((c + 5) / 6) 0
          ⟨Buf.zero (Word.u32 (calculateOffsetTableSize c validBlks.toNat)), 0, 0, 0, 0,
            validBlks.toNat, logicalByteOffset.toNat / layout.pageSize.bytes, startLogicalBlk.toNat, 0,
            c, 0⟩ = .ok st := by
  have hv := validBlks.toNat_lt
  obtain ⟨-, h⟩ := bugOn_bind_eq_ok.1 h
  obtain ⟨hstart, h⟩ := bugOn_bind_eq_ok.1 h
  obtain ⟨-, h⟩ := bugOn_bind_eq_ok.1 h
  obtain ⟨-, h⟩ := failIf_bind_eq_ok.1 h
  rw [calculateOffsetTableFragments_eq hvalid hv, Checked.ok_bind] at h
  obtain ⟨hpage, h⟩ := bugOn_bind_eq_ok.1 h
  obtain ⟨st, hst, -⟩ := Checked.bind_eq_ok.1 h
  generalize hcount : (validBlks.toNat + 252) / 253 + ((validBlks.toNat + 252) / 253 + 5) / 6 = c
    at hst
  rw [portionsCount_eq (by omega)] at hst
  obtain ⟨st₀, st₁, h₀, h₁⟩ := Checked.forRange_step hst (show 0 < (c + 5) / 6 by omega)
  cases h₀
  exact ⟨Nat.not_le.1 hstart, Nat.not_le.1 hpage, c, st₁, rfl, h₁⟩

theorem preCommitOffsetTable_accepted (hvalid : 1 ≤ validBlks.toNat) {buf : Buf}
    (h : preCommitOffsetTable crc32 layout pebIndex extent logicalByteOffset startLogicalBlk validBlks
      usedLogicalBlks lastAllocatedBlk = .ok buf) :
    OffTableSource.Accepted ⟨pebIndex, layout.pagesPerSeg, startLogicalBlk.toNat, validBlks.toNat,
      usedLogicalBlks.toNat, lastAllocatedBlk.toNat⟩ := by
  obtain ⟨-, -, c, st, hc, hst⟩ := preCommitOffsetTable_portion hvalid h
  exact preparePortion_accepted (by simp only; omega) hst

theorem preCommitOffsetTable_exact (hpeb : pebIndex < Word.u16Max) (hbuf : extent.buf = none)
    (hpage : layout.pageSize.bytes ≤ layout.env.eraseSize.toNat) (hvalid : 1 ≤ validBlks.toNat)
    (hmax : validBlks.toNat ≤ layout.env.eraseSize.toNat / layout.pageSize.bytes)
    (hused : validBlks.toNat ≤ usedLogicalBlks.toNat)
    (hseg : usedLogicalBlks.toNat ≤ layout.pagesPerSeg) :
    Checked.Exact (preCommitOffsetTable crc32 layout pebIndex extent logicalByteOffset startLogicalBlk
        validBlks usedLogicalBlks lastAllocatedBlk)
      (OffTableFits layout logicalByteOffset startLogicalBlk validBlks usedLogicalBlks
        lastAllocatedBlk)
      fun buf => buf.size = 168 + validBlks.toNat * 16 ∧
        PortionAt ⟨pebIndex, layout.pagesPerSeg, startLogicalBlk.toNat, validBlks.toNat,
          usedLogicalBlks.toNat, lastAllocatedBlk.toNat⟩ buf.data
          (logicalByteOffset.toNat / layout.pageSize.bytes) validBlks.toNat := by
  have hv := validBlks.toNat_lt
  have hlast := lastAllocatedBlk.toNat_lt
  constructor
  · intro h
    have hone : validBlks.toNat ≤ 252 := by
      have := h.used
      have := h.valid
      omega
    have hfragments : (validBlks.toNat + 252) / 253 = 1 := by omega
    have hsize : Word.u32 (168 + validBlks.toNat % 253 * 16) = 168 + validBlks.toNat * 16 := by
      rw [Word.u32_of_lt (by omega), Nat.mod_eq_of_lt (by omega)]
    unfold preCommitOffsetTable
    rw [bugOn_of_not (by rw [hbuf]; decide), Checked.ok_bind,
      bugOn_of_not (Nat.not_le.2 h.start), Checked.ok_bind, bugOn_of_not (by omega), Checked.ok_bind]
    simp only
    rw [failIf_of_not (by omega), Checked.ok_bind, calculateOffsetTableFragments_eq hvalid hv,
      Checked.ok_bind, hfragments]
    simp only [show 1 + (1 + 5) / 6 = 2 from rfl]
    rw [calculateOffsetTableSize_eq, hsize, bugOn_of_not (Nat.not_le.2 h.page), Checked.ok_bind]
    have hportion := @preparePortion_exact crc32
      ⟨pebIndex, layout.pagesPerSeg, startLogicalBlk.toNat, validBlks.toNat, usedLogicalBlks.toNat,
        lastAllocatedBlk.toNat⟩ (Buf.zero (168 + validBlks.toNat * 16)) validBlks.toNat
      (logicalByteOffset.toNat / layout.pageSize.bytes) (by omega) h.start (Nat.le_add_right _ _)
      (show 168 + validBlks.toNat * 16 < 4294967296 by omega)
    have haccepted : OffTableSource.Accepted ⟨pebIndex, layout.pagesPerSeg, startLogicalBlk.toNat,
        validBlks.toNat, usedLogicalBlks.toNat, lastAllocatedBlk.toNat⟩ := by
      have hu := h.used
      have hl := h.last
      refine ⟨?_, hpeb, ?_, ?_, ?_, Nat.le_min.2 ⟨hseg, hu⟩⟩
      · exact Nat.pos_iff_ne_zero.1 hvalid
      · simp only
        rw [Word.u32_of_lt (by omega), hl]
      · unfold Word.u16Max
        exact Nat.lt_of_le_of_lt hu (by decide)
      · unfold Word.u16Max
        simp only
        omega
    obtain ⟨st, hst, hsz, hat⟩ := hportion.succeeds ⟨haccepted, Nat.le_refl _⟩
    refine ⟨st.buf, ?_, hsz, hat⟩
    have hportions : Word.u16 (2 + blk2offTblMax - 1) / blk2offTblMax = 1 := rfl
    rw [hportions]
    unfold Checked.forRange Checked.forRange
    rw [Checked.ok_bind]
    have hst' := congrArg (· >>= fun st : OffTableState => (.ok st.buf : Mkfs Buf)) hst
    exact hst'
  · intro buf h
    have haccepted := preCommitOffsetTable_accepted hvalid h
    obtain ⟨hstart, hpage, c, st₁, hcount, h₁⟩ := preCommitOffsetTable_portion hvalid h
    have hu : usedLogicalBlks.toNat ≤ 253 := (Nat.le_min.1 haccepted.used_le).2
    have hl := haccepted.lastAllocatedBlk
    have hl' := haccepted.last_lt
    have hone : (validBlks.toNat + 252) / 253 = 1 := by omega
    rw [hone] at hcount
    subst hcount
    rw [calculateOffsetTableSize_eq, Word.u32_of_lt (by omega)] at h₁
    have hfits := ((preparePortion_exact (by omega) hstart (Nat.le_add_right _ _)
      (show 168 + validBlks.toNat % 253 * 16 < 4294967296 by omega)).only st₁ h₁).2
    simp only [Buf.zero] at hfits
    unfold Word.u16Max at hl'
    simp only at hl hl'
    rw [Word.u32_of_lt (by omega)] at hl
    exact ⟨hu, by omega, hstart, hl, hpage⟩

end

end Ssdfs
