import Ssdfs.OffTable.Run

namespace Ssdfs

open Memory

theorem Buf.put_size {E α : Type} {b b' : Buf} {w : Wire α} {off : Nat} {x : α}
    (h : b.put E w off x = .ok b') : b'.size = b.size := by
  rw [Buf.put_exact.result h]

theorem Buf.bytes_le {E : Type} {b : Buf} {off len : Nat} {l : List UInt8}
    (h : b.bytes E off len = .ok l) : off + len ≤ b.size := by
  by_contra hfit
  unfold Buf.bytes at h
  rw [if_neg hfit] at h
  cases h

section

variable {crc32 : List UInt8 → UInt32} {src : OffTableSource} {buf : Buf} {st st' : OffTableState}
  {fragment portion : Nat}

theorem fragmentDescriptorInit_size {desc offset comprSize uncomprSize sequenceId : Nat}
    {type flags : UInt8} {b : Buf} (h : fragmentDescriptorInit crc32 buf desc fragment offset comprSize
      uncomprSize sequenceId type flags = .ok b) : b.size = buf.size := by
  obtain ⟨-, h⟩ := failIf_bind_eq_ok.1 h
  obtain ⟨-, h⟩ := failIf_bind_eq_ok.1 h
  obtain ⟨-, h⟩ := failIf_bind_eq_ok.1 h
  obtain ⟨_, -, h⟩ := Checked.bind_eq_ok.1 h
  obtain ⟨_, -, h⟩ := Checked.bind_eq_ok.1 h
  exact Buf.put_size h

theorem prepareOffsetsTableFragment_run {areaType : UInt8} {sequenceId logicalStartPage logicalBlk
    startPebPage startId restBlks : Nat} {r : Buf × Nat}
    (h : prepareOffsetsTableFragment crc32 src fragment sequenceId areaType logicalStartPage logicalBlk
      startPebPage startId restBlks buf = .ok r) :
    r.2 = min restBlks 253 ∧ r.1.size = buf.size ∧
      fragment + 32 + min restBlks 253 * 16 ≤ buf.size := by
  have hcount : offDescPerFragment = 253 := rfl
  obtain ⟨-, h⟩ := bugOn_bind_eq_ok.1 h
  obtain ⟨-, h⟩ := bugOn_bind_eq_ok.1 h
  obtain ⟨-, h⟩ := bugOn_bind_eq_ok.1 h
  obtain ⟨-, h⟩ := bugOn_bind_eq_ok.1 h
  obtain ⟨-, h⟩ := bugOn_bind_eq_ok.1 h
  obtain ⟨-, h⟩ := bugOn_bind_eq_ok.1 h
  obtain ⟨b, hb, h⟩ := Checked.bind_eq_ok.1 h
  obtain ⟨-, h⟩ := bugOn_bind_eq_ok.1 h
  obtain ⟨-, h⟩ := bugOn_bind_eq_ok.1 h
  obtain ⟨b₁, hb₁, h⟩ := Checked.bind_eq_ok.1 h
  obtain ⟨l, hl, h⟩ := Checked.bind_eq_ok.1 h
  obtain ⟨b₂, hb₂, h⟩ := Checked.bind_eq_ok.1 h
  obtain rfl := Except.ok.inj h
  have hsize : b.size = buf.size := Checked.forRange_ind (fun _ (t : Buf) => t.size = buf.size) hb rfl
    fun i _ t t' ht hstep => (Buf.put_size hstep).trans ht
  have hfit := Buf.bytes_le hl
  rw [Buf.put_size hb₁, hsize] at hfit
  refine ⟨rfl, ?_, ?_⟩
  · rw [Buf.put_size hb₂, Buf.put_size hb₁, hsize]
  · rw [hcount, ← Nat.add_assoc] at hfit
    exact hfit

structure SlotStep (st st' : OffTableState) (n : Nat) : Prop where
  size : st'.buf.size = st.buf.size
  fits : st.offset + 32 + n * 16 ≤ st.buf.size
  offset : st'.offset = Word.u32 (st.offset + 32 + n * 16)
  curFragment : st'.curFragment = Word.u32 (st.curFragment + 1)
  curPhysOffTblFrag : st'.curPhysOffTblFrag = Word.u32 (st.curPhysOffTblFrag + 1)
  startId : st'.startId = Word.u16 (st.startId + n)
  restBlks : st'.restBlks = st.restBlks - n
  logicalStartPage : st'.logicalStartPage = Word.u64 (st.logicalStartPage + n)
  logicalBlk : st'.logicalBlk = Word.u32 (st.logicalBlk + n)
  startPebPage : st'.startPebPage = Word.u32 (st.startPebPage + n)
  fragmentsCount : st'.fragmentsCount = st.fragmentsCount - 1
  slot : st'.slot = st.slot + 1

theorem prepareSlot_step (hcount : 0 < st.fragmentsCount)
    (h : prepareSlot crc32 src portion st = .ok st') : SlotStep st st' (min st.restBlks 253) := by
  unfold prepareSlot at h
  rw [if_neg (by omega), if_neg (by omega)] at h
  obtain ⟨⟨b, n⟩, hr, h⟩ := Checked.bind_eq_ok.1 h
  obtain ⟨hn, hsize, hfit⟩ := prepareOffsetsTableFragment_run hr
  simp only at hn hsize
  obtain ⟨b', hb', h⟩ := Checked.bind_eq_ok.1 h
  obtain ⟨-, h⟩ := bugOn_bind_eq_ok.1 h
  obtain rfl := Except.ok.inj h
  rw [hn]
  have hoffset : st.offset + (physOffTblHdrSize + min st.restBlks 253 * physOffDescSize) =
      st.offset + 32 + min st.restBlks 253 * 16 := (Nat.add_assoc ..).symm
  refine ⟨?_, hfit, ?_, rfl, rfl, rfl, rfl, rfl, rfl, rfl, rfl, rfl⟩
  · exact (fragmentDescriptorInit_size hb').trans hsize
  · rw [← hoffset]

/-- The counters behind `k` slots of a portion whose `c` fragments and `r` blocks were left, when `B`
is what the table takes until the end. -/
structure SlotsTaken (S c r : Nat) (B : Int) (k : Nat) (st : OffTableState) : Prop where
  size : st.buf.size = S
  fragmentsCount : st.fragmentsCount = ((c - k : Nat) : Int)
  restBlks : st.restBlks = r - 253 * min k c
  balance : (st.offset : Int) + 32 * st.fragmentsCount + 16 * st.restBlks = B
  fits : 0 < min k c → st.offset ≤ S

theorem SlotsTaken.run {S c r k : Nat} {B : Int} (hS : S < 4294967296)
    (h : Checked.forRange k (fun _ => prepareSlot crc32 src portion) st = .ok st')
    (h0 : SlotsTaken S c r B 0 st) : SlotsTaken S c r B k st' := by
  refine Checked.forRange_ind (SlotsTaken S c r B) h h0 fun i _ t t' ht hstep => ?_
  have hcount := ht.fragmentsCount
  rcases Nat.lt_or_ge i c with hlt | hge
  · have hslot := prepareSlot_step (by omega) hstep
    have hsize := ht.size
    have hfits := hslot.fits
    have hoffset := hslot.offset
    have hrest := ht.restBlks
    have hrest' := hslot.restBlks
    have hbalance := ht.balance
    rw [Word.u32_of_lt (by omega)] at hoffset
    refine ⟨hslot.size.trans hsize, ?_, ?_, ?_, fun _ => ?_⟩
    · rw [hslot.fragmentsCount]
      omega
    · omega
    · rw [hslot.fragmentsCount]
      omega
    · omega
  · unfold prepareSlot at hstep
    rw [if_neg (by omega), if_pos (by omega)] at hstep
    obtain rfl := Except.ok.inj hstep
    refine ⟨ht.size, ?_, ?_, ht.balance, fun hpos => ht.fits ?_⟩
    · omega
    · rw [ht.restBlks]
      congr 2
      omega
    · omega

/-- The counters behind `i` portions of a table of `c` fragments and `v` blocks: the first portion has
an extent in one of its slots. -/
structure PortionsTaken (S c v i : Nat) (st : OffTableState) : Prop where
  size : st.buf.size = S
  fragmentsCount : st.fragmentsCount = ((c - 6 * i : Nat) : Int)
  restBlks : st.restBlks = v - 253 * (min (6 * i) c - 1)
  balance : (st.offset : Int) + 32 * st.fragmentsCount + 16 * st.restBlks =
    (if i = 0 then 0 else 128 * i - 24) + 32 * c + 16 * v
  fits : st.offset ≤ S

theorem prepareTranslationExtent_run {st' : OffTableState}
    (h : prepareTranslationExtent crc32 src portion st = .ok st') :
    st'.buf.size = st.buf.size ∧ st'.offset = Word.u32 (st.offset + 8) ∧
      st'.fragmentsCount = st.fragmentsCount - 1 ∧ st'.restBlks = st.restBlks ∧
      st'.slot = st.slot + 1 := by
  obtain ⟨b, hb, h⟩ := Checked.bind_eq_ok.1 h
  obtain ⟨b', hb', h⟩ := Checked.bind_eq_ok.1 h
  obtain rfl := Except.ok.inj h
  exact ⟨(fragmentDescriptorInit_size hb').trans (Buf.put_size hb), rfl, rfl, rfl, rfl⟩

theorem preparePortion_run {p i : Nat} (h : preparePortion crc32 src p i st = .ok st') :
    ∃ b t u, b.size = st.buf.size ∧
      (if i = 0 then prepareTranslationExtent crc32 src st.offset
          { st with buf := b, offset := Word.u32 (st.offset + blk2offTblHdrSize), slot := 0 }
        else .ok { st with buf := b, offset := Word.u32 (st.offset + blk2offTblHdrSize), slot := 0 }) =
          .ok t ∧
      Checked.forRange (blk2offTblMax - t.slot) (fun _ => prepareSlot crc32 src st.offset) t = .ok u ∧
      st'.buf.size = u.buf.size ∧ st'.offset = u.offset ∧ st'.fragmentsCount = u.fragmentsCount ∧
      st'.restBlks = u.restBlks := by
  obtain ⟨b, hb, h⟩ := Checked.bind_eq_ok.1 h
  by_cases hi : i = 0
  · subst hi
    obtain ⟨t, ht, h⟩ := Checked.bind_eq_ok.1 h
    obtain ⟨u, hu, h⟩ := Checked.bind_eq_ok.1 h
    obtain ⟨b', hb', h⟩ := Checked.bind_eq_ok.1 h
    obtain rfl := Except.ok.inj h
    exact ⟨b, t, u, Buf.put_size hb, ht, hu, Buf.put_size hb', rfl, rfl, rfl⟩
  · simp only [if_neg hi] at h
    obtain ⟨t, ht, h⟩ := Checked.bind_eq_ok.1 h
    obtain ⟨u, hu, h⟩ := Checked.bind_eq_ok.1 h
    obtain ⟨b', hb', h⟩ := Checked.bind_eq_ok.1 h
    obtain rfl := Except.ok.inj h
    refine ⟨b, t, u, Buf.put_size hb, ?_, hu, Buf.put_size hb', rfl, rfl, rfl⟩
    rw [if_neg hi]
    exact ht

theorem PortionsTaken.step {S c v i p : Nat} (hS : S + 136 < 4294967296) (hc : 6 * i < c) (hc' : 1 < c)
    (h : preparePortion crc32 src p i st = .ok st') (ht : PortionsTaken S c v i st) :
    PortionsTaken S c v (i + 1) st' := by
  have hsize := ht.size
  have hcount := ht.fragmentsCount
  have hrest := ht.restBlks
  have hbalance := ht.balance
  have hfits := ht.fits
  obtain ⟨b, t, u, hb, hstart, hu, hsize', hoffset, hcount', hrest'⟩ := preparePortion_run h
  have hhdr : Word.u32 (st.offset + blk2offTblHdrSize) = st.offset + 128 :=
    Word.u32_of_lt (show st.offset + 128 < 4294967296 by omega)
  rw [hhdr] at hstart
  by_cases hi : i = 0
  · subst hi
    obtain ⟨hsz, hoff, hcnt, hrst, hslot⟩ := prepareTranslationExtent_run (if_pos rfl ▸ hstart)
    simp only at hsz hoff hcnt hrst hslot
    rw [Word.u32_of_lt (by omega)] at hoff
    rw [hslot] at hu
    have hzero : SlotsTaken S (c - 1) v (t.offset + 32 * t.fragmentsCount + 16 * t.restBlks) 0 t :=
      ⟨by omega, by omega, by omega, rfl, fun h => absurd h (by omega)⟩
    have hrun := SlotsTaken.run (by omega) hu hzero
    have hfits' := hrun.fits
    have hbalance' := hrun.balance
    have hcount'' := hrun.fragmentsCount
    have hrest'' := hrun.restBlks
    have hslots : blk2offTblMax - (0 + 1) = 5 := rfl
    rw [hslots] at hfits' hcount'' hrest''
    simp only [if_true] at hbalance
    refine ⟨hsize'.trans hrun.size, by omega, ?_, ?_, by omega⟩
    · rw [hrest', hrest'']
      congr 2
      omega
    · rw [if_neg (by omega), hoffset, hcount', hrest']
      omega
  · rw [if_neg hi] at hstart
    obtain rfl := Except.ok.inj hstart
    have hzero : SlotsTaken S (c - 6 * i) st.restBlks
        ((st.offset + 128 : Nat) + 32 * st.fragmentsCount + 16 * st.restBlks) 0
        { st with buf := b, offset := st.offset + 128, slot := 0 } :=
      ⟨hb.trans hsize, hcount, by simp, rfl, fun h => absurd h (by omega)⟩
    have hrun := SlotsTaken.run (by omega) hu hzero
    have hfits' := hrun.fits
    have hbalance' := hrun.balance
    have hcount'' := hrun.fragmentsCount
    have hrest'' := hrun.restBlks
    have hslots : blk2offTblMax - 0 = 6 := rfl
    rw [hslots] at hfits' hcount'' hrest''
    rw [if_neg hi] at hbalance
    refine ⟨hsize'.trans hrun.size, by omega, by omega, ?_, by omega⟩
    rw [if_neg (by omega), hoffset, hcount', hrest']
    omega

end

section

variable {crc32 : List UInt8 → UInt32} {layout : VolumeLayout} {pebIndex v : Nat}
  {extent : ExtentDesc} {logicalByteOffset : UInt64} {startLogicalBlk : UInt32} {validBlks : UInt16}
  {usedLogicalBlks lastAllocatedBlk : UInt32} {buf : Buf}

theorem calculateOffsetTableSize_general {c p : Nat} (hp : p = (c + 5) / 6) (hc : 1 < c)
    (hc' : c < 60000) : calculateOffsetTableSize c v =
      136 * p + 32 * (c - p) + (c - p - 1) * 4048 + v % 253 * 16 := by
  have hitems : offDescPerFragment * physOffDescSize = 4048 := rfl
  have hrest : v % offDescPerFragment = v % 253 := rfl
  unfold calculateOffsetTableSize
  simp only [hitems, hrest]
  rw [portionsCount_eq (by omega), ← hp, @Word.sub32_of_le c p (by omega) (by omega),
    Word.sub32_of_le (by omega) (by omega)]
  unfold blk2offTblHdrSize translationExtentSize physOffTblHdrSize physOffDescSize
  rw [Word.u64_of_lt (by omega)]
  omega

theorem preCommitOffsetTable_memory (hvalid : 1 ≤ validBlks.toNat)
    (h : preCommitOffsetTable crc32 layout pebIndex extent logicalByteOffset startLogicalBlk validBlks
      usedLogicalBlks lastAllocatedBlk = .ok buf) :
    validBlks.toNat % 253 ≠ 0 ∧ validBlks.toNat ≤ 1264 := by
  have hv := validBlks.toNat_lt
  obtain ⟨-, h⟩ := bugOn_bind_eq_ok.1 h
  obtain ⟨-, h⟩ := bugOn_bind_eq_ok.1 h
  obtain ⟨-, h⟩ := bugOn_bind_eq_ok.1 h
  obtain ⟨-, h⟩ := failIf_bind_eq_ok.1 h
  rw [calculateOffsetTableFragments_eq hvalid hv, Checked.ok_bind] at h
  obtain ⟨-, h⟩ := bugOn_bind_eq_ok.1 h
  obtain ⟨st, hst, -⟩ := Checked.bind_eq_ok.1 h
  generalize hc : (validBlks.toNat + 252) / 253 + ((validBlks.toNat + 252) / 253 + 5) / 6 = c at hst
  generalize hp : (c + 5) / 6 = p
  have hsize := @calculateOffsetTableSize_general validBlks.toNat c p hp.symm (by omega) (by omega)
  rw [portionsCount_eq (by omega), hp, hsize, Word.u32_of_lt (by omega)] at hst
  generalize hS : 136 * p + 32 * (c - p) + (c - p - 1) * 4048 + validBlks.toNat % 253 * 16 = S at hst
  have hrun := Checked.forRange_ind (PortionsTaken S c validBlks.toNat) hst
    ⟨rfl, by simp, by simp, by simp, Nat.zero_le _⟩ fun i hi t t' ht hstep =>
      ht.step (by omega) (by omega) (by omega) hstep
  have hfits := hrun.fits
  have hbalance := hrun.balance
  have hcount := hrun.fragmentsCount
  have hrest := hrun.restBlks
  rw [if_neg (by omega)] at hbalance
  -- no more of the fragments are counted as such of offsets than the blocks need
  have hitems : c - p ≤ (validBlks.toNat + 252) / 253 := by omega
  have hend : c - 6 * p = 0 ∧ validBlks.toNat - 253 * (min (6 * p) c - 1) = 0 := by omega
  rw [hcount, hrest, hend.1, hend.2] at hbalance
  have hspace : 4048 * (validBlks.toNat / 253) + 24 * (p - 1) ≤ 4048 * (c - p - 1) := by omega
  have hone : p = 1 ∧ validBlks.toNat % 253 ≠ 0 := by omega
  omega

end

end Ssdfs
