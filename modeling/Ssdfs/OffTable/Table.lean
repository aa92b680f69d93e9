import Ssdfs.OffTable.Encode
import Ssdfs.BlkDesc.Fragment

namespace Ssdfs

open Memory

structure OffTableSource.Accepted (src : OffTableSource) : Prop where
  validBlks : src.validBlks ≠ 0
  pebIndex : src.pebIndex < Word.u16Max
  lastAllocatedBlk : Word.u32 (src.lastAllocatedBlk + 1) = src.usedLogicalBlks
  used_lt : src.usedLogicalBlks < Word.u16Max
  last_lt : src.lastAllocatedBlk < Word.u16Max
  used_le : src.usedLogicalBlks ≤ min src.pagesPerSeg offDescPerFragment

section

variable {crc32 : List UInt8 → UInt32} {src : OffTableSource} {buf : Buf} {st : OffTableState}
  {n fragment portion : Nat}

def slotDesc (offset size sequenceId : Nat) (type : UInt8) (checksum : UInt32) : FragmentDesc where
  offset := UInt32.ofNat offset
  comprSize := UInt16.ofNat size
  uncomprSize := UInt16.ofNat size
  checksum
  sequenceId := UInt8.ofNat sequenceId
  magic := fragmentDescMagic
  type
  flags := fragmentHasCsum

theorem fragmentDescriptorInit_ok {desc offset size sequenceId : Nat} {type : UInt8}
    (htype : type = blk2offExtentDesc ∨ type = blk2offDesc) (hsize : 0 < size)
    (hdesc : desc + 16 ≤ buf.size) (hfit : fragment + size ≤ buf.size) :
    ∃ checksum, fragmentDescriptorInit crc32 buf desc fragment offset size size sequenceId type
      fragmentHasCsum = .ok ⟨buf.size, FragmentDesc.wire.write buf.data desc
        (slotDesc offset size sequenceId type checksum)⟩ := by
  have hrange : ¬(type < fragmentUncomprBlob ∨ type > blk2offDescZstd) := by
    rcases htype with rfl | rfl <;> decide
  refine ⟨crc32 (slice buf.data fragment size), ?_⟩
  unfold fragmentDescriptorInit
  rw [failIf_of_not (by omega), Checked.ok_bind, failIf_of_not hrange, Checked.ok_bind,
    failIf_of_not (by decide), Checked.ok_bind, Buf.get_ok (by rw [FragmentDesc.wire_size]; omega),
    Checked.ok_bind, Buf.bytes_ok hfit, Checked.ok_bind,
    Buf.put_ok (by rw [FragmentDesc.wire_size]; omega)]
  rfl

/-- A fragment of the table with `n` offsets. -/
structure OffsetsAt (src : OffTableSource) (m : Bytes) (fragment sequenceId logicalStartPage
    logicalBlk startPebPage startId restBlks n : Nat) : Prop where
  header : ∃ checksum, PhysOffsetTableHeader.wire.read m fragment =
    { physOffsetTableHeader src sequenceId startId restBlks n with checksum }
  offsets : ∀ k < n, PhysOffsetDescriptor.wire.read m (fragment + 32 + k * 16) =
    physOffset logBlkDescArea logicalStartPage logicalBlk startPebPage k

theorem OffsetsAt.congr {m m' : Bytes} {sequenceId logicalStartPage logicalBlk startPebPage startId
    restBlks : Nat} (h : OffsetsAt src m fragment sequenceId logicalStartPage logicalBlk startPebPage
      startId restBlks n) (hm : ∀ x, fragment ≤ x → x < fragment + 32 + n * 16 → m' x = m x) :
    OffsetsAt src m' fragment sequenceId logicalStartPage logicalBlk startPebPage startId restBlks
      n where
  header := by
    obtain ⟨checksum, hheader⟩ := h.header
    refine ⟨checksum, ?_⟩
    rw [← hheader]
    refine PhysOffsetTableHeader.wire.read_congr fun i hi => ?_
    rw [PhysOffsetTableHeader.wire_size] at hi
    exact hm _ (by omega) (by omega)
  offsets k hk := by
    rw [← h.offsets k hk]
    refine PhysOffsetDescriptor.wire.read_congr fun i hi => ?_
    rw [PhysOffsetDescriptor.wire_size] at hi
    exact hm _ (by omega) (by omega)

theorem prepareOffsetsTableFragment_ok {areaType : UInt8} {sequenceId logicalStartPage logicalBlk
    startPebPage startId restBlks : Nat} {r : Buf × Nat}
    (h : prepareOffsetsTableFragment crc32 src fragment sequenceId areaType logicalStartPage logicalBlk
      startPebPage startId restBlks buf = .ok r) :
    src.Accepted ∧ ∃ b, Checked.forRange (min restBlks offDescPerFragment)
      (writeOffset fragment areaType logicalStartPage logicalBlk startPebPage) buf = .ok b := by
  obtain ⟨hvalid, h⟩ := bugOn_bind_eq_ok.1 h
  obtain ⟨-, h⟩ := bugOn_bind_eq_ok.1 h
  obtain ⟨hpeb, h⟩ := bugOn_bind_eq_ok.1 h
  obtain ⟨hlast, h⟩ := bugOn_bind_eq_ok.1 h
  obtain ⟨hused, h⟩ := bugOn_bind_eq_ok.1 h
  obtain ⟨hlast', h⟩ := bugOn_bind_eq_ok.1 h
  obtain ⟨b, hb, h⟩ := Checked.bind_eq_ok.1 h
  obtain ⟨hle, h⟩ := bugOn_bind_eq_ok.1 h
  exact ⟨⟨hvalid, Nat.not_le.1 hpeb, not_not.1 hlast, Nat.not_le.1 hused, Nat.not_le.1 hlast',
    Nat.not_lt.1 hle⟩, b, hb⟩

theorem prepareOffsetsTableFragment_exact {sequenceId logicalStartPage logicalBlk startPebPage startId
    restBlks : Nat} (hn : n = min restBlks offDescPerFragment) (hhdr : fragment + 32 ≤ buf.size) :
    Checked.Exact (prepareOffsetsTableFragment crc32 src fragment sequenceId logBlkDescArea
        logicalStartPage logicalBlk startPebPage startId restBlks buf)
      (src.Accepted ∧ fragment + 32 + n * 16 ≤ buf.size)
      fun r => r.2 = n ∧ r.1.size = buf.size ∧
        OffsetsAt src r.1.data fragment sequenceId logicalStartPage logicalBlk startPebPage startId
          restBlks n ∧
        ∀ x, x < fragment ∨ fragment + 32 + n * 16 ≤ x → r.1.data x = buf.data x := by
  have hn' : n ≤ 253 := by
    rw [hn]
    exact Nat.min_le_right ..
  have hloop := @Buf.forRange_put_exact Errno _ buf PhysOffsetDescriptor.wire (fragment + 32) n
    (physOffset logBlkDescArea logicalStartPage logicalBlk startPebPage)
  have hbody : (fun i (b : Buf) => b.put Errno PhysOffsetDescriptor.wire
      (fragment + 32 + i * PhysOffsetDescriptor.wire.size)
      (physOffset logBlkDescArea logicalStartPage logicalBlk startPebPage i)) =
    writeOffset fragment logBlkDescArea logicalStartPage logicalBlk startPebPage := rfl
  rw [hbody, PhysOffsetDescriptor.wire_size] at hloop
  have hbytes : physOffTblHdrSize + n * physOffDescSize = 32 + n * 16 := rfl
  constructor
  · rintro ⟨haccepted, hfit⟩
    unfold prepareOffsetsTableFragment
    simp only [← hn, hbytes]
    obtain ⟨b, hb, hsize, hoffsets, hframe⟩ := hloop.succeeds fun i hi => by omega
    rw [bugOn_of_not haccepted.validBlks, Checked.ok_bind, bugOn_of_not (by decide),
      Checked.ok_bind, bugOn_of_not (Nat.not_le.2 haccepted.pebIndex), Checked.ok_bind,
      bugOn_of_not (not_not_intro haccepted.lastAllocatedBlk), Checked.ok_bind,
      bugOn_of_not (Nat.not_le.2 haccepted.used_lt), Checked.ok_bind,
      bugOn_of_not (Nat.not_le.2 haccepted.last_lt), Checked.ok_bind, hb, Checked.ok_bind,
      bugOn_of_not (Nat.not_lt.2 haccepted.used_le), Checked.ok_bind,
      bugOn_of_not (by unfold Word.u16Max; omega), Checked.ok_bind,
      Buf.put_ok (by rw [PhysOffsetTableHeader.wire_size]; omega), Checked.ok_bind,
      Buf.bytes_ok (by simp only; omega), Checked.ok_bind,
      Buf.put_ok (by rw [PhysOffsetTableHeader.wire_size]; simp only; omega), Checked.ok_bind]
    have hkeep : ∀ x, x < fragment ∨ fragment + 32 ≤ x → ∀ (m : Bytes) (h : PhysOffsetTableHeader),
        PhysOffsetTableHeader.wire.write m fragment h x = m x := fun x hx m h =>
      PhysOffsetTableHeader.wire.write_frame (by rw [PhysOffsetTableHeader.wire_size]; exact hx)
    refine ⟨_, rfl, rfl, hsize, ⟨⟨crc32 (slice (PhysOffsetTableHeader.wire.write b.data fragment
      (physOffsetTableHeader src sequenceId startId restBlks n)) fragment (32 + n * 16)), ?_⟩,
      fun k hk => ?_⟩, fun x hx => ?_⟩
    · simp only
      rw [PhysOffsetTableHeader.wire.read_write]
    · rw [← hoffsets k hk]
      refine PhysOffsetDescriptor.wire.read_congr fun i hi => ?_
      simp only
      rw [hkeep _ (by omega), hkeep _ (by omega)]
    · simp only
      rw [hkeep x (by omega), hkeep x (by omega), hframe x (by omega)]
  · intro r hr
    obtain ⟨haccepted, b, hb⟩ := prepareOffsetsTableFragment_ok hr
    rw [← hn] at hb
    have hfits := hloop.only b hb
    refine ⟨haccepted, ?_⟩
    rcases Nat.eq_zero_or_pos n with hzero | hpos
    · omega
    · have hend := hfits (n - 1) (by omega)
      omega

theorem prepareSlot_accepted {st' : OffTableState} (hcount : 0 < st.fragmentsCount)
    (h : prepareSlot crc32 src portion st = .ok st') : src.Accepted := by
  unfold prepareSlot at h
  rw [if_neg (by omega), if_neg (by omega)] at h
  obtain ⟨r, hr, -⟩ := Checked.bind_eq_ok.1 h
  exact (prepareOffsetsTableFragment_ok hr).1

theorem prepareSlot_exact (hcount : 0 < st.fragmentsCount)
    (hn : n = min st.restBlks offDescPerFragment) (hstart : src.startLogicalBlk < Word.u16Max)
    (hslot : portion + 32 + st.slot * 16 + 16 ≤ st.offset) (hhdr : st.offset + 32 ≤ st.buf.size)
    (hsize : st.buf.size < 4294967296) :
    Checked.Exact (prepareSlot crc32 src portion st)
      (src.Accepted ∧ st.offset + 32 + n * 16 ≤ st.buf.size)
      fun st' => st'.buf.size = st.buf.size ∧ st'.offset = st.offset + 32 + n * 16 ∧
        st'.fragmentsCount = st.fragmentsCount - 1 ∧ st'.slot = st.slot + 1 ∧
        (∃ checksum, FragmentDesc.wire.read st'.buf.data (portion + 32 + st.slot * 16) =
          slotDesc st.offset (32 + n * 16) st.curFragment blk2offDesc checksum) ∧
        OffsetsAt src st'.buf.data st.offset (Word.u16 st.curPhysOffTblFrag)
          (Word.u32 st.logicalStartPage) (Word.u16 st.logicalBlk) (Word.u16 st.startPebPage)
          st.startId st.restBlks n ∧
        ∀ x, (x < portion + 32 + st.slot * 16 ∨ portion + 32 + st.slot * 16 + 16 ≤ x) →
          (x < st.offset ∨ st.offset + 32 + n * 16 ≤ x) → st'.buf.data x = st.buf.data x := by
  have hn' : n ≤ 253 := by
    rw [hn]
    exact Nat.min_le_right ..
  unfold prepareSlot
  rw [if_neg (by omega), if_neg (by omega)]
  have hfragment := @prepareOffsetsTableFragment_exact crc32 src st.buf n st.offset
    (Word.u16 st.curPhysOffTblFrag) (Word.u32 st.logicalStartPage) (Word.u16 st.logicalBlk)
    (Word.u16 st.startPebPage) st.startId st.restBlks hn hhdr
  constructor
  · rintro ⟨haccepted, hfit⟩
    obtain ⟨⟨b, k⟩, hb, hk, hsz, hat, hframe⟩ := hfragment.succeeds ⟨haccepted, hfit⟩
    simp only at hk hsz hat hframe
    have hfragSize : Word.u16 (physOffTblHdrSize + k * physOffDescSize) = 32 + n * 16 := by
      rw [hk]
      exact Word.u16_of_lt (show 32 + n * 16 < 65536 by omega)
    have hend : Word.u32 (st.offset + (physOffTblHdrSize + k * physOffDescSize)) =
        st.offset + 32 + n * 16 := by
      rw [hk, Nat.add_assoc]
      exact Word.u32_of_lt (show st.offset + (32 + n * 16) < 4294967296 by omega)
    obtain ⟨checksum, hdesc⟩ := @fragmentDescriptorInit_ok crc32 b st.offset
      (portion + 32 + st.slot * 16) st.offset (32 + n * 16) st.curFragment blk2offDesc (.inr rfl)
      (by omega) (by omega) (by omega)
    rw [hb, Checked.ok_bind]
    simp only [hfragSize]
    unfold fragmentSlotsOffset
    rw [hdesc, Checked.ok_bind, bugOn_of_not (Nat.not_le.2 hstart), Checked.ok_bind]
    have hkeep : ∀ x, x < portion + 32 + st.slot * 16 ∨ portion + 32 + st.slot * 16 + 16 ≤ x →
        ∀ d : FragmentDesc, FragmentDesc.wire.write b.data (portion + 32 + st.slot * 16) d x =
          b.data x := fun x hx d =>
      FragmentDesc.wire.write_frame (by rw [FragmentDesc.wire_size]; exact hx)
    refine ⟨_, rfl, hsz, ?_, rfl, rfl, ⟨checksum, FragmentDesc.wire.read_write ..⟩, ?_,
      fun x hx hx' => ?_⟩
    · exact hend
    · exact hat.congr fun x hx _ => hkeep x (by omega) _
    · simp only
      rw [hkeep x hx, hframe x hx']
  · intro st' hst'
    obtain ⟨r, hr, -⟩ := Checked.bind_eq_ok.1 hst'
    exact hfragment.only r hr

end

end Ssdfs
