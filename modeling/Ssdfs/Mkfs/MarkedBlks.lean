import Ssdfs.HandOut.Walk
import Ssdfs.Mkfs.LayoutRun
import Ssdfs.Mkfs.TableLog
import Ssdfs.Mkfs.ZonedVolume

namespace Ssdfs

section

variable (crc32 : UInt32 → List UInt8 → UInt32) (libs : CompressionLibs) (layout : VolumeLayout)
  (options : LogOptions) (payload : PayloadSource)

/-- The areas that `pre_commit_block_bitmap` marks for a PEB. The call for the bitmap's copy repeats
them. -/
def pebBlkAreas (startLogicalBlk : Nat) : Mkfs (List BlkArea) := do
  let blksCount := Word.u16 (payload.validBlks layout)
  failIf (blksCount > layout.pagesPerPeb) .einval
  let _ ← blkBmapTypeOf options.compression
  blkAreas layout payload.pebBufferSize startLogicalBlk blksCount

/-- What the loops of `metaMkfsDefineLayout` start from. -/
def Creation.tableStart (c : Creation) (buffers : Nat → Buf) : TableState :=
  ⟨c.a, fun b => some (buffers b), c.src.calculatedOpenZones, 0, 0, 0, 0⟩

/-- The loops of a table come to the PEB `j` of the `i`-th segment, in the state `st`. -/
structure TableComesTo (metaIndex : MetaIndex) (segType : SegType) (segsMax : Nat) (buffers : Nat → Buf)
    (c : Creation) (i j : Nat) (st : TableState) : Prop where
  counted : (c.a.metaArray metaIndex).segsCount ≤ segsMax
  seg : i < (c.a.metaArray metaIndex).segsCount
  peb : j < payload.pebsPerSeg
  fragment : st.fragmentIndex < payload.fragmentsCount
  run : ∃ t used, Checked.forRange i (layoutSeg crc32 libs layout options segType payload c.src
      (c.a.metaArray metaIndex).startSegIndex) (c.tableStart buffers) = .ok t ∧
    Checked.forRange payload.pebsPerSeg (countUsedBlks layout payload) 0 = .ok used ∧
    Checked.forRange j (layoutPeb crc32 libs layout options segType payload c.src
      (c.a.metaArray metaIndex).startSegIndex used (Word.sub32 used 1) i)
        { t with startLogicalBlk := 0 } = .ok st

end

def AreasInside (layout : VolumeLayout) (areas : List BlkArea) : Prop :=
  ∀ area ∈ areas, area.start + area.count ≤ layout.pagesPerPeb

/-- The bitmaps of all PEBs that the loops of a table come to have room for what is marked. -/
def MarksInside (crc32 : UInt32 → List UInt8 → UInt32) (libs : CompressionLibs) (layout : VolumeLayout)
    (options : LogOptions) (payload : PayloadSource) (metaIndex : MetaIndex) (segType : SegType)
    (segsMax : Nat) (buffers : Nat → Buf) (c : Creation) : Prop :=
  ∀ i j st, TableComesTo crc32 libs layout options payload metaIndex segType segsMax buffers c i j st →
    ∀ areas, pebBlkAreas layout options payload st.startLogicalBlk = .ok areas → AreasInside layout areas

/-- The blocks of the PEBs of a segment are more than one bitmap holds, and nothing stops the loops
before the first PEB that is too many: the blocks of a PEB are accepted, a fragment of the offset table
counts those of the segment, and a log fits into an erase block. -/
structure BlksOverrun (layout : VolumeLayout) (options : LogOptions) (src : CommitSource)
    (payload : PayloadSource) : Prop where
  overrun : layout.pagesPerPeb < min payload.pebsPerSeg payload.fragmentsCount * payload.validBlks layout
  accepted : payload.validBlks layout ≤ layout.pagesPerPeb
  compression : options.compression ≠ .unknown
  counted : payload.pebsPerSeg * payload.validBlks layout ≤ offDescPerFragment
  log_le : logBytesCount layout.pageSize.bytes (tableLogSize layout src (payload.validBlks layout)) ≤
    layout.env.eraseSize.toNat

/-- A table whose logs are laid out in `n` segments from `start` on. -/
structure TableReady (layout : VolumeLayout) (payload : PayloadSource) (metaIndex : MetaIndex)
    (segType : SegType) (m start n : Nat) (a₀ : SegsArray) (c : Creation) : Prop where
  sound : payload.Sound layout m
  pebs_lt : payload.pebsPerSeg < 65536
  blks_le : payload.pebsPerSeg * layout.pagesPerPeb ≤ layout.pagesPerSeg
  buffers : payload.pebsPerSeg ≤ payload.buffersCount
  pageSize : logPageSize layout segType = layout.pageSize.bytes
  zoned : metaIndex ≠ .initialSnapshot
  laying : Laying a₀ c.a c.src.calculatedOpenZones
  place : (c.a.metaArray metaIndex).startSegIndex = start ∧ (c.a.metaArray metaIndex).segsCount = n
  fresh : Fresh metaIndex start (start + n) c.a
  segs_pos : 0 < n
  capacity : start + n ≤ c.a.segsCapacity
  pebsCapacity : ∀ i, (c.a.segs i).pebsCapacity = layout.pebsPerSeg
  pebs_le : payload.pebsPerSeg ≤ layout.pebsPerSeg

section

variable {crc32 : UInt32 → List UInt8 → UInt32} {libs : CompressionLibs} {layout : VolumeLayout}
  {options : LogOptions} {segType : SegType} {payload : PayloadSource} {src : CommitSource}
  {metaIndex : MetaIndex} {buffers : Nat → Buf} {a₀ : SegsArray}
  {m start n segsMax i j used startLogicalBlk : Nat} {st st' : TableState} {c : Creation}
  {areas : List BlkArea}

theorem pebBlkAreas_ok (hsound : payload.Sound layout m)
    (h : pebBlkAreas layout options payload startLogicalBlk = .ok areas) :
    payload.validBlks layout < 65536 ∧ payload.validBlks layout ≤ layout.pagesPerPeb ∧
      options.compression ≠ .unknown ∧
        areas = [⟨startLogicalBlk, payload.validBlks layout, blkValid⟩] := by
  have hlt := hsound.validBlks_lt
  have hpos := hsound.validBlks_pos
  obtain ⟨hfit, h⟩ := failIf_bind_eq_ok.1 h
  obtain ⟨type, htype, h⟩ := Checked.bind_eq_ok.1 h
  have hexact := @blkAreas_exact layout payload.pebBufferSize startLogicalBlk _ _
    (Word.u16_lt (payload.validBlks layout)) hsound.bufferBlks (by unfold Word.u32Max; omega)
  have hsame : Word.u16 (payload.validBlks layout) = payload.validBlks layout :=
    Nat.le_antisymm (Word.u16_le _) (hexact.only _ h).valid_le
  refine ⟨hsame ▸ Word.u16_lt _, hsame ▸ Nat.not_lt.1 hfit, blkBmapTypeOf_stays.result _ htype, ?_⟩
  rw [hexact.result h, hsame]
  unfold markedAreas
  rw [if_pos hpos, Nat.sub_self, if_neg (Nat.lt_irrefl 0), List.append_nil]

theorem pebBlkAreas_requested (hsound : payload.Sound layout m)
    (hlt : payload.validBlks layout < 65536) (hfit : payload.validBlks layout ≤ layout.pagesPerPeb)
    (hcompression : options.compression ≠ .unknown) :
    pebBlkAreas layout options payload startLogicalBlk =
      .ok [⟨startLogicalBlk, payload.validBlks layout, blkValid⟩] := by
  have htype : ∃ type, blkBmapTypeOf options.compression = .ok type := by
    cases hc : options.compression
    case unknown => exact absurd hc hcompression
    all_goals exact ⟨_, rfl⟩
  obtain ⟨type, htype⟩ := htype
  have hexact := @blkAreas_exact layout payload.pebBufferSize startLogicalBlk _ _ hlt hsound.bufferBlks
    (by unfold Word.u32Max; omega)
  obtain ⟨areas, hareas, rfl⟩ := hexact.succeeds ⟨Nat.le_refl _, Nat.le_succ _⟩
  unfold pebBlkAreas
  simp only
  rw [Word.u16_of_lt hlt, failIf_of_not (Nat.not_lt.2 hfit), Checked.ok_bind, htype, Checked.ok_bind,
    hareas]
  unfold markedAreas
  rw [if_pos hsound.validBlks_pos, Nat.sub_self, if_neg (Nat.lt_irrefl 0), List.append_nil]

theorem layoutPeb_counts {last : Nat}
    (h : layoutPeb crc32 libs layout options segType payload src start used last i j st = .ok st') :
    st.fragmentIndex ≤ st'.fragmentIndex ∧ (st'.fragmentIndex < payload.fragmentsCount →
      st'.startLogicalBlk = Word.u32 (st.startLogicalBlk + payload.validBlks layout)) := by
  unfold layoutPeb at h
  split at h
  case isTrue hdone =>
    cases h
    exact ⟨Nat.le_refl _, fun hlt => absurd hlt (Nat.not_lt.2 hdone)⟩
  case isFalse =>
    obtain ⟨-, h⟩ := bugOn_bind_eq_ok.1 h
    obtain ⟨⟨peb, fragments⟩, -, h⟩ := Checked.bind_eq_ok.1 h
    obtain ⟨blks, -, h⟩ := Checked.bind_eq_ok.1 h
    cases h
    exact ⟨Nat.le_succ _, fun _ => rfl⟩

theorem layoutPeb_counted {last : Nat} (hpos : 0 < payload.validBlks layout)
    (hlt : payload.validBlks layout < 65536) (hused : used < 4294967296)
    (hmore : st.fragmentIndex < payload.fragmentsCount)
    (h : layoutPeb crc32 libs layout options segType payload src start used last i j st = .ok st') :
    used ≤ offDescPerFragment := by
  unfold layoutPeb at h
  rw [if_neg (Nat.not_le.2 hmore)] at h
  obtain ⟨-, h⟩ := bugOn_bind_eq_ok.1 h
  obtain ⟨_, hlog, -⟩ := Checked.bind_eq_ok.1 h
  obtain ⟨_, -, hlog⟩ := Checked.bind_eq_ok.1 hlog
  obtain ⟨_, -, hlog⟩ := Checked.bind_eq_ok.1 hlog
  obtain ⟨_, htable, -⟩ := Checked.bind_eq_ok.1 hlog
  obtain ⟨_, -, htable⟩ := Checked.bind_eq_ok.1 htable
  obtain ⟨buf, hbuf, -⟩ := Checked.bind_eq_ok.1 htable
  have hvalid : (UInt16.ofNat (payload.validBlks layout)).toNat = payload.validBlks layout :=
    UInt16.toNat_ofNat_of_lt' hlt
  have haccepted := preCommitOffsetTable_accepted (by rw [hvalid]; exact hpos) hbuf
  have hle := (Nat.le_min.1 haccepted.used_le).2
  simp only at hle
  rwa [show (UInt32.ofNat used).toNat = used from UInt32.toNat_ofNat_of_lt' hused] at hle

namespace TableReady

variable (h : TableReady layout payload metaIndex segType m start n a₀ c)

include h

theorem used_eq (hfit : payload.validBlks layout ≤ layout.pagesPerPeb)
    (hused : Checked.forRange payload.pebsPerSeg (countUsedBlks layout payload) 0 = .ok used) :
    used = payload.pebsPerSeg * payload.validBlks layout := by
  have hle := Nat.le_trans (Nat.mul_le_mul_left payload.pebsPerSeg hfit) h.blks_le
  have hseg : layout.pagesPerSeg < 4294967296 := Word.u32_lt _
  rw [countUsedBlks_ok h.sound.validBlks_pos (by omega) rfl] at hused
  exact (Except.ok.inj hused).symm

theorem next_start : NextPeb buffers payload a₀ start n 0 0 (c.tableStart buffers) := by
  have hnone : ∀ i < n, (c.a.segs (start + i)).pebsCount = 0 := fun i hi =>
    h.fresh.pebsCount (start + i) (Nat.le_add_right ..) (Nat.add_lt_add_left hi start)
  refine ⟨h.laying, ?_, by simp [Creation.tableStart], fun k _ => rfl,
    fun i _ j _ hlt => absurd hlt (Nat.not_lt_zero _),
    fun i hi j hj => absurd (hnone i hi ▸ hj) (Nat.not_lt_zero j)⟩
  change (c.a.segs (start + 0)).segType ≠ _
  rw [h.fresh.segType _ (Nat.le_add_right ..) (Nat.add_lt_add_left h.segs_pos start)]
  exact fun heq => h.zoned (Option.some.inj heq)

theorem comesTo (hcomes : TableComesTo crc32 libs layout options payload metaIndex segType segsMax buffers c
    i j st) : NextPeb buffers payload a₀ start n i j st ∧
      st.startLogicalBlk = Word.u32 (j * payload.validBlks layout) := by
  obtain ⟨t, used, hsegs, -, hpebs⟩ := hcomes.run
  have hi := hcomes.seg
  have hj := hcomes.peb
  rw [h.place.2] at hi
  rw [h.place.1] at hsegs hpebs
  obtain ⟨hlaying, hpayloads, hout⟩ := layoutSegs_laying h.zoned h.pebs_lt h.laying h.fresh
    (Nat.le_of_lt hi) hsegs
  have hzoned : (t.a.segs (start + i)).segType ≠ some .initialSnapshot := by
    rw [(hlaying.segs _).1, ← (h.laying.segs _).1, h.fresh.segType _ (Nat.le_add_right ..) (by omega)]
    exact fun heq => h.zoned (Option.some.inj heq)
  obtain ⟨hnext, hblk⟩ := Checked.forRange_ind (fun k u => NextPeb buffers payload a₀ start n i k u ∧
      (u.fragmentIndex < payload.fragmentsCount →
        u.startLogicalBlk = Word.u32 (k * payload.validBlks layout))) hpebs
    ⟨⟨hlaying, hzoned, hpayloads.index, hpayloads.fragments, hpayloads.payloads⟩,
      fun _ => (Nat.zero_mul _).symm ▸ rfl⟩ fun k hk u u' hu hstep => by
        obtain ⟨hle, hblk⟩ := layoutPeb_counts hstep
        refine ⟨(hu.1.step hi (Nat.lt_trans hk hj) h.pebs_lt hstep).1, fun hlt => ?_⟩
        rw [hblk hlt, hu.2 (Nat.lt_of_le_of_lt hle hlt), u32_add_u32, Nat.succ_mul]
  exact ⟨hnext, hblk hcomes.fragment⟩

theorem first_laid (hcomes : TableComesTo crc32 libs layout options payload metaIndex segType segsMax buffers
    c i j st) (hother : i ≠ 0 ∨ j ≠ 0) (hfit : payload.validBlks layout ≤ layout.pagesPerPeb) :
    ∃ t, layoutPeb crc32 libs layout options segType payload c.src start
      (payload.pebsPerSeg * payload.validBlks layout)
      (Word.sub32 (payload.pebsPerSeg * payload.validBlks layout) 1) 0 0 (c.tableStart buffers) =
        .ok t := by
  obtain ⟨t, used, hsegs, hused, hpebs⟩ := hcomes.run
  rw [h.place.1] at hsegs hpebs
  obtain rfl := h.used_eq hfit hused
  rcases Nat.eq_zero_or_pos i with rfl | hi
  · cases hsegs
    obtain ⟨u, u', hu, hstep⟩ := Checked.forRange_step hpebs (Nat.pos_of_ne_zero (hother.resolve_left
      fun hne => hne rfl))
    cases hu
    exact ⟨u', hstep⟩
  · obtain ⟨u, u', hu, hseg⟩ := Checked.forRange_step hsegs hi
    cases hu
    obtain ⟨used', hused', hpebs'⟩ := Checked.bind_eq_ok.1 hseg
    obtain rfl := h.used_eq hfit hused'
    simp only [if_neg (Nat.ne_of_gt h.sound.pebs_pos)] at hpebs'
    obtain ⟨v, v', hv, hstep⟩ := Checked.forRange_step hpebs' h.sound.pebs_pos
    cases hv
    exact ⟨v', hstep⟩

theorem siteFits (hcompression : options.compression ≠ .unknown)
    (hpages : layout.pagesPerPeb < payload.pebsPerSeg * payload.validBlks layout)
    (hcounted : payload.pebsPerSeg * payload.validBlks layout ≤ offDescPerFragment)
    (hnext : NextPeb buffers payload a₀ start n 0 j st) (hj : j < payload.pebsPerSeg)
    (hfragment : st.fragmentIndex = j) (hblk : st.startLogicalBlk = j * payload.validBlks layout)
    (hfit : (j + 1) * payload.validBlks layout ≤ layout.pagesPerPeb) (desc : SegmentDesc)
    (hdesc : desc.pebsCapacity = (st.a.segs start).pebsCapacity) :
    SiteFits layout options payload (st.a.setSeg start desc) ⟨start, j, st.fragmentIndex,
      st.startLogicalBlk, st.payloadOffsetInBytes, payload.pebsPerSeg * payload.validBlks layout,
      Word.sub32 (payload.pebsPerSeg * payload.validBlks layout) 1⟩ := by
  have hpos := h.sound.validBlks_pos
  have hone : 253 = offDescPerFragment := rfl
  have hppos := h.sound.pebs_pos
  have hvalid := Nat.le_mul_of_pos_left (payload.validBlks layout) hppos
  have hpebs := Nat.le_mul_of_pos_right payload.pebsPerSeg hpos
  have hbefore := Nat.le_mul_of_pos_left (payload.validBlks layout) (Nat.succ_pos j)
  have hseg := Nat.le_trans (Nat.mul_le_mul_left payload.pebsPerSeg (Nat.le_trans hbefore hfit)) h.blks_le
  have hmany : payload.validBlks layout ≠ payload.pebsPerSeg * payload.validBlks layout := fun heq => by
    have := Nat.le_trans hbefore hfit
    omega
  have hcapacity : st.a.segsCapacity = c.a.segsCapacity := by
    rw [hnext.laying.array, h.laying.array]
  have hroom := h.capacity
  have hsegs := h.segs_pos
  have hpage := layout.pageSize.bytes_ge
  exact
    { seg := by
        change start < st.a.segsCapacity
        omega
      peb := by
        unfold SegsArray.setSeg
        simp only [Function.update_self, hdesc]
        rw [(hnext.laying.segs _).2.2, ← (h.laying.segs _).2.2, h.pebsCapacity]
        exact Nat.lt_of_lt_of_le hj h.pebs_le
      pebIndex := by
        change j < 253
        omega
      pages := by omega
      compression := hcompression
      inside := by
        rw [Nat.succ_mul] at hfit
        change st.startLogicalBlk + _ ≤ _
        omega
      described := by omega
      valid_le := hvalid
      used_le := Nat.le_min.2 ⟨hseg, hcounted⟩
      last := by
        change Word.sub32 _ 1 + 1 = payload.pebsPerSeg * payload.validBlks layout
        rw [Word.sub32_of_le (by omega) (by omega)]
        omega
      offset := by
        change st.fragmentIndex * payload.fragmentSize / _ < _
        have hmul := Nat.mul_le_mul (Nat.le_of_lt hj) (Nat.le_mul_of_pos_left m h.sound.fragments_pos)
        rw [h.sound.size, hfragment, ← Nat.mul_assoc, Nat.mul_div_cancel _ (by omega)]
        rw [h.sound.validBlks_eq] at hcounted
        unfold Word.u32Max
        omega
      buffer := by
        change st.fragmentIndex < _
        exact hfragment ▸ Nat.lt_of_lt_of_le hj h.buffers }

theorem layoutPeb_succeeds (hcompression : options.compression ≠ .unknown)
    (hpages : layout.pagesPerPeb < payload.pebsPerSeg * payload.validBlks layout)
    (hcounted : payload.pebsPerSeg * payload.validBlks layout ≤ offDescPerFragment)
    (hnext : NextPeb buffers payload a₀ start n 0 j st) (hj : j < payload.pebsPerSeg)
    (hmore : j < payload.fragmentsCount) (hblk : st.startLogicalBlk = j * payload.validBlks layout)
    (hfit : (j + 1) * payload.validBlks layout ≤ layout.pagesPerPeb) :
    (∃ st', layoutPeb crc32 libs layout options segType payload src start
      (payload.pebsPerSeg * payload.validBlks layout)
      (Word.sub32 (payload.pebsPerSeg * payload.validBlks layout) 1) 0 j st = .ok st') ↔
      logBytesCount layout.pageSize.bytes (tableLogSize layout src (payload.validBlks layout)) ≤
        layout.env.eraseSize.toNat := by
  have hpps := h.pebs_lt
  have hindex := hnext.payloads.index
  rw [Nat.zero_mul, Nat.zero_add] at hindex
  have hfragment : st.fragmentIndex = j := by omega
  have hcount := hnext.payloads.pebsCount_eq h.segs_pos hj (by omega)
  rw [Nat.add_zero] at hcount
  have hcapacity : (st.a.segs start).pebsCapacity = layout.pebsPerSeg := by
    rw [(hnext.laying.segs _).2.2, ← (h.laying.segs _).2.2, h.pebsCapacity]
  have hpebs := h.pebs_le
  have hsite := h.siteFits hcompression hpages hcounted hnext hj hfragment hblk hfit
    { st.a.segs start with pebsCount := Word.u16 ((st.a.segs start).pebsCount + 1) } rfl
  obtain ⟨peb', fragments', hlog, hsize⟩ := @layoutLog_succeeds crc32 libs layout options segType payload
    _ _ src ((st.a.segs start).pebs j) m st.fragments _ hsite h.sound
    (hnext.laying.blank start j (Nat.le_of_eq hcount)) (hnext.payloads.fragments _ (Nat.le_refl _))
  unfold layoutPeb calculateLogPages
  simp only [Nat.add_zero]
  rw [if_neg (by omega), bugOn_of_not (by
    rw [hcount, hcapacity, Word.u16_of_lt (by omega)]
    omega), Checked.ok_bind, hlog, Checked.ok_bind]
  simp only
  rw [hsize, h.pageSize]
  constructor
  · rintro ⟨st', hrun⟩
    obtain ⟨blks, hblks, -⟩ := Checked.bind_eq_ok.1 hrun
    exact Nat.not_lt.1 (bugOn_bind_eq_ok.1 hblks).1
  · intro hle
    rw [bugOn_of_not (Nat.not_lt.2 hle), Checked.ok_bind, Checked.ok_bind]
    exact ⟨_, rfl⟩

theorem comes (hover : BlksOverrun layout options c.src payload)
    (hcount : n ≤ segsMax) (hj : j < min payload.pebsPerSeg payload.fragmentsCount)
    (hfit : j * payload.validBlks layout ≤ layout.pagesPerPeb) :
    ∃ st, TableComesTo crc32 libs layout options payload metaIndex segType segsMax buffers c 0 j st ∧
      st.startLogicalBlk = j * payload.validBlks layout := by
  have hpebs := (Nat.lt_min.1 hj).1
  have hmore := (Nat.lt_min.1 hj).2
  have hpages : layout.pagesPerPeb < payload.pebsPerSeg * payload.validBlks layout :=
    Nat.lt_of_lt_of_le hover.overrun (Nat.mul_le_mul_right _ (Nat.min_le_left _ _))
  have hfew : offDescPerFragment = 253 := rfl
  have hcounted := hover.counted
  have hused := @countUsedBlks_ok layout payload payload.pebsPerSeg 0 h.sound.validBlks_pos (by omega) rfl
  obtain ⟨st, hrun, hnext, hblk⟩ := Checked.forRange_ok (fun k t =>
    NextPeb buffers payload a₀ start n 0 k t ∧ t.startLogicalBlk = k * payload.validBlks layout)
    (n := j) ⟨h.next_start, (Nat.zero_mul _).symm⟩ fun k hk t ht => by
      have hk' := Nat.lt_trans hk hpebs
      have hle := Nat.le_trans (Nat.mul_le_mul_right (payload.validBlks layout) (Nat.succ_le_of_lt hk)) hfit
      have hstep : ∃ t', layoutPeb crc32 libs layout options segType payload c.src start
          (payload.pebsPerSeg * payload.validBlks layout)
          (Word.sub32 (payload.pebsPerSeg * payload.validBlks layout) 1) 0 k t = .ok t' :=
        (h.layoutPeb_succeeds hover.compression hpages hcounted ht.1 hk' (Nat.lt_trans hk hmore) ht.2
          hle).2 hover.log_le
      obtain ⟨t', hstep⟩ := hstep
      have hnext := (ht.1.step h.segs_pos hk' h.pebs_lt hstep).1
      have hindex := hnext.payloads.index
      refine ⟨t', hstep, hnext, ?_⟩
      rw [Nat.succ_mul] at hle ⊢
      rw [(layoutPeb_counts hstep).2 (by omega), ht.2]
      exact Word.u32_of_lt (by omega)
  have hindex := hnext.payloads.index
  rw [Nat.zero_mul, Nat.zero_add] at hindex
  refine ⟨st, ⟨h.place.2 ▸ hcount, h.place.2 ▸ h.segs_pos, hpebs, by omega, _, _, rfl, hused, ?_⟩, hblk⟩
  rw [h.place.1]
  exact hrun

theorem marksInside_iff (hcount : n ≤ segsMax) :
    MarksInside crc32 libs layout options payload metaIndex segType segsMax buffers c ↔
      ¬BlksOverrun layout options c.src payload := by
  have hpos := h.sound.validBlks_pos
  have hfew : offDescPerFragment = 253 := rfl
  have hseg : layout.pagesPerSeg < 4294967296 := Word.u32_lt _
  constructor
  · intro hinside hover
    have hlt : layout.pagesPerPeb / payload.validBlks layout <
        min payload.pebsPerSeg payload.fragmentsCount := (Nat.div_lt_iff_lt_mul hpos).2 hover.overrun
    obtain ⟨st, hcomes, hblk⟩ := @comes crc32 libs layout options segType payload metaIndex buffers a₀ m
      start n segsMax (layout.pagesPerPeb / payload.validBlks layout) c h hover hcount hlt
      (Nat.div_mul_le_self _ _)
    have hcounted := hover.counted
    have hvalid := Nat.le_mul_of_pos_left (payload.validBlks layout) h.sound.pebs_pos
    have harea := hinside 0 _ st hcomes _
      (pebBlkAreas_requested h.sound (by omega) hover.accepted hover.compression) _
      (List.mem_singleton.2 rfl)
    have hout : layout.pagesPerPeb < _ := @Nat.lt_div_mul_add layout.pagesPerPeb _ hpos
    simp only [hblk] at harea
    omega
  · intro hover i j st hcomes areas hareas area harea
    obtain ⟨hlt, hfit, hcompression, rfl⟩ := pebBlkAreas_ok h.sound hareas
    obtain rfl := List.mem_singleton.1 harea
    obtain ⟨hnext, hblk⟩ := h.comesTo hcomes
    have hle : Word.u32 (j * payload.validBlks layout) ≤ j * payload.validBlks layout := Word.u32_le _
    have hindex := hnext.payloads.index
    have hfragment := hcomes.fragment
    have hpeb := hcomes.peb
    have hmin := Nat.mul_le_mul_right (payload.validBlks layout)
      (show j + 1 ≤ min payload.pebsPerSeg payload.fragmentsCount by omega)
    have hpages := Nat.mul_le_mul_right (payload.validBlks layout)
      (Nat.min_le_left payload.pebsPerSeg payload.fragmentsCount)
    by_contra hout
    simp only [hblk] at hout
    rw [Nat.succ_mul] at hmin
    have hj : j ≠ 0 := fun hzero => by
      have hnone : Word.u32 (j * payload.validBlks layout) = 0 := by
        rw [hzero, Nat.zero_mul]
        rfl
      omega
    obtain ⟨t, ht⟩ := h.first_laid hcomes (.inr hj) hfit
    have hseg := Nat.le_trans (Nat.mul_le_mul_left payload.pebsPerSeg hfit) h.blks_le
    have hcounted := layoutPeb_counted hpos hlt (by omega) (by
      change 0 < payload.fragmentsCount
      omega) ht
    refine hover ⟨by omega, hfit, hcompression, hcounted, ?_⟩
    refine (h.layoutPeb_succeeds hcompression (by omega) hcounted h.next_start h.sound.pebs_pos (by omega)
      (Nat.zero_mul _).symm (by rw [Nat.zero_add, Nat.one_mul]; exact hfit)).1 ⟨t, ht⟩

end TableReady

end

def maptblSegsMax (layout : VolumeLayout) : Nat :=
  Word.u32 (layout.maptbl.maptblPebs + layout.pebsPerSeg - 1) / layout.pebsPerSeg

section

variable {crc32 : UInt32 → List UInt8 → UInt32} {libs : CompressionLibs}
  {options layout layout' : VolumeLayout} {logOptions : LogOptions} {g : SegbmapGeometry}
  {sectorsPerZone : Option UInt32} {fuel layoutFuel b m : Nat} {requested : UInt16}
  {buffers segbmapBuffers maptblBuffers : Nat → Buf} {a₀ a a' : SegsArray} {buf : Buf} {t : Tables}
  {cache : MaptblCache} {st : MapState} {c c' c₁ c₂ c₃ : Creation} {src src' : CommitSource}
  {payload : PayloadSource}

def CommitSource.SameBackups (src src' : CommitSource) : Prop :=
  src'.blkbmapBackup = src.blkbmapBackup ∧ src'.blk2offBackup = src.blk2offBackup

theorem CommitSource.SameBackups.trans {src'' : CommitSource} (h : src.SameBackups src')
    (h' : src'.SameBackups src'') : src.SameBackups src'' :=
  ⟨h'.1.trans h.1, h'.2.trans h.2⟩

theorem CommitSource.SameBackups.overrun_iff (h : src.SameBackups src') :
    BlksOverrun layout logOptions src' payload ↔ BlksOverrun layout logOptions src payload := by
  have hsize : tableLogSize layout src' (payload.validBlks layout) =
      tableLogSize layout src (payload.validBlks layout) := by
    funext k
    cases k <;> simp only [tableLogSize, h.1, h.2]
  constructor
  · exact fun ho => ⟨ho.overrun, ho.accepted, ho.compression, ho.counted, hsize ▸ ho.log_le⟩
  · exact fun ho => ⟨ho.overrun, ho.accepted, ho.compression, ho.counted, hsize.symm ▸ ho.log_le⟩

theorem snapMkfsDefineLayout_backups (h : c.snapMkfsDefineLayout layout = .ok c') :
    c.src.SameBackups c'.src := by
  obtain ⟨-, h⟩ := failIf_bind_eq_ok.1 h
  obtain ⟨-, h⟩ := failIf_bind_eq_ok.1 h
  obtain ⟨-, h⟩ := failIf_bind_eq_ok.1 h
  obtain ⟨_, -, h⟩ := Checked.bind_eq_ok.1 h
  cases h
  exact ⟨rfl, rfl⟩

theorem layoutSbSeg_backups {start i j : Nat} {st st' : Creation × Nat}
    (h : layoutSbSeg layout start i j st = .ok st') : st.1.src.SameBackups st'.1.src := by
  unfold layoutSbSeg at h
  split at h
  · cases h
    exact ⟨rfl, rfl⟩
  · obtain ⟨_, -, h⟩ := Checked.bind_eq_ok.1 h
    obtain ⟨_, -, h⟩ := Checked.bind_eq_ok.1 h
    cases h
    exact ⟨rfl, rfl⟩

theorem sbMkfsDefineLayout_backups (h : c.sbMkfsDefineLayout layout = .ok c') :
    c.src.SameBackups c'.src := by
  obtain ⟨-, h⟩ := failIf_bind_eq_ok.1 h
  obtain ⟨-, h⟩ := failIf_bind_eq_ok.1 h
  obtain ⟨-, h⟩ := failIf_bind_eq_ok.1 h
  obtain ⟨⟨c₁, blks⟩, hloop, h⟩ := Checked.bind_eq_ok.1 h
  obtain ⟨_, -, h⟩ := Checked.bind_eq_ok.1 h
  cases h
  exact Checked.forRange_ind (fun _ (u : Creation × Nat) => c.src.SameBackups u.1.src) hloop ⟨rfl, rfl⟩
    fun i _ u u' hu hpair => Checked.forRange_ind (fun _ (v : Creation × Nat) =>
      c.src.SameBackups v.1.src) hpair hu fun j _ v v' hv hseg => hv.trans (layoutSbSeg_backups hseg)

theorem segbmapMkfsDefineLayout_backups (h : c.segbmapMkfsDefineLayout crc32 libs layout logOptions fuel g
    segbmapBuffers = .ok c') : c.src.SameBackups c'.src := by
  obtain ⟨_, hloop, h⟩ := Checked.bind_eq_ok.1 h
  obtain ⟨_, -, h⟩ := Checked.bind_eq_ok.1 h
  cases h
  obtain ⟨-, hloop⟩ := failIf_bind_eq_ok.1 hloop
  obtain ⟨-, hloop⟩ := failIf_bind_eq_ok.1 hloop
  obtain ⟨-, hloop⟩ := failIf_bind_eq_ok.1 hloop
  obtain ⟨_, -, hloop⟩ := Checked.bind_eq_ok.1 hloop
  cases hloop
  exact ⟨rfl, rfl⟩

theorem mkfsReserveSegs_maptbl
    (h : mkfsReserveSegs sectorsPerZone fuel requested options = .ok (layout, g, buffers, a))
    (hsizes : layout.SizesAccepted) :
    (∃ k, (maptblPayload layout).Sound layout k) ∧ layout.pebsPerSeg ∣ layout.maptbl.maptblPebs := by
  obtain ⟨layout₁, -, h⟩ := Checked.bind_eq_ok.1 h
  obtain ⟨⟨layout₂, g, a₀⟩, halloc, h⟩ := Checked.bind_eq_ok.1 h
  obtain ⟨⟨g', b⟩, -, halloc⟩ := Checked.bind_eq_ok.1 halloc
  obtain ⟨-, halloc⟩ := failIf_bind_eq_ok.1 halloc
  obtain ⟨⟨layout₃, a₁, m⟩, hmaptbl, halloc⟩ := Checked.bind_eq_ok.1 halloc
  obtain ⟨-, halloc⟩ := failIf_bind_eq_ok.1 halloc
  obtain ⟨-, halloc⟩ := failIf_bind_eq_ok.1 halloc
  cases halloc
  obtain ⟨_, -, h⟩ := Checked.bind_eq_ok.1 h
  obtain ⟨_, -, h⟩ := Checked.bind_eq_ok.1 h
  obtain ⟨_, -, h⟩ := Checked.bind_eq_ok.1 h
  obtain ⟨_, -, h⟩ := Checked.bind_eq_ok.1 h
  obtain ⟨_, -, h⟩ := Checked.bind_eq_ok.1 h
  cases h
  exact ⟨maptblPayload_sound hmaptbl hsizes, maptblPebs_dvd hmaptbl⟩

structure BeforeTables (layout : VolumeLayout) (g : SegbmapGeometry) (b m : Nat) (a₀ : SegsArray)
    (c : Creation) : Prop where
  ready : ReadyToLayOut layout g b m a₀
  sizes : layout.SizesAccepted
  maptbl_pos : 0 < m
  segbmap : SegbmapChosen layout g b
  laying : Laying a₀ c.a c.src.calculatedOpenZones
  rest : Outside 0 7 a₀ c.a

namespace BeforeTables

variable (h : BeforeTables layout g b m a₀ c)

include h

theorem segbmapReady : TableReady layout (segbmapPayload g) .segbmap .segbmap 1 7 b a₀ c where
  sound := h.segbmap.payload_sound
  pebs_lt := h.ready.segbmapPebs
  blks_le := Nat.le_trans (Nat.mul_le_mul_right _ h.segbmap.pebsPerSeg_le) h.sizes.blks_le
  buffers := Nat.le_mul_of_pos_left _ h.segbmap.segs_pos
  pageSize := rfl
  zoned := by decide
  laying := h.laying
  place := by
    rw [h.laying.array]
    exact h.ready.places .segbmap
  fresh := (h.ready.fresh .segbmap).congr h.rest (.inr (Nat.le_refl 7))
  segs_pos := by
    have hpos := h.segbmap.segs_pos
    have hsegs := h.segbmap.segs_eq
    split at hsegs <;> omega
  capacity := by
    rw [h.laying.array]
    exact Nat.le_trans (Nat.le_add_right _ m) (Nat.le_of_eq h.ready.capacity.symm)
  pebsCapacity i := (h.laying.segs i).2.2.trans (h.ready.pebsCapacity i)
  pebs_le := h.segbmap.pebsPerSeg_le

theorem segsCount_le : b ≤ segbmapSegsMax * 2 := by
  have hle := h.segbmap.segs_le
  have hsegs := h.segbmap.segs_eq
  split at hsegs <;> omega

theorem segbmapLaid
    (hrun : c.segbmapMkfsDefineLayout crc32 libs layout logOptions fuel g segbmapBuffers = .ok c') :
    Laying a₀ c'.a c'.src.calculatedOpenZones ∧ Outside 7 (7 + b) c.a c'.a ∧
      c'.a.metaArray = a₀.metaArray := by
  obtain ⟨⟨c₅, blks⟩, hwalk, hrun⟩ := Checked.bind_eq_ok.1 hrun
  obtain ⟨_, -, hrun⟩ := Checked.bind_eq_ok.1 hrun
  cases hrun
  have hsegbmap := h.segbmapReady
  obtain ⟨hlaying, hout, -⟩ := metaMkfsDefineLayout_laying (by decide) hsegbmap.pebs_lt hsegbmap.laying
    hsegbmap.place hsegbmap.fresh hwalk
  have hmeta : c₅.a.metaArray = a₀.metaArray := by rw [hlaying.array]
  exact ⟨hlaying, hout, hmeta⟩

theorem maptblReady {k : Nat} (hsound : (maptblPayload layout).Sound layout k)
    (hdvd : layout.pebsPerSeg ∣ layout.maptbl.maptblPebs) (hcounted : m ≤ maptblSegsMax layout)
    (hrun : c.segbmapMkfsDefineLayout crc32 libs layout logOptions fuel g segbmapBuffers = .ok c') :
    TableReady layout (maptblPayload layout) .pebMappingTable .maptbl k (7 + b) m a₀ c' := by
  obtain ⟨hlaying, hout, hmeta⟩ := h.segbmapLaid hrun
  have hpps := hsound.pebs_pos
  have hpos := h.maptbl_pos
  exact
    { sound := hsound
      pebs_lt := h.ready.pebsPerSeg
      blks_le := h.sizes.blks_le
      buffers := by
        refine Nat.le_of_dvd (Nat.pos_of_ne_zero fun hzero : layout.maptbl.maptblPebs = 0 => ?_) hdvd
        have hnone : maptblSegsMax layout = 0 := by
          have hlt : layout.pebsPerSeg < 65536 := h.ready.pebsPerSeg
          have hpos : 0 < layout.pebsPerSeg := hpps
          unfold maptblSegsMax
          rw [hzero, Nat.zero_add, Word.u32_of_lt (by omega)]
          exact Nat.div_eq_of_lt (by omega)
        omega
      pageSize := rfl
      zoned := by decide
      laying := hlaying
      place := by
        rw [hmeta]
        exact h.ready.places .pebMappingTable
      fresh := ((h.ready.fresh .pebMappingTable).congr h.rest (.inr (by simp [metaRange]))).congr hout
        (.inr (Nat.le_refl _))
      segs_pos := hpos
      capacity := by
        rw [hlaying.array]
        exact Nat.le_of_eq h.ready.capacity.symm
      pebsCapacity := fun i => (hlaying.segs i).2.2.trans (h.ready.pebsCapacity i)
      pebs_le := Nat.le_refl _ }

end BeforeTables

theorem SegsReserved.beforeTables (h : SegsReserved options layout g b m buffers a)
    (hvalidate : segbmapMkfsValidate layout g (buffers 0) a = .ok (buf, a'))
    (hmap : mapAllocatedLebs2pebs layout ⟨t, cache, a'⟩ = .ok st) (hsegs : c.a = st.segs)
    (hcounter : c.src.calculatedOpenZones = 0) (hsnap : c.snapMkfsDefineLayout layout = .ok c₁)
    (hsb : c₁.sbMkfsDefineLayout layout = .ok c₂) : BeforeTables layout g b m c.a c₂ := by
  have hready := h.readyToLayOut ((h.numbered hvalidate).2.keepsLogs.trans
    (mapAllocatedLebs2pebs_keepsLogs hmap))
  rw [← hsegs] at hready
  have hstart := hready.laying
  rw [← hcounter] at hstart
  obtain ⟨h₁, hout₁, -⟩ := snapMkfsDefineLayout_laying hstart (hready.fresh .initialSnapshot)
    (hready.places .initialSnapshot).1 hsnap
  obtain ⟨h₂, hout₂, -⟩ := sbMkfsDefineLayout_laying h₁
    ((hready.fresh .superblock).congr hout₁ (.inr (Nat.le_refl 1)))
    (by rw [h₁.array]; exact (hready.places .superblock).1) hsb
  exact
    { ready := hready
      sizes := h.corrected.sizes
      maptbl_pos := h.maptbl_pos
      segbmap := h.segbmap
      laying := h₂
      rest := fun k hk => (hout₂ k (by omega)).trans (hout₁ k (by omega)) }

/-- No PEB's blocks are marked behind the bitmap's end exactly when the blocks of all PEBs of a segment
fit into one PEB, or something stops the loops in the first PEB. -/
theorem blkAreas_inside_iff (hsizes : options.SizesAccepted) (hindex : options.lebsPerPebIndex = 1)
    (hreserve : mkfsReserveSegs sectorsPerZone fuel requested options = .ok (layout, g, buffers, a))
    (hvalidate : segbmapMkfsValidate layout g (buffers 0) a = .ok (buf, a'))
    (hmap : mapAllocatedLebs2pebs layout ⟨t, cache, a'⟩ = .ok st) (hsegs : c.a = st.segs)
    (hcounter : c.src.calculatedOpenZones = 0) (hsnap : c.snapMkfsDefineLayout layout = .ok c₁)
    (hsb : c₁.sbMkfsDefineLayout layout = .ok c₂) :
    (MarksInside crc32 libs layout logOptions (segbmapPayload g) .segbmap .segbmap (segbmapSegsMax * 2)
        segbmapBuffers c₂ ↔ ¬BlksOverrun layout logOptions c.src (segbmapPayload g)) ∧
      ∀ c₃, c₂.segbmapMkfsDefineLayout crc32 libs layout logOptions layoutFuel g segbmapBuffers = .ok c₃ →
        (MarksInside crc32 libs layout logOptions (maptblPayload layout) .pebMappingTable .maptbl
            (maptblSegsMax layout) maptblBuffers c₃ ↔
          ((a'.metaArray .pebMappingTable).segsCount ≤ maptblSegsMax layout →
            ¬BlksOverrun layout logOptions c.src (maptblPayload layout))) := by
  obtain ⟨b, m, hreserved⟩ := mkfsReserveSegs_run hsizes hindex hreserve
  obtain ⟨⟨k, hsound⟩, hdvd⟩ := mkfsReserveSegs_maptbl hreserve hreserved.corrected.sizes
  have hbefore := hreserved.beforeTables hvalidate hmap hsegs hcounter hsnap hsb
  have hsame := (snapMkfsDefineLayout_backups hsnap).trans (sbMkfsDefineLayout_backups hsb)
  constructor
  · rw [hbefore.segbmapReady.marksInside_iff hbefore.segsCount_le, hsame.overrun_iff]
  · intro c₃ hsegbmap
    have hm : (a'.metaArray .pebMappingTable).segsCount = m := by
      rw [(hreserved.numbered hvalidate).2.metaArray]
      exact (hreserved.places .pebMappingTable).2
    rw [hm]
    by_cases hcounted : m ≤ maptblSegsMax layout
    · have hmaptbl := hbefore.maptblReady hsound hdvd hcounted hsegbmap
      rw [hmaptbl.marksInside_iff hcounted,
        (hsame.trans (segbmapMkfsDefineLayout_backups hsegbmap)).overrun_iff]
      exact ⟨fun hno _ => hno, fun hno => hno hcounted⟩
    · refine iff_of_true (fun i j u hcomes => absurd ?_ hcounted) fun hle => absurd hle hcounted
      have hle := hcomes.counted
      rw [(hbefore.segbmapLaid hsegbmap).2.2, (hbefore.ready.places _).2] at hle
      exact hle

end

instance {layout : VolumeLayout} {options : LogOptions} {src : CommitSource} {payload : PayloadSource} :
    Decidable (BlksOverrun layout options src payload) :=
  decidable_of_iff
    (layout.pagesPerPeb < min payload.pebsPerSeg payload.fragmentsCount * payload.validBlks layout ∧
      payload.validBlks layout ≤ layout.pagesPerPeb ∧ options.compression ≠ .unknown ∧
      payload.pebsPerSeg * payload.validBlks layout ≤ offDescPerFragment ∧
      logBytesCount layout.pageSize.bytes (tableLogSize layout src (payload.validBlks layout)) ≤
        layout.env.eraseSize.toNat)
    ⟨fun h => ⟨h.1, h.2.1, h.2.2.1, h.2.2.2.1, h.2.2.2.2⟩,
      fun h => ⟨h.overrun, h.accepted, h.compression, h.counted, h.log_le⟩⟩

/-- No compression, and nothing asked about the length of the logs. -/
def plainLogs : LogOptions := ⟨.uncompressed, 0xFFFF, 0xFFFF, 1, 1⟩

structure TablesReached (options layout : VolumeLayout) (g : SegbmapGeometry) (a' : SegsArray)
    (segbmapBuffers : Nat → Buf) (c₂ c₃ : Creation) : Prop where
  run : ∃ buffers a buf t cache st, ∃ c c₁ : Creation,
    mkfsReserveSegs none 5 1 options = .ok (layout, g, buffers, a) ∧
    segbmapMkfsValidate layout g (buffers 0) a = .ok (buf, a') ∧
    mapAllocatedLebs2pebs layout ⟨t, cache, a'⟩ = .ok st ∧ c.a = st.segs ∧
    c.src.calculatedOpenZones = 0 ∧ commit32.SameBackups c.src ∧
    c.snapMkfsDefineLayout layout = .ok c₁ ∧ c₁.sbMkfsDefineLayout layout = .ok c₂
  segbmap : c₂.segbmapMkfsDefineLayout crc32 noLibs layout plainLogs 20 g segbmapBuffers = .ok c₃

def reachTables (options : VolumeLayout) :
    Mkfs (VolumeLayout × SegbmapGeometry × SegsArray × (Nat → Buf) × Creation × Creation) := do
  let (layout, g, buffers, a) ← mkfsReserveSegs none 5 1 options
  let (buf, a) ← segbmapMkfsValidate layout g (buffers 0) a
  let (_, tables) ← maptblMkfsPrepare layout (emptySegs layout 0)
  let cache ← maptblCacheMkfsPrepare layout.pageSize a
  let st ← mapAllocatedLebs2pebs layout ⟨tables, cache, a⟩
  let c : Creation :=
    ⟨st.segs, { commit32 with cache := st.cache }, ⟨⟨0xFFFF, 1, .uncompressed⟩, 0, ⟨0, 0, 0⟩⟩⟩
  let c ← c.snapMkfsDefineLayout layout
  let c ← c.sbMkfsDefineLayout layout
  let c' ← c.segbmapMkfsDefineLayout crc32 noLibs layout plainLogs 20 g (Function.update buffers 0 buf)
  .ok (layout, g, a, Function.update buffers 0 buf, c, c')

theorem reachTables_ok {options layout : VolumeLayout} {g : SegbmapGeometry} {a : SegsArray}
    {buffers : Nat → Buf} {c₂ c₃ : Creation}
    (h : reachTables options = .ok (layout, g, a, buffers, c₂, c₃)) :
    TablesReached options layout g a buffers c₂ c₃ := by
  obtain ⟨⟨layout₁, g₁, buffers₁, a₁⟩, hreserve, h⟩ := Checked.bind_eq_ok.1 h
  obtain ⟨⟨buf, a'⟩, hvalidate, h⟩ := Checked.bind_eq_ok.1 h
  obtain ⟨⟨_, t⟩, -, h⟩ := Checked.bind_eq_ok.1 h
  obtain ⟨cache, -, h⟩ := Checked.bind_eq_ok.1 h
  obtain ⟨st, hmap, h⟩ := Checked.bind_eq_ok.1 h
  obtain ⟨c₁, hsnap, h⟩ := Checked.bind_eq_ok.1 h
  obtain ⟨c, hsb, h⟩ := Checked.bind_eq_ok.1 h
  obtain ⟨c', hsegbmap, h⟩ := Checked.bind_eq_ok.1 h
  cases h
  exact ⟨⟨buffers₁, a₁, buf, t, cache, st, _, c₁, hreserve, hvalidate, hmap, rfl, rfl, ⟨rfl, rfl⟩, hsnap,
    hsb⟩, hsegbmap⟩

def overrunSummary (r : VolumeLayout × SegbmapGeometry × SegsArray × (Nat → Buf) × Creation × Creation) :
    Bool × Bool × Bool :=
  (BlksOverrun r.1 plainLogs commit32 (segbmapPayload r.2.1),
    BlksOverrun r.1 plainLogs commit32 (maptblPayload r.1),
    (r.2.2.1.metaArray .pebMappingTable).segsCount ≤ maptblSegsMax r.1)

theorem fourPebSegs_sizesAccepted : (sixteenPebSegs 524288).SizesAccepted where
  eraseSize_ge := show 512 ≤ 131072 by decide
  segSize_le := show 524288 ≤ 68719476736 by decide
  pebs := ⟨2, rfl⟩

/-- Four PEBs of a segment with three blocks each. -/
theorem blkAreas_inside_4 : ∃ layout g a buffers c₂ c₃,
    TablesReached (sixteenPebSegs 524288) layout g a buffers c₂ c₃ ∧
      MarksInside crc32 noLibs layout plainLogs (segbmapPayload g) .segbmap .segbmap (segbmapSegsMax * 2)
        buffers c₂ ∧
      MarksInside crc32 noLibs layout plainLogs (maptblPayload layout) .pebMappingTable .maptbl
        (maptblSegsMax layout) (fun _ => tablePages layout) c₃ := by
  obtain ⟨⟨layout, g, a, buffers, c₂, c₃⟩, hreach, hsummary⟩ := Checked.exists_of_map
    (show (reachTables (sixteenPebSegs 524288)).map overrunSummary = .ok (false, false, true) by
      decide +kernel)
  simp only [overrunSummary, Prod.mk.injEq, decide_eq_true_eq, decide_eq_false_iff_not] at hsummary
  have hreached := reachTables_ok hreach
  obtain ⟨buffers₀, a₀, buf, t, cache, st, c, c₁, hreserve, hvalidate, hmap, hsegs, hcounter, hsame, hsnap,
    hsb⟩ := hreached.run
  have hiff := @blkAreas_inside_iff crc32 noLibs _ layout plainLogs g none 5 20 1 buffers₀ buffers
    (fun _ => tablePages layout) a₀ a buf t cache st c c₁ c₂
    fourPebSegs_sizesAccepted rfl hreserve hvalidate hmap hsegs hcounter
    hsnap hsb
  exact ⟨layout, g, a, buffers, c₂, c₃, hreached, hiff.1.2 (hsame.overrun_iff.not.2 hsummary.1),
    (hiff.2 c₃ hreached.segbmap).2 fun _ => hsame.overrun_iff.not.2 hsummary.2.1⟩

def eightPebSegs : VolumeLayout := { sixteenPebSegs 1048576 with pageSize := .kib8 }

theorem eightPebSegs_sizesAccepted : eightPebSegs.SizesAccepted where
  eraseSize_ge := show 512 ≤ 131072 by decide
  segSize_le := show 1048576 ≤ 68719476736 by decide
  pebs := ⟨3, rfl⟩

/-- Eight PEBs of a segment with three blocks each, in bitmaps of 16 blocks. -/
theorem blkAreas_outside_8 : ∃ layout g a buffers c₂ c₃,
    TablesReached eightPebSegs layout g a buffers c₂ c₃ ∧
      ¬MarksInside crc32 noLibs layout plainLogs (maptblPayload layout) .pebMappingTable .maptbl
        (maptblSegsMax layout) (fun _ => tablePages layout) c₃ := by
  obtain ⟨⟨layout, g, a, buffers, c₂, c₃⟩, hreach, hsummary⟩ := Checked.exists_of_map
    (show (reachTables eightPebSegs).map overrunSummary = .ok (false, true, true) by
      decide +kernel)
  simp only [overrunSummary, Prod.mk.injEq, decide_eq_true_eq, decide_eq_false_iff_not] at hsummary
  have hreached := reachTables_ok hreach
  obtain ⟨buffers₀, a₀, buf, t, cache, st, c, c₁, hreserve, hvalidate, hmap, hsegs, hcounter, hsame, hsnap,
    hsb⟩ := hreached.run
  obtain ⟨b, m, hreserved⟩ := mkfsReserveSegs_run eightPebSegs_sizesAccepted rfl hreserve
  obtain ⟨⟨k, hsound⟩, hdvd⟩ := mkfsReserveSegs_maptbl hreserve hreserved.corrected.sizes
  have hbefore := hreserved.beforeTables hvalidate hmap hsegs hcounter hsnap hsb
  have hm : (a.metaArray .pebMappingTable).segsCount = m := by
    rw [(hreserved.numbered hvalidate).2.metaArray]
    exact (hreserved.places .pebMappingTable).2
  have hcounted : m ≤ maptblSegsMax layout := hm ▸ hsummary.2.2
  have hbackups := (hsame.trans ((snapMkfsDefineLayout_backups hsnap).trans
    (sbMkfsDefineLayout_backups hsb))).trans (segbmapMkfsDefineLayout_backups hreached.segbmap)
  refine ⟨layout, g, a, buffers, c₂, c₃, hreached, fun hinside => ?_⟩
  exact ((hbefore.maptblReady hsound hdvd hcounted hreached.segbmap).marksInside_iff hcounted).1 hinside
    (hbackups.overrun_iff.2 hsummary.2.1)

end Ssdfs
