import Ssdfs.HandOut.Segbmap

namespace Ssdfs

/-- `segs i j` is the segment `i` of the main chain, for `j = 0`, or of its copy. -/
structure SegbmapSbHeader where
  fragmentsCount : Nat
  fragmentsPerSeg : Nat
  fragmentsPerPeb : Nat
  fragmentSize : Nat
  bytesCount : Nat
  hasCopy : Bool
  segsCount : Nat
  segs : Nat → Nat → Nat

section

variable (layout : VolumeLayout) (g : SegbmapGeometry) (a : SegsArray)

def segbmapReplication : Nat := if layout.segbmap.hasBackupCopy then 2 else 1

/-- The next reserved segment becomes segment `i` of chain `j`. -/
def assignChainSeg (i j : Nat) (st : (Nat → Nat → Nat) × Nat) : Mkfs ((Nat → Nat → Nat) × Nat) := do
  let (segs, segIndex) := st
  let desc := a.segs segIndex
  failIf (desc.segType ≠ some .segbmap) .erange
  .ok (Function.update segs i (Function.update (segs i) j desc.segId), segIndex + 1)

def initSegbmapSbHeader : Mkfs SegbmapSbHeader := do
  bugOn (g.fragmentsCount ≥ ushrtMax)
  let fragmentsPerSeg := Word.u32 (g.fragmentsPerPeb * g.pebsPerSeg)
  bugOn (fragmentsPerSeg ≥ ushrtMax)
  bugOn (g.fragmentSize ≥ ushrtMax)
  bugOn (g.segsPerChain > segbmapSegsMax)
  let (segs, _) ← Checked.forRange g.segsPerChain
    (fun i => Checked.forRange (segbmapReplication layout) (assignChainSeg a i))
    ((fun _ _ => Word.u64Max), (a.metaArray .segbmap).startSegIndex)
  .ok
    { fragmentsCount := g.fragmentsCount
      fragmentsPerSeg
      fragmentsPerPeb := Word.u16 g.fragmentsPerPeb
      fragmentSize := pageCacheSize
      bytesCount := Word.u32 g.bmapBytes
      hasCopy := layout.segbmap.hasBackupCopy
      segsCount := g.segsPerChain
      segs }

end

section

variable {options layout layout' : VolumeLayout} {g : SegbmapGeometry} {a a' : SegsArray}
  {fuel b m zones i j k : Nat} {requested : UInt16} {buf : Buf} {buffers buffers' : Nat → Buf}
  {hdr : SegbmapSbHeader} {st : HandOut} {sectorsPerZone : Option UInt32}

/-- The segments of chain places before `k`, counted through the copies. -/
def ChainTo (a : SegsArray) (start copies k : Nat) (st : (Nat → Nat → Nat) × Nat) : Prop :=
  st.2 = start + k ∧ ∀ i j, j < copies → i * copies + j < k →
    st.1 i j = (a.segs (start + (i * copies + j))).segId

theorem ChainTo.step {copies : Nat} {start : Nat} {st st' : (Nat → Nat → Nat) × Nat}
    (h : ChainTo a start copies (i * copies + j) st) (hj : j < copies)
    (hstep : assignChainSeg a i j st = .ok st') :
    ChainTo a start copies (i * copies + (j + 1)) st' := by
  obtain ⟨hindex, hsegs⟩ := h
  obtain ⟨-, hstep⟩ := failIf_bind_eq_ok.1 hstep
  cases hstep
  refine ⟨by simp only [hindex, Nat.add_assoc], fun i' j' hj' hlt => ?_⟩
  simp only [Function.update_apply]
  by_cases hnew : i' * copies + j' = i * copies + j
  · obtain ⟨hi, hj''⟩ := (@place_eq_iff copies i' j' _ hj').2 hnew
    obtain ⟨hi', hj'''⟩ := (@place_eq_iff copies i j _ hj).2 rfl
    obtain rfl : i' = i := hi.trans hi'.symm
    obtain rfl : j' = j := hj''.trans hj'''.symm
    rw [if_pos rfl, Function.update_self, hindex]
  · have hold := hsegs i' j' hj' (by omega)
    split
    case isTrue heq =>
      subst heq
      rw [Function.update_of_ne (fun hj => hnew (by rw [hj])), hold]
    case isFalse => exact hold

theorem initSegbmapSbHeader_ok (h : initSegbmapSbHeader layout g a = .ok hdr) :
    hdr.fragmentsPerSeg = Word.u32 (g.fragmentsPerPeb * g.pebsPerSeg) ∧
      ∀ i < g.segsPerChain, ∀ j < segbmapReplication layout, hdr.segs i j =
        (a.segs ((a.metaArray .segbmap).startSegIndex + (i * segbmapReplication layout + j))).segId := by
  obtain ⟨-, h⟩ := bugOn_bind_eq_ok.1 h
  obtain ⟨-, h⟩ := bugOn_bind_eq_ok.1 h
  obtain ⟨-, h⟩ := bugOn_bind_eq_ok.1 h
  obtain ⟨-, h⟩ := bugOn_bind_eq_ok.1 h
  obtain ⟨⟨segs, index⟩, hloop, h⟩ := Checked.bind_eq_ok.1 h
  cases h
  generalize segbmapReplication layout = copies at *
  generalize (a.metaArray .segbmap).startSegIndex = start at *
  refine ⟨rfl, ?_⟩
  have hchain : ChainTo a start copies (g.segsPerChain * copies) (segs, index) := by
    refine Checked.forRange_ind (fun i => ChainTo a start copies (i * copies)) hloop
      ⟨by rw [Nat.zero_mul]; rfl, fun i j hj hlt => by omega⟩ ?_
    intro i _ t t' ht hrow
    rw [Nat.succ_mul]
    exact Checked.forRange_ind (fun j => ChainTo a start copies (i * copies + j)) hrow ht
      fun j hj u u' hu hstep => hu.step hj hstep
  intro i hi j hj
  refine hchain.2 i j hj ?_
  have hmul := Nat.mul_le_mul_right copies (Nat.succ_le_of_lt hi)
  rw [Nat.succ_mul] at hmul
  omega

theorem initSegbmapSbHeader_exists (hF : g.fragmentsCount < 65535)
    (hperSeg : g.fragmentsPerPeb * g.pebsPerSeg < 65535) (hsize : g.fragmentSize < 65535)
    (hsegs : g.segsPerChain ≤ segbmapSegsMax)
    (htypes : ∀ k < g.segsPerChain * segbmapReplication layout,
      (a.segs ((a.metaArray .segbmap).startSegIndex + k)).segType = some .segbmap) :
    ∃ hdr, initSegbmapSbHeader layout g a = .ok hdr := by
  have hperSeg' : Word.u32 (g.fragmentsPerPeb * g.pebsPerSeg) < ushrtMax :=
    Nat.lt_of_le_of_lt (Word.u32_le _) hperSeg
  unfold initSegbmapSbHeader
  simp only
  rw [bugOn_of_not (show ¬g.fragmentsCount ≥ ushrtMax from Nat.not_le.2 hF), Checked.ok_bind,
    bugOn_of_not (Nat.not_le.2 hperSeg'), Checked.ok_bind,
    bugOn_of_not (show ¬g.fragmentSize ≥ ushrtMax from Nat.not_le.2 hsize), Checked.ok_bind,
    bugOn_of_not (Nat.not_lt.2 hsegs), Checked.ok_bind]
  generalize segbmapReplication layout = copies at *
  generalize (a.metaArray .segbmap).startSegIndex = start at *
  have hchain : ∃ r, Checked.forRange g.segsPerChain
      (fun i => Checked.forRange copies (assignChainSeg a i)) ((fun _ _ => Word.u64Max), start) =
        .ok r ∧ ChainTo a start copies (g.segsPerChain * copies) r := by
    refine Checked.forRange_ok (fun i => ChainTo a start copies (i * copies))
      ⟨by rw [Nat.zero_mul]; rfl, fun i j hj hlt => by omega⟩ ?_
    intro i hi t ht
    have hmul := Nat.mul_le_mul_right copies (Nat.succ_le_of_lt hi)
    rw [Nat.succ_mul] at hmul
    rw [Nat.succ_mul]
    refine Checked.forRange_ok (fun j => ChainTo a start copies (i * copies + j)) ht ?_
    intro j hj u hu
    have htype := htypes (i * copies + j) (by omega)
    rw [← hu.1] at htype
    have hstep : assignChainSeg a i j u = .ok (Function.update u.1 i
        (Function.update (u.1 i) j (a.segs u.2).segId), u.2 + 1) := by
      unfold assignChainSeg
      simp only
      rw [failIf_of_not (not_not.2 htype), Checked.ok_bind]
    exact ⟨_, hstep, hu.step hj hstep⟩
  obtain ⟨r, hr, -⟩ := hchain
  rw [hr]
  exact ⟨_, rfl⟩

/-- The segment with number `segId` has fragment `f` at a position of its payload. -/
def SegmentHolds (layout : VolumeLayout) (g : SegbmapGeometry) (a : SegsArray) (segId f position : Nat) :
    Prop :=
  ∃ i < a.segsCapacity, (a.segs i).segId = segId ∧
    ∃ data, a.payload (i, position / g.fragmentsPerPeb) = some data ∧
      ∃ fragment, segbmapPrepareFragment layout g f = .ok fragment ∧
        SegbmapFragmentHeader.wire.read data (position % g.fragmentsPerPeb * g.fragmentSize) =
          fragment.hdr ∧ fragment.hdr.sequenceId.toNat = f

/-- The description leads to every fragment, in the main chain and in its copy. -/
def LeadsToFragments (layout : VolumeLayout) (g : SegbmapGeometry) (a : SegsArray)
    (hdr : SegbmapSbHeader) : Prop :=
  ∀ f < g.fragmentsCount, ∀ j < segbmapReplication layout, SegmentHolds layout g a
    (hdr.segs (f / hdr.fragmentsPerSeg) j) f (f % hdr.fragmentsPerSeg)

theorem segbmapPrepareFragment_sequence {f : SegbmapFragment} (hF : g.fragmentsCount < 65535)
    (h : segbmapPrepareFragment layout g i = .ok f) :
    f.hdr.sequenceId.toNat = i ∧ f.hdr.magic = segbmapHdrMagic := by
  obtain ⟨hi, h⟩ := failIf_bind_eq_ok.1 h
  obtain ⟨-, h⟩ := quot_bind_eq_ok.1 h
  obtain ⟨-, h⟩ := quot_bind_eq_ok.1 h
  obtain ⟨-, h⟩ := quot_bind_eq_ok.1 h
  obtain ⟨_, -, h⟩ := Checked.bind_eq_ok.1 h
  obtain ⟨-, h⟩ := failIf_bind_eq_ok.1 h
  rw [segbmapPayloadBytesPerFragment_page, Checked.ok_bind] at h
  obtain ⟨-, h⟩ := bugOn_bind_eq_ok.1 h
  rw [segbmapItemsPerFragment_page, Checked.ok_bind] at h
  obtain ⟨-, h⟩ := bugOn_bind_eq_ok.1 h
  cases h
  exact ⟨UInt16.toNat_ofNat_of_lt' (show i < 65536 by omega), rfl⟩

theorem Prepared.numbered (hchosen : SegbmapChosen layout g b)
    (h : Prepared layout g g.fragmentsCount buffers) (hbuf : Reserved layout g k buf) {f : Nat}
    (hf : f < g.fragmentsCount) : ∃ fragment, segbmapPrepareFragment layout g f = .ok fragment ∧
      SegbmapFragmentHeader.wire.read
        (Function.update buffers 0 buf (f / g.fragmentsPerPeb)).data
        (f % g.fragmentsPerPeb * g.fragmentSize) = fragment.hdr := by
  rcases Nat.lt_or_ge f g.fragmentsPerPeb with hlt | hge
  · rw [Nat.div_eq_of_lt hlt, Nat.mod_eq_of_lt hlt, Function.update_self]
    exact hbuf.header f hlt
  · have hne : f / g.fragmentsPerPeb ≠ 0 :=
      Nat.pos_iff_ne_zero.1 (Nat.div_pos hge hchosen.fragmentsPerPeb_pos)
    rw [Function.update_of_ne hne]
    exact h.header f hf

theorem SegbmapFragmentHeader.magic_read_zero {d : Memory.Bytes} {off : Nat}
    (h : ∀ i < 32, d (off + i) = 0) : (SegbmapFragmentHeader.wire.read d off).magic = 0 := by
  have hread : SegbmapFragmentHeader.wire.read d off =
      SegbmapFragmentHeader.wire.read (fun _ => 0) 0 := SegbmapFragmentHeader.wire.read_congr h
  rw [hread]
  rfl

namespace SegsReserved

theorem paid (h : SegsReserved options layout g b m buffers a)
    (hnumbered : Numbered layout a a.segsCapacity a') (hzones : zones < 4294967296)
    (hrun : segbmapHandOut layout g (segbmapBefore a' buffers' zones) = .ok st) :
    (segbmapPayload g).visited b ≤ g.buffersCount ∧
      HandedOut (segbmapPayload g) 7 (segbmapBefore a' buffers' zones)
        ((segbmapPayload g).visited b) st := by
  have hready : HandOutReady layout (segbmapPayload g) (a'.metaArray .segbmap)
      (segbmapBefore a' buffers' zones) := h.ready hnumbered hzones
  have hplace := h.places .segbmap
  rw [← hnumbered.metaArray] at hplace
  have hstart : (a'.metaArray .segbmap).startSegIndex = 7 := hplace.1
  have hsegs : (a'.metaArray .segbmap).segsCount = b := hplace.2
  rw [h.segbmapHandOut_eq hnumbered] at hrun
  have hle : (segbmapPayload g).visited b ≤ g.buffersCount := by
    by_contra hlt
    exact hready.not_run (hsegs.symm ▸ Nat.not_le.1 hlt) hrun
  obtain ⟨st', hrun', hpaid⟩ := hready.run (hsegs.symm ▸ hle)
  cases hrun.symm.trans hrun'
  rw [hstart, hsegs] at hpaid
  exact ⟨hle, hpaid⟩

theorem segId_eq (_ : SegsReserved options layout g b m buffers a)
    (hnumbered : Numbered layout a a.segsCapacity a') (hi : i < a.segsCapacity) :
    (a'.segs i).segId = i :=
  (defineLebId_kept (hnumbered.numbered i hi).2).1

theorem init (h : SegsReserved options layout g b m buffers a)
    (hnumbered : Numbered layout a a.segsCapacity a')
    (hperSeg : g.fragmentsPerPeb * g.pebsPerSeg < 65535) :
    ∃ hdr, initSegbmapSbHeader layout g a' = .ok hdr := by
  have hcapacity := h.capacity
  have hsize := layout.pageSize.bytes_le
  have hcount : g.segsPerChain * segbmapReplication layout = b := by
    have hb := h.segbmap.segs_eq
    unfold segbmapReplication
    split at hb <;> split <;> simp_all
  refine initSegbmapSbHeader_exists (segBmapFragments_lt h.segbmap.fragments) hperSeg
    (by rw [h.segbmap.fragmentSize]; omega) h.segbmap.segs_le fun k hk => ?_
  have hstart : (a'.metaArray .segbmap).startSegIndex = 7 := by
    rw [hnumbered.metaArray]
    exact (h.places .segbmap).1
  rw [hcount] at hk
  have hi : 7 + k < a.segsCapacity := by omega
  rw [hstart, (defineLebId_ok (hnumbered.numbered _ hi).2).1]
  refine (h.types _ hi).trans (congrArg some ?_)
  unfold metaIndexOf
  rw [if_neg (by omega), if_neg (by omega), if_pos (by omega)]

theorem leads (h : SegsReserved options layout g b m buffers a)
    (hnumbered : Numbered layout a a.segsCapacity a') (hitems : Reserved layout g k buf)
    (hzones : zones < 4294967296) (hhdr : initSegbmapSbHeader layout g a' = .ok hdr)
    (hrun : segbmapHandOut layout g (segbmapBefore a' (Function.update buffers 0 buf) zones) = .ok st)
    (hcopy : layout.segbmap.hasBackupCopy = false) : LeadsToFragments layout g st.a hdr := by
  obtain ⟨hle, hpaid⟩ := h.paid hnumbered hzones hrun
  obtain ⟨hperSeg, hsegs⟩ := initSegbmapSbHeader_ok hhdr
  have hchosen := h.segbmap
  have hF := segBmapFragments_lt hchosen.fragments
  have hpps := hchosen.pebsPerSeg_pos
  have hb : b = g.segsPerChain := by
    rw [hchosen.segs_eq, if_neg (by rw [hcopy]; decide)]
  have hone : segbmapReplication layout = 1 := by
    unfold segbmapReplication
    rw [if_neg (by rw [hcopy]; decide)]
  have hmul := Nat.mul_lt_mul'' hchosen.fragmentsPerPeb_lt hchosen.pebsPerSeg_lt
  rw [Word.u32_of_lt (Nat.lt_of_lt_of_le hmul (by decide))] at hperSeg
  intro f hf j hj
  rw [hone] at hj hsegs
  obtain rfl : j = 0 := by omega
  obtain ⟨fragment, hprepared, hread⟩ := h.prepared.numbered hchosen hitems hf
  have hplaced := h.prepared.placed f hf
  have hseg : f / hdr.fragmentsPerSeg < g.segsPerChain := by
    rw [hperSeg, ← Nat.div_div_eq_div_mul]
    exact Nat.div_lt_of_lt_mul (Nat.mul_comm .. ▸ hplaced)
  have hcapacity := h.capacity
  have hstart : (a'.metaArray .segbmap).startSegIndex = 7 := by
    rw [hnumbered.metaArray]
    exact (h.places .segbmap).1
  have hpeb : f % hdr.fragmentsPerSeg / g.fragmentsPerPeb = f / g.fragmentsPerPeb % g.pebsPerSeg := by
    rw [hperSeg, Nat.mod_mul_right_div_self]
  have hslot : f % hdr.fragmentsPerSeg % g.fragmentsPerPeb = f % g.fragmentsPerPeb := by
    rw [hperSeg, Nat.mod_mul_right_mod]
  have hplace := Nat.div_add_mod' (f / g.fragmentsPerPeb) g.pebsPerSeg
  rw [hsegs _ hseg 0 hj, hstart, Nat.mul_one, Nat.add_zero]
  refine ⟨7 + f / hdr.fragmentsPerSeg, ?_, (hpaid.kept _).1, ?_⟩
  · rw [hpaid.array]
    change _ < a'.segsCapacity
    rw [hnumbered.capacity]
    omega
  · rw [hpeb, hslot]
    refine ⟨_, ?_, fragment, hprepared, hread, (segbmapPrepareFragment_sequence hF hprepared).1⟩
    have hvisited : f / g.fragmentsPerPeb / g.pebsPerSeg * g.pebsPerSeg +
        f / g.fragmentsPerPeb % g.pebsPerSeg < (segbmapPayload g).visited b := by
      rw [hplace, hb]
      exact Nat.lt_min.2 ⟨Nat.lt_of_le_of_lt (Nat.div_le_self _ _) hf, hplaced⟩
    have hpayload := hpaid.payload _ _ (Nat.mod_lt _ hpps) hvisited
    change _ = some (Function.update buffers 0 buf (f / g.fragmentsPerPeb / g.pebsPerSeg *
      g.pebsPerSeg + f / g.fragmentsPerPeb % g.pebsPerSeg)).data at hpayload
    rw [hplace] at hpayload
    rw [hperSeg, ← Nat.div_div_eq_div_mul]
    exact hpayload

theorem not_leads (h : SegsReserved options layout g b m buffers a)
    (hnumbered : Numbered layout a a.segsCapacity a') (hzones : zones < 4294967296)
    (hhdr : initSegbmapSbHeader layout g a' = .ok hdr)
    (hrun : segbmapHandOut layout g (segbmapBefore a' (Function.update buffers 0 buf) zones) = .ok st)
    (hcopy : layout.segbmap.hasBackupCopy = true) : ¬LeadsToFragments layout g st.a hdr := by
  intro hleads
  obtain ⟨hle, hpaid⟩ := h.paid hnumbered hzones hrun
  obtain ⟨-, hsegs⟩ := initSegbmapSbHeader_ok hhdr
  have hchosen := h.segbmap
  have hF := segBmapFragments_lt hchosen.fragments
  have hpps := hchosen.pebsPerSeg_pos
  have hfpp := hchosen.fragmentsPerPeb_pos
  have hq := hchosen.segs_pos
  have hb : b = g.segsPerChain * 2 := by
    rw [hchosen.segs_eq, if_pos hcopy]
  have hcapacity := h.capacity
  have htwo : segbmapReplication layout = 2 := if_pos hcopy
  obtain ⟨i, hi, hid, data, hpayload, fragment, hprepared, hread, -⟩ :=
    hleads 0 hchosen.fragments_pos 1 (by rw [htwo]; decide)
  have hstart : (a'.metaArray .segbmap).startSegIndex = 7 := by
    rw [hnumbered.metaArray]
    exact (h.places .segbmap).1
  rw [Nat.zero_div, hsegs 0 hq 1 (by rw [htwo]; decide), hstart, (hpaid.kept i).1] at hid
  have hi : i < a.segsCapacity := by
    rw [hpaid.array] at hi
    exact hnumbered.capacity ▸ hi
  -- The copy is the second one of the reserved segments.
  have hsame : ∀ n, 7 + (0 * n + 1) = 8 := fun n => by rw [Nat.zero_mul]
  rw [show (segbmapBefore a' (Function.update buffers 0 buf) zones).a = a' from rfl, hsame,
    h.segId_eq hnumbered hi, h.segId_eq hnumbered (by omega)] at hid
  subst hid
  have hplace : 1 * (segbmapPayload g).pebsPerSeg + 0 = g.pebsPerSeg := Nat.one_mul _
  rw [Nat.zero_mod, Nat.zero_div] at hpayload
  rw [Nat.zero_mod, Nat.zero_mod, Nat.zero_mul] at hread
  rcases Nat.lt_or_ge g.pebsPerSeg ((segbmapPayload g).visited b) with hlt | hge
  · have hpaid' := hpaid.payload 1 0 hpps (hplace.symm ▸ hlt)
    rw [hplace] at hpaid'
    change _ = some (Function.update buffers 0 buf g.pebsPerSeg).data at hpaid'
    rw [Function.update_of_ne (Nat.pos_iff_ne_zero.1 hpps)] at hpaid'
    obtain rfl := Option.some.inj (hpayload.symm.trans hpaid')
    obtain ⟨hsequence, hmagic⟩ := segbmapPrepareFragment_sequence hF hprepared
    rcases Nat.lt_or_ge (g.pebsPerSeg * g.fragmentsPerPeb) g.fragmentsCount with hin | hout
    · obtain ⟨fragment', hprepared', hread'⟩ := h.prepared.header _ hin
      rw [Nat.mul_div_cancel _ hfpp, Nat.mul_mod_left, Nat.zero_mul, hread] at hread'
      have hsequence' := (segbmapPrepareFragment_sequence hF hprepared').1
      rw [← hread', hsequence] at hsequence'
      have := Nat.mul_pos hpps hfpp
      omega
    · have hzero : ∀ x < 32, (buffers g.pebsPerSeg).data (0 + x) = 0 := fun x _ =>
        h.prepared.zero _ _ fun f hf hdiv => by
          have hmul := Nat.div_mul_le_self f g.fragmentsPerPeb
          rw [hdiv] at hmul
          omega
      rw [← hread, SegbmapFragmentHeader.magic_read_zero hzero] at hmagic
      exact absurd hmagic (by decide)
  · have hnone := hpaid.others 1 0 (.inr (hplace.symm ▸ hge))
    change _ = a'.payload (8, 0) at hnone
    rw [(h.unpaid hnumbered 8).1] at hnone
    cases hpayload.symm.trans hnone

end SegsReserved

/-- With a copy the segments are dealt out in turn, but the fragments one after the other. -/
theorem segbmapSbHeader_leads_iff (hsizes : layout.SizesAccepted) (hindex : layout.lebsPerPebIndex = 1)
    (hreserve : mkfsReserveSegs sectorsPerZone fuel requested layout = .ok (layout', g, buffers, a))
    (hvalidate : segbmapMkfsValidate layout' g (buffers 0) a = .ok (buf, a'))
    (hhdr : initSegbmapSbHeader layout' g a' = .ok hdr) (hzones : zones < 4294967296)
    (hrun : segbmapHandOut layout' g (segbmapBefore a' (Function.update buffers 0 buf) zones) =
      .ok st) :
    LeadsToFragments layout' g st.a hdr ↔ layout'.segbmap.hasBackupCopy = false := by
  obtain ⟨b, m, hreserved⟩ := mkfsReserveSegs_run hsizes hindex hreserve
  obtain ⟨hitems, hnumbered⟩ := hreserved.numbered hvalidate
  constructor
  · intro hleads
    by_contra hcopy
    exact hreserved.not_leads hnumbered hzones hhdr hrun (Bool.eq_true_of_not_eq_false hcopy) hleads
  · exact hreserved.leads hnumbered hitems hzones hhdr hrun

end

/-- One fragment in one segment. -/
theorem segbmapSbHeader_leads_800 : ∃ layout g buffers a buf a' hdr st,
    mkfsReserveSegs none 5 1 (chainVolume 104857600 131072 false) = .ok (layout, g, buffers, a) ∧
      segbmapMkfsValidate layout g (buffers 0) a = .ok (buf, a') ∧
      initSegbmapSbHeader layout g a' = .ok hdr ∧
      segbmapHandOut layout g (segbmapBefore a' (Function.update buffers 0 buf) 0) = .ok st ∧
      LeadsToFragments layout g st.a hdr := by
  obtain ⟨layout, buffers, a, hreserve, hcapacity, hcopy⟩ :=
    @mkfsReserveSegs_of_summary (chainVolume 104857600 131072 false) none 5 1
      (9, false, ⟨400, 1, 1, 1, 1, 4096⟩) (by decide +kernel)
  obtain ⟨b, m, hreserved⟩ := mkfsReserveSegs_run chainVolume_sizesAccepted rfl hreserve
  obtain ⟨buf, a', hvalidate, -⟩ := hreserved.validates (by rw [hcapacity]; decide)
  have hnumbered := (hreserved.numbered hvalidate).2
  obtain ⟨hdr, hhdr⟩ := hreserved.init hnumbered (by decide)
  obtain ⟨st, hrun, -⟩ := (@SegsReserved.all_iff _ _ _ _ _ _ _ 0 _ (Function.update buffers 0 buf)
    hreserved hnumbered (by decide)).2 (.inl rfl)
  exact ⟨layout, _, buffers, a, buf, a', hdr, st, hreserve, hvalidate, hhdr, hrun,
    (segbmapSbHeader_leads_iff chainVolume_sizesAccepted rfl hreserve hvalidate hhdr (by decide)
      hrun).2 hcopy⟩

/-- The copy of this one segment has no payload. -/
theorem segbmapSbHeader_misleads_800 : ∃ layout g buffers a buf a' hdr st,
    mkfsReserveSegs none 5 1 (chainVolume 104857600 131072 true) = .ok (layout, g, buffers, a) ∧
      segbmapMkfsValidate layout g (buffers 0) a = .ok (buf, a') ∧
      initSegbmapSbHeader layout g a' = .ok hdr ∧
      segbmapHandOut layout g (segbmapBefore a' (Function.update buffers 0 buf) 0) = .ok st ∧
      ¬LeadsToFragments layout g st.a hdr := by
  obtain ⟨layout, buffers, a, hreserve, hcapacity, hcopy⟩ :=
    @mkfsReserveSegs_of_summary (chainVolume 104857600 131072 true) none 5 1
      (10, true, ⟨400, 1, 1, 1, 1, 4096⟩) (by decide +kernel)
  obtain ⟨b, m, hreserved⟩ := mkfsReserveSegs_run chainVolume_sizesAccepted rfl hreserve
  obtain ⟨buf, a', hvalidate, -⟩ := hreserved.validates (by rw [hcapacity]; decide)
  have hnumbered := (hreserved.numbered hvalidate).2
  obtain ⟨hdr, hhdr⟩ := hreserved.init hnumbered (by decide)
  obtain ⟨st, hrun, -⟩ := (@SegsReserved.all_iff _ _ _ _ _ _ _ 0 _ (Function.update buffers 0 buf)
    hreserved hnumbered (by decide)).2 (.inl rfl)
  exact ⟨layout, _, buffers, a, buf, a', hdr, st, hreserve, hvalidate, hhdr, hrun,
    hreserved.not_leads hnumbered (by decide) hhdr hrun hcopy⟩

end Ssdfs
