import Ssdfs.LogTables.Payload
import Ssdfs.Segbmap.Coverage

namespace Ssdfs

section

variable {layout : VolumeLayout} {requested : UInt16} {g : SegbmapGeometry} {segs i : Nat}
  {f : SegbmapFragment}

/-- Segments that are counted in eight bits as one hold all fragments: a power of two of PEBs that
goes beyond 16 bits would have been counted as more of them. -/
theorem one_seg_fits {F s k : Nat} (hF : F < 65535) (hk : k < 16) (hs : s < 65536) (hdvd : 2 ^ k ∣ s)
    (hone : Word.u8 ((F + s - 1) / s) = 1) (hpos : 0 < s) :
    (F + 2 ^ k - 1) / 2 ^ k * 2 ^ k < 65536 := by
  have hpow := Nat.two_pow_pos k
  obtain ⟨T, hT⟩ : 2 ^ k ∣ 2 ^ 16 := Nat.pow_dvd_pow 2 (Nat.le_of_lt hk)
  have hT : 2 ^ k * T = 65536 := hT.symm
  obtain ⟨t, ht⟩ := hdvd
  by_contra hlarge
  have hround := Nat.div_mul_le_self (F + 2 ^ k - 1) (2 ^ k)
  have hcover := @le_roundUp_mul F s hpos
  have htight := Nat.div_mul_le_self (F + s - 1) s
  generalize (F + s - 1) / s = c at *
  obtain ⟨j, hj⟩ : ∃ j, c = 256 * j + 1 := by
    unfold Word.u8 at hone
    exact ⟨c / 256, by omega⟩
  -- The segments reach the last PEB below the limit, and with it the limit itself.
  have hT' : T ≤ c * t := by
    by_contra hless
    have hmul := Nat.mul_le_mul_left (2 ^ k) (Nat.succ_le_of_lt (Nat.not_le.1 hless))
    rw [hT, Nat.mul_succ, Nat.mul_left_comm, ← ht] at hmul
    omega
  have hlimit := Nat.mul_le_mul_left (2 ^ k) hT'
  rw [hT, Nat.mul_left_comm, ← ht, hj, Nat.add_mul, Nat.one_mul, Nat.mul_assoc] at hlimit
  rw [hj, Nat.add_mul, Nat.one_mul, Nat.mul_assoc] at htight
  rcases Nat.eq_zero_or_pos j with rfl | hjpos
  · omega
  · have hle := Nat.le_mul_of_pos_left s hjpos
    omega

theorem SegbmapChosen.fragmentsPerSeg_lt (h : SegbmapChosen layout g segs)
    (hsizes : layout.SizesAccepted) : g.pebsPerSeg * g.fragmentsPerPeb < 65536 := by
  have hF := segBmapFragments_lt h.fragments
  have hq := h.segs_pos
  obtain ⟨k, hk, hpebs, -⟩ := h.pebs_eq hsizes
  have hpow : 2 ^ k ≤ 32768 := Nat.pow_le_pow_right (show 0 < 2 by decide) (Nat.le_of_lt_succ hk)
  have hpos := Nat.two_pow_pos k
  have hle : g.pebsPerSeg ≤ 2 ^ k := by
    rw [h.pebsPerSeg_eq]
    refine roundUp_le h.fragmentsPerPeb_pos ?_
    rw [h.fragmentsPerPeb_eq, hpebs, Nat.mul_comm]
    exact le_roundUp_mul hpos
  refine Nat.lt_of_le_of_lt (Nat.mul_le_mul_right _ hle) ?_
  rw [h.fragmentsPerPeb_eq, hpebs, Nat.mul_comm]
  rcases Nat.lt_or_ge 1 g.segsPerChain with hmany | hone
  · have hseg : (g.fragmentsCount + g.segsPerChain - 1) / g.segsPerChain ≤ 32767 := by
      refine roundUp_le hq ?_
      have hmul := Nat.mul_le_mul_left 32767 hmany
      omega
    refine Nat.lt_of_le_of_lt (Nat.div_mul_le_self _ _) ?_
    omega
  · have hone : g.segsPerChain = 1 := by omega
    obtain ⟨n, hne, hcount⟩ := h.counted
    rw [hpebs] at hne hcount
    rw [hone, Nat.add_sub_cancel, Nat.div_one]
    refine one_seg_fits hF hk (Word.u16_lt _) ?_ (hcount.symm.trans hone) (Nat.pos_of_ne_zero hne)
    exact (Nat.dvd_mod_iff (Nat.pow_dvd_pow 2 (Nat.le_of_lt hk))).2 (Nat.dvd_mul_left _ _)

theorem segbmapPrepareFragment_indices (hF : g.fragmentsCount < 65535)
    (hperSeg : g.pebsPerSeg * g.fragmentsPerPeb < 65536)
    (h : segbmapPrepareFragment layout g i = .ok f) :
    i < g.fragmentsCount ∧ f.hdr.segIndex.toNat = i / (g.pebsPerSeg * g.fragmentsPerPeb) ∧
      f.hdr.pebIndex = UInt16.ofNat
        (-((i % (g.pebsPerSeg * g.fragmentsPerPeb) / g.fragmentsPerPeb : Nat) : Int) % 65536).toNat := by
  obtain ⟨hi, h⟩ := failIf_bind_eq_ok.1 h
  have hi := Nat.not_le.1 hi
  obtain ⟨-, h⟩ := quot_bind_eq_ok.1 h
  obtain ⟨-, h⟩ := quot_bind_eq_ok.1 h
  obtain ⟨-, h⟩ := quot_bind_eq_ok.1 h
  obtain ⟨_, -, h⟩ := Checked.bind_eq_ok.1 h
  obtain ⟨-, h⟩ := failIf_bind_eq_ok.1 h
  rw [segbmapPayloadBytesPerFragment_page, Checked.ok_bind] at h
  obtain ⟨-, h⟩ := bugOn_bind_eq_ok.1 h
  rw [segbmapItemsPerFragment_page, Checked.ok_bind] at h
  obtain ⟨-, h⟩ := bugOn_bind_eq_ok.1 h
  cases h
  rw [Word.u16_of_lt hperSeg]
  have hle := Nat.div_le_self i (g.pebsPerSeg * g.fragmentsPerPeb)
  have hdiff : ((i / (g.pebsPerSeg * g.fragmentsPerPeb) * (g.pebsPerSeg * g.fragmentsPerPeb) : Nat) :
      Int) - (i : Int) = -((i % (g.pebsPerSeg * g.fragmentsPerPeb) : Nat) : Int) := by
    have hdm := Nat.div_add_mod' i (g.pebsPerSeg * g.fragmentsPerPeb)
    omega
  simp only
  rw [Word.u16_of_lt (by omega), hdiff, Int.neg_tdiv, ← Int.ofNat_tdiv]
  exact ⟨hi, UInt16.toNat_ofNat_of_lt' (show _ < 65536 by omega), rfl⟩

/-- The header of a fragment names its place. -/
def NamesPlace (g : SegbmapGeometry) (i : Nat) (hdr : SegbmapFragmentHeader) : Prop :=
  hdr.segIndex.toNat * g.pebsPerSeg + hdr.pebIndex.toNat = i / g.fragmentsPerPeb ∧
    hdr.pebIndex.toNat < g.pebsPerSeg

theorem namesPlace_iff (hchosen : SegbmapChosen layout g segs) (hsizes : layout.SizesAccepted)
    (h : segbmapPrepareFragment layout g i = .ok f) :
    NamesPlace g i f.hdr ↔ i % (g.pebsPerSeg * g.fragmentsPerPeb) < g.fragmentsPerPeb := by
  have hF := segBmapFragments_lt hchosen.fragments
  have hfpp := hchosen.fragmentsPerPeb_pos
  have hpps := hchosen.pebsPerSeg_pos
  obtain ⟨n, hn, -, hpebs⟩ := hchosen.pebs_eq hsizes
  have hpow : 2 ^ n ≤ 32768 := Nat.pow_le_pow_right (show 0 < 2 by decide) (Nat.le_of_lt_succ hn)
  have hle : g.pebsPerSeg ≤ 32768 := by
    have hchosen := hchosen.pebsPerSeg_le
    omega
  obtain ⟨hi, hseg, hpeb⟩ := segbmapPrepareFragment_indices hF (hchosen.fragmentsPerSeg_lt hsizes) h
  generalize hk : i % (g.pebsPerSeg * g.fragmentsPerPeb) / g.fragmentsPerPeb = k at hpeb
  have hklt : k < g.pebsPerSeg := by
    rw [← hk]
    exact (Nat.div_lt_iff_lt_mul hfpp).2 (Nat.mod_lt _ (Nat.mul_pos hpps hfpp))
  have hbuffer : i / g.fragmentsPerPeb =
      i / (g.pebsPerSeg * g.fragmentsPerPeb) * g.pebsPerSeg + k := by
    have hdm := Nat.div_add_mod' i (g.pebsPerSeg * g.fragmentsPerPeb)
    rw [← hk]
    conv_lhs => rw [← hdm, ← Nat.mul_assoc, Nat.add_comm, Nat.add_mul_div_right _ _ hfpp, Nat.add_comm]
  have hiff : i % (g.pebsPerSeg * g.fragmentsPerPeb) < g.fragmentsPerPeb ↔ k = 0 := by
    rw [← hk, Nat.div_eq_zero_iff]
    omega
  have hvalue : f.hdr.pebIndex.toNat = if k = 0 then 0 else 65536 - k := by
    rw [hpeb]
    split
    case isTrue hzero =>
      rw [hzero]
      rfl
    case isFalse hne =>
      rw [UInt16.toNat_ofNat_of_lt' (show _ < 65536 by omega)]
      omega
  rw [hiff]
  unfold NamesPlace
  rw [hseg, hvalue, hbuffer]
  split <;> omega

/-- The difference is the wrong way round: only the first PEB of a segment is named. -/
theorem segbmapPrepareFragment_place_iff (hsizes : layout.SizesAccepted)
    (hpolicy : segbmapMkfsAllocationPolicy layout requested = .ok (g, segs))
    (h : segbmapPrepareFragment layout g i = .ok f) :
    NamesPlace g i f.hdr ↔ i % (g.pebsPerSeg * g.fragmentsPerPeb) < g.fragmentsPerPeb :=
  namesPlace_iff (segbmapMkfsAllocationPolicy_inv hpolicy) hsizes h

end

/-- 16384 segments of two erase blocks of 128 KiB: three fragments in two segments. -/
def twoPebSegs : VolumeLayout where
  needEraseDevice := false
  segSize := 262144
  pageSize := .kib4
  nandDiesCount := 1
  lebsPerPebIndex := 1
  segbmap := ⟨false, 1⟩
  maptbl := ⟨false, 1, 1, 10, 0, 0, 0, 0, 0, 0, 0, 0, 0⟩
  env := ⟨4294967296, 131072, .blk⟩

theorem twoPebSegs_sizesAccepted : twoPebSegs.SizesAccepted where
  eraseSize_ge := show 512 ≤ 131072 by decide
  segSize_le := show 262144 ≤ 68719476736 by decide
  pebs := ⟨1, show 262144 = 131072 * 2 ^ 1 by decide⟩

theorem twoPebSegs_policy : segbmapMkfsAllocationPolicy twoPebSegs 1 = .ok (⟨8192, 1, 2, 2, 3, 4096⟩, 2) := by
  decide +kernel

/-- The third fragment begins the second segment. -/
theorem segbmapPrepareFragment_place_2 : ∃ f,
    segbmapPrepareFragment twoPebSegs ⟨8192, 1, 2, 2, 3, 4096⟩ 2 = .ok f ∧
      NamesPlace ⟨8192, 1, 2, 2, 3, 4096⟩ 2 f.hdr := by
  obtain ⟨f, hf⟩ := Checked.exists_ok
    (show (segbmapPrepareFragment twoPebSegs ⟨8192, 1, 2, 2, 3, 4096⟩ 2).toOption.isSome = true by
      decide +kernel)
  exact ⟨f, hf, (segbmapPrepareFragment_place_iff twoPebSegs_sizesAccepted twoPebSegs_policy hf).2
    (by decide)⟩

/-- The second fragment is in the second PEB of the first segment, and names PEB 65535 there. -/
theorem segbmapPrepareFragment_misplaces_1 : ∃ f,
    segbmapMkfsAllocationPolicy twoPebSegs 1 = .ok (⟨8192, 1, 2, 2, 3, 4096⟩, 2) ∧
      segbmapPrepareFragment twoPebSegs ⟨8192, 1, 2, 2, 3, 4096⟩ 1 = .ok f ∧
      ¬NamesPlace ⟨8192, 1, 2, 2, 3, 4096⟩ 1 f.hdr := by
  obtain ⟨f, hf⟩ := Checked.exists_ok
    (show (segbmapPrepareFragment twoPebSegs ⟨8192, 1, 2, 2, 3, 4096⟩ 1).toOption.isSome = true by
      decide +kernel)
  refine ⟨f, twoPebSegs_policy, hf, ?_⟩
  rw [namesPlace_iff (segbmapMkfsAllocationPolicy_inv twoPebSegs_policy) twoPebSegs_sizesAccepted hf]
  decide

end Ssdfs
