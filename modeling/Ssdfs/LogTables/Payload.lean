import Ssdfs.LogTables.Run
import Ssdfs.Maptbl.Policy
import Ssdfs.Segbmap.Sound

namespace Ssdfs

/-- The sizes that the options let through, and those of a zoned device: a segment has a power of two
of PEBs. -/
structure VolumeLayout.SizesAccepted (layout : VolumeLayout) : Prop where
  eraseSize_ge : 512 ≤ layout.env.eraseSize.toNat
  segSize_le : layout.segSize.toNat ≤ 68719476736
  pebs : ∃ k, layout.segSize.toNat = layout.env.eraseSize.toNat * 2 ^ k

/-- A payload of fragments of `m` pages each. Where a segment has several PEBs, a single
fragment is not all there is. -/
structure PayloadSource.Sound (src : PayloadSource) (layout : VolumeLayout) (m : Nat) : Prop where
  size : src.fragmentSize = m * layout.pageSize.bytes
  pages_pos : 0 < m
  pages_lt : m < 65536
  fragments_pos : 0 < src.fragmentsPerPeb
  blks_lt : src.fragmentsPerPeb * m < 33554432
  count_lt : src.fragmentsCount < 4294967296
  pebs_pos : 0 < src.pebsPerSeg
  room : src.fragmentsPerPeb * m < 65536 ∧ src.pebsPerSeg * (src.fragmentsPerPeb * m) < 4294967296 ∨
    src.pebsPerSeg = layout.pebsPerSeg ∧ (src.fragmentsCount = 1 → src.pebsPerSeg = 1)

section

variable {layout : VolumeLayout} {src : PayloadSource} {m : Nat}

theorem PayloadSource.Sound.pebBufferSize_eq (h : src.Sound layout m) :
    src.pebBufferSize = src.fragmentsPerPeb * m * layout.pageSize.bytes := by
  have hmul := Nat.mul_le_mul (Nat.le_of_lt h.blks_lt) layout.pageSize.bytes_le
  unfold pebBufferSize
  rw [h.size, Nat.mul_comm, ← Nat.mul_assoc]
  exact Word.u64_of_lt (Nat.lt_of_le_of_lt hmul (by decide))

theorem PayloadSource.Sound.validBlks_eq (h : src.Sound layout m) :
    src.validBlks layout = src.fragmentsPerPeb * m := by
  have hge := layout.pageSize.bytes_ge
  have hle := layout.pageSize.bytes_le
  have hlt := h.blks_lt
  have hmul := Nat.mul_le_mul (Nat.le_of_lt hlt) hle
  unfold validBlks
  rw [h.pebBufferSize_eq, Word.u64_of_lt (by omega), Nat.add_sub_assoc (by omega), Nat.mul_comm,
    Nat.mul_add_div (by omega), Nat.div_eq_of_lt (by omega), Nat.add_zero]
  exact Word.u32_of_lt (by omega)

theorem PayloadSource.Sound.validBlks_pos (h : src.Sound layout m) : 0 < src.validBlks layout := by
  rw [h.validBlks_eq]
  exact Nat.mul_pos h.fragments_pos h.pages_pos

theorem PayloadSource.Sound.bufferBlks (h : src.Sound layout m) :
    src.pebBufferSize / layout.pageSize.bytes = src.validBlks layout := by
  have hge := layout.pageSize.bytes_ge
  rw [h.pebBufferSize_eq, h.validBlks_eq]
  exact Nat.mul_div_cancel _ (by omega)

theorem PayloadSource.Sound.validBlks_lt (h : src.Sound layout m) :
    src.validBlks layout < 33554432 := by
  rw [h.validBlks_eq]
  exact h.blks_lt

theorem VolumeLayout.SizesAccepted.pebsPerSeg_eq (h : layout.SizesAccepted) :
    ∃ k, layout.pebsPerSeg = 2 ^ k ∧ layout.env.eraseSize.toNat * 2 ^ k ≤ 68719476736 := by
  have hge := h.eraseSize_ge
  obtain ⟨k, hk⟩ := h.pebs
  have hle := h.segSize_le
  rw [hk] at hle
  refine ⟨k, ?_, hle⟩
  have hpow := Nat.mul_le_mul_right (2 ^ k) hge
  unfold pebsPerSeg
  rw [hk, Nat.mul_div_cancel_left _ (by omega)]
  exact Word.u32_of_lt (by omega)

end

section

variable {layout layout' : VolumeLayout} {requested : UInt16} {g : SegbmapGeometry} {segs : Nat}

theorem SegbmapChosen.pebs_eq (h : SegbmapChosen layout g segs) (hsizes : layout.SizesAccepted) :
    ∃ k < 16, layout.pebsPerSeg16 = 2 ^ k ∧ layout.pebsPerSeg = 2 ^ k := by
  have hge := hsizes.eraseSize_ge
  have hne := h.pebsPerSeg16_ne
  obtain ⟨k, hk⟩ := hsizes.pebs
  have hcount : layout.segSize.toNat / layout.env.eraseSize.toNat = 2 ^ k := by
    rw [hk]
    exact Nat.mul_div_cancel_left _ (by omega)
  unfold VolumeLayout.pebsPerSeg16 at hne ⊢
  unfold VolumeLayout.pebsPerSeg
  rw [hcount] at hne ⊢
  have hk16 : k < 16 := by
    by_contra hlarge
    have hdvd : 2 ^ 16 ∣ 2 ^ k := Nat.pow_dvd_pow 2 (Nat.not_lt.1 hlarge)
    exact hne (Nat.mod_eq_zero_of_dvd hdvd)
  have hpow := Nat.pow_lt_pow_right (show 1 < 2 by decide) hk16
  exact ⟨k, hk16, Word.u16_of_lt hpow, Word.u32_of_lt (Nat.lt_trans hpow (by decide))⟩

theorem SegbmapChosen.payload_sound (h : SegbmapChosen layout g segs) :
    (segbmapPayload g).Sound layout 1 := by
  obtain ⟨-, hfragments, hsize, hfpp, hfpp', hpps, hpps', -, -⟩ := h
  have hcount := segBmapFragments_lt hfragments
  have hmul := Nat.mul_le_mul (Nat.le_of_lt_succ hpps') (Nat.le_of_lt_succ hfpp')
  exact
    { size := by rw [Nat.one_mul]; exact hsize
      pages_pos := Nat.one_pos
      pages_lt := by decide
      fragments_pos := hfpp
      blks_lt := by
        simp only [segbmapPayload]
        omega
      count_lt := by
        simp only [segbmapPayload]
        omega
      pebs_pos := hpps
      room := .inl (by
        simp only [segbmapPayload, Nat.mul_one]
        exact ⟨hfpp', Nat.lt_of_le_of_lt hmul (by decide)⟩) }

theorem segbmapPayload_sound (h : segbmapMkfsAllocationPolicy layout requested = .ok (g, segs)) :
    (segbmapPayload g).Sound layout 1 := (segbmapMkfsAllocationPolicy_inv h).payload_sound

theorem alignStripe_ge {pebsPerSeg stripes d : Nat} (h : alignStripe pebsPerSeg stripes = .ok d)
    (hd : 0 < d) : 239 ≤ d := by
  unfold alignStripe at h
  split at h
  · obtain ⟨-, h⟩ := quot_bind_eq_ok.1 h
    obtain ⟨-, h⟩ := quot_bind_eq_ok.1 h
    rw [pebDescPerFragment_page] at h
    generalize Word.u32 (pebsPerSeg + stripes - 1) / stripes = l at h
    have hle := Nat.div_mul_le_self 476 l
    rw [Word.u32_of_lt (by omega)] at h
    cases h
    have hpos := Nat.pos_of_mul_pos_left hd
    have hquot := Nat.pos_of_mul_pos_right hd
    have hdm := Nat.div_add_mod 476 l
    have hmod := Nat.mod_lt 476 hpos
    rw [Nat.mul_comm] at hdm
    have hl := Nat.le_mul_of_pos_left l hquot
    omega
  · cases h
    decide

theorem maptblPebs_dvd {fuel : Nat} {a a' : SegsArray}
    (h : maptblMkfsAllocationPolicy fuel layout a = .ok (layout', a', segs)) :
    layout'.pebsPerSeg ∣ layout'.maptbl.maptblPebs := by
  obtain ⟨s, d, ppf, maptblSegs, hchosen, rfl, -, -⟩ := maptblMkfsAllocationPolicy_inv h
  exact ⟨maptblSegs, (Word.u32_of_lt hchosen.pebs_lt).trans (Nat.mul_comm ..)⟩

theorem maptblPayload_sound {fuel : Nat} {a a' : SegsArray}
    (h : maptblMkfsAllocationPolicy fuel layout a = .ok (layout', a', segs))
    (hsizes : layout'.SizesAccepted) : ∃ m, (maptblPayload layout').Sound layout' m := by
  obtain ⟨s, d, ppf, maptblSegs, hchosen, rfl, -, -⟩ := maptblMkfsAllocationPolicy_inv h
  have hok := alignStripe_ok layout.pebsPerSeg_lt hchosen.stripes_lt hchosen.stripe
  have hs := hchosen.stripes_lt
  have hmul : Word.u32 (d * s) = d * s :=
    Word.u32_of_lt (Nat.lt_of_le_of_lt (Nat.mul_le_mul hok.1 (Nat.le_of_lt hs)) (by decide))
  have hds := hchosen.portion_lt
  have hne := hchosen.portion_ne
  unfold Word.u16Max at hds
  simp only [portionOf, hmul] at hds hne
  have hspos := Nat.pos_of_mul_pos_left (Nat.pos_of_ne_zero hne)
  have hdge := alignStripe_ge hchosen.stripe (Nat.pos_of_mul_pos_right (Nat.pos_of_ne_zero hne))
  have hs' := Nat.mul_le_mul_right s hdge
  have hppf := definePortionsPerFragment_lt (Word.u16_lt _) hchosen.portions
  obtain ⟨n, hn⟩ : ∃ n, n = (d * s + 1015) / 1016 := ⟨_, rfl⟩
  have hmempages : Word.u32 (Word.u32 (d * s) + lebDescPerFragment pageCacheSize - 1) /
      lebDescPerFragment pageCacheSize = n := by
    rw [hmul, lebDescPerFragment_page, Word.u32_of_lt (by omega), hn]
    rfl
  have hle := layout.pageSize.bytes_le
  have hbytes := Nat.mul_le_mul (show n ≤ 65 by omega) hle
  have hbytes' := Nat.mul_le_mul (show s ≤ 275 by omega) hle
  have hsize : (portionOf layout.pageSize s d).portionSize = (n + s) * layout.pageSize.bytes := by
    unfold portionOf
    simp only [hmempages]
    rw [Word.u32_of_lt (n := n * _) (by omega), Word.u32_of_lt (n := s * _) (by omega),
      ← Nat.add_mul]
    exact Word.u32_of_lt (by rw [Nat.add_mul]; omega)
  have hblks := Nat.mul_le_mul (Nat.le_of_lt hppf) (show n + s ≤ 340 by omega)
  refine ⟨n + s,
    { size := hsize
      pages_pos := by omega
      pages_lt := by omega
      fragments_pos := Nat.pos_of_ne_zero hchosen.portions_ne
      blks_lt := by
        simp only [maptblPayload, chosenMaptbl]
        omega
      count_lt := Word.u32_lt _
      pebs_pos := Nat.pos_of_ne_zero hchosen.pebsPerSeg_ne
      room := .inr ⟨rfl, fun hone => ?_⟩ }⟩
  obtain ⟨k, hk, -⟩ := hsizes.pebsPerSeg_eq
  change layout.pebsPerSeg = 2 ^ k at hk
  change layout.pebsPerSeg = 1
  have hodd : Word.u32 (Word.u32 (maptblSegs * layout.pebsPerSeg) * ppf) = 1 := hone
  cases k with
  | zero => exact hk
  | succ k =>
    -- An even number of PEBs has an even number of portions.
    exfalso
    rw [hk, Nat.pow_succ, ← Nat.mul_assoc] at hodd
    unfold Word.u32 at hodd
    generalize maptblSegs * 2 ^ k = x at hodd
    rw [Nat.mod_mul_mod, Nat.mul_right_comm] at hodd
    omega

theorem VolumeLayout.SizesAccepted.blks_le (h : layout.SizesAccepted) :
    layout.pebsPerSeg * layout.pagesPerPeb ≤ layout.pagesPerSeg := by
  have hge := layout.pageSize.bytes_ge
  have hle := h.segSize_le
  have hquot : layout.segSize.toNat / layout.pageSize.bytes ≤ 68719476736 / 4096 :=
    Nat.div_le_div hle hge (by decide)
  unfold pebsPerSeg pagesPerPeb pagesPerSeg
  rw [Word.u32_of_lt (n := _ / layout.pageSize.bytes) (by omega)]
  refine Nat.le_trans (Nat.mul_le_mul_right _ (Word.u32_le _)) ?_
  rw [Nat.le_div_iff_mul_le (by omega), Nat.mul_assoc]
  exact Nat.le_trans (Nat.mul_le_mul_left _ (Nat.div_mul_le_self _ _)) (Nat.div_mul_le_self _ _)

end

end Ssdfs
