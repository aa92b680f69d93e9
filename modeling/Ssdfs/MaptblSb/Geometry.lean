import Mathlib.Data.Nat.Prime.Basic
import Ssdfs.Lib.Align
import Ssdfs.Maptbl.Prepare
import Ssdfs.MaptblSb.Segs
import Ssdfs.Volume.Header

namespace Ssdfs

/-- The sizes are those that the options and the device settle; the options only take segments of a
power of two. -/
def SettledSizes (layout : VolumeLayout) : Prop :=
  ∃ sectorsPerZone options settled, settleKeyCreationOptions sectorsPerZone options = .ok settled ∧
    (∃ k, options.segSize.toNat = 2 ^ k) ∧ layout.segSize = settled.segSize ∧ layout.env = settled.env

/-- The header says how the whole table is divided. -/
structure GeometryRecorded (layout : VolumeLayout) (hdr : MaptblSbHeader) : Prop where
  lebs : hdr.lebsPerFragment.toNat = min layout.maptbl.lebsPerPortion hdr.lebsCount.toNat
  pebs : hdr.pebsPerFragment.toNat = min layout.maptbl.pebsPerPortion hdr.pebsCount.toNat
  lebs_pos : 1 ≤ hdr.lebsPerFragment.toNat
  pebs_pos : 1 ≤ hdr.pebsPerFragment.toNat
  covered : hdr.lebsCount.toNat ≤ hdr.fragmentsCount.toNat * hdr.lebsPerFragment.toNat
  stripes : hdr.pebsPerFragment.toNat ≤ hdr.pebsPerStripe.toNat * hdr.stripesPerFragment.toNat

section

variable {layout layout' : VolumeLayout} {a a' b : SegsArray} {compression : Compression}
  {preErasedPebs fuel segs n : Nat} {hdr : MaptblSbHeader}

structure HeaderGeometry (layout : VolumeLayout) (a : SegsArray) (hdr : MaptblSbHeader) : Prop where
  erase_ne : layout.env.eraseSize.toNat ≠ 0
  copies : segsPerCopy layout = .ok (a.metaArray .pebMappingTable).segsCount
  portions_lt : portionsPerSeg layout < Word.u16Max
  stripes_ne : layout.maptbl.stripesPerPortion ≠ 0
  fragmentsCount : hdr.fragmentsCount = UInt32.ofNat layout.maptbl.portionsCount
  lebsCount : hdr.lebsCount = UInt64.ofNat layout.pebsPerVolume
  pebsCount : hdr.pebsCount = UInt64.ofNat layout.pebsPerVolume
  lebsPerFragment : hdr.lebsPerFragment =
    UInt16.ofNat (min (Word.u16 layout.maptbl.lebsPerPortion) (Word.u16 layout.pebsPerVolume))
  pebsPerFragment : hdr.pebsPerFragment =
    UInt16.ofNat (min (Word.u16 layout.maptbl.pebsPerPortion) (Word.u16 layout.pebsPerVolume))
  pebsPerStripe : hdr.pebsPerStripe = UInt16.ofNat
    ((min (Word.u16 layout.maptbl.pebsPerPortion) (Word.u16 layout.pebsPerVolume) +
      layout.maptbl.stripesPerPortion - 1) / layout.maptbl.stripesPerPortion)
  stripesPerFragment : hdr.stripesPerFragment = UInt16.ofNat layout.maptbl.stripesPerPortion

theorem initMaptblSbHeader_geometry (h : initMaptblSbHeader layout a compression preErasedPebs = .ok hdr) :
    HeaderGeometry layout a hdr := by
  obtain ⟨herase, h⟩ := quot_bind_eq_ok.1 h
  obtain ⟨copies, hcopies, h⟩ := Checked.bind_eq_ok.1 h
  obtain ⟨hportions, h⟩ := bugOn_bind_eq_ok.1 h
  obtain ⟨_, -, h⟩ := Checked.bind_eq_ok.1 h
  obtain ⟨pebsPerStripe, hstripe, h⟩ := Checked.bind_eq_ok.1 h
  obtain ⟨-, h⟩ := failIf_bind_eq_ok.1 h
  obtain ⟨hsame, h⟩ := failIf_bind_eq_ok.1 h
  obtain ⟨_, -, h⟩ := Checked.bind_eq_ok.1 h
  obtain ⟨_, -, h⟩ := Checked.bind_eq_ok.1 h
  obtain rfl := Except.ok.inj h
  have hstripes : layout.maptbl.stripesPerPortion ≠ 0 := (quot_bind_eq_ok.1 hstripe).1
  rw [roundUpQuot_ok hstripes] at hstripe
  obtain rfl := Except.ok.inj hstripe
  exact ⟨herase, by rw [hcopies, not_not.1 hsame], Nat.not_le.1 hportions, hstripes, rfl, rfl, rfl, rfl,
    rfl, rfl, rfl⟩

structure SegsChosen (layout layout' : VolumeLayout) (n : Nat) : Prop where
  few : Word.u64 (layout.pebsPerVolume + layout'.maptbl.pebsPerPortion - 1) /
    layout'.maptbl.pebsPerPortion < Word.u32Max
  count : n = Word.u32 (Word.u32 (Word.u64 (Word.u64 (layout.pebsPerVolume +
    layout'.maptbl.pebsPerPortion - 1) / layout'.maptbl.pebsPerPortion +
      layout'.maptbl.portionsPerFragment - 1) / layout'.maptbl.portionsPerFragment) +
        layout.pebsPerSeg - 1) / layout.pebsPerSeg
  portions : layout'.maptbl.portionsCount =
    Word.u32 (Word.u32 (n * layout.pebsPerSeg) * layout'.maptbl.portionsPerFragment)
  volume : layout'.pebsPerVolume = layout.pebsPerVolume
  perSeg : layout'.pebsPerSeg = layout.pebsPerSeg
  backup : layout'.maptbl.hasBackupCopy = layout.maptbl.hasBackupCopy

theorem maptblMkfsAllocationPolicy_segs
    (h : maptblMkfsAllocationPolicy fuel layout a = .ok (layout', a', segs)) :
    ∃ n, SegsChosen layout layout' n ∧ segs = copiesOf layout.maptbl n := by
  unfold maptblMkfsAllocationPolicy at h
  obtain ⟨-, h⟩ := quot_bind_eq_ok.1 h
  obtain ⟨-, h⟩ := quot_bind_eq_ok.1 h
  obtain ⟨-, h⟩ := bugOn_bind_eq_ok.1 h
  obtain ⟨-, h⟩ := rem_bind_eq_ok.1 h
  obtain ⟨-, h⟩ := bugOn_bind_eq_ok.1 h
  obtain ⟨p, -, h⟩ := Checked.bind_eq_ok.1 h
  obtain ⟨-, h⟩ := quot_bind_eq_ok.1 h
  obtain ⟨hfew, h⟩ := bugOn_bind_eq_ok.1 h
  obtain ⟨ppf, -, h⟩ := Checked.bind_eq_ok.1 h
  obtain ⟨-, h⟩ := quot_bind_eq_ok.1 h
  obtain ⟨-, h⟩ := quot_bind_eq_ok.1 h
  obtain ⟨-, h⟩ := failIf_bind_eq_ok.1 h
  obtain ⟨-, h⟩ := bugOn_bind_eq_ok.1 h
  cases h
  exact ⟨_, ⟨Nat.not_le.1 hfew, rfl, rfl, rfl, rfl, rfl⟩, rfl⟩

/-- A rounded quotient that is not zero has not wrapped. -/
theorem quot_of_wrapped {x y m : Nat} (hx : x < m) (hym : y ≤ m) (hy : 0 < y)
    (h : (x + y - 1) % m / y ≠ 0) : x ≤ (x + y - 1) % m / y * y := by
  have hlt : x + y - 1 < m := by
    by_contra hwrap
    refine h (Nat.div_eq_of_lt ?_)
    rw [Nat.mod_eq_sub_mod (Nat.not_lt.1 hwrap), Nat.mod_eq_of_lt (by omega)]
    omega
  rw [Nat.mod_eq_of_lt hlt, Nat.add_sub_assoc hy]
  exact Align.le_padTo hy

theorem SegsChosen.covers (h : SegsChosen layout layout' n) (hn : n ≠ 0)
    (hD : 0 < layout'.maptbl.pebsPerPortion) (hD' : layout'.maptbl.pebsPerPortion < 65535)
    (hppf : 0 < layout'.maptbl.portionsPerFragment) (hppf' : layout'.maptbl.portionsPerFragment < 65536)
    (hP : 0 < layout.pebsPerSeg) : layout.pebsPerVolume ≤
      n * (layout.pebsPerSeg * layout'.maptbl.portionsPerFragment) * layout'.maptbl.pebsPerPortion := by
  have hcount := h.count
  have hfew := h.few
  generalize hf : Word.u64 (layout.pebsPerVolume + layout'.maptbl.pebsPerPortion - 1) /
    layout'.maptbl.pebsPerPortion = fragments at hcount hfew
  unfold Word.u32Max at hfew
  rw [Word.u64_of_lt (Nat.lt_of_le_of_lt (show _ ≤ 4294967295 + 65536 by omega) (by decide))] at hcount
  have hle : (fragments + layout'.maptbl.portionsPerFragment - 1) / layout'.maptbl.portionsPerFragment ≤
      fragments := roundUp_le hppf (Nat.le_mul_of_pos_right _ hppf)
  rw [Word.u32_of_lt (n := (fragments + layout'.maptbl.portionsPerFragment - 1) /
    layout'.maptbl.portionsPerFragment) (by omega)] at hcount
  generalize hm : (fragments + layout'.maptbl.portionsPerFragment - 1) /
    layout'.maptbl.portionsPerFragment = pebs at hcount hle
  have hpebs : pebs ≤ n * layout.pebsPerSeg := by
    rw [hcount] at hn ⊢
    exact quot_of_wrapped (by omega) (Nat.le_of_lt layout.pebsPerSeg_lt) hP hn
  have hm0 : pebs ≠ 0 := fun h0 => by
    rw [h0, Nat.zero_add, Word.u32_of_lt (by have := layout.pebsPerSeg_lt; omega),
      Nat.div_eq_of_lt (by omega)] at hcount
    exact hn hcount
  have hfragments : fragments ≤ pebs * layout'.maptbl.portionsPerFragment := by
    rw [← hm, Nat.add_sub_assoc hppf]
    exact Align.le_padTo hppf
  have hf0 : fragments ≠ 0 := fun h0 => by
    rw [h0, Nat.div_eq_of_lt (by omega)] at hm
    exact hm0 hm.symm
  have hvolume : layout.pebsPerVolume ≤ fragments * layout'.maptbl.pebsPerPortion := by
    rw [← hf] at hf0 ⊢
    exact quot_of_wrapped layout.pebsPerVolume_lt
      (Nat.le_of_lt (Nat.lt_trans hD' (by decide))) hD hf0
  calc layout.pebsPerVolume ≤ fragments * layout'.maptbl.pebsPerPortion := hvolume
    _ ≤ pebs * layout'.maptbl.portionsPerFragment * layout'.maptbl.pebsPerPortion :=
        Nat.mul_le_mul_right _ hfragments
    _ ≤ n * layout.pebsPerSeg * layout'.maptbl.portionsPerFragment * layout'.maptbl.pebsPerPortion :=
        Nat.mul_le_mul_right _ (Nat.mul_le_mul_right _ hpebs)
    _ = _ := by rw [Nat.mul_assoc n]

theorem validateKeyCreationOptions_segs {u : Unit} (h : validateKeyCreationOptions layout = .ok u) :
    layout.env.eraseSize.toNat ∣ layout.segSize.toNat := by
  obtain ⟨-, h⟩ := failIf_bind_eq_ok.1 h
  obtain ⟨-, h⟩ := failIf_bind_eq_ok.1 h
  obtain ⟨-, h⟩ := failIf_bind_eq_ok.1 h
  obtain ⟨hmod, -⟩ := failIf_bind_eq_ok.1 h
  exact Nat.dvd_of_mod_eq_zero (not_not.1 hmod)

theorem SettledSizes.pebsPerSeg (h : SettledSizes layout) (hpos : 0 < layout.pebsPerSeg) :
    ∃ k, layout.pebsPerSeg = 2 ^ k := by
  obtain ⟨sectors, options, settled, hsettle, ⟨k, hk⟩, hseg, henv⟩ := h
  obtain ⟨hE, hS⟩ := settleKeyCreationOptions_sizes hsettle
  obtain ⟨_, hvalid, -⟩ := Checked.bind_eq_ok.1 hsettle
  rw [← henv] at hE
  rw [← hseg] at hS
  unfold VolumeLayout.pebsPerSeg at hpos ⊢
  rw [hE, hS] at hpos ⊢
  unfold settledEraseSize settledSegSize at hpos ⊢
  by_cases hzns : options.env.deviceType = .zns
  · rw [if_pos hzns, if_pos hzns] at hpos ⊢
    have hzone : 0 < zoneSize sectors := Nat.pos_of_ne_zero fun h0 => by
      rw [h0] at hpos
      exact absurd hpos (by decide)
    exact ⟨0, by rw [Nat.div_self hzone]; rfl⟩
  · rw [if_neg hzns, if_neg hzns] at hpos ⊢
    obtain ⟨j, hle, hj⟩ := (Nat.dvd_prime_pow Nat.prime_two).1 (hk ▸ validateKeyCreationOptions_segs hvalid)
    have hdiv : options.segSize.toNat / options.env.eraseSize.toNat = 2 ^ (k - j) := by
      rw [hk, hj, Nat.pow_div hle (by decide)]
    rw [hdiv] at hpos ⊢
    refine ⟨k - j, Word.u32_of_lt ?_⟩
    by_contra hbig
    have hdvd : 4294967296 ∣ 2 ^ (k - j) := (Nat.pow_dvd_pow_iff_le_right (by decide)).2
      ((Nat.pow_le_pow_iff_right (by decide)).1 (Nat.not_lt.1 hbig : 2 ^ 32 ≤ _))
    unfold Word.u32 at hpos
    rw [Nat.mod_eq_zero_of_dvd hdvd] at hpos
    exact Nat.lt_irrefl 0 hpos

/-- A wrapped product with a power of two is no small number but zero. -/
theorem product_of_small {k ppf : Nat} (hppf : ppf < 65536) (hsmall : Word.u32 (2 ^ k * ppf) < 65535)
    (hne : Word.u32 (2 ^ k * ppf) ≠ 0) : Word.u32 (2 ^ k * ppf) = 2 ^ k * ppf := by
  rcases Nat.lt_or_ge k 16 with hlt | hge
  · have hpow : 2 ^ k ≤ 2 ^ 15 := Nat.pow_le_pow_right (by decide) (by omega)
    exact Word.u32_of_lt (Nat.lt_of_le_of_lt (Nat.mul_le_mul hpow (Nat.le_of_lt hppf)) (by decide))
  · have hdvd : 65536 ∣ Word.u32 (2 ^ k * ppf) :=
      (Nat.dvd_mod_iff (by decide)).2 (Nat.dvd_mul_right_of_dvd (Nat.pow_dvd_pow 2 hge) ppf)
    have := Nat.le_of_dvd (Nat.pos_iff_ne_zero.2 hne) hdvd
    omega

theorem SegsChosen.portions_eq (h : SegsChosen layout layout' n) (hn : 0 < n)
    (hcopies : segsPerCopy layout' = .ok n) (hsmall : portionsPerSeg layout' < Word.u16Max)
    (hppf : layout'.maptbl.portionsPerFragment < 65536) (hpow : ∃ k, layout.pebsPerSeg = 2 ^ k) :
    layout'.maptbl.portionsCount =
      n * (layout.pebsPerSeg * layout'.maptbl.portionsPerFragment) := by
  obtain ⟨k, hk⟩ := hpow
  obtain ⟨hq, hcopies⟩ := Checked.quot_eq_ok.1 hcopies
  have hportions : layout'.maptbl.portionsCount = Word.u32 (n * portionsPerSeg layout') := by
    rw [h.portions, u32_mul_u32]
    unfold portionsPerSeg
    rw [h.perSeg]
  rw [hportions] at hcopies
  have hfit := (wrappedRoundUp hn (Nat.pos_iff_ne_zero.2 hq) (Word.u32_lt _)).1.1 (Nat.le_of_eq hcopies)
  have hproduct : portionsPerSeg layout' = layout.pebsPerSeg * layout'.maptbl.portionsPerFragment := by
    unfold portionsPerSeg at hsmall hq ⊢
    rw [h.perSeg, hk] at hsmall hq ⊢
    exact product_of_small hppf hsmall hq
  rw [hportions, hproduct]
  rw [hproduct, Nat.succ_mul] at hfit
  rw [hproduct] at hq
  exact Word.u32_of_lt (by omega)

theorem SegsChosen.portions_zero (h : SegsChosen layout layout' n)
    (hcopies : segsPerCopy layout' = .ok 0) (hsmall : portionsPerSeg layout' < Word.u16Max)
    (hzero : copiesOf layout.maptbl n = 0) (hP : 0 < layout.pebsPerSeg) :
    layout'.maptbl.portionsCount = 0 := by
  have hlt : n * layout.pebsPerSeg < 4294967296 := by
    rw [h.count]
    exact Nat.lt_of_le_of_lt (Nat.div_mul_le_self _ _) (Word.u32_lt _)
  have hnle : n ≤ n * layout.pebsPerSeg := Nat.le_mul_of_pos_right n hP
  have hcases : n = 0 ∨ n = 2147483648 := by
    unfold copiesOf Word.u32 at hzero
    split at hzero <;> omega
  rcases hcases with rfl | rfl
  · have hnone : Word.u32 0 = 0 := rfl
    rw [h.portions, Nat.zero_mul, hnone, Nat.zero_mul, hnone]
  · have hone : layout.pebsPerSeg = 1 := by omega
    have hportions := h.portions
    rw [hone, Nat.mul_one] at hportions
    obtain ⟨hq, hcopies⟩ := Checked.quot_eq_ok.1 hcopies
    have hless := (Nat.div_eq_zero_iff.1 hcopies.symm).resolve_left hq
    generalize portionsPerSeg layout' = q at hq hsmall hless
    unfold Word.u16Max at hsmall
    unfold Word.u32 at hportions hless
    omega

theorem min_u16 {d c : Nat} (hd : d < 65535) :
    min (Word.u16 d) (Word.u16 c) = min d c ↔ c < 65536 ∨ d ≤ c % 65536 := by
  unfold Word.u16
  omega

/-- The fields of 16 bits say what they should where the volume's PEBs fit in them, or leave a rest
that no portion exceeds. -/
theorem maptblGeometry_recorded_iff
    (hpolicy : maptblMkfsAllocationPolicy fuel layout a = .ok (layout', a', segs))
    (hsizes : SettledSizes layout)
    (hcount : (b.metaArray .pebMappingTable).segsCount = segs)
    (hinit : initMaptblSbHeader layout' b compression preErasedPebs = .ok hdr) :
    GeometryRecorded layout' hdr ↔ segs ≠ 0 ∧
      (layout.pebsPerVolume < 65536 ∨
        layout'.maptbl.pebsPerPortion ≤ layout.pebsPerVolume % 65536) := by
  have haccepted := maptblMkfsAllocationPolicy_accepted hpolicy
  obtain ⟨n, hchosen, hsegs⟩ := maptblMkfsAllocationPolicy_segs hpolicy
  have hhdr := initMaptblSbHeader_geometry hinit
  have hD := haccepted.pebs_pos
  have hD' := haccepted.pebs_lt
  have hP : 0 < layout.pebsPerSeg := hchosen.perSeg ▸ haccepted.pebsPerSeg_pos
  have hc : layout'.pebsPerVolume = layout.pebsPerVolume := hchosen.volume
  have hvolume : 0 < layout.pebsPerVolume := hc ▸ haccepted.pebsPerVolume_pos
  have hlebs : hdr.lebsCount.toNat = layout.pebsPerVolume := by
    rw [hhdr.lebsCount, hc]
    exact UInt64.toNat_ofNat_of_lt' layout.pebsPerVolume_lt
  have hpebs : hdr.pebsCount.toNat = layout.pebsPerVolume := by
    rw [hhdr.pebsCount, hc]
    exact UInt64.toNat_ofNat_of_lt' layout.pebsPerVolume_lt
  have hfragments : hdr.fragmentsCount.toNat = layout'.maptbl.portionsCount := by
    rw [hhdr.fragmentsCount]
    exact UInt32.toNat_ofNat_of_lt' haccepted.portions_lt
  have hmin : min (Word.u16 layout'.maptbl.pebsPerPortion) (Word.u16 layout.pebsPerVolume) < 65536 :=
    Nat.lt_of_le_of_lt (Nat.min_le_left _ _) (Word.u16_lt _)
  have hpebsPer : hdr.pebsPerFragment.toNat =
      min (Word.u16 layout'.maptbl.pebsPerPortion) (Word.u16 layout.pebsPerVolume) := by
    rw [hhdr.pebsPerFragment, hc]
    exact UInt16.toNat_ofNat_of_lt' hmin
  have hlebsPer : hdr.lebsPerFragment.toNat =
      min (Word.u16 layout'.maptbl.pebsPerPortion) (Word.u16 layout.pebsPerVolume) := by
    rw [hhdr.lebsPerFragment, hc, haccepted.lebs_eq]
    exact UInt16.toNat_ofNat_of_lt' hmin
  by_cases hnone : segs = 0
  · refine iff_of_false (fun h => ?_) fun h => h.1 hnone
    have hzero := hchosen.portions_zero (by rw [← hcount.trans hnone]; exact hhdr.copies)
      hhdr.portions_lt (hsegs.symm.trans hnone) hP
    have hcovered := h.covered
    rw [hlebs, hfragments, hzero, Nat.zero_mul] at hcovered
    omega
  · have hbackup : layout.maptbl.hasBackupCopy = false := by
      rw [← hchosen.backup]
      by_contra hcopy
      exact hnone (hcount.symm.trans (initMaptblSbHeader_backup (Bool.of_not_eq_false hcopy) hinit))
    have hn : segs = n := by
      rw [hsegs]
      unfold copiesOf
      rw [hbackup]
      rfl
    subst hn
    have hportions := hchosen.portions_eq (Nat.pos_iff_ne_zero.2 hnone) (hcount ▸ hhdr.copies)
      hhdr.portions_lt haccepted.portionsPerFragment_lt (hsizes.pebsPerSeg hP)
    have hcovers := hchosen.covers hnone hD hD' haccepted.portions_pos
      haccepted.portionsPerFragment_lt hP
    rw [← hportions] at hcovers
    refine Iff.trans ?_ (and_iff_right hnone).symm
    rw [← min_u16 hD']
    constructor
    · intro h
      rw [← hpebsPer, h.pebs, hpebs]
    · intro h
      rw [h] at hpebsPer hlebsPer
      have hone := Nat.le_min.2 ⟨hD, hvolume⟩
      refine ⟨by rw [hlebsPer, hlebs, haccepted.lebs_eq], by rw [hpebsPer, hpebs], hlebsPer ▸ hone,
        hpebsPer ▸ hone, ?_, ?_⟩
      · rw [hlebs, hfragments, hlebsPer]
        rcases Nat.le_total layout'.maptbl.pebsPerPortion layout.pebsPerVolume with hle | hge
        · rw [Nat.min_eq_left hle]
          exact hcovers
        · rw [Nat.min_eq_right hge]
          refine Nat.le_mul_of_pos_left _ (Nat.pos_of_ne_zero fun h0 => ?_)
          rw [h0, Nat.zero_mul] at hcovers
          omega
      · have hS := haccepted.stripes_pos
        have hstripe : hdr.pebsPerStripe.toNat = (min layout'.maptbl.pebsPerPortion
            layout.pebsPerVolume + layout'.maptbl.stripesPerPortion - 1) /
              layout'.maptbl.stripesPerPortion := by
          rw [hhdr.pebsPerStripe, hc, h]
          exact UInt16.toNat_ofNat_of_lt' (Nat.lt_of_le_of_lt
            (roundUp_le hS (Nat.le_mul_of_pos_right _ hS)) (h ▸ hmin))
        have hstripes : hdr.stripesPerFragment.toNat = layout'.maptbl.stripesPerPortion := by
          rw [hhdr.stripesPerFragment]
          exact UInt16.toNat_ofNat_of_lt' haccepted.stripes_lt
        rw [hpebsPer, hstripe, hstripes, Nat.add_sub_assoc hS]
        exact Align.le_padTo hS

end

theorem settledSizes_volumeOf {n : Nat} (hn : n = 20000 ∨ n = 65536) :
    SettledSizes (volumeOf (UInt64.ofNat n)) := by
  rcases hn with rfl | rfl
  · exact ⟨none, volumeOf 20000, _, rfl, ⟨17, rfl⟩, rfl, rfl⟩
  · exact ⟨none, volumeOf 65536, _, rfl, ⟨17, rfl⟩, rfl, rfl⟩

theorem maptblGeometry_run {layout : VolumeLayout} {n : Nat}
    (h : ((maptblMkfsAllocationPolicy 5 layout (tableSegs 0)).toOption.elim false fun r =>
      r.2.2 = n ∧ (initMaptblSbHeader r.1 (tableSegs n) .zlib 0).toOption.isSome) = true) :
    ∃ layout' a hdr, maptblMkfsAllocationPolicy 5 layout (tableSegs 0) = .ok (layout', a, n) ∧
      initMaptblSbHeader layout' (tableSegs n) .zlib 0 = .ok hdr := by
  cases hrun : maptblMkfsAllocationPolicy 5 layout (tableSegs 0) with
  | error e =>
    rw [hrun] at h
    cases h
  | ok r =>
    rw [hrun] at h
    obtain ⟨hn, hinit⟩ := of_decide_eq_true h
    obtain ⟨hdr, hhdr⟩ := Checked.exists_ok hinit
    exact ⟨r.1, r.2.1, hdr, by rw [← hn], hhdr⟩

theorem maptblGeometry_recorded_20000 : ∃ layout' a hdr,
    maptblMkfsAllocationPolicy 5 (volumeOf 20000) (tableSegs 0) = .ok (layout', a, 22) ∧
      initMaptblSbHeader layout' (tableSegs 22) .zlib 0 = .ok hdr ∧ GeometryRecorded layout' hdr := by
  obtain ⟨layout', a, hdr, hpolicy, hinit⟩ := @maptblGeometry_run (volumeOf 20000) 22 (by decide +kernel)
  exact ⟨layout', a, hdr, hpolicy, hinit,
    (maptblGeometry_recorded_iff hpolicy (settledSizes_volumeOf (.inl rfl)) rfl hinit).2
      ⟨by decide, .inl (by decide)⟩⟩

/-- 65536 PEBs leave nothing in a field of 16 bits. -/
theorem maptblGeometry_loses_65536 : ∃ layout' a hdr,
    maptblMkfsAllocationPolicy 5 (volumeOf 65536) (tableSegs 0) = .ok (layout', a, 69) ∧
      initMaptblSbHeader layout' (tableSegs 69) .zlib 0 = .ok hdr ∧ ¬GeometryRecorded layout' hdr := by
  obtain ⟨layout', a, hdr, hpolicy, hinit⟩ := @maptblGeometry_run (volumeOf 65536) 69 (by decide +kernel)
  refine ⟨layout', a, hdr, hpolicy, hinit, fun h => ?_⟩
  obtain ⟨n, hchosen, -⟩ := maptblMkfsAllocationPolicy_segs hpolicy
  have hvolume : layout'.pebsPerVolume = 65536 := hchosen.volume.trans (by decide)
  have hone := h.lebs_pos
  rw [(initMaptblSbHeader_geometry hinit).lebsPerFragment, hvolume] at hone
  have hnone : Word.u16 65536 = 0 := rfl
  rw [hnone, Nat.min_zero] at hone
  exact absurd hone (by decide)

end Ssdfs
