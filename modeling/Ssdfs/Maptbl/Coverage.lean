import Ssdfs.Maptbl.Lookup

namespace Ssdfs

def pebRange (layout : VolumeLayout) (t : Tables) (k : Nat × Nat) : Set Nat :=
  let hdr := (t (k.1 / layout.maptbl.portionsPerFragment)
    (k.1 % layout.maptbl.portionsPerFragment)).pebtbl k.2
  Set.Ico hdr.startPeb (hdr.startPeb + hdr.pebsCount)

def lebRange (layout : VolumeLayout) (t : Tables) (k : Nat × Nat) : Set Nat :=
  let hdr := (t (k.1 / layout.maptbl.portionsPerFragment)
    (k.1 % layout.maptbl.portionsPerFragment)).lebtbl k.2
  Set.Ico hdr.startLeb (hdr.startLeb + hdr.lebsCount)

section

variable {layout : VolumeLayout}

theorem pebRange_fresh (hacc : layout.Accepted) {n : Nat} {k : Nat × Nat} (hi : k.1 < n)
    (hj : k.2 < layout.maptbl.stripesPerPortion) :
    pebRange layout (Tables.fresh layout n) k =
      Geometry.stripeRange layout.pebsPerVolume layout.maptbl.pebsPerPortion
        layout.maptbl.stripesPerPortion k := by
  unfold pebRange
  rw [Tables.fresh_index _ _ hacc.portions_pos, if_pos hi]
  simp only [freshPortion, if_pos hj, freshPebTable]
  rfl

theorem lebRange_fresh (hacc : layout.Accepted) {n : Nat} {k : Nat × Nat} (hi : k.1 < n)
    (hm : k.2 < layout.lebtblPages) :
    lebRange layout (Tables.fresh layout n) k =
      Geometry.pageRange layout.pebsPerVolume layout.maptbl.pebsPerPortion k := by
  unfold lebRange
  rw [Tables.fresh_index _ _ hacc.portions_pos, if_pos hi]
  simp only [freshPortion, if_pos hm, freshLebTable]
  rfl

/-- Counting the PEBs of a stripe by adding the remainder loses PEBs wherever the remainder
of the volume is not zero and below half of the stripes. -/
theorem pebtbl_describes_volume_iff {fuel segs : Nat} {layout₀ : VolumeLayout}
    {a₀ a₁ a a' : SegsArray} {t : Tables}
    (hpolicy : maptblMkfsAllocationPolicy fuel layout₀ a₀ = .ok (layout, a₁, segs))
    (hprepare : maptblMkfsPrepare layout a = .ok (a', t)) :
    Tiles {k : Nat × Nat | k.1 < layout.maptbl.portionsCount ∧
        k.2 < layout.maptbl.stripesPerPortion}
      (pebRange layout t) (Set.Iio layout.pebsPerVolume) ↔
    layout.pebsPerVolume ≤ layout.maptbl.portionsCount * layout.maptbl.pebsPerPortion ∧
      (layout.pebsPerVolume % layout.maptbl.stripesPerPortion = 0 ∨
        layout.maptbl.stripesPerPortion ≤
          2 * (layout.pebsPerVolume % layout.maptbl.stripesPerPortion)) := by
  have hacc := maptblMkfsAllocationPolicy_accepted hpolicy
  obtain ⟨rfl, -⟩ := maptblMkfsPrepare_ok hacc hprepare
  rw [Tiles.congr fun k hk => pebRange_fresh hacc hk.1 hk.2]
  exact Geometry.stripes_tile_iff hacc.stripes_pos hacc.stripes_dvd hacc.pebs_pos
    hacc.pebsPerVolume_pos _

/-- The lookup finds a fragment that describes the LEB, at the LEB's place in it. -/
def SelectsLeb (layout : VolumeLayout) (t : Tables) (leb : Nat) : Prop :=
  ∃ slot, getLebtblFragment layout leb = .ok slot ∧
    let hdr := (t slot.fragmentIndex slot.portionIndex).lebtbl slot.mempageIndex
    hdr.startLeb ≤ leb ∧ leb < hdr.startLeb + hdr.lebsCount ∧
      slot.lebDescIndex = leb - hdr.startLeb

theorem Tables.fresh_leb_lt (hacc : layout.Accepted) {n f p m leb : Nat} (hn : n < 65535)
    (h : leb < ((Tables.fresh layout n f p).lebtbl m).startLeb +
      ((Tables.fresh layout n f p).lebtbl m).lebsCount) : leb < 4294967296 := by
  have hP := hacc.pebs_lt
  unfold Tables.fresh at h
  split at h
  case isTrue hj =>
    have hmul := hacc.mul_lt (i := layout.maptbl.portionsPerFragment * f + p) (by omega)
    have hle : layout.maptbl.pebsPerPortion * (layout.maptbl.portionsPerFragment * f + p) ≤
        65535 * 65534 := Nat.mul_le_mul (by omega) (by omega)
    simp only [freshPortion] at h
    split at h
    case isTrue hm =>
      have hcount : layout.pageCount (layout.maptbl.portionsPerFragment * f + p) m ≤ 1016 :=
        Geometry.pageCount_le _ _
      have hstart : layout.pageStart (layout.maptbl.portionsPerFragment * f + p) m =
          layout.maptbl.pebsPerPortion * (layout.maptbl.portionsPerFragment * f + p) + 1016 * m :=
        rfl
      unfold VolumeLayout.lebtblPages Geometry.pages at hm
      simp only [freshLebTable] at h
      omega
    case isFalse => simp [LebTableFragment.zero] at h
  case isFalse => simp [PortionTables.zero, LebTableFragment.zero] at h

theorem selectsLeb_portion (hacc : layout.Accepted) {n leb : Nat} (hn : n < 65535)
    (h : SelectsLeb layout (Tables.fresh layout n) leb) :
    leb / layout.maptbl.pebsPerPortion < n := by
  obtain ⟨slot, hslot, -, hlt, -⟩ := h
  have hleb := Tables.fresh_leb_lt hacc hn hlt
  obtain ⟨-, rfl⟩ := (getLebtblFragment_eq_ok hacc hleb).1 hslot
  by_contra hge
  simp only [lebtblSlot, Tables.fresh_index _ _ hacc.portions_pos, if_neg hge,
    PortionTables.zero, LebTableFragment.zero] at hlt
  omega

theorem VolumeLayout.Accepted.fragment_lt (hacc : layout.Accepted) {portion : Nat}
    (h : portion < layout.maptbl.portionsCount) :
    portion / layout.maptbl.portionsPerFragment < layout.maptbl.maptblPebs := by
  refine (Nat.div_lt_iff_lt_mul hacc.portions_pos).2 (Nat.lt_of_lt_of_le h ?_)
  rw [hacc.portions_eq]
  exact Word.u32_le _

theorem selectsLeb_fresh (hacc : layout.Accepted) (hn : layout.maptbl.portionsCount < 65535)
    (hcov : layout.pebsPerVolume ≤ layout.maptbl.portionsCount * layout.maptbl.pebsPerPortion)
    {leb : Nat} (hleb : leb < layout.pebsPerVolume) :
    SelectsLeb layout (Tables.fresh layout layout.maptbl.portionsCount) leb := by
  have hportion : leb / layout.maptbl.pebsPerPortion < layout.maptbl.portionsCount :=
    (Nat.div_lt_iff_lt_mul hacc.pebs_pos).2 (by omega)
  have hmul : layout.maptbl.portionsCount * layout.maptbl.pebsPerPortion ≤ 65535 * 65535 :=
    Nat.mul_le_mul (by omega) (Nat.le_of_lt hacc.pebs_lt)
  have hfrag := hacc.fragment_lt hportion
  obtain ⟨hmem, hpage, hdesc⟩ := Geometry.mem_page_of_lt hacc.pebs_pos hleb
  obtain ⟨hlo, hhi⟩ := Geometry.mem_pageRange.1 hmem
  refine ⟨_, (getLebtblFragment_eq_ok hacc (by omega)).2 ⟨hfrag, rfl⟩, ?_⟩
  simp only [lebtblSlot, Tables.fresh_index _ _ hacc.portions_pos, if_pos hportion, freshPortion,
    if_pos hpage, freshLebTable]
  exact ⟨hlo, hhi, hdesc.symm⟩

/-- The last memory page of a portion is cut at the end of the volume but not at the end of
the portion. -/
theorem lebtbl_describes_volume_iff {fuel segs : Nat} {layout₀ : VolumeLayout}
    {a₀ a₁ a a' : SegsArray} {t : Tables}
    (hpolicy : maptblMkfsAllocationPolicy fuel layout₀ a₀ = .ok (layout, a₁, segs))
    (hprepare : maptblMkfsPrepare layout a = .ok (a', t)) :
    (Tiles {k : Nat × Nat | k.1 < layout.maptbl.portionsCount ∧
        k.2 < layout.maptbl.lebtblPortionMempages}
      (lebRange layout t) (Set.Iio layout.pebsPerVolume) ∧
      ∀ leb < layout.pebsPerVolume, SelectsLeb layout t leb) ↔
    layout.pebsPerVolume ≤ layout.maptbl.portionsCount * layout.maptbl.pebsPerPortion ∧
      (layout.maptbl.pebsPerPortion ≤ 1016 ∨ 1016 ∣ layout.maptbl.pebsPerPortion ∨
        layout.pebsPerVolume ≤ layout.maptbl.pebsPerPortion) := by
  have hacc := maptblMkfsAllocationPolicy_accepted hpolicy
  obtain ⟨rfl, hn⟩ := maptblMkfsPrepare_ok hacc hprepare
  have hpages : layout.maptbl.lebtblPortionMempages = layout.lebtblPages := hacc.mempages_eq
  rw [hpages, Tiles.congr fun k hk => lebRange_fresh hacc hk.1 hk.2]
  constructor
  · rintro ⟨htiles, hsel⟩
    have hpos := hacc.pebsPerVolume_pos
    have hlast := selectsLeb_portion hacc hn (hsel (layout.pebsPerVolume - 1) (by omega))
    have hcov := (Nat.div_lt_iff_lt_mul hacc.pebs_pos).1 hlast
    exact ⟨by omega, (Geometry.pages_tile_iff hacc.pebs_pos (by omega)).1 htiles⟩
  · rintro ⟨hcov, hfit⟩
    exact ⟨(Geometry.pages_tile_iff hacc.pebs_pos hcov).2 hfit,
      fun leb hleb => selectsLeb_fresh hacc hn hcov hleb⟩

end

/-- A volume of 128 KiB erase blocks, one in a segment, with eight stripes asked for. -/
def eightStripes (pebs : UInt64) : VolumeLayout where
  needEraseDevice := false
  segSize := 131072
  pageSize := .kib4
  nandDiesCount := 1
  lebsPerPebIndex := 1
  segbmap := ⟨false, 1⟩
  maptbl := ⟨false, 8, 1, 10, 0, 0, 0, 0, 0, 0, 0, 0, 0⟩
  env := ⟨pebs * 131072, 131072, .blk⟩

def eightStripesAccepted (pebs : UInt64) : VolumeLayout :=
  { eightStripes pebs with
    maptbl := ⟨false, 3, 1, 10, 1, 8192, 2, 12288, 3, 1428, 1428, 1, 20480⟩ }

def freeSegs (capacity : Nat) : SegsArray where
  metaArray _ := ⟨0, 0, .dedicated⟩
  segs _ := ⟨none, .max, Word.u64Max,
    fun _ => ⟨Word.u64Max, Word.u64Max, fun _ => ⟨none, 0, 0⟩⟩, 0, 1⟩
  segsCapacity := capacity
  segsCount := 0
  lastAllocatedSegIndex := -1

def maptblSegs : SegsArray := (freeSegs 10).setMeta .pebMappingTable ⟨0, 1, .dedicated⟩

theorem pebtbl_describes_volume_1001 :
    ∃ a' t, maptblMkfsPrepare (eightStripesAccepted 1001) maptblSegs = .ok (a', t) ∧
      Tiles {k : Nat × Nat | k.1 < 1 ∧ k.2 < 3} (pebRange (eightStripesAccepted 1001) t)
        (Set.Iio 1001) := by
  have hpolicy : maptblMkfsAllocationPolicy 1 (eightStripes 1001) (freeSegs 10) =
      .ok (eightStripesAccepted 1001, maptblSegs, 1) := rfl
  obtain ⟨a', t, hprepare⟩ : ∃ a' t,
      maptblMkfsPrepare (eightStripesAccepted 1001) maptblSegs = .ok (a', t) := ⟨_, _, rfl⟩
  exact ⟨a', t, hprepare, (pebtbl_describes_volume_iff hpolicy hprepare).2 (by decide)⟩

/-- A volume of 1000 PEBs on three stripes: each stripe is 334 PEBs wide and counts 333. -/
theorem pebtbl_misses_pebs_of_1000 :
    maptblMkfsAllocationPolicy 1 (eightStripes 1000) (freeSegs 10) =
        .ok (eightStripesAccepted 1000, maptblSegs, 1) ∧
      ∃ a' t, maptblMkfsPrepare (eightStripesAccepted 1000) maptblSegs = .ok (a', t) ∧
        ¬Tiles {k : Nat × Nat | k.1 < (eightStripesAccepted 1000).maptbl.portionsCount ∧
            k.2 < (eightStripesAccepted 1000).maptbl.stripesPerPortion}
          (pebRange (eightStripesAccepted 1000) t)
          (Set.Iio (eightStripesAccepted 1000).pebsPerVolume) := by
  have hpolicy : maptblMkfsAllocationPolicy 1 (eightStripes 1000) (freeSegs 10) =
      .ok (eightStripesAccepted 1000, maptblSegs, 1) := rfl
  have hacc := maptblMkfsAllocationPolicy_accepted hpolicy
  obtain ⟨a', t, hprepare⟩ : ∃ a' t,
      maptblMkfsPrepare (eightStripesAccepted 1000) maptblSegs = .ok (a', t) := ⟨_, _, rfl⟩
  refine ⟨hpolicy, a', t, hprepare, fun h => ?_⟩
  obtain ⟨rfl, -⟩ := maptblMkfsPrepare_ok hacc hprepare
  rw [Tiles.congr fun k hk => pebRange_fresh hacc hk.1 hk.2] at h
  have := (Geometry.stripes_tile_iff hacc.stripes_pos hacc.stripes_dvd hacc.pebs_pos
    hacc.pebsPerVolume_pos _).1 h
  exact absurd this (by decide)

theorem lebtbl_describes_volume_1000 :
    ∃ a' t, maptblMkfsPrepare (eightStripesAccepted 1000) maptblSegs = .ok (a', t) ∧
      Tiles {k : Nat × Nat | k.1 < 1 ∧ k.2 < 2} (lebRange (eightStripesAccepted 1000) t)
        (Set.Iio 1000) ∧ SelectsLeb (eightStripesAccepted 1000) t 999 := by
  have hpolicy : maptblMkfsAllocationPolicy 1 (eightStripes 1000) (freeSegs 10) =
      .ok (eightStripesAccepted 1000, maptblSegs, 1) := rfl
  obtain ⟨a', t, hprepare⟩ : ∃ a' t,
      maptblMkfsPrepare (eightStripesAccepted 1000) maptblSegs = .ok (a', t) := ⟨_, _, rfl⟩
  obtain ⟨htiles, hsel⟩ := (lebtbl_describes_volume_iff hpolicy hprepare).2 (by decide)
  exact ⟨a', t, hprepare, htiles, hsel 999 (by decide)⟩

/-- The same table for 3000 PEBs, which needs three portions. -/
def threePortionsAccepted : VolumeLayout :=
  { eightStripes 3000 with
    maptbl := ⟨false, 3, 1, 10, 3, 8192, 2, 12288, 3, 1428, 1428, 3, 20480⟩ }

def threePortionsSegs : SegsArray := (freeSegs 10).setMeta .pebMappingTable ⟨0, 3, .dedicated⟩

/-- LEBs from 1428 on are described by the last page of the first portion and by the first
page of the second. -/
theorem lebtbl_overlaps_at_1428 :
    maptblMkfsAllocationPolicy 1 (eightStripes 3000) (freeSegs 10) =
        .ok (threePortionsAccepted, threePortionsSegs, 3) ∧
      ∃ a' t, maptblMkfsPrepare threePortionsAccepted threePortionsSegs = .ok (a', t) ∧
        1428 ∈ lebRange threePortionsAccepted t (0, 1) ∧
        1428 ∈ lebRange threePortionsAccepted t (1, 0) ∧
        ¬Tiles {k : Nat × Nat | k.1 < threePortionsAccepted.maptbl.portionsCount ∧
            k.2 < threePortionsAccepted.maptbl.lebtblPortionMempages}
          (lebRange threePortionsAccepted t) (Set.Iio threePortionsAccepted.pebsPerVolume) := by
  have hpolicy : maptblMkfsAllocationPolicy 1 (eightStripes 3000) (freeSegs 10) =
      .ok (threePortionsAccepted, threePortionsSegs, 3) := rfl
  have hacc := maptblMkfsAllocationPolicy_accepted hpolicy
  obtain ⟨a', t, hprepare⟩ : ∃ a' t,
      maptblMkfsPrepare threePortionsAccepted threePortionsSegs = .ok (a', t) := ⟨_, _, rfl⟩
  obtain ⟨rfl, -⟩ := maptblMkfsPrepare_ok hacc hprepare
  obtain ⟨hx, hx'⟩ : 1428 ∈ Geometry.pageRange 3000 1428 (0, 1) ∧
      1428 ∈ Geometry.pageRange 3000 1428 (1, 0) :=
    Geometry.page_overlap (by decide) (by decide) (by decide)
  have h₁ : 1428 ∈ lebRange threePortionsAccepted (Tables.fresh threePortionsAccepted 3) (0, 1) := by
    rw [lebRange_fresh hacc (by decide) (by decide)]
    exact hx
  have h₂ : 1428 ∈ lebRange threePortionsAccepted (Tables.fresh threePortionsAccepted 3) (1, 0) := by
    rw [lebRange_fresh hacc (by decide) (by decide)]
    exact hx'
  refine ⟨hpolicy, a', _, hprepare, h₁, h₂, fun h => ?_⟩
  have := h.owner_unique (by decide) (by decide) h₁ h₂
  exact absurd this (by decide)

end Ssdfs
