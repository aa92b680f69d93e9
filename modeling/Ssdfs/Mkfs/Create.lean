import Ssdfs.LogTables.Payload
import Ssdfs.Segbmap.SegIds
import Ssdfs.Volume.Settle

namespace Ssdfs

def VolumeLayout.pebsPerNandDie (layout : VolumeLayout) : Nat :=
  layout.pebsPerVolume / layout.nandDiesCount.toNat

def sbSegs : Nat := 6

def emptySegs (layout : VolumeLayout) (segbmapSegs : Nat) : SegsArray where
  metaArray
    | .initialSnapshot => ⟨0, 1, .dedicated⟩
    | .superblock => ⟨0, sbSegs, .dedicated⟩
    | .segbmap => ⟨0, segbmapSegs, .dedicated⟩
    | .pebMappingTable => ⟨0, 0, .max⟩
    | .userData => ⟨0, 0, .dedicated⟩
  segs _ :=
    { segType := none
      segState := .max
      segId := Word.u64Max
      pebs := fun _ => ⟨Word.u64Max, Word.u64Max, fun _ => ⟨none, 0, 0⟩⟩
      pebsCount := 0
      pebsCapacity := Word.u16 layout.pebsPerSeg }
  segsCapacity := 0
  segsCount := 0
  lastAllocatedSegIndex := -1

/-- `fuel` bounds the rounds in which the mapping table's portion is made smaller. -/
def allocSegsArray (fuel : Nat) (fragmentsPerPeb : UInt16) (layout : VolumeLayout) :
    Mkfs (VolumeLayout × SegbmapGeometry × SegsArray) := do
  let (segbmap, segbmapSegs) ← segbmapMkfsAllocationPolicy layout fragmentsPerPeb
  failIf (segbmapSegs < 1) .einval
  let layout := { layout with segbmap.pebsPerSeg := segbmap.pebsPerSeg }
  let (layout, a, maptblSegs) ← maptblMkfsAllocationPolicy fuel layout (emptySegs layout segbmapSegs)
  failIf (maptblSegs < 1) .einval
  let segsCapacity := 1 + sbSegs + segbmapSegs + maptblSegs
  failIf (segsCapacity > Word.u32 layout.segNums / 2) .e2big
  .ok (layout, segbmap, { a with segsCapacity })

def mkfsReserveSegs (sectorsPerZone : Option UInt32) (fuel : Nat) (fragmentsPerPeb : UInt16)
    (layout : VolumeLayout) :
    Mkfs (VolumeLayout × SegbmapGeometry × (Nat → Buf) × SegsArray) := do
  let layout ← settleKeyCreationOptions sectorsPerZone layout
  let (layout, segbmap, a) ← allocSegsArray fuel fragmentsPerPeb layout
  let a ← reserveSegments .initialSnapshot a
  let a ← reserveSegments .superblock a
  let a ← reserveSegments .segbmap a
  let buffers ← segbmapMkfsPrepare layout segbmap
  let a ← reserveSegments .pebMappingTable a
  .ok (layout, segbmap, buffers, a)

def mkfsDefineSegs (sectorsPerZone : Option UInt32) (fuel : Nat) (fragmentsPerPeb : UInt16)
    (layout : VolumeLayout) :
    Mkfs (VolumeLayout × SegsArray) := do
  let layout ← settleKeyCreationOptions sectorsPerZone layout
  let (layout, segbmap, a) ← allocSegsArray fuel fragmentsPerPeb layout
  let a ← reserveSegments .initialSnapshot a
  let a ← reserveSegments .superblock a
  let a ← reserveSegments .segbmap a
  let buffers ← segbmapMkfsPrepare layout segbmap
  let a ← reserveSegments .pebMappingTable a
  let (_, a) ← segbmapMkfsValidate layout segbmap (buffers 0) a
  .ok (layout, a)

section

variable {layout layout' : VolumeLayout} {a a' : SegsArray} {fuel : Nat} {requested : UInt16}
  {sectorsPerZone : Option UInt32}

theorem VolumeLayout.SizesAccepted.segNums_lt (h : layout.SizesAccepted) :
    layout.segNums < 9223372036854775808 := by
  obtain ⟨k, hk⟩ := h.pebs
  have hle := Nat.le_mul_of_pos_right layout.env.eraseSize.toNat (Nat.two_pow_pos k)
  have herase := h.eraseSize_ge
  refine (Nat.div_lt_iff_lt_mul (by omega)).2 ?_
  have hfs := layout.env.fsSize.toNat_lt
  omega

theorem mkfsDefineSegs_ok_iff {r : VolumeLayout × SegsArray} :
    mkfsDefineSegs sectorsPerZone fuel requested layout = .ok r ↔ ∃ layout' g buffers a buf,
      mkfsReserveSegs sectorsPerZone fuel requested layout = .ok (layout', g, buffers, a) ∧
        segbmapMkfsValidate layout' g (buffers 0) a = .ok (buf, r.2) ∧ layout' = r.1 := by
  unfold mkfsDefineSegs mkfsReserveSegs
  simp only [Checked.bind_eq_ok, Prod.exists, Except.ok.injEq, Prod.ext_iff]
  constructor
  · rintro ⟨l₁, h₁, l₂, g, a₀, h₂, a₁, h₃, a₂, h₄, a₃, h₅, buffers, h₆, a₄, h₇, buf, a₅, h₈, hl, ha⟩
    exact ⟨l₂, g, buffers, a₄, buf, ⟨l₁, h₁, l₂, g, a₀, h₂, a₁, h₃, a₂, h₄, a₃, h₅, buffers, h₆, a₄, h₇,
      rfl, rfl, rfl, rfl⟩, ha ▸ h₈, hl⟩
  · rintro ⟨l₂, g, buffers, a₄, buf, ⟨l₁, h₁, l₃, g', a₀, h₂, a₁, h₃, a₂, h₄, a₃, h₅, buffers', h₆,
      a₅, h₇, rfl, rfl, rfl, rfl⟩, h₈, hl⟩
    exact ⟨l₁, h₁, _, _, a₀, h₂, a₁, h₃, a₂, h₄, a₃, h₅, _, h₆, _, h₇, buf, _, h₈, hl, rfl⟩

structure OptionsCorrected (options layout : VolumeLayout) : Prop where
  sizes : layout.SizesAccepted
  pebs : layout.pebsPerVolume = layout.segNums * layout.pebsPerSeg
  index : layout.lebsPerPebIndex.toNat =
    if layout.pebsPerSeg > 1 ∧ options.nandDiesCount.toNat > 1 then options.pebsPerNandDie else 1

theorem VolumeLayout.SizesAccepted.settled (hsizes : layout.SizesAccepted)
    (h : settleKeyCreationOptions sectorsPerZone layout = .ok layout') : layout'.SizesAccepted := by
  have hset := settleKeyCreationOptions_settled h
  have hne := hset.seg_ne
  have herase := hset.erase
  have hseg := hset.seg
  unfold settledEraseSize at herase
  unfold settledSegSize at hseg hne
  by_cases hzns : layout.env.deviceType = .zns
  · rw [if_pos hzns] at herase hseg hne
    refine ⟨?_, ?_, 0, ?_⟩
    · rw [herase]
      exact Nat.le_of_dvd (Nat.pos_of_ne_zero hne) sectorSize_dvd_zoneSize
    · rw [hseg]
      exact Nat.le_trans (Nat.le_of_lt zoneSize_lt) (by decide)
    · rw [hseg, herase, pow_zero, mul_one]
  · rw [if_neg hzns] at herase hseg
    refine ⟨?_, ?_, ?_⟩
    · rw [herase]
      exact hsizes.eraseSize_ge
    · rw [hseg]
      exact hsizes.segSize_le
    · rw [hseg, herase]
      exact hsizes.pebs

theorem settled_lebsPerPebIndex (hset : layout.Settled sectorsPerZone layout')
    (hindex : layout.lebsPerPebIndex = 1) : layout'.lebsPerPebIndex.toNat =
      if layout'.pebsPerSeg > 1 ∧ layout.nandDiesCount.toNat > 1 then layout.pebsPerNandDie else 1 := by
  have hpebs : layout'.pebsPerSeg = Word.u32 (settledPebsPerSeg sectorsPerZone layout) := by
    unfold VolumeLayout.pebsPerSeg settledPebsPerSeg
    rw [hset.seg, hset.erase]
  rw [hset.lebs, hpebs, hindex]
  by_cases hzns : layout.env.deviceType = .zns
  · -- A zone is a segment of its own.
    have hone : ¬1 < Word.u32 (settledPebsPerSeg sectorsPerZone layout) := by
      have hle : settledPebsPerSeg sectorsPerZone layout ≤ 1 := by
        unfold settledPebsPerSeg settledSegSize settledEraseSize
        rw [if_pos hzns, if_pos hzns]
        exact Nat.div_le_of_le_mul (Nat.le_of_eq (Nat.mul_one _).symm)
      exact Nat.not_lt.2 (Nat.le_trans (Word.u32_le _) hle)
    rw [if_neg fun h => hone h.1, if_neg fun h => hone h.1]
    rfl
  · have hdevice : devicePebs sectorsPerZone layout = layout.pebsPerVolume := by
      unfold devicePebs VolumeLayout.pebsPerVolume settledEraseSize
      rw [if_neg hzns]
    rw [hdevice]
    rfl

theorem settleKeyCreationOptions_corrected (hsizes : layout.SizesAccepted)
    (hindex : layout.lebsPerPebIndex = 1)
    (h : settleKeyCreationOptions sectorsPerZone layout = .ok layout') :
    OptionsCorrected layout layout' := by
  have hset := settleKeyCreationOptions_settled h
  have hsizes' := hsizes.settled h
  refine ⟨hsizes', ?_, settled_lebsPerPebIndex hset hindex⟩
  have hbounds := settled_bounds hsizes.segSize_le h
  have hcount : layout'.pebsPerSeg = settledPebsPerSeg sectorsPerZone layout := by
    unfold VolumeLayout.pebsPerSeg
    rw [hset.seg, hset.erase]
    exact Word.u32_of_lt hbounds.pebs_lt
  unfold VolumeLayout.pebsPerVolume VolumeLayout.segNums
  rw [hcount, hset.fs, hset.erase, hset.seg, Nat.mul_div_cancel _ (Nat.pos_of_ne_zero hset.seg_ne)]
  generalize layout.env.fsSize.toNat / settledSegSize sectorsPerZone layout = n
  rw [← hbounds.segs, ← Nat.mul_assoc]
  exact Nat.mul_div_cancel _ hbounds.erase_pos

/-- The array after the segments from `start` on, `n` of them, got a type. -/
structure Extended (a : SegsArray) (m : MetaIndex) (start n : Nat) (a' : SegsArray) : Prop where
  last : a'.lastAllocatedSegIndex = ((start + n : Nat) : Int) - 1
  capacity : a'.segsCapacity = a.segsCapacity
  counts : ∀ i, (a'.metaArray i).segsCount = (a.metaArray i).segsCount
  pebsCapacity : ∀ i, (a'.segs i).pebsCapacity = (a.segs i).pebsCapacity
  segType : ∀ i, (a'.segs i).segType =
    if start ≤ i ∧ i < start + n then some m else (a.segs i).segType

theorem Extended.empty {m : MetaIndex} {start : Nat}
    (hstart : a.lastAllocatedSegIndex = (start : Int) - 1) : Extended a m start 0 a :=
  ⟨hstart, rfl, fun _ => rfl, fun _ => rfl, fun i => (if_neg (by omega)).symm⟩

theorem reserveSegments_ok {m : MetaIndex} {start n : Nat}
    (hstart : a.lastAllocatedSegIndex = (start : Int) - 1) (hn : (a.metaArray m).segsCount = n)
    (h : reserveSegments m a = .ok a') : Extended a m start n a' := by
  unfold reserveSegments at h
  simp only [hn, hstart, Int.sub_add_cancel, Int.toNat_natCast] at h
  by_cases hzero : n = 0
  · rw [if_pos hzero] at h
    cases h
    rw [hzero]
    exact Extended.empty hstart
  rw [if_neg hzero] at h
  split at h
  · cases h
  refine Checked.forRange_ind (fun k t => Extended a m start k t) h ⟨?_, rfl, fun i => ?_,
    fun _ => rfl, fun i => (if_neg (by omega)).symm⟩ ?_
  · exact hstart
  · simp only [SegsArray.setMeta, Function.update_apply]
    split
    case isTrue hi => rw [hi, hn]
    case isFalse => rfl
  intro k hk t t' ht hstep
  cases hstep
  refine ⟨?_, ht.capacity, ht.counts, fun i => ?_, fun i => ?_⟩
  · simp only [ht.last]
    omega
  · simp only [SegsArray.setSeg, Function.update_apply]
    split
    case isTrue hi => rw [hi, ← ht.pebsCapacity]
    case isFalse => exact ht.pebsCapacity i
  · simp only [SegsArray.setSeg, Function.update_apply]
    split
    case isTrue hi => rw [if_pos (by omega)]
    case isFalse hi =>
      rw [ht.segType i]
      exact if_congr (by omega) rfl rfl

/-- The array of `b` segments for the segment bitmap and `m` for the mapping table. -/
structure Allocated (options layout : VolumeLayout) (g : SegbmapGeometry) (b m : Nat) (a : SegsArray) :
    Prop where
  corrected : OptionsCorrected options layout
  segbmap : SegbmapChosen layout g b
  pebsPerSeg : layout.segbmap.pebsPerSeg = g.pebsPerSeg
  segbmap_pos : 0 < b
  maptbl_pos : 0 < m
  capacity : a.segsCapacity = 7 + b + m
  half : 7 + b + m ≤ Word.u32 layout.segNums / 2
  last : a.lastAllocatedSegIndex = -1
  counts : ∀ i, (a.metaArray i).segsCount =
    match i with
    | .initialSnapshot => 1
    | .superblock => 6
    | .segbmap => b
    | .pebMappingTable => m
    | .userData => 0
  pebsCapacity : ∀ i, (a.segs i).pebsCapacity = Word.u16 layout.pebsPerSeg

theorem allocSegsArray_ok {options : VolumeLayout} {g : SegbmapGeometry}
    (hlayout : OptionsCorrected options layout)
    (h : allocSegsArray fuel requested layout = .ok (layout', g, a)) :
    ∃ b m, Allocated options layout' g b m a := by
  obtain ⟨⟨g', b⟩, hsegbmap, h⟩ := Checked.bind_eq_ok.1 h
  obtain ⟨hb, h⟩ := failIf_bind_eq_ok.1 h
  obtain ⟨⟨layout₁, a₁, m⟩, hmaptbl, h⟩ := Checked.bind_eq_ok.1 h
  obtain ⟨hm, h⟩ := failIf_bind_eq_ok.1 h
  obtain ⟨hfew, h⟩ := failIf_bind_eq_ok.1 h
  have hchosen := segbmapMkfsAllocationPolicy_inv hsegbmap
  obtain ⟨s, d, ppf, segs, -, rfl, hsegs, rfl⟩ := maptblMkfsAllocationPolicy_inv hmaptbl
  cases h
  refine ⟨b, m,
    { corrected := ⟨⟨hlayout.sizes.eraseSize_ge, hlayout.sizes.segSize_le, hlayout.sizes.pebs⟩,
        hlayout.pebs, hlayout.index⟩
      segbmap :=
        { bytes := hchosen.bytes
          fragments := hchosen.fragments
          fragmentSize := hchosen.fragmentSize
          fragmentsPerPeb_pos := hchosen.fragmentsPerPeb_pos
          fragmentsPerPeb_lt := hchosen.fragmentsPerPeb_lt
          pebsPerSeg_pos := hchosen.pebsPerSeg_pos
          pebsPerSeg_lt := hchosen.pebsPerSeg_lt
          pebsPerSeg16_ne := hchosen.pebsPerSeg16_ne
          segs_eq := hchosen.segs_eq
          segs_pos := hchosen.segs_pos
          segs_le := hchosen.segs_le
          fragments_pos := hchosen.fragments_pos
          counted := hchosen.counted
          fragmentsPerPeb_eq := hchosen.fragmentsPerPeb_eq
          pebsPerSeg_eq := hchosen.pebsPerSeg_eq }
      pebsPerSeg := rfl
      segbmap_pos := by omega
      maptbl_pos := by omega
      capacity := rfl
      half := Nat.not_lt.1 hfew
      last := rfl
      counts := fun i => ?_
      pebsCapacity := fun i => rfl }⟩
  cases i <;> rfl

end

end Ssdfs
