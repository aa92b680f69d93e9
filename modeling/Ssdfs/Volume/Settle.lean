import Ssdfs.Write.Check

namespace Ssdfs

def sectorSize : Nat := 512

def correctedWritesize (writesize : PageSize) : PageSize :=
  if writesize.bytes ≤ 4096 then .kib4
  else if writesize.bytes ≤ 8192 then .kib8
  else if writesize.bytes ≤ 16384 then .kib16
  else .kib32

/-- `sectorsPerZone` is what the device reports, if it does. The sizes come back if one of them had
to be corrected. The size of the zone is a product in 32 bits. -/
def znsCheckNandGeometry (sectorsPerZone : Option UInt32) (erasesize : UInt32) (writesize : PageSize) :
    Mkfs (Option (UInt32 × PageSize)) :=
  match sectorsPerZone with
  | none => fail .erange
  | some sectors => do
    failIf (sectors = 0) .erange
    let zoneSize := Word.u32 (sectors.toNat * sectorSize)
    failIf (zoneSize ≥ Word.u32Max) .eopnotsupp
    if zoneSize % writesize.bytes ≠ 0 then
      .ok (some (UInt32.ofNat zoneSize, correctedWritesize writesize))
    else if zoneSize ≠ erasesize.toNat then .ok (some (UInt32.ofNat zoneSize, writesize))
    else .ok none

def correctZoneGeometry (sectorsPerZone : Option UInt32) (layout : VolumeLayout) : Mkfs VolumeLayout := do
  let corrected ← znsCheckNandGeometry sectorsPerZone layout.env.eraseSize layout.pageSize
  let layout := match corrected with
    | none => layout
    | some (eraseSize, pageSize) =>
      { layout with pageSize, env := { layout.env with eraseSize } }
  if layout.segSize.toNat ≠ layout.env.eraseSize.toNat then
    .ok { layout with segSize := UInt64.ofNat layout.env.eraseSize.toNat }
  else .ok layout

def correctGeometry (sectorsPerZone : Option UInt32) (layout : VolumeLayout) : Mkfs VolumeLayout :=
  if layout.env.deviceType = .zns then correctZoneGeometry sectorsPerZone layout else .ok layout

def defineLebsPerPebIndex (layout : VolumeLayout) (segSize : UInt64) : Mkfs UInt32 :=
  let eraseSize := layout.env.eraseSize.toNat
  let nandDies := layout.nandDiesCount.toNat
  if Word.u32 (segSize.toNat / eraseSize) > 1 ∧ nandDies > 1 then do
    let pebsPerNandDie ← quot (layout.env.fsSize.toNat / eraseSize) nandDies
    bugOn (pebsPerNandDie ≥ Word.u32Max)
    .ok (UInt32.ofNat pebsPerNandDie)
  else .ok layout.lebsPerPebIndex

def settleKeyCreationOptions (sectorsPerZone : Option UInt32) (layout : VolumeLayout) :
    Mkfs VolumeLayout := do
  validateKeyCreationOptions layout
  let layout ← correctGeometry sectorsPerZone layout
  let segsCount ← quot layout.env.fsSize.toNat layout.segSize.toNat
  let lebsPerPebIndex ← defineLebsPerPebIndex layout layout.segSize
  failIf (Word.u32 (layout.segSize.toNat / layout.pageSize.bytes) ≥ Word.u32Max) .einval
  .ok { layout with
    lebsPerPebIndex
    env := { layout.env with fsSize := UInt64.ofNat (segsCount * layout.segSize.toNat) } }

def zoneSize (sectorsPerZone : Option UInt32) : Nat :=
  sectorsPerZone.elim 0 fun sectors => Word.u32 (sectors.toNat * sectorSize)

def settledEraseSize (sectorsPerZone : Option UInt32) (options : VolumeLayout) : Nat :=
  if options.env.deviceType = .zns then zoneSize sectorsPerZone else options.env.eraseSize.toNat

def settledSegSize (sectorsPerZone : Option UInt32) (options : VolumeLayout) : Nat :=
  if options.env.deviceType = .zns then zoneSize sectorsPerZone else options.segSize.toNat

def settledPebsPerSeg (sectorsPerZone : Option UInt32) (options : VolumeLayout) : Nat :=
  settledSegSize sectorsPerZone options / settledEraseSize sectorsPerZone options

def devicePebs (sectorsPerZone : Option UInt32) (options : VolumeLayout) : Nat :=
  options.env.fsSize.toNat / settledEraseSize sectorsPerZone options

section

variable {sectorsPerZone : Option UInt32} {options layout geometry : VolumeLayout}

theorem znsCheckNandGeometry_size {erasesize : UInt32} {writesize : PageSize}
    {corrected : Option (UInt32 × PageSize)}
    (h : znsCheckNandGeometry sectorsPerZone erasesize writesize = .ok corrected) :
    (corrected.elim erasesize Prod.fst).toNat = zoneSize sectorsPerZone := by
  cases sectorsPerZone with
  | none => cases h
  | some sectors =>
    obtain ⟨-, h⟩ := failIf_bind_eq_ok.1 h
    obtain ⟨-, h⟩ := failIf_bind_eq_ok.1 h
    have hzone : (UInt32.ofNat (Word.u32 (sectors.toNat * sectorSize))).toNat =
        Word.u32 (sectors.toNat * sectorSize) := UInt32.toNat_ofNat_of_lt' (Word.u32_lt _)
    split at h
    · obtain rfl := Except.ok.inj h
      exact hzone
    · split at h
      · obtain rfl := Except.ok.inj h
        exact hzone
      · rename_i heq
        obtain rfl := Except.ok.inj h
        exact (Classical.not_not.1 heq).symm

theorem correctZoneGeometry_sizes (h : correctZoneGeometry sectorsPerZone options = .ok layout) :
    layout.env.eraseSize.toNat = zoneSize sectorsPerZone ∧
      layout.segSize.toNat = zoneSize sectorsPerZone := by
  obtain ⟨corrected, hcheck, h⟩ := Checked.bind_eq_ok.1 h
  have hsize := znsCheckNandGeometry_size hcheck
  have hlt : zoneSize sectorsPerZone < 18446744073709551616 := by
    rw [← hsize]
    exact Nat.lt_trans (UInt32.toNat_lt _) (by decide)
  cases corrected with
  | none =>
    simp only [Option.elim_none] at hsize
    simp only at h
    split at h
    · obtain rfl := Except.ok.inj h
      exact ⟨hsize, (UInt64.toNat_ofNat_of_lt' (by rw [hsize]; exact hlt)).trans hsize⟩
    · rename_i heq
      obtain rfl := Except.ok.inj h
      exact ⟨hsize, (Classical.not_not.1 heq).trans hsize⟩
  | some sizes =>
    simp only [Option.elim_some] at hsize
    simp only at h
    split at h
    · obtain rfl := Except.ok.inj h
      exact ⟨hsize, (UInt64.toNat_ofNat_of_lt' (by rw [hsize]; exact hlt)).trans hsize⟩
    · rename_i heq
      obtain rfl := Except.ok.inj h
      exact ⟨hsize, (Classical.not_not.1 heq).trans hsize⟩

theorem correctGeometry_sizes (h : correctGeometry sectorsPerZone options = .ok layout) :
    layout.env.eraseSize.toNat = settledEraseSize sectorsPerZone options ∧
      layout.segSize.toNat = settledSegSize sectorsPerZone options := by
  unfold correctGeometry at h
  unfold settledEraseSize settledSegSize
  split at h
  · rename_i hzns
    rw [if_pos hzns, if_pos hzns]
    exact correctZoneGeometry_sizes h
  · rename_i hzns
    obtain rfl := Except.ok.inj h
    rw [if_neg hzns, if_neg hzns]
    exact ⟨rfl, rfl⟩

theorem settleKeyCreationOptions_sizes (h : settleKeyCreationOptions sectorsPerZone options = .ok layout) :
    layout.env.eraseSize.toNat = settledEraseSize sectorsPerZone options ∧
      layout.segSize.toNat = settledSegSize sectorsPerZone options := by
  obtain ⟨-, -, h⟩ := Checked.bind_eq_ok.1 h
  obtain ⟨geometry, hgeometry, h⟩ := Checked.bind_eq_ok.1 h
  obtain ⟨-, h⟩ := quot_bind_eq_ok.1 h
  obtain ⟨_, -, h⟩ := Checked.bind_eq_ok.1 h
  obtain ⟨-, h⟩ := failIf_bind_eq_ok.1 h
  obtain rfl := Except.ok.inj h
  obtain ⟨herase, hseg⟩ := correctGeometry_sizes hgeometry
  exact ⟨herase, hseg⟩

@[simp] theorem correctedWritesize_eq (writesize : PageSize) : correctedWritesize writesize = writesize := by
  cases writesize <;> rfl

theorem znsCheckNandGeometry_page {erasesize : UInt32} {writesize : PageSize}
    {corrected : UInt32 × PageSize}
    (h : znsCheckNandGeometry sectorsPerZone erasesize writesize = .ok (some corrected)) :
    corrected.2 = writesize := by
  cases sectorsPerZone with
  | none => cases h
  | some sectors =>
    obtain ⟨-, h⟩ := failIf_bind_eq_ok.1 h
    obtain ⟨-, h⟩ := failIf_bind_eq_ok.1 h
    split at h
    · cases h
      exact correctedWritesize_eq writesize
    · split at h
      · cases h
        rfl
      · cases h

def VolumeLayout.Resized (options geometry : VolumeLayout) : Prop :=
  ∃ segSize eraseSize, geometry = { options with segSize, env := { options.env with eraseSize } }

theorem correctGeometry_resized (h : correctGeometry sectorsPerZone options = .ok geometry) :
    options.Resized geometry := by
  unfold correctGeometry at h
  split at h
  · obtain ⟨corrected, hcheck, h⟩ := Checked.bind_eq_ok.1 h
    cases corrected with
    | none =>
      simp only at h
      split at h
      · cases h
        exact ⟨_, options.env.eraseSize, rfl⟩
      · cases h
        exact ⟨options.segSize, options.env.eraseSize, rfl⟩
    | some sizes =>
      obtain ⟨eraseSize, pageSize⟩ := sizes
      obtain rfl : pageSize = options.pageSize := znsCheckNandGeometry_page hcheck
      simp only at h
      split at h
      · cases h
        exact ⟨_, eraseSize, rfl⟩
      · cases h
        exact ⟨options.segSize, eraseSize, rfl⟩
  · cases h
    exact ⟨options.segSize, options.env.eraseSize, rfl⟩

/-- What the validation settles. -/
structure VolumeLayout.Settled (sectorsPerZone : Option UInt32) (options layout : VolumeLayout) :
    Prop where
  page : layout.pageSize = options.pageSize
  deviceType : layout.env.deviceType = options.env.deviceType
  dies : layout.nandDiesCount = options.nandDiesCount
  erase : layout.env.eraseSize.toNat = settledEraseSize sectorsPerZone options
  seg : layout.segSize.toNat = settledSegSize sectorsPerZone options
  seg_ne : settledSegSize sectorsPerZone options ≠ 0
  fs : layout.env.fsSize.toNat = options.env.fsSize.toNat / settledSegSize sectorsPerZone options *
    settledSegSize sectorsPerZone options
  lebs : layout.lebsPerPebIndex.toNat =
    if 1 < Word.u32 (settledPebsPerSeg sectorsPerZone options) ∧ 1 < options.nandDiesCount.toNat then
      devicePebs sectorsPerZone options / options.nandDiesCount.toNat
    else options.lebsPerPebIndex.toNat

theorem defineLebsPerPebIndex_eq {segSize : UInt64} {lebsPerPebIndex : UInt32}
    (h : defineLebsPerPebIndex layout segSize = .ok lebsPerPebIndex) : lebsPerPebIndex.toNat =
      if 1 < Word.u32 (segSize.toNat / layout.env.eraseSize.toNat) ∧ 1 < layout.nandDiesCount.toNat then
        layout.env.fsSize.toNat / layout.env.eraseSize.toNat / layout.nandDiesCount.toNat
      else layout.lebsPerPebIndex.toNat := by
  unfold defineLebsPerPebIndex at h
  simp only at h
  split at h
  · rename_i hspread
    obtain ⟨-, h⟩ := quot_bind_eq_ok.1 h
    obtain ⟨hmax, h⟩ := bugOn_bind_eq_ok.1 h
    cases h
    rw [if_pos hspread]
    exact UInt32.toNat_ofNat_of_lt' (Nat.lt_of_lt_of_le (Nat.not_le.1 hmax) (by decide))
  · rename_i hspread
    cases h
    rw [if_neg hspread]

theorem settleKeyCreationOptions_settled
    (h : settleKeyCreationOptions sectorsPerZone options = .ok layout) :
    options.Settled sectorsPerZone layout := by
  have hsizes := settleKeyCreationOptions_sizes h
  obtain ⟨-, -, h⟩ := Checked.bind_eq_ok.1 h
  obtain ⟨geometry, hgeometry, h⟩ := Checked.bind_eq_ok.1 h
  obtain ⟨hseg, h⟩ := quot_bind_eq_ok.1 h
  obtain ⟨lebs, hlebs, h⟩ := Checked.bind_eq_ok.1 h
  obtain ⟨-, h⟩ := failIf_bind_eq_ok.1 h
  obtain rfl := Except.ok.inj h
  obtain ⟨herase, hsegment⟩ := hsizes
  simp only at herase hsegment
  have hspread := defineLebsPerPebIndex_eq hlebs
  rw [herase, hsegment] at hspread
  obtain ⟨segSize, eraseSize, rfl⟩ := correctGeometry_resized hgeometry
  refine ⟨rfl, rfl, rfl, herase, hsegment, fun h0 => hseg (hsegment.trans h0), ?_, hspread⟩
  simp only at hsegment ⊢
  rw [hsegment]
  exact UInt64.toNat_ofNat_of_lt' (Nat.lt_of_le_of_lt (Nat.div_mul_le_self _ _) (UInt64.toNat_lt _))

theorem settled_sizes (h : settleKeyCreationOptions sectorsPerZone options = .ok layout) :
    settledEraseSize sectorsPerZone options ∣ settledSegSize sectorsPerZone options ∧
      (options.env.deviceType ≠ .zns →
        options.pageSize.bytes ∣ settledEraseSize sectorsPerZone options ∧
          options.pageSize.bytes < settledEraseSize sectorsPerZone options ∧
          settledSegSize sectorsPerZone options ≤ options.env.fsSize.toNat) := by
  obtain ⟨_, hvalid, -⟩ := Checked.bind_eq_ok.1 h
  obtain ⟨hpage, hvalid⟩ := failIf_bind_eq_ok.1 hvalid
  obtain ⟨hpageMod, hvalid⟩ := failIf_bind_eq_ok.1 hvalid
  obtain ⟨-, hvalid⟩ := failIf_bind_eq_ok.1 hvalid
  obtain ⟨hsegMod, hvalid⟩ := failIf_bind_eq_ok.1 hvalid
  obtain ⟨hfs, -⟩ := failIf_bind_eq_ok.1 hvalid
  unfold settledEraseSize settledSegSize
  by_cases hzns : options.env.deviceType = .zns
  · rw [if_pos hzns, if_pos hzns]
    exact ⟨Nat.dvd_refl _, fun hnot => absurd hzns hnot⟩
  · rw [if_neg hzns, if_neg hzns]
    exact ⟨Nat.dvd_of_mod_eq_zero (not_not.1 hsegMod), fun _ =>
      ⟨Nat.dvd_of_mod_eq_zero (not_not.1 hpageMod), Nat.not_le.1 hpage, Nat.le_of_not_le hfs⟩⟩

theorem settled_page_dvd (h : settleKeyCreationOptions sectorsPerZone options = .ok layout)
    (hzns : layout.env.deviceType ≠ .zns) : layout.pageSize.bytes ∣ layout.env.eraseSize.toNat := by
  have hset := settleKeyCreationOptions_settled h
  rw [hset.page, hset.erase]
  exact ((settled_sizes h).2 (hset.deviceType ▸ hzns)).1

@[simp] theorem zoneSize_lt : zoneSize sectorsPerZone < 4294967296 := by
  unfold zoneSize
  cases sectorsPerZone with
  | none => decide
  | some sectors => exact Word.u32_lt _

theorem sectorSize_dvd_zoneSize : sectorSize ∣ zoneSize sectorsPerZone := by
  unfold zoneSize sectorSize
  cases sectorsPerZone with
  | none => exact Nat.dvd_zero 512
  | some sectors =>
    refine Nat.dvd_of_mod_eq_zero ?_
    simp only [Option.elim_some, Word.u32]
    omega

/-- The counts of the settled sizes do not wrap. -/
structure SettledBounds (sectorsPerZone : Option UInt32) (options : VolumeLayout) : Prop where
  erase_pos : 0 < settledEraseSize sectorsPerZone options
  segs : settledPebsPerSeg sectorsPerZone options * settledEraseSize sectorsPerZone options =
    settledSegSize sectorsPerZone options
  pebs_pos : 1 ≤ settledPebsPerSeg sectorsPerZone options
  pebs_lt : settledPebsPerSeg sectorsPerZone options < 4294967296
  seg_le : settledSegSize sectorsPerZone options ≤ 68719476736

theorem settled_bounds (hseg : options.segSize.toNat ≤ 68719476736)
    (h : settleKeyCreationOptions sectorsPerZone options = .ok layout) :
    SettledBounds sectorsPerZone options := by
  have hne := (settleKeyCreationOptions_settled h).seg_ne
  obtain ⟨hdvd, hplain⟩ := settled_sizes h
  have hpos := Nat.pos_of_dvd_of_pos hdvd (Nat.pos_of_ne_zero hne)
  have hsegs : settledPebsPerSeg sectorsPerZone options * settledEraseSize sectorsPerZone options =
      settledSegSize sectorsPerZone options := Nat.div_mul_cancel hdvd
  have hpebs := Nat.div_pos (Nat.le_of_dvd (Nat.pos_of_ne_zero hne) hdvd) hpos
  by_cases hzns : options.env.deviceType = .zns
  · have herase : settledEraseSize sectorsPerZone options = zoneSize sectorsPerZone := if_pos hzns
    have hsegment : settledSegSize sectorsPerZone options = zoneSize sectorsPerZone := if_pos hzns
    refine ⟨hpos, hsegs, hpebs, ?_, ?_⟩
    · unfold settledPebsPerSeg
      rw [herase, hsegment, Nat.div_self (herase ▸ hpos)]
      decide
    · rw [hsegment]
      exact Nat.le_trans (Nat.le_of_lt zoneSize_lt) (by decide)
  · have hsegment : settledSegSize sectorsPerZone options = options.segSize.toNat := if_neg hzns
    have hlarge := Nat.lt_of_le_of_lt options.pageSize.bytes_ge (hplain hzns).2.1
    refine ⟨hpos, hsegs, hpebs, ?_, hsegment ▸ hseg⟩
    refine Nat.lt_of_le_of_lt (Nat.div_le_div_left (Nat.le_of_lt hlarge) (by decide)) ?_
    rw [hsegment]
    omega

theorem pebs_of_segs (h : SettledBounds sectorsPerZone options) :
    options.env.fsSize.toNat / settledSegSize sectorsPerZone options *
        settledSegSize sectorsPerZone options / settledEraseSize sectorsPerZone options =
      devicePebs sectorsPerZone options / settledPebsPerSeg sectorsPerZone options *
        settledPebsPerSeg sectorsPerZone options := by
  rw [← h.segs, Nat.mul_comm (settledPebsPerSeg sectorsPerZone options), ← Nat.div_div_eq_div_mul,
    Nat.mul_comm (settledEraseSize sectorsPerZone options), ← Nat.mul_assoc]
  exact Nat.mul_div_cancel _ h.erase_pos

end

end Ssdfs
