import Ssdfs.Volume.Settle

namespace Ssdfs

structure Compressions where
  volume : Compression
  blkbmap : Compression
  blk2offTbl : Compression
  segbmap : Compression
  maptbl : Compression
  userDataSeg : Compression
  deriving Repr, DecidableEq

structure KeyOptions where
  layout : VolumeLayout
  migrationThreshold : UInt16
  pagesPerSeg : UInt32
  compressions : Compressions

def Compression.orElse (c volume : Compression) : Compression := if c = .unknown then volume else c

def Compressions.settle (c : Compressions) : Compressions where
  volume := c.volume
  blkbmap := c.blkbmap.orElse c.volume
  blk2offTbl := c.blk2offTbl.orElse c.volume
  segbmap := c.segbmap.orElse c.volume
  maptbl := c.maptbl.orElse c.volume
  userDataSeg := c.userDataSeg.orElse c.volume

/-- A threshold that is left open or too large is the number of the PEBs, in sixteen bits. -/
def settleMigrationThreshold (migrationThreshold : UInt16) (pebsPerSeg : Nat) : UInt16 :=
  if migrationThreshold.toNat ≥ Word.u16Max then UInt16.ofNat pebsPerSeg
  else if migrationThreshold.toNat > pebsPerSeg then UInt16.ofNat pebsPerSeg
  else migrationThreshold

def settleOptions (sectorsPerZone : Option UInt32) (options : KeyOptions) : Mkfs KeyOptions := do
  let layout ← settleKeyCreationOptions sectorsPerZone options.layout
  .ok {
    layout
    migrationThreshold := settleMigrationThreshold options.migrationThreshold layout.pebsPerSeg
    pagesPerSeg := UInt32.ofNat (layout.segSize.toNat / layout.pageSize.bytes)
    compressions := options.compressions.settle }

/-- What the parsing of the options lets through. -/
structure KeyOptions.Parsed (options : KeyOptions) : Prop where
  segSize_le : options.layout.segSize.toNat ≤ 68719476736
  lebsPerPebIndex : options.layout.lebsPerPebIndex = 1
  migrationThreshold : options.migrationThreshold ≠ 0

/-- The sizes fit each other, for a device of `deviceSize` bytes. -/
structure KeyOptions.Consistent (options : KeyOptions) (deviceSize : Nat) : Prop where
  page_dvd : options.layout.pageSize.bytes ∣ options.layout.env.eraseSize.toNat
  page_lt : options.layout.pageSize.bytes < options.layout.env.eraseSize.toNat
  erase_dvd : options.layout.env.eraseSize.toNat ∣ options.layout.segSize.toNat
  fs_pos : 0 < options.layout.env.fsSize.toNat
  seg_dvd : options.layout.segSize.toNat ∣ options.layout.env.fsSize.toNat
  fs_le : options.layout.env.fsSize.toNat ≤ deviceSize
  lebs_pos : 1 ≤ options.layout.lebsPerPebIndex.toNat
  lebs_le : 1 < options.layout.nandDiesCount.toNat →
    options.layout.lebsPerPebIndex.toNat * options.layout.nandDiesCount.toNat ≤
      options.layout.env.fsSize.toNat / options.layout.env.eraseSize.toNat
  threshold_pos : 1 ≤ options.migrationThreshold.toNat
  threshold_le : options.migrationThreshold.toNat ≤
    options.layout.segSize.toNat / options.layout.env.eraseSize.toNat
  pages : options.pagesPerSeg.toNat = options.layout.segSize.toNat / options.layout.pageSize.bytes

/-- The corrections break nothing: the zone suits the page and the device, the PEBs behind the last
segment are no more than those that the dies leave over, and the PEBs of a segment are no multiple of
65536 where their number is the threshold. -/
structure KeyOptions.Suits (options : KeyOptions) (sectorsPerZone : Option UInt32) : Prop where
  zone : options.layout.env.deviceType = .zns →
    options.layout.pageSize.bytes ∣ zoneSize sectorsPerZone ∧
      options.layout.pageSize.bytes < zoneSize sectorsPerZone ∧
      zoneSize sectorsPerZone ≤ options.layout.env.fsSize.toNat
  dies : 1 < options.layout.nandDiesCount.toNat →
    options.layout.nandDiesCount.toNat ≤ devicePebs sectorsPerZone options.layout ∧
      devicePebs sectorsPerZone options.layout % settledPebsPerSeg sectorsPerZone options.layout ≤
        devicePebs sectorsPerZone options.layout % options.layout.nandDiesCount.toNat
  threshold : options.migrationThreshold.toNat = Word.u16Max ∨
      settledPebsPerSeg sectorsPerZone options.layout < options.migrationThreshold.toNat →
    ¬65536 ∣ settledPebsPerSeg sectorsPerZone options.layout

section

variable {sectorsPerZone : Option UInt32} {options layout geometry : VolumeLayout}

theorem lebs_spread_iff {pebs pebsPerSeg dies lebs : Nat} (hseg : 1 ≤ pebsPerSeg) (hdies : 1 < dies)
    (hlebs : lebs = if 1 < pebsPerSeg ∧ 1 < dies then pebs / dies else 1) :
    1 ≤ lebs ∧ lebs * dies ≤ pebs / pebsPerSeg * pebsPerSeg ↔
      dies ≤ pebs ∧ pebs % pebsPerSeg ≤ pebs % dies := by
  have hsegs := Nat.div_add_mod' pebs pebsPerSeg
  have hshares := Nat.div_add_mod' pebs dies
  by_cases hmany : 1 < pebsPerSeg
  · rw [if_pos ⟨hmany, hdies⟩] at hlebs
    have hpos : 1 ≤ lebs ↔ dies ≤ pebs := by
      rw [hlebs]
      exact Nat.div_pos_iff.trans (and_iff_right (Nat.lt_of_succ_lt hdies))
    rw [hpos, hlebs]
    refine and_congr_right fun _ => ?_
    omega
  · obtain rfl : pebsPerSeg = 1 := by omega
    rw [if_neg fun h => hmany h.1] at hlebs
    rw [hlebs, Nat.one_mul, Nat.div_one, Nat.mul_one, Nat.mod_one]
    exact ⟨fun h => ⟨h.2, Nat.zero_le _⟩, fun h => ⟨Nat.le_refl 1, h.1⟩⟩

theorem settleMigrationThreshold_iff {threshold : UInt16} {pebsPerSeg : Nat} (hpos : threshold ≠ 0) :
    1 ≤ (settleMigrationThreshold threshold pebsPerSeg).toNat ↔
      (threshold.toNat = Word.u16Max ∨ pebsPerSeg < threshold.toNat → ¬65536 ∣ pebsPerSeg) := by
  have hlt : threshold.toNat < 65536 := threshold.toNat_lt
  have hne : threshold.toNat ≠ 0 := fun h0 => hpos (UInt16.toNat_inj.1 h0)
  have hmod : (UInt16.ofNat pebsPerSeg).toNat = pebsPerSeg % 65536 := UInt16.toNat_ofNat'
  have hdvd : 1 ≤ pebsPerSeg % 65536 ↔ ¬65536 ∣ pebsPerSeg := by omega
  unfold settleMigrationThreshold Word.u16Max
  by_cases hopen : threshold.toNat ≥ 65535
  · have hall : threshold.toNat = 65535 := by omega
    rw [if_pos hopen, hmod, hdvd, hall]
    exact (imp_iff_right (.inl rfl)).symm
  · rw [if_neg hopen]
    by_cases hmore : threshold.toNat > pebsPerSeg
    · rw [if_pos hmore, hmod, hdvd]
      exact (imp_iff_right (.inr hmore)).symm
    · rw [if_neg hmore]
      refine iff_of_true (Nat.pos_of_ne_zero hne) fun h => ?_
      omega

theorem settleMigrationThreshold_le {threshold : UInt16} {pebsPerSeg : Nat} :
    (settleMigrationThreshold threshold pebsPerSeg).toNat ≤ pebsPerSeg := by
  have hmod : (UInt16.ofNat pebsPerSeg).toNat ≤ pebsPerSeg :=
    UInt16.toNat_ofNat' ▸ Nat.mod_le _ _
  have hlt : threshold.toNat < 65536 := threshold.toNat_lt
  unfold settleMigrationThreshold
  split
  · exact hmod
  · split
    · exact hmod
    · rename_i hle
      exact Nat.not_lt.1 hle

theorem settledPages_lt (h : SettledBounds sectorsPerZone options) (page : PageSize) :
    settledSegSize sectorsPerZone options / page.bytes < 4294967296 := by
  refine Nat.lt_of_le_of_lt (Nat.div_le_div h.seg_le page.bytes_ge (by decide)) ?_
  decide

end

section

variable {sectorsPerZone : Option UInt32} {options settled : KeyOptions}

/-- The sizes that are settled are consistent as long as the corrections break nothing. -/
theorem settleOptions_consistent_iff (hparsed : options.Parsed)
    (h : settleOptions sectorsPerZone options = .ok settled) :
    settled.Consistent options.layout.env.fsSize.toNat ↔ options.Suits sectorsPerZone := by
  obtain ⟨layout, hsettle, h⟩ := Checked.bind_eq_ok.1 h
  obtain rfl := Except.ok.inj h
  have hset := settleKeyCreationOptions_settled hsettle
  have hbounds := settled_bounds hparsed.segSize_le hsettle
  obtain ⟨hdvd, hplain⟩ := settled_sizes hsettle
  have hcount : layout.pebsPerSeg = settledPebsPerSeg sectorsPerZone options.layout := by
    unfold VolumeLayout.pebsPerSeg
    rw [hset.erase, hset.seg]
    exact Word.u32_of_lt hbounds.pebs_lt
  have hlebs := hset.lebs
  rw [Word.u32_of_lt hbounds.pebs_lt, hparsed.lebsPerPebIndex] at hlebs
  have hspread := fun hdies => lebs_spread_iff hbounds.pebs_pos hdies hlebs
  have hthreshold : 1 ≤ (settleMigrationThreshold options.migrationThreshold
      (settledPebsPerSeg sectorsPerZone options.layout)).toNat ↔ _ :=
    settleMigrationThreshold_iff hparsed.migrationThreshold
  have hpebs := pebs_of_segs hbounds
  constructor
  · intro hc
    obtain ⟨hpage, hpageLt, -, hfs, -, -, hlebsPos, hlebsLe, hpos, -, -⟩ := hc
    refine ⟨fun hzns => ?_, fun hdies => ?_, ?_⟩
    · have herase : layout.env.eraseSize.toNat = zoneSize sectorsPerZone := hset.erase.trans (if_pos hzns)
      have hsegment : settledSegSize sectorsPerZone options.layout = zoneSize sectorsPerZone := if_pos hzns
      rw [hset.page, herase] at hpage hpageLt
      rw [hset.fs, hsegment] at hfs
      exact ⟨hpage, hpageLt, (Nat.div_pos_iff.1 (Nat.pos_of_mul_pos_right hfs)).2⟩
    · rw [← hspread hdies, ← hpebs, ← hset.fs, ← hset.erase, ← hset.dies]
      exact ⟨hlebsPos, hlebsLe (hset.dies ▸ hdies)⟩
    · rw [hcount] at hpos
      exact hthreshold.1 hpos
  · intro hs
    obtain ⟨hzone, hdies, hopen⟩ := hs
    have hsizes : options.layout.pageSize.bytes ∣ settledEraseSize sectorsPerZone options.layout ∧
        options.layout.pageSize.bytes < settledEraseSize sectorsPerZone options.layout ∧
        settledSegSize sectorsPerZone options.layout ≤ options.layout.env.fsSize.toNat := by
      by_cases hzns : options.layout.env.deviceType = .zns
      · unfold settledEraseSize settledSegSize
        rw [if_pos hzns, if_pos hzns]
        exact hzone hzns
      · exact hplain hzns
    have hsegPos := Nat.pos_of_ne_zero hset.seg_ne
    have hlebsPos : 1 ≤ layout.lebsPerPebIndex.toNat := by
      by_cases hmany : 1 < options.layout.nandDiesCount.toNat
      · exact ((hspread hmany).2 (hdies hmany)).1
      · rw [hlebs, if_neg fun h => hmany h.2]
        exact Nat.le_refl 1
    constructor
    · rw [hset.page, hset.erase]
      exact hsizes.1
    · rw [hset.page, hset.erase]
      exact hsizes.2.1
    · rw [hset.erase, hset.seg]
      exact hdvd
    · rw [hset.fs]
      exact Nat.mul_pos (Nat.div_pos hsizes.2.2 hsegPos) hsegPos
    · rw [hset.fs, hset.seg]
      exact Nat.dvd_mul_left _ _
    · rw [hset.fs]
      exact Nat.div_mul_le_self _ _
    · exact hlebsPos
    · intro hmany
      rw [hset.dies] at hmany
      rw [hset.fs, hset.erase, hset.dies, hpebs]
      exact ((hspread hmany).2 (hdies hmany)).2
    · rw [hcount]
      exact hthreshold.2 hopen
    · rw [hcount, hset.seg, hset.erase]
      exact settleMigrationThreshold_le
    · simp only [hset.seg, hset.page]
      exact UInt32.toNat_ofNat_of_lt' (settledPages_lt hbounds _)

end

/-- Segments of eight erase blocks of 128 KiB. -/
def keyOptions (fsSize : UInt64) (nandDiesCount : UInt32) : KeyOptions where
  layout :=
    { needEraseDevice := false
      segSize := 1048576
      pageSize := .kib4
      nandDiesCount
      lebsPerPebIndex := 1
      segbmap := ⟨false, 1⟩
      maptbl := ⟨false, 1, 1, 10, 0, 0, 0, 0, 0, 0, 0, 0, 0⟩
      env := ⟨fsSize, 131072, .blk⟩ }
  migrationThreshold := 65535
  pagesPerSeg := 4294967295
  compressions := ⟨.zlib, .unknown, .unknown, .unknown, .unknown, .unknown⟩

theorem keyOptions_parsed (fsSize : UInt64) (nandDiesCount : UInt32) :
    (keyOptions fsSize nandDiesCount).Parsed :=
  ⟨show 1048576 ≤ 68719476736 by decide, rfl, show (65535 : UInt16) ≠ 0 by decide⟩

theorem settleOptions_consistent_128 : ∃ settled,
    settleOptions none (keyOptions 16777216 4) = .ok settled ∧ settled.Consistent 16777216 := by
  obtain ⟨settled, h⟩ : ∃ settled, settleOptions none (keyOptions 16777216 4) = .ok settled :=
    Checked.exists_ok rfl
  exact ⟨settled, h, (settleOptions_consistent_iff (keyOptions_parsed 16777216 4) h).2
    ⟨nofun, fun _ => by decide, fun _ => by decide⟩⟩

/-- Of fifteen erase blocks four dies get three LEBs each, but only one segment of eight is left. -/
theorem settleOptions_inconsistent_15 : ∃ settled,
    settleOptions none (keyOptions 1966080 4) = .ok settled ∧ ¬settled.Consistent 1966080 := by
  obtain ⟨settled, h⟩ : ∃ settled, settleOptions none (keyOptions 1966080 4) = .ok settled :=
    Checked.exists_ok rfl
  refine ⟨settled, h, fun hc => ?_⟩
  have hlebs := hc.lebs_le
  cases h
  exact absurd (hlebs (by decide)) (by decide)

end Ssdfs
