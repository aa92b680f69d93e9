import Ssdfs.Layout

namespace Ssdfs

def correctMaptblStripesPerPortion (nandDies stripes : Nat) : Mkfs Nat :=
  if stripes > nandDies then do
    let r ← rem stripes nandDies
    .ok (stripes - r)
  else if stripes < nandDies then do
    let r ← rem nandDies stripes
    .ok (stripes - r)
  else .ok stripes

structure Portion where
  stripesPerPortion : Nat
  pebDescPerStripe : Nat
  pebDescPerPortion : Nat
  lebtblPortionBytes : Nat
  lebtblPortionMempages : Nat
  pebtblPortionBytes : Nat
  portionSize : Nat
  deriving Repr, DecidableEq

def fitStripes (stripes pebDescPerPortion : Nat) : Nat :=
  if lebDescPerFragment pageCacheSize > pebDescPerPortion then
    lebDescPerFragment pageCacheSize / pebDescPerFragment pageCacheSize
  else if lebDescPerFragment pageCacheSize < pebDescPerPortion then
    Word.u16 (pebDescPerPortion / lebDescPerFragment pageCacheSize)
  else stripes

def deviceStripes (layout : VolumeLayout) (stripes pebDescPerPortion : Nat) : Mkfs Nat :=
  match layout.env.deviceType with
  | .mtd | .blk => .ok stripes
  | .zns => do
    let portionsPerVolume ←
      quot (Word.u64 (layout.pebsPerVolume + pebDescPerPortion - 1)) pebDescPerPortion
    failIf (portionsPerVolume > Word.u16Max) .e2big
    .ok (Word.u16 portionsPerVolume)
  | .max => .error .abort

def alignStripe (pebsPerSeg stripes : Nat) : Mkfs Nat :=
  if pebsPerSeg > stripes then do
    let lebIndexPerStripe ← quot (Word.u32 (pebsPerSeg + stripes - 1)) stripes
    let groups ← quot (pebDescPerFragment pageCacheSize) lebIndexPerStripe
    .ok (Word.u32 (groups * lebIndexPerStripe))
  else .ok (pebDescPerFragment pageCacheSize)

def portionOf (page : PageSize) (stripes pebDescPerStripe : Nat) : Portion :=
  let pebDescPerPortion := Word.u32 (pebDescPerStripe * stripes)
  let lebtblMempages :=
    Word.u32 (pebDescPerPortion + lebDescPerFragment pageCacheSize - 1) /
      lebDescPerFragment pageCacheSize
  let lebtblPortionBytes := Word.u32 (lebtblMempages * page.bytes)
  let pebtblPortionBytes := Word.u32 (stripes * page.bytes)
  { stripesPerPortion := stripes
    pebDescPerStripe
    pebDescPerPortion
    lebtblPortionBytes
    lebtblPortionMempages := lebtblMempages
    pebtblPortionBytes
    portionSize := Word.u32 (lebtblPortionBytes + pebtblPortionBytes) }

def definePortion (layout : VolumeLayout) (stripes : Nat) : Mkfs Portion := do
  let stripes ← correctMaptblStripesPerPortion layout.nandDiesCount.toNat (Word.u16 stripes)
  bugOn (lebDescPerFragment pageCacheSize / pebDescPerFragment pageCacheSize ≠ 2)
  let pebDescPerPortion := Word.u32 (pebDescPerFragment pageCacheSize * stripes)
  let stripes := fitStripes stripes pebDescPerPortion
  let stripes ← deviceStripes layout stripes pebDescPerPortion
  let pebDescPerStripe ← alignStripe layout.pebsPerSeg stripes
  .ok (portionOf layout.pageSize stripes pebDescPerStripe)

/-- The `define_stripes_per_portion` loop: a portion larger than an erase block is tried
again with fewer stripes. -/
def defineStripesPerPortion (layout : VolumeLayout) : Nat → Nat → Mkfs Portion
  | 0, _ => .error .fuel
  | fuel + 1, stripes => do
    let portion ← definePortion layout stripes
    if portion.portionSize > layout.env.eraseSize.toNat then do
      let diffSize := Word.sub32 layout.env.eraseSize.toNat portion.portionSize
      let diffStripes := Word.u32 (diffSize + pageCacheSize - 1) / pageCacheSize
      bugOn (diffStripes ≥ portion.stripesPerPortion)
      defineStripesPerPortion layout fuel (portion.stripesPerPortion - diffStripes)
    else .ok portion

def definePortionsPerFragment (eraseSize portionSize requested : Nat) : Mkfs Nat := do
  let portionsPerFragment ← quot eraseSize portionSize
  if portionsPerFragment < requested then
    let bytesCount := Word.u32 (requested * portionSize)
    if bytesCount > eraseSize then do
      let diffFragments :=
        Word.u32 (bytesCount - eraseSize + portionSize - 1) / portionSize
      let correctedValue := Word.sub32 requested diffFragments
      bugOn (max portionsPerFragment correctedValue ≥ Word.u16Max)
      .ok (max portionsPerFragment correctedValue)
    else .ok requested
  else if portionsPerFragment > requested then .ok requested
  else .ok portionsPerFragment

def maptblReservedPebsDefault : Nat := 10

def copiesOf (maptbl : MaptblLayout) (maptblSegs : Nat) : Nat :=
  if maptbl.hasBackupCopy then Word.u32 (maptblSegs * 2) else maptblSegs

def reservedPebsOf (maptbl : MaptblLayout) : Nat :=
  if maptbl.reservedPebsPerFragment ≥ Word.u16Max then maptblReservedPebsDefault
  else maptbl.reservedPebsPerFragment

/-- The layout with the mapping table's geometry, the segments of the table in the array,
and their number. `fuel` bounds the rounds of the stripes loop. -/
def maptblMkfsAllocationPolicy (fuel : Nat) (layout : VolumeLayout) (a : SegsArray) :
    Mkfs (VolumeLayout × SegsArray × Nat) := do
  let segNums ← quot layout.env.fsSize.toNat layout.segSize.toNat
  let _ ← quot layout.segSize.toNat layout.env.eraseSize.toNat
  let pebsPerSeg := layout.pebsPerSeg
  let pebsPerVolume := layout.pebsPerVolume
  bugOn (pebsPerVolume < segNums)
  let r ← rem pebsPerVolume segNums
  bugOn (r ≠ 0)
  let portion ← defineStripesPerPortion layout fuel layout.maptbl.stripesPerPortion
  let fragments ←
    quot (Word.u64 (pebsPerVolume + portion.pebDescPerPortion - 1)) portion.pebDescPerPortion
  bugOn (fragments ≥ Word.u32Max)
  let portionsPerFragment ← definePortionsPerFragment layout.env.eraseSize.toNat
    portion.portionSize (Word.u16 layout.maptbl.portionsPerFragment)
  let maptblPebs ←
    quot (Word.u64 (fragments + portionsPerFragment - 1)) portionsPerFragment
  let maptblPebs := Word.u32 maptblPebs
  let maptblSegs ← quot (Word.u32 (maptblPebs + pebsPerSeg - 1)) pebsPerSeg
  let maptblPebs := Word.u32 (maptblSegs * pebsPerSeg)
  let fragments := Word.u32 (maptblPebs * portionsPerFragment)
  let segs := copiesOf layout.maptbl maptblSegs
  failIf (Word.sext32 segs > Word.u64 (segNums * 10) / 100) .e2big
  bugOn (portion.pebDescPerPortion ≥ Word.u16Max)
  let maptbl := { layout.maptbl with
    stripesPerPortion := portion.stripesPerPortion
    portionsPerFragment
    reservedPebsPerFragment := reservedPebsOf layout.maptbl
    maptblPebs
    lebtblPortionBytes := portion.lebtblPortionBytes
    lebtblPortionMempages := portion.lebtblPortionMempages
    pebtblPortionBytes := portion.pebtblPortionBytes
    pebtblPortionMempages := portion.stripesPerPortion
    lebsPerPortion := portion.pebDescPerPortion
    pebsPerPortion := portion.pebDescPerPortion
    portionsCount := fragments
    portionSize := portion.portionSize }
  let desc := { a.metaArray .pebMappingTable with segsCount := segs, segState := .dedicated }
  .ok ({ layout with maptbl }, a.setMeta .pebMappingTable desc, segs)

namespace VolumeLayout

def pebDescPerStripe (layout : VolumeLayout) : Nat :=
  layout.maptbl.pebsPerPortion / layout.maptbl.stripesPerPortion

def lebIndexPerStripe (layout : VolumeLayout) : Nat :=
  (layout.pebsPerSeg + layout.maptbl.stripesPerPortion - 1) / layout.maptbl.stripesPerPortion

structure Accepted (layout : VolumeLayout) : Prop where
  pebsPerVolume_pos : 0 < layout.pebsPerVolume
  stripes_pos : 0 < layout.maptbl.stripesPerPortion
  stripes_lt : layout.maptbl.stripesPerPortion < 65536
  pebs_eq : layout.maptbl.pebsPerPortion =
    layout.pebDescPerStripe * layout.maptbl.stripesPerPortion
  stripe_pos : 0 < layout.pebDescPerStripe
  stripe_le : layout.pebDescPerStripe ≤ 476
  pebs_lt : layout.maptbl.pebsPerPortion < 65535
  lebs_eq : layout.maptbl.lebsPerPortion = layout.maptbl.pebsPerPortion
  lebtbl_eq : layout.maptbl.lebtblPortionBytes =
    (layout.maptbl.pebsPerPortion + 1015) / 1016 * layout.pageSize.bytes
  mempages_eq : layout.maptbl.lebtblPortionMempages =
    (layout.maptbl.pebsPerPortion + 1015) / 1016
  portions_pos : 0 < layout.maptbl.portionsPerFragment
  portionsPerFragment_lt : layout.maptbl.portionsPerFragment < 65536
  portions_lt : layout.maptbl.portionsCount < 4294967296
  maptblPebs_lt : layout.maptbl.maptblPebs < 4294967296
  portions_eq : layout.maptbl.portionsCount =
    Word.u32 (layout.maptbl.maptblPebs * layout.maptbl.portionsPerFragment)
  pebsPerSeg_pos : 0 < layout.pebsPerSeg
  aligned : layout.maptbl.stripesPerPortion < layout.pebsPerSeg →
    layout.pebsPerSeg + layout.maptbl.stripesPerPortion - 1 < 4294967296 ∧
    layout.lebIndexPerStripe ∣ layout.pebDescPerStripe

end VolumeLayout

theorem fitStripes_lt {stripes : Nat} (h : stripes < 65536) (pebs : Nat) :
    fitStripes stripes pebs < 65536 := by
  unfold fitStripes
  split
  · decide
  · split
    · exact Word.u16_lt _
    · exact h

theorem deviceStripes_lt {layout : VolumeLayout} {stripes pebs s : Nat}
    (h : deviceStripes layout stripes pebs = .ok s) (hs : stripes < 65536) : s < 65536 := by
  unfold deviceStripes at h
  split at h
  · cases h; exact hs
  · cases h; exact hs
  · obtain ⟨-, h⟩ := quot_bind_eq_ok.1 h
    obtain ⟨-, h⟩ := failIf_bind_eq_ok.1 h
    cases h
    exact Word.u16_lt _
  · cases h

/-- Aligning a stripe never wraps: a wrapped sum would be divided down to a zero divisor. -/
theorem alignStripe_ok {pebsPerSeg stripes d : Nat} (hp : pebsPerSeg < 4294967296)
    (hs : stripes < 65536) (h : alignStripe pebsPerSeg stripes = .ok d) :
    d ≤ 476 ∧ (stripes < pebsPerSeg → pebsPerSeg + stripes - 1 < 4294967296 ∧
      (pebsPerSeg + stripes - 1) / stripes ∣ d) := by
  unfold alignStripe at h
  split at h
  case isTrue hlt =>
    obtain ⟨hs0, h⟩ := quot_bind_eq_ok.1 h
    obtain ⟨hl, h⟩ := quot_bind_eq_ok.1 h
    have hnw : pebsPerSeg + stripes - 1 < 4294967296 := by
      by_contra hw
      have : Word.u32 (pebsPerSeg + stripes - 1) < stripes := by
        unfold Word.u32
        omega
      exact hl (Nat.div_eq_of_lt this)
    rw [Word.u32_of_lt hnw] at h
    rw [pebDescPerFragment_page] at h
    have hle := Nat.div_mul_le_self 476 ((pebsPerSeg + stripes - 1) / stripes)
    rw [Word.u32_of_lt (by omega)] at h
    cases h
    exact ⟨hle, fun _ => ⟨hnw, Nat.dvd_mul_left _ _⟩⟩
  case isFalse hge =>
    cases h
    exact ⟨by simp, fun hlt => absurd hlt hge⟩

theorem definePortion_ok {layout : VolumeLayout} {stripes : Nat} {p : Portion}
    (h : definePortion layout stripes = .ok p) :
    ∃ s d, s < 65536 ∧ alignStripe layout.pebsPerSeg s = .ok d ∧
      p = portionOf layout.pageSize s d := by
  unfold definePortion at h
  obtain ⟨s₁, h₁, h⟩ := Checked.bind_eq_ok.1 h
  obtain ⟨-, h⟩ := bugOn_bind_eq_ok.1 h
  obtain ⟨s₂, h₂, h⟩ := Checked.bind_eq_ok.1 h
  obtain ⟨d, hd, h⟩ := Checked.bind_eq_ok.1 h
  cases h
  refine ⟨s₂, d, deviceStripes_lt h₂ (fitStripes_lt ?_ _), hd, rfl⟩
  have hu := Word.u16_lt stripes
  unfold correctMaptblStripesPerPortion at h₁
  split at h₁
  · obtain ⟨-, h₁⟩ := rem_bind_eq_ok.1 h₁
    cases h₁
    omega
  · split at h₁
    · obtain ⟨-, h₁⟩ := rem_bind_eq_ok.1 h₁
      cases h₁
      omega
    · cases h₁
      exact hu

theorem defineStripesPerPortion_ok {layout : VolumeLayout} {fuel stripes : Nat} {p : Portion}
    (h : defineStripesPerPortion layout fuel stripes = .ok p) :
    ∃ s d, s < 65536 ∧ alignStripe layout.pebsPerSeg s = .ok d ∧
      p = portionOf layout.pageSize s d := by
  induction fuel generalizing stripes with
  | zero => cases h
  | succ fuel ih =>
    unfold defineStripesPerPortion at h
    obtain ⟨q, hq, h⟩ := Checked.bind_eq_ok.1 h
    split at h
    · obtain ⟨-, h⟩ := bugOn_bind_eq_ok.1 h
      exact ih h
    · cases h
      exact definePortion_ok hq

theorem definePortionsPerFragment_lt {eraseSize portionSize requested n : Nat}
    (hr : requested < 65536)
    (h : definePortionsPerFragment eraseSize portionSize requested = .ok n) : n < 65536 := by
  unfold definePortionsPerFragment at h
  obtain ⟨-, h⟩ := quot_bind_eq_ok.1 h
  split at h
  · simp only at h
    split at h
    · obtain ⟨hlt, h⟩ := bugOn_bind_eq_ok.1 h
      unfold Word.u16Max at hlt
      cases h
      omega
    · cases h
      exact hr
  · split at h
    · cases h
      exact hr
    · cases h
      omega

/-- The geometry for one portion, `portionsPerFragment` of them in a PEB, and as many PEBs. -/
def chosenMaptbl (maptbl : MaptblLayout) (portion : Portion) (portionsPerFragment maptblPebs : Nat) :
    MaptblLayout :=
  { maptbl with
    stripesPerPortion := portion.stripesPerPortion
    portionsPerFragment
    reservedPebsPerFragment := reservedPebsOf maptbl
    maptblPebs
    lebtblPortionBytes := portion.lebtblPortionBytes
    lebtblPortionMempages := portion.lebtblPortionMempages
    pebtblPortionBytes := portion.pebtblPortionBytes
    pebtblPortionMempages := portion.stripesPerPortion
    lebsPerPortion := portion.pebDescPerPortion
    pebsPerPortion := portion.pebDescPerPortion
    portionsCount := Word.u32 (maptblPebs * portionsPerFragment)
    portionSize := portion.portionSize }

structure MaptblChosen (layout : VolumeLayout) (s d portionsPerFragment maptblSegs : Nat) : Prop where
  pebs_ne : layout.pebsPerVolume ≠ 0
  pebsPerSeg_ne : layout.pebsPerSeg ≠ 0
  stripes_lt : s < 65536
  stripe : alignStripe layout.pebsPerSeg s = .ok d
  portion_ne : (portionOf layout.pageSize s d).pebDescPerPortion ≠ 0
  portion_lt : (portionOf layout.pageSize s d).pebDescPerPortion < Word.u16Max
  portions : definePortionsPerFragment layout.env.eraseSize.toNat
    (portionOf layout.pageSize s d).portionSize (Word.u16 layout.maptbl.portionsPerFragment) =
      .ok portionsPerFragment
  portions_ne : portionsPerFragment ≠ 0
  pebs_lt : maptblSegs * layout.pebsPerSeg < 4294967296
  few : Word.sext32 (copiesOf layout.maptbl maptblSegs) ≤
    Word.u64 (layout.env.fsSize.toNat / layout.segSize.toNat * 10) / 100

theorem maptblMkfsAllocationPolicy_inv {fuel : Nat} {layout layout' : VolumeLayout}
    {a a' : SegsArray} {segs : Nat}
    (h : maptblMkfsAllocationPolicy fuel layout a = .ok (layout', a', segs)) :
    ∃ s d portionsPerFragment maptblSegs,
      MaptblChosen layout s d portionsPerFragment maptblSegs ∧
      layout' = { layout with
        maptbl := (chosenMaptbl layout.maptbl (portionOf layout.pageSize s d) portionsPerFragment
          (Word.u32 (maptblSegs * layout.pebsPerSeg))) } ∧
      segs = copiesOf layout.maptbl maptblSegs ∧
      a' = a.setMeta .pebMappingTable
        { a.metaArray .pebMappingTable with segsCount := segs, segState := .dedicated } := by
  unfold maptblMkfsAllocationPolicy at h
  obtain ⟨hseg, h⟩ := quot_bind_eq_ok.1 h
  obtain ⟨herase, h⟩ := quot_bind_eq_ok.1 h
  obtain ⟨hnums, h⟩ := bugOn_bind_eq_ok.1 h
  obtain ⟨hnz, h⟩ := rem_bind_eq_ok.1 h
  obtain ⟨-, h⟩ := bugOn_bind_eq_ok.1 h
  obtain ⟨p, hp, h⟩ := Checked.bind_eq_ok.1 h
  obtain ⟨hpeb, h⟩ := quot_bind_eq_ok.1 h
  obtain ⟨-, h⟩ := bugOn_bind_eq_ok.1 h
  obtain ⟨ppf, hppf, h⟩ := Checked.bind_eq_ok.1 h
  obtain ⟨hppf0, h⟩ := quot_bind_eq_ok.1 h
  obtain ⟨hpps0, h⟩ := quot_bind_eq_ok.1 h
  obtain ⟨hfew, h⟩ := failIf_bind_eq_ok.1 h
  obtain ⟨hP, h⟩ := bugOn_bind_eq_ok.1 h
  obtain ⟨s, d, hs, hd, rfl⟩ := defineStripesPerPortion_ok hp
  cases h
  exact ⟨s, d, ppf, _,
    { pebs_ne := by
        have := Nat.pos_of_ne_zero hnz
        change layout.pebsPerVolume ≠ 0
        omega
      pebsPerSeg_ne := hpps0
      stripes_lt := hs
      stripe := hd
      portion_ne := hpeb
      portion_lt := Nat.not_le.1 hP
      portions := hppf
      portions_ne := hppf0
      pebs_lt := Nat.lt_of_le_of_lt (Nat.div_mul_le_self _ _) (Word.u32_lt _)
      few := Nat.not_lt.1 hfew }, rfl, rfl, rfl⟩

theorem maptblMkfsAllocationPolicy_accepted {fuel : Nat} {layout layout' : VolumeLayout}
    {a a' : SegsArray} {segs : Nat}
    (h : maptblMkfsAllocationPolicy fuel layout a = .ok (layout', a', segs)) :
    layout'.Accepted := by
  obtain ⟨s, d, ppf, maptblSegs, hchosen, rfl, -, -⟩ := maptblMkfsAllocationPolicy_inv h
  obtain ⟨hnz, hpps0, hs, hd, hpeb, hP, hppf, hppf0, -, -⟩ := hchosen
  have hok := alignStripe_ok layout.pebsPerSeg_lt hs hd
  have hmul : Word.u32 (d * s) = d * s :=
    Word.u32_of_lt (Nat.lt_of_le_of_lt (Nat.mul_le_mul hok.1 (Nat.le_of_lt hs)) (by decide))
  have hds : 0 < d * s := by
    simp only [portionOf, hmul] at hpeb
    omega
  have hs0 : 0 < s := Nat.pos_of_mul_pos_left hds
  have hd0 : 0 < d := Nat.pos_of_mul_pos_right hds
  have hlt : d * s < 65535 := by
    simp only [portionOf, hmul, Word.u16Max] at hP
    exact hP
  have hdiv : d * s / s = d := Nat.mul_div_cancel _ hs0
  have hleb : Word.u32 (d * s + lebDescPerFragment pageCacheSize - 1) = d * s + 1015 := by
    rw [lebDescPerFragment_page, Word.u32_of_lt] <;> omega
  have hbytes : (d * s + 1015) / 1016 * layout.pageSize.bytes < 4294967296 := by
    have hm : (d * s + 1015) / 1016 ≤ 65 := by omega
    exact Nat.lt_of_le_of_lt (Nat.mul_le_mul hm layout.pageSize.bytes_le) (by decide)
  exact
    { pebsPerVolume_pos := Nat.pos_of_ne_zero hnz
      stripes_pos := hs0
      stripes_lt := hs
      pebs_eq := by
        change Word.u32 (d * s) = Word.u32 (d * s) / s * s
        rw [hmul, hdiv]
      stripe_pos := by
        change 0 < Word.u32 (d * s) / s
        rwa [hmul, hdiv]
      stripe_le := by
        change Word.u32 (d * s) / s ≤ 476
        rw [hmul, hdiv]
        exact hok.1
      pebs_lt := by
        change Word.u32 (d * s) < 65535
        rwa [hmul]
      lebs_eq := rfl
      lebtbl_eq := by
        change Word.u32 (Word.u32 (Word.u32 (d * s) + lebDescPerFragment pageCacheSize - 1) /
          lebDescPerFragment pageCacheSize * layout.pageSize.bytes) =
            (Word.u32 (d * s) + 1015) / 1016 * layout.pageSize.bytes
        rw [hmul, hleb, lebDescPerFragment_page, Word.u32_of_lt hbytes]
      mempages_eq := by
        change Word.u32 (Word.u32 (d * s) + lebDescPerFragment pageCacheSize - 1) /
          lebDescPerFragment pageCacheSize = (Word.u32 (d * s) + 1015) / 1016
        rw [hmul, hleb, lebDescPerFragment_page]
      portions_pos := Nat.pos_of_ne_zero hppf0
      portionsPerFragment_lt := definePortionsPerFragment_lt (Word.u16_lt _) hppf
      portions_lt := Word.u32_lt _
      maptblPebs_lt := Word.u32_lt _
      portions_eq := rfl
      pebsPerSeg_pos := Nat.pos_of_ne_zero hpps0
      aligned := fun hlt => by
        refine ⟨(hok.2 hlt).1, ?_⟩
        change _ ∣ Word.u32 (d * s) / s
        rw [hmul, hdiv]
        exact (hok.2 hlt).2 }

end Ssdfs
