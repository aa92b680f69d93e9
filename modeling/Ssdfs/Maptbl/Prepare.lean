import Ssdfs.Maptbl.Geometry
import Ssdfs.Maptbl.Policy
import Ssdfs.Maptbl.Tables

namespace Ssdfs

/-- Empty buffers for the whole table, as `calloc` returns them. -/
def maptblCreateFragmentsArray : Tables := fun _ _ => .zero

def lebtblMempages (layout : VolumeLayout) : Nat :=
  Word.u16 (layout.maptbl.lebtblPortionBytes / layout.pageSize.bytes)

def maptblPrepareLebTable (layout : VolumeLayout) (portionIndex mempageIndex : Nat)
    (_ : LebTableFragment) : Mkfs LebTableFragment := do
  let lebDescPerMempage := lebDescPerFragment pageCacheSize
  bugOn (lebtblMempages layout = 0)
  bugOn (mempageIndex ≥ lebtblMempages layout)
  let startPortionLeb := Word.u64 (layout.maptbl.lebsPerPortion * portionIndex)
  let startFragmentLeb := Word.u64 (startPortionLeb + lebDescPerMempage * mempageIndex)
  let lebsCount :=
    if layout.pebsPerVolume ≤ startFragmentLeb then 0
    else min (min (layout.pebsPerVolume - startFragmentLeb) layout.maptbl.lebsPerPortion)
      lebDescPerMempage
  let bytesCount := Word.u32 (lebTableFragmentHeaderSize + lebsCount * lebDescriptorSize)
  bugOn (lebsCount ≥ Word.u16Max)
  .ok
    { magic := lebTableMagic
      flags := 0
      startLeb := if mempageIndex = 0 then startPortionLeb else startFragmentLeb
      lebsCount
      mappedLebs := 0
      migratingLebs := 0
      portionId := portionIndex
      fragmentId := mempageIndex
      bytesCount
      desc := fun _ => ⟨0xFFFF, 0xFFFF⟩ }

def recoverMonthsDefault : Nat := 1
def firstRecoverTry : Nat := 0

section

variable (layout : VolumeLayout)

def portionRestPebs (portionIndex : Nat) : Nat :=
  min (Word.sub64 layout.pebsPerVolume
    (Word.u64 (layout.maptbl.pebsPerPortion * portionIndex))) layout.maptbl.pebsPerPortion

def portionPebDescPerStripe (portionIndex : Nat) : Nat :=
  Word.u32 (portionRestPebs layout portionIndex / layout.maptbl.stripesPerPortion +
    if portionRestPebs layout portionIndex % layout.maptbl.stripesPerPortion = 0 then 0 else 1)

def stripeStartPeb (portionIndex stripeIndex : Nat) : Nat :=
  Word.u64 (layout.maptbl.pebsPerPortion * portionIndex +
    portionPebDescPerStripe layout portionIndex * stripeIndex)

def stripePebsCount (portionIndex stripeIndex : Nat) : Nat :=
  let startPeb := stripeStartPeb layout portionIndex stripeIndex
  if layout.pebsPerVolume ≤ startPeb then 0
  else
    let pebsCount := portionRestPebs layout portionIndex
    let pebsCount := Word.u64 (pebsCount + pebsCount % layout.maptbl.stripesPerPortion)
    let pebsCount := pebsCount / layout.maptbl.stripesPerPortion
    if Word.u64 (startPeb + pebsCount) > layout.pebsPerVolume then
      layout.pebsPerVolume - startPeb
    else pebsCount

end

def maptblPreparePebTable (layout : VolumeLayout) (portionIndex stripeIndex : Nat)
    (hdr : PebTableFragment) : Mkfs PebTableFragment := do
  bugOn (stripeIndex ≥ layout.maptbl.stripesPerPortion)
  let startPeb := stripeStartPeb layout portionIndex stripeIndex
  let pebsCount := stripePebsCount layout portionIndex stripeIndex
  let bytesCount := Word.u32 (pebTableFragmentHeaderSize + pebsCount * pebDescriptorSize)
  bugOn (pebsCount ≥ Word.u16Max)
  let reservedPebs := Word.u64 (pebsCount * layout.maptbl.reservedPebsPerFragment) / 100
  bugOn (reservedPebs ≥ Word.u16Max)
  .ok { hdr with
      magic := pebTableMagic
      flags := 0
      recoverMonths := recoverMonthsDefault
      recoverThreshold := firstRecoverTry
      startPeb
      pebsCount
      lastSelectedPeb := 0
      reservedPebs
      stripeId := stripeIndex
      portionId := portionIndex
      fragmentId := stripeIndex
      bytesCount }

def maptblPreparePortion (layout : VolumeLayout) (index : Nat) (t : Tables) : Mkfs Tables := do
  failIf (index ≥ layout.maptbl.portionsCount) .einval
  let fragment ← quot index layout.maptbl.portionsPerFragment
  let portion ← rem index layout.maptbl.portionsPerFragment
  bugOn (lebtblMempages layout = 0)
  let lebtbl ← Checked.fill (lebtblMempages layout) (maptblPrepareLebTable layout index)
    (t fragment portion).lebtbl
  let pebtbl ← Checked.fill layout.maptbl.stripesPerPortion (maptblPreparePebTable layout index)
    (t fragment portion).pebtbl
  .ok (t.set fragment portion ⟨lebtbl, pebtbl⟩)

def maptblMkfsPrepare (layout : VolumeLayout) (a : SegsArray) : Mkfs (SegsArray × Tables) := do
  let a ← reserveSegments .pebMappingTable a
  bugOn (layout.maptbl.portionsCount ≥ Word.u16Max)
  let t ← Checked.forRange layout.maptbl.portionsCount
    (fun i t => maptblPreparePortion layout (Word.u16 i) t) maptblCreateFragmentsArray
  .ok (a, t)

namespace VolumeLayout

variable (layout : VolumeLayout)

abbrev restPebs (portion : Nat) : Nat :=
  Geometry.restPebs layout.pebsPerVolume layout.maptbl.pebsPerPortion portion

abbrev stripeWidth (portion : Nat) : Nat :=
  Geometry.stripeWidth layout.pebsPerVolume layout.maptbl.pebsPerPortion
    layout.maptbl.stripesPerPortion portion

abbrev stripeStart (portion stripe : Nat) : Nat :=
  Geometry.stripeStart layout.pebsPerVolume layout.maptbl.pebsPerPortion
    layout.maptbl.stripesPerPortion portion stripe

abbrev stripeCount (portion stripe : Nat) : Nat :=
  Geometry.stripeCount layout.pebsPerVolume layout.maptbl.pebsPerPortion
    layout.maptbl.stripesPerPortion portion stripe

abbrev pageStart (portion page : Nat) : Nat :=
  Geometry.pageStart layout.maptbl.pebsPerPortion portion page

abbrev pageCount (portion page : Nat) : Nat :=
  Geometry.pageCount layout.pebsPerVolume layout.maptbl.pebsPerPortion portion page

abbrev lebtblPages : Nat := Geometry.pages layout.maptbl.pebsPerPortion

theorem stripeCount_def (portion stripe : Nat) : layout.stripeCount portion stripe =
    if layout.pebsPerVolume ≤ layout.stripeStart portion stripe then 0
    else min ((layout.restPebs portion +
        layout.restPebs portion % layout.maptbl.stripesPerPortion) /
          layout.maptbl.stripesPerPortion)
      (layout.pebsPerVolume - layout.stripeStart portion stripe) := rfl

end VolumeLayout

section

variable (layout : VolumeLayout)

def freshLebTable (portion page : Nat) : LebTableFragment where
  magic := lebTableMagic
  flags := 0
  startLeb := layout.pageStart portion page
  lebsCount := layout.pageCount portion page
  mappedLebs := 0
  migratingLebs := 0
  portionId := portion
  fragmentId := page
  bytesCount := 32 + 4 * layout.pageCount portion page
  desc := fun _ => ⟨0xFFFF, 0xFFFF⟩

def freshPebTable (portion stripe : Nat) : PebTableFragment :=
  { PebTableFragment.zero with
    magic := pebTableMagic
    recoverMonths := recoverMonthsDefault
    recoverThreshold := firstRecoverTry
    startPeb := layout.stripeStart portion stripe
    pebsCount := layout.stripeCount portion stripe
    reservedPebs :=
      Word.u64 (layout.stripeCount portion stripe * layout.maptbl.reservedPebsPerFragment) / 100
    stripeId := stripe
    portionId := portion
    fragmentId := stripe
    bytesCount := 288 + 8 * layout.stripeCount portion stripe }

def freshPortion (portion : Nat) : PortionTables where
  lebtbl m := if m < layout.lebtblPages then
    freshLebTable layout portion m else .zero
  pebtbl j := if j < layout.maptbl.stripesPerPortion then
    freshPebTable layout portion j else .zero

/-- Portion `i` lies in fragment `i / portions_per_fragment`, and nothing is written behind
the first `n` portions. -/
def Tables.fresh (n : Nat) : Tables := fun f p =>
  if p < layout.maptbl.portionsPerFragment ∧ layout.maptbl.portionsPerFragment * f + p < n then
    freshPortion layout (layout.maptbl.portionsPerFragment * f + p)
  else .zero

end

variable {layout : VolumeLayout}

theorem lebtblMempages_eq (hacc : layout.Accepted) :
    lebtblMempages layout = layout.lebtblPages := by
  have hpos : 0 < layout.pageSize.bytes := Nat.lt_of_lt_of_le (by decide) layout.pageSize.bytes_ge
  have hlt := hacc.pebs_lt
  unfold lebtblMempages VolumeLayout.lebtblPages Geometry.pages
  rw [hacc.lebtbl_eq, Nat.mul_div_cancel _ hpos, Word.u16_of_lt (by omega)]

theorem VolumeLayout.Accepted.mul_lt (hacc : layout.Accepted) {i : Nat} (hi : i < 65536) :
    layout.maptbl.pebsPerPortion * i < 65535 * 65536 :=
  Nat.mul_lt_mul_of_lt_of_le hacc.pebs_lt (by omega) (by omega)

theorem maptblPrepareLebTable_ok (hacc : layout.Accepted) {i m : Nat} (hi : i < 65536)
    {old f : LebTableFragment} (h : maptblPrepareLebTable layout i m old = .ok f) :
    f = freshLebTable layout i m := by
  unfold maptblPrepareLebTable at h
  obtain ⟨-, h⟩ := bugOn_bind_eq_ok.1 h
  obtain ⟨hm, h⟩ := bugOn_bind_eq_ok.1 h
  obtain ⟨-, h⟩ := bugOn_bind_eq_ok.1 h
  have hP := hacc.pebs_lt
  have hmul := hacc.mul_lt hi
  rw [lebtblMempages_eq hacc] at hm
  unfold VolumeLayout.lebtblPages Geometry.pages at hm
  have hstart : Word.u64 (layout.maptbl.pebsPerPortion * i) = layout.maptbl.pebsPerPortion * i :=
    Word.u64_of_lt (by omega)
  have hpage : Word.u64 (layout.maptbl.pebsPerPortion * i + 1016 * m) = layout.pageStart i m :=
    Word.u64_of_lt (by omega)
  have hle : layout.pageCount i m ≤ 1016 := Geometry.pageCount_le i m
  simp only [hacc.lebs_eq, hstart, lebDescPerFragment_page, hpage] at h
  cases h
  unfold freshLebTable
  congr 1
  · split
    · subst m
      simp [Geometry.pageStart]
    · rfl
  · change Word.u32 (32 + layout.pageCount i m * 4) = 32 + 4 * layout.pageCount i m
    rw [Word.u32_of_lt (by omega)]
    omega

theorem VolumeLayout.Accepted.stripes_dvd (hacc : layout.Accepted) :
    layout.maptbl.stripesPerPortion ∣ layout.maptbl.pebsPerPortion := by
  rw [hacc.pebs_eq]
  exact Nat.dvd_mul_left _ _

theorem VolumeLayout.Accepted.pebs_pos (hacc : layout.Accepted) :
    0 < layout.maptbl.pebsPerPortion := by
  rw [hacc.pebs_eq]
  exact Nat.mul_pos hacc.stripe_pos hacc.stripes_pos

theorem VolumeLayout.Accepted.stripeWidth_le (hacc : layout.Accepted) (i : Nat) :
    layout.stripeWidth i ≤ 476 :=
  Nat.le_trans (Geometry.stripeWidth_le hacc.stripes_dvd i) hacc.stripe_le

theorem VolumeLayout.Accepted.stripeCount_le (hacc : layout.Accepted) (i j : Nat) :
    layout.stripeCount i j ≤ 476 :=
  Nat.le_trans (Geometry.stripeCount_le_width hacc.stripes_pos i j) (hacc.stripeWidth_le i)

theorem VolumeLayout.Accepted.stripeWidth_pos (hacc : layout.Accepted) {portion : Nat}
    (hbase : layout.maptbl.pebsPerPortion * portion < layout.pebsPerVolume) :
    0 < layout.stripeWidth portion :=
  Geometry.stripeWidth_pos hacc.stripes_pos hacc.pebs_pos hbase

/-- The subtraction wraps for a portion behind the volume, and the minimum hides it. -/
theorem portionRestPebs_eq (hacc : layout.Accepted) {i : Nat} (hi : i < 65536) :
    portionRestPebs layout i = layout.restPebs i := by
  have hP := hacc.pebs_lt
  have hmul := hacc.mul_lt hi
  have hN := layout.pebsPerVolume_lt
  unfold portionRestPebs VolumeLayout.restPebs Geometry.restPebs
  rw [Word.u64_of_lt (by omega)]
  split
  case isTrue h => rw [Word.sub64_of_lt h (by omega), Nat.min_eq_right (by omega)]
  case isFalse h => rw [Word.sub64_of_le (by omega) hN]

theorem portionPebDescPerStripe_eq (hacc : layout.Accepted) {i : Nat} (hi : i < 65536) :
    portionPebDescPerStripe layout i = layout.stripeWidth i := by
  unfold portionPebDescPerStripe
  rw [portionRestPebs_eq hacc hi]
  exact Word.u32_of_lt (Nat.lt_of_le_of_lt (hacc.stripeWidth_le i) (by decide))

theorem stripeStartPeb_eq (hacc : layout.Accepted) {i j : Nat} (hi : i < 65536)
    (hj : j < 65536) : stripeStartPeb layout i j = layout.stripeStart i j := by
  have hmul := hacc.mul_lt hi
  have hstride : layout.stripeWidth i * j ≤ 476 * 65536 :=
    Nat.mul_le_mul (hacc.stripeWidth_le i) (by omega)
  unfold stripeStartPeb
  rw [portionPebDescPerStripe_eq hacc hi]
  exact Word.u64_of_lt (by omega)

theorem stripePebsCount_eq (hacc : layout.Accepted) {i j : Nat} (hi : i < 65536)
    (hj : j < 65536) : stripePebsCount layout i j = layout.stripeCount i j := by
  have hP := hacc.pebs_lt
  have hmul := hacc.mul_lt hi
  have hstride : layout.stripeWidth i * j ≤ 476 * 65536 :=
    Nat.mul_le_mul (hacc.stripeWidth_le i) (by omega)
  have hrest : layout.restPebs i ≤ layout.maptbl.pebsPerPortion := Geometry.restPebs_le i
  have hmod := Nat.mod_le (layout.restPebs i) layout.maptbl.stripesPerPortion
  have hdiv := Nat.div_le_self (layout.restPebs i + layout.restPebs i %
    layout.maptbl.stripesPerPortion) layout.maptbl.stripesPerPortion
  have hdef : layout.stripeStart i j =
      layout.maptbl.pebsPerPortion * i + layout.stripeWidth i * j := rfl
  unfold stripePebsCount
  rw [VolumeLayout.stripeCount_def, stripeStartPeb_eq hacc hi hj, portionRestPebs_eq hacc hi]
  have hsum : Word.u64 (layout.restPebs i + layout.restPebs i % layout.maptbl.stripesPerPortion) =
      layout.restPebs i + layout.restPebs i % layout.maptbl.stripesPerPortion :=
    Word.u64_of_lt (by omega)
  have hend : Word.u64 (layout.stripeStart i j + (layout.restPebs i +
      layout.restPebs i % layout.maptbl.stripesPerPortion) / layout.maptbl.stripesPerPortion) =
        layout.stripeStart i j + (layout.restPebs i +
          layout.restPebs i % layout.maptbl.stripesPerPortion) / layout.maptbl.stripesPerPortion :=
    Word.u64_of_lt (by omega)
  simp only [hsum, hend]
  split
  · rfl
  · split <;> omega

theorem maptblPreparePebTable_ok (hacc : layout.Accepted) {i j : Nat} (hi : i < 65536)
    {f : PebTableFragment} (h : maptblPreparePebTable layout i j .zero = .ok f) :
    f = freshPebTable layout i j := by
  unfold maptblPreparePebTable at h
  obtain ⟨hj, h⟩ := bugOn_bind_eq_ok.1 h
  have hs := hacc.stripes_lt
  rw [stripeStartPeb_eq hacc hi (by omega), stripePebsCount_eq hacc hi (by omega)] at h
  obtain ⟨-, h⟩ := bugOn_bind_eq_ok.1 h
  obtain ⟨-, h⟩ := bugOn_bind_eq_ok.1 h
  have hcount := hacc.stripeCount_le i j
  cases h
  unfold freshPebTable
  congr 1
  change Word.u32 (288 + layout.stripeCount i j * 8) = 288 + 8 * layout.stripeCount i j
  rw [Word.u32_of_lt (by omega)]
  omega

theorem Tables.fresh_index (n i : Nat) (hpos : 0 < layout.maptbl.portionsPerFragment) :
    Tables.fresh layout n (i / layout.maptbl.portionsPerFragment)
      (i % layout.maptbl.portionsPerFragment) = if i < n then freshPortion layout i else .zero := by
  have hdm := Nat.div_add_mod i layout.maptbl.portionsPerFragment
  have hmod := Nat.mod_lt i hpos
  unfold Tables.fresh
  rw [hdm]
  by_cases h : i < n
  · rw [if_pos ⟨hmod, h⟩, if_pos h]
  · rw [if_neg (fun hc => h hc.2), if_neg h]

theorem Tables.fresh_set (n : Nat) (hpos : 0 < layout.maptbl.portionsPerFragment) :
    (Tables.fresh layout n).set (n / layout.maptbl.portionsPerFragment)
      (n % layout.maptbl.portionsPerFragment) (freshPortion layout n) =
        Tables.fresh layout (n + 1) := by
  have hdm := Nat.div_add_mod n layout.maptbl.portionsPerFragment
  funext f p
  by_cases hk : (f, p) = (n / layout.maptbl.portionsPerFragment,
      n % layout.maptbl.portionsPerFragment)
  · cases hk
    rw [Tables.set_self, Tables.fresh_index _ _ hpos, if_pos (Nat.lt_succ_self n)]
  · rw [Tables.set_of_ne _ _ _ _ hk]
    unfold Tables.fresh
    by_cases hp : p < layout.maptbl.portionsPerFragment
    · have hne : layout.maptbl.portionsPerFragment * f + p ≠ n := fun heq => hk <| by
        rw [← heq, Nat.mul_add_div hpos, Nat.div_eq_of_lt hp, Nat.mul_add_mod,
          Nat.mod_eq_of_lt hp, Nat.add_zero]
      simp only [hp, true_and]
      by_cases hlt : layout.maptbl.portionsPerFragment * f + p < n
      · rw [if_pos hlt, if_pos (Nat.lt_succ_of_lt hlt)]
      · rw [if_neg hlt, if_neg (by omega)]
    · rw [if_neg (fun hc => hp hc.1), if_neg (fun hc => hp hc.1)]

theorem maptblPreparePortion_ok (hacc : layout.Accepted) {i : Nat} (hi : i < 65536)
    {t t' : Tables}
    (hz : t (i / layout.maptbl.portionsPerFragment) (i % layout.maptbl.portionsPerFragment) =
      .zero)
    (h : maptblPreparePortion layout i t = .ok t') :
    t' = t.set (i / layout.maptbl.portionsPerFragment) (i % layout.maptbl.portionsPerFragment)
      (freshPortion layout i) := by
  unfold maptblPreparePortion at h
  obtain ⟨-, h⟩ := failIf_bind_eq_ok.1 h
  obtain ⟨-, h⟩ := quot_bind_eq_ok.1 h
  obtain ⟨-, h⟩ := rem_bind_eq_ok.1 h
  obtain ⟨-, h⟩ := bugOn_bind_eq_ok.1 h
  rw [hz] at h
  obtain ⟨lebtbl, hleb, h⟩ := Checked.bind_eq_ok.1 h
  obtain ⟨pebtbl, hpeb, h⟩ := Checked.bind_eq_ok.1 h
  cases h
  congr 1
  obtain ⟨hleb, hleb'⟩ := Checked.fill_ok hleb
  obtain ⟨hpeb, hpeb'⟩ := Checked.fill_ok hpeb
  rw [lebtblMempages_eq hacc] at hleb hleb'
  unfold freshPortion
  congr 1
  · funext m
    split
    case isTrue hm => exact maptblPrepareLebTable_ok hacc hi (hleb m hm)
    case isFalse hm => exact hleb' m (Nat.le_of_not_lt hm)
  · funext j
    split
    case isTrue hj => exact maptblPreparePebTable_ok hacc hi (hpeb j hj)
    case isFalse hj => exact hpeb' j (Nat.le_of_not_lt hj)

/-- The prepared table is the fresh one, whatever segments were reserved for it. -/
theorem maptblMkfsPrepare_ok (hacc : layout.Accepted) {a a' : SegsArray} {t : Tables}
    (h : maptblMkfsPrepare layout a = .ok (a', t)) :
    t = Tables.fresh layout layout.maptbl.portionsCount ∧ layout.maptbl.portionsCount < 65535 := by
  unfold maptblMkfsPrepare at h
  obtain ⟨_, -, h⟩ := Checked.bind_eq_ok.1 h
  obtain ⟨hlt, h⟩ := bugOn_bind_eq_ok.1 h
  obtain ⟨u, hu, h⟩ := Checked.bind_eq_ok.1 h
  cases h
  have hportions : layout.maptbl.portionsCount < 65535 := by
    unfold Word.u16Max at hlt
    omega
  refine ⟨?_, hportions⟩
  refine Checked.forRange_ind (fun n t => t = Tables.fresh layout n) hu ?_ ?_
  · funext f p
    unfold Tables.fresh
    rw [if_neg (fun hc => Nat.not_lt_zero _ hc.2)]
    rfl
  · rintro i hi t t' rfl hstep
    rw [Word.u16_of_lt (by omega)] at hstep
    have hz : Tables.fresh layout i (i / layout.maptbl.portionsPerFragment)
        (i % layout.maptbl.portionsPerFragment) = .zero := by
      rw [Tables.fresh_index _ _ hacc.portions_pos, if_neg (Nat.lt_irrefl i)]
    rw [maptblPreparePortion_ok hacc (by omega) hz hstep]
    exact Tables.fresh_set i hacc.portions_pos

end Ssdfs
