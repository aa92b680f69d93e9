import Ssdfs.Mkfs.Segments

namespace Ssdfs

def assignedPebs (layout : VolumeLayout) (desc : SegmentDesc) : Nat :=
  match desc.segType with
  | some .initialSnapshot => 1
  | some .segbmap => layout.segbmap.pebsPerSeg
  | _ => desc.pebsCapacity

/-- No LEB is given out twice, and all of them are on the volume. -/
structure LebIdsSound (layout : VolumeLayout) (a : SegsArray) : Prop where
  distinct : ∀ s < a.segsCapacity, ∀ i < assignedPebs layout (a.segs s),
    ∀ s' < a.segsCapacity, ∀ i' < assignedPebs layout (a.segs s'),
      ((a.segs s).pebs i).lebId = ((a.segs s').pebs i').lebId → s = s' ∧ i = i'
  lt : ∀ s < a.segsCapacity, ∀ i < assignedPebs layout (a.segs s),
    ((a.segs s).pebs i).lebId < layout.pebsPerVolume

/-- How far PEB `i` is from the first one of its segment. -/
def lebOffset (index i : Nat) : Nat := Word.u32 (i * index)

/-- The metadata segments fit between the LEBs of two PEBs, and behind the last one. Where the
offsets wrap around, none of the segments is where another one's LEB falls. -/
structure LebsApart (layout : VolumeLayout) (a : SegsArray) (index : Nat) : Prop where
  apart : ∀ k, 0 < k → k < layout.pebsPerSeg → a.segsCapacity ≤ lebOffset index k + 1
  below : ∀ k < layout.pebsPerSeg, lebOffset index k + a.segsCapacity ≤ layout.pebsPerVolume
  wrapped : ∀ i j, i < j → lebOffset index j < lebOffset index i →
    ∀ s s', s' < a.segsCapacity → i < assignedPebs layout (a.segs s) →
      j < assignedPebs layout (a.segs s') → s' ≠ s + (lebOffset index i - lebOffset index j)

section

variable {layout layout' : VolumeLayout} {a a' : SegsArray} {fuel b m i k : Nat} {requested : UInt16}
  {g : SegbmapGeometry} {sectorsPerZone : Option UInt32}

structure LebsDefined (options layout : VolumeLayout) (b m : Nat) (a : SegsArray) : Prop where
  corrected : OptionsCorrected options layout
  maptbl_pos : 0 < m
  capacity : a.segsCapacity = 7 + b + m
  few : a.segsCapacity ≤ layout.segNums
  first : assignedPebs layout (a.segs 0) = 1
  whole : ∀ i < a.segsCapacity, 0 < i → i < 7 ∨ 7 + b ≤ i →
    assignedPebs layout (a.segs i) = layout.pebsPerSeg
  segbmap : ∀ i < a.segsCapacity, 7 ≤ i → i < 7 + b →
    assignedPebs layout (a.segs i) = layout.segbmap.pebsPerSeg
  assigned_pos : ∀ i < a.segsCapacity, 0 < assignedPebs layout (a.segs i)
  assigned_le : ∀ i < a.segsCapacity, assignedPebs layout (a.segs i) ≤ layout.pebsPerSeg
  rest : ∀ i < a.segsCapacity, ∀ k, assignedPebs layout (a.segs i) ≤ k → k < layout.pebsPerSeg →
    ((a.segs i).pebs k).lebId = Word.u64Max
  lebId : ∀ i < a.segsCapacity, ∀ k < assignedPebs layout (a.segs i), ((a.segs i).pebs k).lebId =
    Word.u64 ((if layout.lebsPerPebIndex = 1 then Word.u64 (i * layout.pebsPerSeg) else i) +
      lebOffset layout.lebsPerPebIndex.toNat k)

theorem defineLebId_ok {desc desc' : SegmentDesc} (h : defineLebId layout desc = .ok desc') :
    desc'.segType = desc.segType ∧ assignedPebs layout desc' = assignedPebs layout desc ∧
      assignedPebs layout desc ≤ desc.pebsCapacity ∧
      (∀ k < assignedPebs layout desc, (desc'.pebs k).lebId =
        Word.u64 ((if layout.lebsPerPebIndex = 1 then Word.u64 (desc.segId * desc.pebsCapacity)
          else desc.segId) + lebOffset layout.lebsPerPebIndex.toNat k)) ∧
      ∀ k, assignedPebs layout desc ≤ k → k < desc.pebsCapacity →
        (desc'.pebs k).lebId = Word.u64Max := by
  unfold defineLebId at h
  change (if desc.pebsCapacity < assignedPebs layout desc then _ else _) = _ at h
  split at h
  · cases h
  case isFalse hle =>
    cases h
    refine ⟨rfl, rfl, Nat.not_lt.1 hle, fun k hk => ?_, fun k hk hcap => ?_⟩
    · change (if k < assignedPebs layout desc then _ else _) = _
      rw [if_pos hk]
      rfl
    · change (if k < assignedPebs layout desc then _ else if k < desc.pebsCapacity then _ else _) = _
      rw [if_neg (Nat.not_lt.2 hk), if_pos hcap]

def assignedOf (layout : VolumeLayout) : MetaIndex → Nat
  | .initialSnapshot => 1
  | .segbmap => layout.segbmap.pebsPerSeg
  | _ => layout.pebsPerSeg

theorem SegsDefined.lebsDefined {options : VolumeLayout} (hdefined : SegsDefined options layout g b m a a') :
    LebsDefined options layout b m a' := by
  have hnumbered := hdefined.numbered
  have hcapacity := hdefined.capacity
  have hm := hdefined.maptbl_pos
  have hsegs : ∀ i < a.segsCapacity, ∃ desc : SegmentDesc, desc.segType = some (metaIndexOf b i) ∧
      desc.segId = i ∧ desc.pebsCapacity = layout.pebsPerSeg ∧
      defineLebId layout desc = .ok (a'.segs i) := fun i hi =>
    ⟨{ a.segs i with segId := i }, hdefined.types i hi, rfl, hdefined.pebs i,
      (hnumbered.numbered i hi).2⟩
  have hassigned : ∀ i < a.segsCapacity, assignedPebs layout (a'.segs i) =
      assignedOf layout (metaIndexOf b i) := fun i hi => by
    obtain ⟨desc, htype, -, hcap, hleb⟩ := hsegs i hi
    rw [(defineLebId_ok hleb).2.1]
    unfold assignedPebs
    rw [htype, hcap]
    cases metaIndexOf b i <;> rfl
  have hpps : 0 < layout.pebsPerSeg := by
    obtain ⟨k, hk, -⟩ := hdefined.corrected.sizes.pebsPerSeg_eq
    rw [hk]
    exact Nat.two_pow_pos k
  rw [← hnumbered.capacity] at hcapacity hsegs hassigned
  exact
    { corrected := hdefined.corrected
      maptbl_pos := hm
      capacity := hcapacity
      few := hcapacity ▸ hdefined.few
      first := hassigned 0 (by omega)
      whole := fun i hi hpos hwhole => by
        rw [hassigned i hi]
        unfold metaIndexOf
        rw [if_neg (by omega)]
        split_ifs <;> first | rfl | omega
      segbmap := fun i hi hlo hhi => by
        rw [hassigned i hi]
        unfold metaIndexOf
        rw [if_neg (by omega), if_neg (by omega), if_pos hhi]
        rfl
      assigned_pos := fun i hi => by
        rw [hassigned i hi]
        cases metaIndexOf b i
        case initialSnapshot => exact Nat.one_pos
        case segbmap =>
          change 0 < layout.segbmap.pebsPerSeg
          rw [hdefined.segbmapPebs]
          exact hdefined.segbmap.pebsPerSeg_pos
        all_goals exact hpps
      assigned_le := fun i hi => by
        obtain ⟨desc, -, -, hcap, hleb⟩ := hsegs i hi
        obtain ⟨-, heq, hle, -⟩ := defineLebId_ok hleb
        rwa [heq, ← hcap]
      rest := fun i hi k hk hlt => by
        obtain ⟨desc, -, -, hcap, hleb⟩ := hsegs i hi
        obtain ⟨-, heq, -, -, hrest⟩ := defineLebId_ok hleb
        exact hrest k (heq ▸ hk) (hcap.symm ▸ hlt)
      lebId := fun i hi k hk => by
        obtain ⟨desc, -, hid, hcap, hleb⟩ := hsegs i hi
        obtain ⟨-, heq, -, hlebs, -⟩ := defineLebId_ok hleb
        rw [heq] at hk
        rw [hlebs k hk, hid, hcap] }

theorem mkfsDefineSegs_ok (hsizes : layout.SizesAccepted) (hindex : layout.lebsPerPebIndex = 1)
    (h : mkfsDefineSegs sectorsPerZone fuel requested layout = .ok (layout', a)) :
    ∃ b m, LebsDefined layout layout' b m a := by
  obtain ⟨g, b, m, a₄, hdefined⟩ := mkfsDefineSegs_run hsizes hindex h
  exact ⟨b, m, hdefined.lebsDefined⟩

/-- Two offsets that do not wrap around are the offset of their distance apart. -/
theorem lebOffset_sub {index i j : Nat} (hij : i < j) (hle : lebOffset index i ≤ lebOffset index j) :
    lebOffset index j = lebOffset index i + lebOffset index (j - i) := by
  have hsum : j * index = i * index + (j - i) * index := by
    rw [← Nat.add_mul, Nat.add_sub_cancel' (Nat.le_of_lt hij)]
  unfold lebOffset Word.u32 at hle ⊢
  rw [hsum] at hle ⊢
  generalize i * index = x at hle ⊢
  generalize (j - i) * index = y at hle ⊢
  omega

theorem lebOffset_lt {index i : Nat} : lebOffset index i < 4294967296 := Word.u32_lt _

@[simp] theorem lebOffset_zero {index : Nat} : lebOffset index 0 = 0 := by
  unfold lebOffset
  rw [Nat.zero_mul]
  rfl

namespace LebsDefined

theorem lebId_packed (h : LebsDefined layout layout' b m a) (hindex : layout'.lebsPerPebIndex = 1)
    (hi : i < a.segsCapacity) (hk : k < assignedPebs layout' (a.segs i)) :
    ((a.segs i).pebs k).lebId = i * layout'.pebsPerSeg + k ∧
      i * layout'.pebsPerSeg + k < layout'.pebsPerVolume := by
  have hassigned := h.assigned_le i hi
  have hlt := layout'.pebsPerVolume_lt
  have hpebs := layout'.pebsPerSeg_lt
  have hmul := Nat.mul_le_mul_right layout'.pebsPerSeg
    (Nat.succ_le_of_lt (Nat.lt_of_lt_of_le hi h.few))
  rw [← h.corrected.pebs, Nat.succ_mul] at hmul
  have hone : layout'.lebsPerPebIndex.toNat = 1 := by
    rw [hindex]
    rfl
  refine ⟨?_, by omega⟩
  rw [h.lebId i hi k hk, if_pos hindex, hone]
  unfold lebOffset
  rw [Nat.mul_one, Word.u32_of_lt (by omega), Word.u64_of_lt (n := i * _) (by omega),
    Word.u64_of_lt (by omega)]

theorem lebId_spread (h : LebsDefined layout layout' b m a) (hindex : layout'.lebsPerPebIndex ≠ 1)
    (hi : i < a.segsCapacity) (hk : k < assignedPebs layout' (a.segs i)) :
    ((a.segs i).pebs k).lebId = i + lebOffset layout'.lebsPerPebIndex.toNat k := by
  have hlt := Nat.lt_of_lt_of_le hi h.few
  have hn := h.corrected.sizes.segNums_lt
  have hoffset := @lebOffset_lt layout'.lebsPerPebIndex.toNat k
  rw [h.lebId i hi k hk, if_neg hindex, Word.u64_of_lt (by omega)]

theorem sound_packed (h : LebsDefined layout layout' b m a) (hindex : layout'.lebsPerPebIndex = 1) :
    LebIdsSound layout' a where
  distinct s hs i hi s' hs' i' hi' heq := by
    have hle := Nat.lt_of_lt_of_le hi (h.assigned_le s hs)
    have hle' := Nat.lt_of_lt_of_le hi' (h.assigned_le s' hs')
    rw [(h.lebId_packed hindex hs hi).1, (h.lebId_packed hindex hs' hi').1] at heq
    have hdiv := congrArg (· / layout'.pebsPerSeg) heq
    simp only [Nat.mul_comm _ layout'.pebsPerSeg] at hdiv
    rw [Nat.mul_add_div (by omega), Nat.mul_add_div (by omega), Nat.div_eq_of_lt hle,
      Nat.div_eq_of_lt hle'] at hdiv
    obtain rfl : s = s' := hdiv
    exact ⟨rfl, Nat.add_left_cancel heq⟩
  lt s hs i hi := by
    obtain ⟨heq, hlt⟩ := h.lebId_packed hindex hs hi
    rwa [heq]

theorem apart_ne (h : LebsDefined layout layout' b m a) {index s s' i j : Nat}
    (hapart : LebsApart layout' a index) (hs : s < a.segsCapacity) (hs' : s' < a.segsCapacity)
    (hi : i < assignedPebs layout' (a.segs s)) (hj : j < assignedPebs layout' (a.segs s'))
    (hij : i < j) : s + lebOffset index i ≠ s' + lebOffset index j := fun heq => by
  rcases Nat.lt_or_ge (lebOffset index j) (lebOffset index i) with hwrap | hle
  · exact hapart.wrapped i j hij hwrap s s' hs' hi hj (by omega)
  · have hle' := h.assigned_le s' hs'
    have hfar := hapart.apart (j - i) (by omega) (by omega)
    rw [lebOffset_sub hij hle] at heq
    -- Only the first segment is far enough from the last one, but it has no second PEB.
    obtain rfl : s' = 0 := by omega
    rw [h.first] at hj
    omega

theorem sound_of_apart (h : LebsDefined layout layout' b m a)
    (hindex : layout'.lebsPerPebIndex ≠ 1)
    (hapart : LebsApart layout' a layout'.lebsPerPebIndex.toNat) : LebIdsSound layout' a where
  distinct s hs i hi s' hs' i' hi' heq := by
    rw [h.lebId_spread hindex hs hi, h.lebId_spread hindex hs' hi'] at heq
    rcases Nat.lt_trichotomy i i' with hlt | rfl | hgt
    · exact absurd heq (h.apart_ne hapart hs hs' hi hi' hlt)
    · exact ⟨Nat.add_right_cancel heq, rfl⟩
    · exact absurd heq.symm (h.apart_ne hapart hs' hs hi' hi hgt)
  lt s hs i hi := by
    have hle := h.assigned_le s hs
    have hbelow := hapart.below i (by omega)
    rw [h.lebId_spread hindex hs hi]
    omega

theorem apart_of_sound (h : LebsDefined layout layout' b m a)
    (hindex : layout'.lebsPerPebIndex ≠ 1) (hsound : LebIdsSound layout' a) :
    LebsApart layout' a layout'.lebsPerPebIndex.toNat where
  apart k hpos hk := by
    have hm := h.maptbl_pos
    have hcapacity := h.capacity
    by_contra hnear
    have hwhole := h.whole 1 (by omega) (by omega) (.inl (by omega))
    -- The second segment's PEB `k` and a first PEB of a later segment.
    have hs : 1 + lebOffset layout'.lebsPerPebIndex.toNat k < a.segsCapacity := by omega
    have hfirst := h.assigned_pos _ hs
    have heq := hsound.distinct 1 (by omega) k (by omega) _ hs 0 hfirst
    rw [h.lebId_spread hindex (by omega) (by omega), h.lebId_spread hindex hs hfirst, lebOffset_zero]
      at heq
    exact absurd (heq rfl).2 (by omega)
  below k hk := by
    have hm := h.maptbl_pos
    have hcapacity := h.capacity
    have hlast : a.segsCapacity - 1 < a.segsCapacity := by omega
    have hwhole := h.whole _ hlast (by omega) (.inr (by omega))
    have hlt := hsound.lt _ hlast k (by omega)
    rw [h.lebId_spread hindex hlast (by omega)] at hlt
    omega
  wrapped i j hij hwrap s s' hs' hi hj heq := by
    have hs : s < a.segsCapacity := by omega
    have hsame := hsound.distinct s hs i hi s' hs' j hj
    rw [h.lebId_spread hindex hs hi, h.lebId_spread hindex hs' hj] at hsame
    exact absurd (hsame (by omega)).2 (by omega)

end LebsDefined

/-- A segment of one PEB, or a volume on one die, has its LEBs one behind another; so has a die
of one PEB. -/
theorem mkfsDefineSegs_lebIds_sound_iff (hsizes : layout.SizesAccepted)
    (hindex : layout.lebsPerPebIndex = 1)
    (h : mkfsDefineSegs sectorsPerZone fuel requested layout = .ok (layout', a)) :
    LebIdsSound layout' a ↔ layout'.pebsPerSeg ≤ 1 ∨ layout.nandDiesCount.toNat ≤ 1 ∨
      layout.pebsPerNandDie = 1 ∨ LebsApart layout' a layout.pebsPerNandDie := by
  obtain ⟨b, m, hdefined⟩ := mkfsDefineSegs_ok hsizes hindex h
  have hvalue := hdefined.corrected.index
  by_cases hspread : layout'.pebsPerSeg > 1 ∧ layout.nandDiesCount.toNat > 1
  case neg =>
    rw [if_neg hspread] at hvalue
    have hone : layout'.lebsPerPebIndex = 1 := UInt32.toNat_inj.1 hvalue
    exact iff_of_true (hdefined.sound_packed hone) (by omega)
  rw [if_pos hspread] at hvalue
  by_cases hone : layout'.lebsPerPebIndex = 1
  · rw [hone] at hvalue
    exact iff_of_true (hdefined.sound_packed hone) (.inr (.inr (.inl hvalue.symm)))
  have hdie : layout.pebsPerNandDie ≠ 1 := fun hdie => hone (UInt32.toNat_inj.1 (hvalue.trans hdie))
  constructor
  · intro hsound
    exact .inr (.inr (.inr (hvalue ▸ hdefined.apart_of_sound hone hsound)))
  · intro hcases
    have hapart : LebsApart layout' a layout.pebsPerNandDie := by
      rcases hcases with hle | hle | heq | hapart
      · omega
      · omega
      · exact absurd heq hdie
      · exact hapart
    exact hdefined.sound_of_apart hone (hvalue ▸ hapart)

end

/-- 200 segments of four erase blocks of 128 KiB. -/
def volumeOnDies (dies : UInt32) : VolumeLayout where
  needEraseDevice := false
  segSize := 524288
  pageSize := .kib4
  nandDiesCount := dies
  lebsPerPebIndex := 1
  segbmap := ⟨false, 1⟩
  maptbl := ⟨false, 1, 1, 10, 0, 0, 0, 0, 0, 0, 0, 0, 0⟩
  env := ⟨104857600, 131072, .blk⟩

theorem volumeOnDies_sizesAccepted (dies : UInt32) : (volumeOnDies dies).SizesAccepted where
  eraseSize_ge := show 512 ≤ 131072 by decide
  segSize_le := show 524288 ≤ 68719476736 by decide
  pebs := ⟨2, show 524288 = 131072 * 2 ^ 2 by decide⟩

def lebSummary (r : VolumeLayout × SegsArray) : Nat × Nat × Nat :=
  (r.1.pebsPerVolume, r.1.pebsPerSeg, r.2.segsCapacity)

theorem volumeOnDies_run {dies : UInt32}
    (h : (mkfsDefineSegs none 5 1 (volumeOnDies dies)).map lebSummary = .ok (800, 4, 9)) :
    ∃ layout a, mkfsDefineSegs none 5 1 (volumeOnDies dies) = .ok (layout, a) ∧
      layout.pebsPerVolume = 800 ∧ layout.pebsPerSeg = 4 ∧ a.segsCapacity = 9 := by
  cases hrun : mkfsDefineSegs none 5 1 (volumeOnDies dies) with
  | error e =>
    rw [hrun] at h
    cases h
  | ok r =>
    rw [hrun] at h
    simp only [Except.map, lebSummary, Except.ok.injEq, Prod.mk.injEq] at h
    exact ⟨r.1, r.2, rfl, h⟩

/-- Eight dies of 100 PEBs. -/
theorem mkfsDefineSegs_lebIds_sound_8 : ∃ layout a,
    mkfsDefineSegs none 5 1 (volumeOnDies 8) = .ok (layout, a) ∧ LebIdsSound layout a := by
  obtain ⟨layout, a, hrun, hvolume, hseg, hcapacity⟩ := @volumeOnDies_run 8 (by decide +kernel)
  have hdie : (volumeOnDies 8).pebsPerNandDie = 100 := by decide
  obtain ⟨b, m, hdefined⟩ := mkfsDefineSegs_ok (volumeOnDies_sizesAccepted 8) rfl hrun
  refine ⟨layout, a, hrun, (mkfsDefineSegs_lebIds_sound_iff (volumeOnDies_sizesAccepted 8) rfl hrun).2
    (.inr (.inr (.inr ⟨?_, ?_, ?_⟩)))⟩
  · rw [hdie, hseg, hcapacity]
    have hall : ∀ k < 4, 0 < k → 9 ≤ lebOffset 100 k + 1 := by decide
    exact fun k hpos hk => hall k hk hpos
  · rw [hdie, hseg, hcapacity, hvolume]
    decide
  · rw [hdie]
    intro i j hij hwrap s s' hs' hi hj heq
    have hle := hdefined.assigned_le s' hs'
    have hall : ∀ j < 4, ∀ i < j, ¬lebOffset 100 j < lebOffset 100 i := by decide
    exact hall j (by omega) i hij hwrap

/-- On two dies of 400 PEBs a segment's third LEB is behind the end of the volume. -/
theorem mkfsDefineSegs_lebIds_outside_2 : ∃ layout a,
    mkfsDefineSegs none 5 1 (volumeOnDies 2) = .ok (layout, a) ∧ ¬LebIdsSound layout a := by
  obtain ⟨layout, a, hrun, hvolume, hseg, hcapacity⟩ := @volumeOnDies_run 2 (by decide +kernel)
  obtain ⟨b, m, hdefined⟩ := mkfsDefineSegs_ok (volumeOnDies_sizesAccepted 2) rfl hrun
  have hindex : layout.lebsPerPebIndex.toNat = 400 := by
    rw [hdefined.corrected.index, hseg]
    decide
  refine ⟨layout, a, hrun, fun hsound => ?_⟩
  have hapart := hdefined.apart_of_sound (fun hone => ?_) hsound
  · have hbelow := hapart.below 2 (by omega)
    rw [hindex, hcapacity, hvolume] at hbelow
    exact absurd hbelow (by decide)
  · rw [hone] at hindex
    exact absurd hindex (by decide)

end Ssdfs
