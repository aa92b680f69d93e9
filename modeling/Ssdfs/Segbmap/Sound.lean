import Ssdfs.Segbmap.Policy
import Ssdfs.Volume.Settle

namespace Ssdfs

theorem roundUpQuot_ok {a b : Nat} (hb : b ≠ 0) : roundUpQuot a b = .ok ((a + b - 1) / b) := by
  have hdiv := Nat.div_add_mod a b
  have hlt := Nat.mod_lt a (Nat.pos_of_ne_zero hb)
  unfold roundUpQuot quot rem
  rw [Checked.quot_of_ne hb, Checked.ok_bind, Checked.rem_of_ne hb, Checked.ok_bind]
  congr 1
  split
  · refine (Nat.div_eq_of_lt_le ?_ ?_).symm
    · rw [Nat.add_mul, Nat.one_mul, Nat.mul_comm]
      omega
    · rw [Nat.add_mul, Nat.add_mul, Nat.one_mul, Nat.mul_comm]
      omega
  · refine (Nat.div_eq_of_lt_le ?_ ?_).symm
    · rw [Nat.mul_comm]
      omega
    · rw [Nat.add_mul, Nat.one_mul, Nat.mul_comm]
      omega

theorem segBmapFragments_error {n : Nat} {e : Fault Errno}
    (h : segBmapFragments n pageCacheSize = .error e) : e = .abort := by
  unfold segBmapFragments segBmapBytes at h
  by_cases hbytes : Word.u64 (n + segbmapItemsPerByte - 1) / segbmapItemsPerByte ≥ Word.u32Max
  · simp only [bugOn, Checked.bugOn_of hbytes, Checked.error_bind] at h
    exact (Except.error.inj h).symm
  · simp only [bugOn, Checked.bugOn_of_not hbytes, Checked.ok_bind] at h
    rw [Checked.bugOn] at h
    split at h
    · exact (Except.error.inj h).symm
    · cases h

theorem segBmapBytes_of_fragments {n F : Nat} (h : segBmapFragments n pageCacheSize = .ok F) :
    ∃ b, segBmapBytes n = .ok b := by
  obtain ⟨b, hb, -⟩ := Checked.bind_eq_ok.1 h
  exact ⟨b, hb⟩

section

variable {layout : VolumeLayout} {requested : UInt16} {F f P q : Nat}

/-- What the result of the policy promises to the later phases. -/
def SegbmapAllocated (layout : VolumeLayout) (r : Mkfs (SegbmapGeometry × Nat)) : Prop :=
  r = .error (.code .e2big) ∨ ∃ g segs, r = .ok (g, segs) ∧
    1 ≤ g.segsPerChain ∧ g.segsPerChain ≤ segbmapSegsMax ∧
    1 ≤ g.pebsPerSeg ∧ g.pebsPerSeg ≤ layout.segSize.toNat / layout.env.eraseSize.toNat ∧
    g.fragmentsPerPeb * g.fragmentSize ≤ layout.env.eraseSize.toNat ∧
    g.fragmentsCount ≤ g.segsPerChain * g.pebsPerSeg * g.fragmentsPerPeb

def VolumeLayout.pebsPerSeg16 (layout : VolumeLayout) : Nat :=
  Word.u16 (layout.segSize.toNat / layout.env.eraseSize.toNat)

/-- Segments for `F` fragments with `s` of them in a segment, counted in eight bits. -/
def segsFor (F s : Nat) : Nat := Word.u8 ((F + s - 1) / s)

def chosenFragmentsPerPeb (layout : VolumeLayout) (F requested : Nat) : Nat :=
  if requested * layout.pageSize.bytes ≤ layout.env.eraseSize.toNat ∧
      segsFor F (Word.u16 (requested * layout.pebsPerSeg16)) ≤ segbmapSegsMax then requested
  else correctedFragmentsPerPeb layout F

/-- No product or quotient vanishes, and none of the segments is lost that matters. -/
structure SegbmapFits (layout : VolumeLayout) (F requested : Nat) : Prop where
  requested_ne : Word.u16 (requested * layout.pebsPerSeg16) ≠ 0
  chosen_ne : Word.u16 (chosenFragmentsPerPeb layout F requested * layout.pebsPerSeg16) ≠ 0
  segs_ne : segsFor F
    (Word.u16 (chosenFragmentsPerPeb layout F requested * layout.pebsPerSeg16)) ≠ 0
  narrow : ∀ s, s = Word.u16 (chosenFragmentsPerPeb layout F requested * layout.pebsPerSeg16) →
    segsFor F s ≤ segbmapSegsMax →
      (F + s - 1) / s < 256 ∧ layout.pageSize.bytes * 2 ≤ layout.env.eraseSize.toNat ∨
      ((F + segsFor F s - 1) / segsFor F s + layout.pebsPerSeg16 - 1) / layout.pebsPerSeg16 *
        layout.pageSize.bytes ≤ layout.env.eraseSize.toNat

theorem segbmapSegs_ok {s : Nat} (hs : s ≠ 0) : segbmapSegs F s = .ok (segsFor F s) := by
  unfold segbmapSegs quot
  rw [Checked.quot_of_ne hs, Checked.ok_bind]
  rfl

@[simp] theorem segbmapSegs_zero : segbmapSegs F 0 = .error .trap := rfl

/-- The layout that the policy ends with for `q` segments. -/
def segbmapSpread (layout : VolumeLayout) (bmapBytes F q : Nat) : SegbmapGeometry × Nat :=
  let fragmentsPerSeg := (F + q - 1) / q
  let fragmentsPerPeb := (fragmentsPerSeg + layout.pebsPerSeg16 - 1) / layout.pebsPerSeg16
  (⟨bmapBytes, fragmentsPerPeb, (fragmentsPerSeg + fragmentsPerPeb - 1) / fragmentsPerPeb, q, F,
    layout.pageSize.bytes⟩, if layout.segbmap.hasBackupCopy then q * 2 else q)

theorem roundUp_bounds {a b : Nat} (ha : 0 < a) (hb : 0 < b) :
    0 < (a + b - 1) / b ∧ (a + b - 1) / b ≤ a := by
  refine ⟨Nat.div_pos (by omega) hb, Nat.div_le_of_le_mul ?_⟩
  obtain ⟨b, rfl⟩ := Nat.exists_eq_succ_of_ne_zero (Nat.pos_iff_ne_zero.1 hb)
  rw [Nat.succ_mul]
  have := Nat.le_mul_of_pos_right b ha
  omega

theorem le_roundUp_mul {a b : Nat} (hb : 0 < b) : a ≤ (a + b - 1) / b * b := by
  have hdiv := Nat.div_add_mod (a + b - 1) b
  have hlt := Nat.mod_lt (a + b - 1) hb
  rw [Nat.mul_comm]
  omega

theorem roundUp_le {a b c : Nat} (hb : 0 < b) (h : a ≤ c * b) : (a + b - 1) / b ≤ c := by
  refine Nat.lt_succ_iff.1 ((Nat.div_lt_iff_lt_mul hb).2 ?_)
  rw [Nat.succ_mul]
  omega

theorem segBmapFragments_lt {n : Nat} (h : segBmapFragments n pageCacheSize = .ok F) : F < 65535 := by
  obtain ⟨b, -, h⟩ := Checked.bind_eq_ok.1 h
  obtain ⟨hlt, h⟩ := bugOn_bind_eq_ok.1 h
  cases h
  exact Nat.not_le.1 hlt

theorem segbmapMkfsAllocationPolicy_eq {s : Nat} (hseg : layout.segSize.toNat ≠ 0)
    (herase : layout.env.eraseSize.toNat ≠ 0)
    (hF : segBmapFragments layout.segNums pageCacheSize = .ok F)
    (hrequested : Word.u16 (requested.toNat * layout.pebsPerSeg16) ≠ 0)
    (hs : s = Word.u16 (chosenFragmentsPerPeb layout F requested.toNat * layout.pebsPerSeg16)) :
    ∃ b, segBmapBytes layout.segNums = .ok b ∧ segbmapMkfsAllocationPolicy layout requested =
      if s = 0 then .error .trap
      else if segsFor F s > segbmapSegsMax then fail .e2big
      else if segsFor F s = 0 then .error .trap
      else .ok (segbmapSpread layout b F (segsFor F s)) := by
  obtain ⟨b, hb⟩ := segBmapBytes_of_fragments hF
  have hlt := segBmapFragments_lt hF
  have hpage := layout.pageSize.bytes_le
  have hnums : layout.env.fsSize.toNat / layout.segSize.toNat = layout.segNums := rfl
  have hpebs : Word.u16 (layout.segSize.toNat / layout.env.eraseSize.toNat) = layout.pebsPerSeg16 :=
    rfl
  have hsize : Word.u32 (requested.toNat * layout.pageSize.bytes) =
      requested.toNat * layout.pageSize.bytes := by
    have hr := requested.toNat_lt
    have hmul := Nat.mul_le_mul (Nat.le_of_lt hr) hpage
    exact Word.u32_of_lt (Nat.lt_of_le_of_lt hmul (by decide))
  have hchosen : (if layout.env.eraseSize.toNat < requested.toNat * layout.pageSize.bytes ∨
      segsFor F (Word.u16 (requested.toNat * layout.pebsPerSeg16)) > segbmapSegsMax then
      correctedFragmentsPerPeb layout F else requested.toNat) =
      chosenFragmentsPerPeb layout F requested.toNat := by
    unfold chosenFragmentsPerPeb
    by_cases h : requested.toNat * layout.pageSize.bytes ≤ layout.env.eraseSize.toNat ∧
      segsFor F (Word.u16 (requested.toNat * layout.pebsPerSeg16)) ≤ segbmapSegsMax
    · rw [if_pos h, if_neg (by omega)]
    · rw [if_neg h, if_pos (by omega)]
  refine ⟨b, hb, ?_⟩
  unfold segbmapMkfsAllocationPolicy
  simp only [quot, Checked.quot_of_ne hseg, Checked.quot_of_ne herase, Checked.ok_bind, hnums, hb, hF,
    hpebs, hsize, segbmapSegs_ok hrequested, hchosen, ← hs]
  by_cases hzero : s = 0
  · rw [if_pos hzero, hzero, segbmapSegs_zero]
    rfl
  rw [if_neg hzero, segbmapSegs_ok hzero, Checked.ok_bind]
  by_cases hbig : segsFor F s > segbmapSegsMax
  · rw [if_pos hbig]
    unfold failIf
    rw [if_pos hbig]
    rfl
  rw [if_neg hbig, failIf_of_not hbig, Checked.ok_bind]
  by_cases hnone : segsFor F s = 0
  · rw [if_pos hnone, hnone]
    rfl
  rw [if_neg hnone]
  have hFpos : 0 < F := Nat.pos_of_ne_zero fun h => hnone (by
    rw [h, segsFor, Nat.zero_add, Nat.div_eq_of_lt (by omega)]
    rfl)
  have hP : 0 < layout.pebsPerSeg16 := Nat.pos_of_ne_zero fun h => hrequested (by
    rw [h, Nat.mul_zero]
    rfl)
  obtain ⟨hfps, hfps'⟩ := roundUp_bounds hFpos (Nat.pos_of_ne_zero hnone)
  obtain ⟨hfpp, hfpp'⟩ := roundUp_bounds hfps hP
  obtain ⟨hpps, hpps'⟩ := roundUp_bounds hfps hfpp
  rw [roundUpQuot_ok hnone, Checked.ok_bind, Word.u16_of_lt (by omega), Nat.max_eq_left hfps,
    roundUpQuot_ok (Nat.pos_iff_ne_zero.1 hP), Checked.ok_bind, Word.u16_of_lt (by omega),
    Nat.max_eq_left hfpp, roundUpQuot_ok (Nat.pos_iff_ne_zero.1 hfpp), Checked.ok_bind,
    Word.u16_of_lt (by omega), Nat.max_eq_left hpps]
  rfl

theorem correctedFragmentsPerPeb_le (hpage : layout.pageSize.bytes * 2 ≤
    layout.env.eraseSize.toNat) : correctedFragmentsPerPeb layout F * layout.pageSize.bytes ≤
      layout.env.eraseSize.toNat := by
  have herase := layout.env.eraseSize.toNat_lt
  have hge := layout.pageSize.bytes_ge
  have hle := layout.pageSize.bytes_le
  unfold correctedFragmentsPerPeb
  simp only
  rw [Word.u32_of_lt (by omega), Word.sub32_of_le hpage herase]
  refine Nat.le_trans (Nat.mul_le_mul_right _ (Nat.min_le_left _ _)) ?_
  split
  · omega
  · refine Nat.le_trans (Nat.mul_le_mul_right _ (Word.u16_le _)) ?_
    refine Nat.le_trans (Nat.div_mul_le_self _ _) ?_
    omega

theorem chosenFragmentsPerPeb_le (hpage : layout.pageSize.bytes * 2 ≤
    layout.env.eraseSize.toNat) : chosenFragmentsPerPeb layout F f * layout.pageSize.bytes ≤
      layout.env.eraseSize.toNat := by
  unfold chosenFragmentsPerPeb
  split
  case isTrue h => exact h.1
  case isFalse h => exact correctedFragmentsPerPeb_le hpage

theorem segbmapSpread_allocated {b segs : Nat} {g : SegbmapGeometry}
    (hspread : segbmapSpread layout b F q = (g, segs)) (hF : 0 < F) (hq : 0 < q)
    (hP : 0 < layout.pebsPerSeg16) :
    1 ≤ g.pebsPerSeg ∧ g.pebsPerSeg ≤ layout.segSize.toNat / layout.env.eraseSize.toNat ∧
      g.fragmentsCount ≤ g.segsPerChain * g.pebsPerSeg * g.fragmentsPerPeb := by
  cases hspread
  simp only
  obtain ⟨hfps, -⟩ := roundUp_bounds hF hq
  obtain ⟨hfpp, -⟩ := roundUp_bounds hfps hP
  obtain ⟨hpps, -⟩ := roundUp_bounds hfps hfpp
  refine ⟨hpps, ?_, ?_⟩
  · refine Nat.le_trans (roundUp_le hfpp ?_) (Word.u16_le _)
    rw [Nat.mul_comm]
    exact le_roundUp_mul hP
  · refine Nat.le_trans (le_roundUp_mul hq) ?_
    rw [Nat.mul_comm, Nat.mul_assoc]
    exact Nat.mul_le_mul_left q (le_roundUp_mul hfpp)

structure SegbmapChosen (layout : VolumeLayout) (g : SegbmapGeometry) (segs : Nat) : Prop where
  bytes : segBmapBytes layout.segNums = .ok g.bmapBytes
  fragments : segBmapFragments layout.segNums pageCacheSize = .ok g.fragmentsCount
  fragmentSize : g.fragmentSize = layout.pageSize.bytes
  fragmentsPerPeb_pos : 0 < g.fragmentsPerPeb
  fragmentsPerPeb_lt : g.fragmentsPerPeb < 65536
  pebsPerSeg_pos : 0 < g.pebsPerSeg
  pebsPerSeg_lt : g.pebsPerSeg < 65536
  pebsPerSeg16_ne : layout.pebsPerSeg16 ≠ 0
  segs_eq : segs = if layout.segbmap.hasBackupCopy then g.segsPerChain * 2 else g.segsPerChain
  segs_pos : 0 < g.segsPerChain
  segs_le : g.segsPerChain ≤ segbmapSegsMax
  fragments_pos : 0 < g.fragmentsCount
  counted : ∃ f, Word.u16 (f * layout.pebsPerSeg16) ≠ 0 ∧
    g.segsPerChain = segsFor g.fragmentsCount (Word.u16 (f * layout.pebsPerSeg16))
  fragmentsPerPeb_eq : g.fragmentsPerPeb = ((g.fragmentsCount + g.segsPerChain - 1) /
    g.segsPerChain + layout.pebsPerSeg16 - 1) / layout.pebsPerSeg16
  pebsPerSeg_eq : g.pebsPerSeg = ((g.fragmentsCount + g.segsPerChain - 1) / g.segsPerChain +
    g.fragmentsPerPeb - 1) / g.fragmentsPerPeb

theorem SegbmapChosen.pebsPerSeg_le {g : SegbmapGeometry} {segs : Nat}
    (h : SegbmapChosen layout g segs) :
    g.pebsPerSeg ≤ layout.pebsPerSeg := by
  have hle : g.pebsPerSeg ≤ layout.pebsPerSeg16 := by
    rw [h.pebsPerSeg_eq]
    refine roundUp_le h.fragmentsPerPeb_pos ?_
    rw [h.fragmentsPerPeb_eq, Nat.mul_comm]
    exact le_roundUp_mul (Nat.pos_of_ne_zero h.pebsPerSeg16_ne)
  refine Nat.le_trans hle ?_
  unfold VolumeLayout.pebsPerSeg16 VolumeLayout.pebsPerSeg Word.u16 Word.u32
  generalize layout.segSize.toNat / layout.env.eraseSize.toNat = n
  omega

theorem segbmapMkfsAllocationPolicy_inv {g : SegbmapGeometry} {segs : Nat}
    (h : segbmapMkfsAllocationPolicy layout requested = .ok (g, segs)) :
    SegbmapChosen layout g segs := by
  have hrun := h
  obtain ⟨hseg, h⟩ := quot_bind_eq_ok.1 h
  obtain ⟨b, hb, h⟩ := Checked.bind_eq_ok.1 h
  obtain ⟨F, hF, h⟩ := Checked.bind_eq_ok.1 h
  obtain ⟨herase, h⟩ := quot_bind_eq_ok.1 h
  obtain ⟨_, hsegs, h⟩ := Checked.bind_eq_ok.1 h
  have hne : Word.u16 (requested.toNat * layout.pebsPerSeg16) ≠ 0 := fun h0 => by
    change segbmapSegs F (Word.u16 (requested.toNat * layout.pebsPerSeg16)) = _ at hsegs
    rw [h0] at hsegs
    cases hsegs
  have hP : 0 < layout.pebsPerSeg16 := Nat.pos_of_ne_zero fun h0 => hne (by
    rw [h0, Nat.mul_zero]
    rfl)
  obtain ⟨b, hb, heq⟩ := segbmapMkfsAllocationPolicy_eq hseg herase hF hne rfl
  rw [heq] at hrun
  generalize hs : Word.u16 (chosenFragmentsPerPeb layout F requested.toNat * layout.pebsPerSeg16) = s
    at hrun
  by_cases hzero : s = 0
  · rw [if_pos hzero] at hrun
    cases hrun
  by_cases hbig : segsFor F s > segbmapSegsMax
  · rw [if_neg hzero, if_pos hbig] at hrun
    cases hrun
  by_cases hnone : segsFor F s = 0
  · rw [if_neg hzero, if_neg hbig, if_pos hnone] at hrun
    cases hrun
  rw [if_neg hzero, if_neg hbig, if_neg hnone] at hrun
  obtain ⟨rfl, rfl⟩ := Prod.mk.inj (Except.ok.inj hrun)
  have hq := Nat.pos_of_ne_zero hnone
  have hFpos : 0 < F := Nat.pos_of_ne_zero fun h0 => hnone (by
    rw [h0, segsFor, Nat.zero_add, Nat.div_eq_of_lt (by omega)]
    rfl)
  have hlt := segBmapFragments_lt hF
  obtain ⟨hfps, hfps'⟩ := roundUp_bounds hFpos hq
  obtain ⟨hfpp, hfpp'⟩ := roundUp_bounds hfps hP
  obtain ⟨hpps, hpps'⟩ := roundUp_bounds hfps hfpp
  exact
    { bytes := hb
      fragments := hF
      fragmentSize := rfl
      fragmentsPerPeb_pos := hfpp
      fragmentsPerPeb_lt := Nat.lt_of_le_of_lt hfpp' (by omega)
      pebsPerSeg_pos := hpps
      pebsPerSeg_lt := Nat.lt_of_le_of_lt hpps' (by omega)
      pebsPerSeg16_ne := Nat.pos_iff_ne_zero.1 hP
      segs_eq := rfl
      segs_pos := hq
      segs_le := Nat.not_lt.1 hbig
      fragments_pos := hFpos
      counted := ⟨_, hs ▸ hzero, congrArg (segsFor F) hs.symm⟩
      fragmentsPerPeb_eq := rfl
      pebsPerSeg_eq := rfl }

theorem segbmapMkfsAllocationPolicy_stops (hseg : layout.segSize.toNat ≠ 0)
    (herase : layout.env.eraseSize.toNat ≠ 0)
    (h : (∃ e, segBmapFragments layout.segNums pageCacheSize = .error e) ∨
      Word.u16 (requested.toNat * layout.pebsPerSeg16) = 0) :
    ∃ e, segbmapMkfsAllocationPolicy layout requested = .error e ∧ e ≠ .code .e2big := by
  have hnums : layout.env.fsSize.toNat / layout.segSize.toNat = layout.segNums := rfl
  have hpebs : Word.u16 (layout.segSize.toNat / layout.env.eraseSize.toNat) = layout.pebsPerSeg16 :=
    rfl
  unfold segbmapMkfsAllocationPolicy
  simp only [quot, Checked.quot_of_ne hseg, Checked.quot_of_ne herase, Checked.ok_bind, hnums, hpebs]
  cases hF : segBmapFragments layout.segNums pageCacheSize with
  | error e =>
    have habort := segBmapFragments_error hF
    cases hb : segBmapBytes layout.segNums with
    | error e' =>
      unfold segBmapFragments at hF
      rw [hb, Checked.error_bind] at hF
      cases hF
      exact ⟨_, rfl, by rw [habort]; decide⟩
    | ok b => exact ⟨_, rfl, by rw [habort]; decide⟩
  | ok F =>
    obtain ⟨b, hb⟩ := segBmapBytes_of_fragments hF
    rw [hb, h.resolve_left (by rintro ⟨e, he⟩; cases hF.symm.trans he)]
    exact ⟨.trap, rfl, by decide⟩

theorem segbmapMkfsAllocationPolicy_allocated_iff {sectorsPerZone : Option UInt32}
    {options : VolumeLayout} (hsettle : settleKeyCreationOptions sectorsPerZone options = .ok layout) :
    SegbmapAllocated layout (segbmapMkfsAllocationPolicy layout requested) ↔
      ∃ F, segBmapFragments layout.segNums pageCacheSize = .ok F ∧
        SegbmapFits layout F requested.toNat := by
  have hset := settleKeyCreationOptions_settled hsettle
  have hseg' : layout.segSize.toNat ≠ 0 := hset.seg ▸ hset.seg_ne
  have herase : layout.env.eraseSize.toNat ≠ 0 := fun h0 => hset.seg_ne <| by
    have hdvd := (settled_sizes hsettle).1
    rw [← hset.erase, h0] at hdvd
    exact Nat.eq_zero_of_zero_dvd hdvd
  by_cases hstop : (∃ e, segBmapFragments layout.segNums pageCacheSize = .error e) ∨
    Word.u16 (requested.toNat * layout.pebsPerSeg16) = 0
  · obtain ⟨e, he, hne⟩ := segbmapMkfsAllocationPolicy_stops hseg' herase hstop
    refine iff_of_false ?_ ?_
    · rintro (h | ⟨g, segs, h, -⟩)
      · exact hne (Except.error.inj (he.symm.trans h))
      · cases he.symm.trans h
    · rintro ⟨F, hF, hfits⟩
      rcases hstop with ⟨e, he⟩ | hzero
      · cases hF.symm.trans he
      · exact hfits.requested_ne hzero
  obtain ⟨hok, hrequested⟩ := not_or.1 hstop
  obtain ⟨F, hF⟩ : ∃ F, segBmapFragments layout.segNums pageCacheSize = .ok F := by
    cases h : segBmapFragments layout.segNums pageCacheSize with
    | error e => exact absurd ⟨e, h⟩ hok
    | ok F => exact ⟨F, rfl⟩
  obtain ⟨b, -, heq⟩ := segbmapMkfsAllocationPolicy_eq hseg' herase hF hrequested rfl
  rw [heq]
  have hP : 0 < layout.pebsPerSeg16 := Nat.pos_of_ne_zero fun h => hrequested (by
    rw [h, Nat.mul_zero]
    rfl)
  have hFpos : ∀ s, s ≠ 0 → segsFor F s ≠ 0 → 0 < F := fun s hs hne =>
    Nat.pos_of_ne_zero fun h => hne (by
      rw [h, segsFor, Nat.zero_add, Nat.div_eq_of_lt (by omega)]
      rfl)
  generalize hs : Word.u16 (chosenFragmentsPerPeb layout F requested.toNat * layout.pebsPerSeg16) = s
  constructor
  · intro h
    by_cases hs0 : s = 0
    · rw [if_pos hs0] at h
      rcases h with h | ⟨g, segs, h, -⟩ <;> cases h
    rw [if_neg hs0] at h
    by_cases hbig : segsFor F s > segbmapSegsMax
    · refine ⟨F, hF, hrequested, hs ▸ hs0, ?_, fun t ht hle => ?_⟩
      · rw [hs]
        omega
      · rw [ht, hs] at hle
        omega
    rw [if_neg hbig] at h
    by_cases hq0 : segsFor F s = 0
    · rw [if_pos hq0] at h
      rcases h with h | ⟨g, segs, h, -⟩ <;> cases h
    rw [if_neg hq0] at h
    refine ⟨F, hF, hrequested, hs ▸ hs0, hs ▸ hq0, fun t ht _ => .inr ?_⟩
    rw [ht, hs]
    rcases h with h | ⟨g, segs, h, -, -, -, -, hfit, -⟩
    · cases h
    · cases h
      exact hfit
  · rintro ⟨F', hF', hfits⟩
    cases hF.symm.trans hF'
    have hs0 : s ≠ 0 := hs ▸ hfits.chosen_ne
    have hq0 : segsFor F s ≠ 0 := hs ▸ hfits.segs_ne
    rw [if_neg hs0, if_neg hq0]
    split
    · exact .inl rfl
    case isFalse hbig =>
      have hle := Nat.not_lt.1 hbig
      have hF0 := hFpos s hs0 hq0
      obtain ⟨hpos, hpebs, hroom⟩ := segbmapSpread_allocated rfl hF0 (Nat.pos_of_ne_zero hq0) hP
      refine .inr ⟨_, _, rfl, Nat.pos_of_ne_zero hq0, hle, hpos, hpebs, ?_, hroom⟩
      rcases hfits.narrow s hs.symm hle with ⟨hsmall, hpage⟩ | hfit
      · -- With all segments counted a PEB gets no more than was asked of it.
        have hq : segsFor F s = (F + s - 1) / s := Word.u8_of_lt hsmall
        have hsegs : (F + segsFor F s - 1) / segsFor F s ≤ s := by
          refine roundUp_le (Nat.pos_of_ne_zero hq0) ?_
          rw [hq, Nat.mul_comm]
          exact le_roundUp_mul (Nat.pos_of_ne_zero hs0)
        have hchosen := @chosenFragmentsPerPeb_le layout F requested.toNat hpage
        refine Nat.le_trans (Nat.mul_le_mul_right _ (roundUp_le hP (Nat.le_trans hsegs ?_))) hchosen
        rw [← hs]
        exact Word.u16_le _
      · exact hfit

end

/-- 256 erase blocks of 128 KiB in a segment. -/
def wideSegs : VolumeLayout where
  needEraseDevice := false
  segSize := 33554432
  pageSize := .kib4
  nandDiesCount := 1
  lebsPerPebIndex := 1
  segbmap := ⟨false, 1⟩
  maptbl := ⟨false, 1, 1, 10, 0, 0, 0, 0, 0, 0, 0, 0, 0⟩
  env := ⟨134217728, 131072, .blk⟩

theorem segbmapMkfsAllocationPolicy_allocated_4 :
    SegbmapAllocated wideSegs (segbmapMkfsAllocationPolicy wideSegs 4) :=
  (@segbmapMkfsAllocationPolicy_allocated_iff wideSegs 4 none wideSegs rfl).2
    ⟨1, by decide +kernel, by decide +kernel, by decide +kernel, by decide +kernel, fun s hs _ => by
      subst hs
      exact .inl (by decide +kernel)⟩

/-- 256 fragments in each of 256 PEBs are none at all in 16 bits. -/
theorem segbmapMkfsAllocationPolicy_divides_256 :
    settleKeyCreationOptions none wideSegs = .ok wideSegs ∧
      ¬SegbmapAllocated wideSegs (segbmapMkfsAllocationPolicy wideSegs 256) := by
  have htrap : segbmapMkfsAllocationPolicy wideSegs 256 = .error .trap := by decide +kernel
  refine ⟨rfl, ?_⟩
  rw [htrap]
  rintro (h | ⟨g, segs, h, -⟩) <;> cases h

end Ssdfs
