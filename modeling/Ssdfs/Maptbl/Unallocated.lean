import Ssdfs.Maptbl.FreePebs
import Ssdfs.Maptbl.MapOrder
import Ssdfs.Maptbl.PageWalk
import Ssdfs.Segbmap.Validate

namespace Ssdfs

section

variable (layout : VolumeLayout)

/-- The PEB from which on, up to the end of the walk, there are as many PEBs as LEBs from a LEB on. -/
def firstLeft (leb : Nat) : Nat := walkEnd layout leb - (layout.pebsPerVolume - leb)

def outsideLeft (leb q k : Nat) : Nat :=
  if walkEnd layout leb ≤ layout.stripeStart q k then layout.stripeCount q k
  else min (layout.stripeCount q k) (firstLeft layout leb - layout.stripeStart q k)

/-- A stripe gets as many LEBs as it has good PEBs outside the range that is left, and in that
range it has no bad PEB. -/
structure StripeFilled (t : Tables) (lebs : List Nat) (leb : Nat) (key : Nat × Nat) : Prop where
  taken : takenFrom layout key lebs = Bitmap.clearBefore (t.stripe layout key.1 key.2).usedBmap
    (outsideLeft layout leb key.1 key.2)
  good : ∀ j, outsideLeft layout leb key.1 key.2 ≤ j → j < layout.stripeCount key.1 key.2 →
    (t.stripe layout key.1 key.2).usedBmap j = false

structure GoodIn (t : Tables) (key : Nat × Nat) (peb : Nat) : Prop where
  start : layout.stripeStart key.1 key.2 ≤ peb
  count : peb - layout.stripeStart key.1 key.2 < layout.stripeCount key.1 key.2
  good : (t.stripe layout key.1 key.2).usedBmap (peb - layout.stripeStart key.1 key.2) = false

end

/-- What geometry, LEBs and bad PEBs have to be like before the mapping. -/
structure MarksInStep (layout : VolumeLayout) (t : Tables) (a : SegsArray) : Prop where
  segs : 0 < a.segsCapacity ∧ 0 < (a.segs (a.segsCapacity - 1)).pebsCapacity
  leb_lt : a.lebAt a.lastSite < layout.pebsPerVolume
  portions : layout.pebsPerVolume ≤ layout.maptbl.portionsCount * layout.maptbl.pebsPerPortion
  whole : WholeStripes layout
  recovered : ∀ pos : PebPos, pos.itemIndex < (t.pebFragment pos).pebsCount →
    ((t.pebFragment pos).desc pos.itemIndex).state ≠ .recovering
  reach : layout.pebsPerVolume - (a.lebAt a.lastSite + 1) < walkEnd layout (a.lebAt a.lastSite + 1)
  filled : ∀ key : Nat × Nat, key.1 < layout.maptbl.portionsCount →
    key.2 < layout.maptbl.stripesPerPortion →
      StripeFilled layout t (a.lebs a.sites) (a.lebAt a.lastSite + 1) key
  last : a.lebAt a.lastSite + 1 < layout.pebsPerVolume →
    GoodIn layout t (stripeKey layout (a.lebAt a.lastSite))
      (firstLeft layout (a.lebAt a.lastSite + 1) - 1)
  walk : a.lebAt a.lastSite + 1 < layout.pebsPerVolume →
    WalksToEnd layout (a.lebAt a.lastSite + 1) (firstLeft layout (a.lebAt a.lastSite + 1))

section Stripe

variable {layout : VolumeLayout} {leb q k : Nat}

theorem walkEnd_separates (hacc : layout.Accepted) (hk : k < layout.maptbl.stripesPerPortion) :
    walkEnd layout leb ≤ layout.stripeStart q k ∨
      layout.stripeStart q k + layout.stripeCount q k ≤ walkEnd layout leb := by
  rcases Nat.eq_zero_or_pos (layout.stripeCount q k) with hzero | hpos
  · omega
  · have hvolume := Geometry.stripe_end_le_volume q k hpos
    unfold walkEnd
    split
    case isTrue =>
      rcases Nat.lt_or_ge (leb / layout.maptbl.pebsPerPortion) q with hlt | hge
      · have hmul := Nat.mul_le_mul_left layout.maptbl.pebsPerPortion (Nat.succ_le_of_lt hlt)
        have hbase : layout.maptbl.pebsPerPortion * q ≤ layout.stripeStart q k := Nat.le_add_right _ _
        exact .inl (Nat.le_trans (Nat.min_le_left _ _) (Nat.le_trans hmul hbase))
      · have hmul := Nat.mul_le_mul_left layout.maptbl.pebsPerPortion (Nat.succ_le_succ hge)
        have hend := Geometry.stripe_end_le_portion hacc.stripes_pos hacc.stripes_dvd hk hpos
        exact .inr (Nat.le_min.2 ⟨Nat.le_trans hend hmul, hvolume⟩)
    case isFalse => exact .inr hvolume

theorem outsideLeft_le : outsideLeft layout leb q k ≤ layout.stripeCount q k := by
  unfold outsideLeft
  split
  · exact Nat.le_refl _
  · exact Nat.min_le_left _ _

theorem mem_left_iff (hacc : layout.Accepted) (hk : k < layout.maptbl.stripesPerPortion) {j : Nat}
    (hj : j < layout.stripeCount q k) :
    firstLeft layout leb ≤ layout.stripeStart q k + j ∧
        layout.stripeStart q k + j < walkEnd layout leb ↔ outsideLeft layout leb q k ≤ j := by
  have hsep := @walkEnd_separates layout leb q k hacc hk
  unfold outsideLeft
  split <;> omega

variable {n : Nat} {t₀ t : Tables} {lebs : List Nat}

theorem stripeFilled_iff (hacc : layout.Accepted) (htaken : t.Taken layout n t₀)
    (horder : t₀.InOrder layout t lebs) (hq : q < n) (hk : k < layout.maptbl.stripesPerPortion) :
    (∀ j < layout.stripeCount q k, (t.stripe layout q k).usedBmap j = false ↔
      firstLeft layout leb ≤ layout.stripeStart q k + j ∧
        layout.stripeStart q k + j < walkEnd layout leb) ↔
      StripeFilled layout t₀ lebs leb (q, k) := by
  obtain ⟨-, -, hcount⟩ := htaken.toSameHeaders.stripe_ready hacc hq hk
  have hfits := horder.fits (q, k)
  rw [hcount] at hfits
  have hiff := (horder.used (q, k)).clear_iff (@outsideLeft_le layout leb q k) hfits
  constructor
  · intro h
    obtain ⟨htake, hgood⟩ := hiff.1 fun j hj => (h j hj).trans (mem_left_iff hacc hk hj)
    exact ⟨htake, hgood⟩
  · rintro ⟨htake, hgood⟩ j hj
    exact (hiff.2 ⟨htake, hgood⟩ j hj).trans (mem_left_iff hacc hk hj).symm

theorem free_iff_filled (hacc : layout.Accepted) (htaken : t.Taken layout n t₀)
    (horder : t₀.InOrder layout t lebs)
    (hrec : ∀ pos : PebPos, pos.itemIndex < (t.pebFragment pos).pebsCount →
      ((t.pebFragment pos).desc pos.itemIndex).state ≠ .recovering)
    (hcov : layout.pebsPerVolume ≤ n * layout.maptbl.pebsPerPortion)
    (hwhole : WholeStripes layout) :
    (∀ x < layout.pebsPerVolume,
      t.Free x ↔ firstLeft layout leb ≤ x ∧ x < walkEnd layout leb) ↔
      ∀ key : Nat × Nat, key.1 < n → key.2 < layout.maptbl.stripesPerPortion →
        StripeFilled layout t₀ lebs leb key := by
  constructor
  · rintro h ⟨q, k⟩ hq hk
    refine (stripeFilled_iff hacc htaken horder hq hk).1 fun j hj => ?_
    have hlt : layout.stripeStart q k + layout.stripeCount q k ≤ layout.pebsPerVolume :=
      Geometry.stripe_end_le_volume q k (Nat.lt_of_le_of_lt (Nat.zero_le j) hj)
    rw [← htaken.free_iff hacc hrec hq hk hj]
    exact h _ (Nat.lt_of_lt_of_le (Nat.add_lt_add_left hj _) hlt)
  · intro h x hx
    obtain ⟨q, k, hq, hk, hmem⟩ := (Geometry.stripes_cover_iff hacc.stripes_pos hacc.stripes_dvd
      hacc.pebs_pos hacc.pebsPerVolume_pos n).2 ⟨hcov, hwhole⟩ x hx
    obtain ⟨hlo, hhi⟩ := Geometry.mem_stripeRange.1 hmem
    obtain ⟨j, rfl⟩ := Nat.exists_eq_add_of_le hlo
    have hj : j < layout.stripeCount q k := Nat.add_lt_add_iff_left.1 hhi
    exact (htaken.free_iff hacc hrec hq hk hj).trans
      ((stripeFilled_iff hacc htaken horder hq hk).2 (h (q, k) hq hk) j hj)

end Stripe

section Last

variable {layout : VolumeLayout} {t : Tables} {c : MaptblCache} {a : SegsArray} {st : MapState}

theorem lastSite_peb {n : Nat} (hacc : layout.Accepted) (hn : n < 65535)
    (hmarked : (Tables.fresh layout n).Marked t) (hsites : a.sites = a.allSites)
    (hsegs : 0 < a.segsCapacity ∧ 0 < (a.segs (a.segsCapacity - 1)).pebsCapacity)
    (hrun : Checked.forEach (mapSite layout) a.sites ⟨t, c, a⟩ = .ok st)
    (hleb : a.lebAt a.lastSite < layout.pebsPerVolume) {key : Nat × Nat}
    (hkey : key = stripeKey layout (a.lebAt a.lastSite)) :
    GoodIn layout t key (st.segs.pebAt a.lastSite) ∧
      Bitmap.clearBefore (t.stripe layout key.1 key.2).usedBmap
        (st.segs.pebAt a.lastSite - layout.stripeStart key.1 key.2) + 1 =
          takenFrom layout key (a.lebs a.sites) := by
  have hmax : a.lebAt a.lastSite ≠ Word.u64Max := by
    have := layout.pebsPerVolume_lt
    unfold Word.u64Max
    omega
  obtain ⟨before, hsites'⟩ :=
    List.getLast?_eq_some_iff.1 (SegsArray.allSites_getLast? hsegs.1 hsegs.2)
  rw [hsites, hsites'] at hrun ⊢
  rw [Checked.forEach_append] at hrun
  obtain ⟨u, hu, hrun⟩ := Checked.bind_eq_ok.1 hrun
  rw [Checked.forEach_singleton] at hrun
  obtain ⟨hshape, htaken, horder⟩ := forEach_mapSite_inOrder hacc hn hmarked hu
  rcases mapSite_ok hrun with ⟨hskip, -⟩ | ⟨-, tables, peb, cache, hpeb, hcall, rfl⟩
  · exact absurd (hshape.lebAt ▸ hskip) hmax
  · obtain ⟨slot, i, j, type, hmaps⟩ := mapLeb2peb_ok hacc hn htaken.toSameHeaders hcall hpeb
    obtain ⟨⟨hgood, hrank⟩, heq⟩ := horder.next hacc htaken.toSameHeaders hmaps
    obtain ⟨hcount, -⟩ := hmaps.stripe_header hacc htaken.toSameHeaders
    rw [← hshape.lebAt, ← hkey] at hgood hrank hcount
    have hat : (u.segs.setPebId a.lastSite peb).pebAt a.lastSite =
        layout.stripeStart key.1 key.2 + j := by
      rw [SegsArray.pebAt_setPebId, if_pos rfl, heq, ← hshape.lebAt, hkey]
      rfl
    rw [hat, Nat.add_sub_cancel_left, SegsArray.lebs_append, SegsArray.lebs_cons, if_neg hmax,
      SegsArray.lebs_nil, takenFrom_snoc, if_pos hkey, hrank]
    exact ⟨⟨Nat.le_add_right _ _, by rwa [Nat.add_sub_cancel_left],
      by rwa [Nat.add_sub_cancel_left]⟩, rfl⟩

theorem GoodIn.lt_volume {key : Nat × Nat} {peb : Nat} (h : GoodIn layout t key peb) :
    peb < layout.pebsPerVolume := by
  have hend : layout.stripeStart key.1 key.2 + layout.stripeCount key.1 key.2 ≤
      layout.pebsPerVolume := Geometry.stripe_end_le_volume _ _ (Nat.lt_of_le_of_lt (Nat.zero_le _) h.count)
  have hstart := h.start
  have hcount := h.count
  omega

theorem GoodIn.clearBefore_outside {key : Nat × Nat} {leb : Nat}
    (h : GoodIn layout t key (firstLeft layout leb - 1)) (hpos : 0 < firstLeft layout leb) :
    Bitmap.clearBefore (t.stripe layout key.1 key.2).usedBmap (outsideLeft layout leb key.1 key.2) =
      Bitmap.clearBefore (t.stripe layout key.1 key.2).usedBmap
        (firstLeft layout leb - 1 - layout.stripeStart key.1 key.2) + 1 := by
  have hle : firstLeft layout leb ≤ walkEnd layout leb := Nat.sub_le _ _
  have hstart := h.start
  have hcount := h.count
  have heq : outsideLeft layout leb key.1 key.2 =
      firstLeft layout leb - 1 - layout.stripeStart key.1 key.2 + 1 := by
    unfold outsideLeft
    rw [if_neg (by omega)]
    omega
  rw [heq]
  refine (Nat.count_succ _ _).trans ?_
  rw [if_pos h.good]
  rfl

theorem GoodIn.eq_of_rank {key : Nat × Nat} {peb peb' : Nat} (h : GoodIn layout t key peb)
    (h' : GoodIn layout t key peb')
    (hrank : Bitmap.clearBefore (t.stripe layout key.1 key.2).usedBmap
        (peb - layout.stripeStart key.1 key.2) =
      Bitmap.clearBefore (t.stripe layout key.1 key.2).usedBmap
        (peb' - layout.stripeStart key.1 key.2)) : peb = peb' := by
  have hitem := Bitmap.clearBefore_inj h.good h'.good hrank
  have hstart := h.start
  have hstart' := h'.start
  omega

theorem Tables.Taken.recovered_iff {n : Nat} {t₀ : Tables}
    (h : t.Taken layout n t₀) (h₀ : (Tables.fresh layout n).SameHeaders t₀) :
    (∀ pos : PebPos, pos.itemIndex < (t.pebFragment pos).pebsCount →
      ((t.pebFragment pos).desc pos.itemIndex).state ≠ .recovering) ↔
    ∀ pos : PebPos, pos.itemIndex < (t₀.pebFragment pos).pebsCount →
      ((t₀.pebFragment pos).desc pos.itemIndex).state ≠ .recovering := by
  refine forall_congr' fun pos => ?_
  have hhdr := h.pebHeader pos.fragmentIndex pos.portionIndex pos.stripeIndex
  have hhdr₀ := h₀.pebHeader pos.fragmentIndex pos.portionIndex pos.stripeIndex
  unfold Tables.pebFragment
  rw [hhdr.pebsCount, hhdr₀.pebsCount, Ne, h.recovering_iff]

@[simp] theorem walkEnd_volume : walkEnd layout layout.pebsPerVolume = layout.pebsPerVolume :=
  if_neg fun h => Nat.lt_irrefl _ h.1

@[simp] theorem firstLeft_volume : firstLeft layout layout.pebsPerVolume = layout.pebsPerVolume := by
  unfold firstLeft
  rw [walkEnd_volume, Nat.sub_self, Nat.sub_zero]

theorem marksFree_iff (hacc : layout.Accepted) (hn : layout.maptbl.portionsCount < 65535)
    (hmarked : (Tables.fresh layout layout.maptbl.portionsCount).Marked t)
    (hsites : a.sites = a.allSites)
    (hrun : Checked.forEach (mapSite layout) a.sites ⟨t, c, a⟩ = .ok st) :
    MarksFree layout st.tables st.segs ↔ MarksInStep layout t a := by
  obtain ⟨hshape, htaken, horder⟩ := forEach_mapSite_inOrder hacc hn hmarked hrun
  have hrec := htaken.recovered_iff hmarked.sameHeaders
  have hfilled := fun leb h => @free_iff_filled layout leb _ _ _ _ hacc htaken horder (hrec.2 h)
  constructor
  · rintro ⟨hsegs, hleb, hpeb, hrecovered, last, hstep, hfree, hcount⟩
    rw [← hshape.lastSite_eq] at hleb hpeb hstep hfree hcount
    rw [← hshape.lebAt] at hleb hstep hcount
    rw [← hshape.segsCapacity, ← hshape.pebsCapacity] at hsegs
    obtain ⟨hle, hend, hcov⟩ := hstep.covers hacc (by omega)
    obtain ⟨hportions, hwhole⟩ := (Geometry.stripes_cover_iff hacc.stripes_pos hacc.stripes_dvd
      hacc.pebs_pos hacc.pebsPerVolume_pos layout.maptbl.portionsCount).1 fun x hx => by
        rcases htaken.toSameHeaders.described_or_free x with hmem | hf
        · exact hmem
        · obtain ⟨hlo, hhi⟩ := (hfree x hx).1 hf
          obtain ⟨q, k, hq, hk, hmem⟩ := hcov x hlo hhi
          exact ⟨q, k, hq, hk, Geometry.mem_stripeRange.2 hmem⟩
    have hrecovered' := hrec.1 hrecovered
    rcases Nat.lt_or_ge (a.lebAt a.lastSite + 1) layout.pebsPerVolume with hlt | hge
    · obtain ⟨hwalks, rfl⟩ := (inStep_iff hacc hwhole hportions hlt (by omega)).1 hstep
      have hfirst : firstLeft layout (a.lebAt a.lastSite + 1) = st.segs.pebAt a.lastSite + 1 := by
        unfold firstLeft
        omega
      refine ⟨hsegs, hleb, hportions, hwhole, hrecovered', by omega,
        (hfilled _ hrecovered' hportions hwhole).1 ?_, fun _ => ?_, fun _ => hfirst ▸ hwalks⟩
      · rwa [hfirst]
      · rw [hfirst, Nat.add_sub_cancel]
        exact (lastSite_peb hacc hn hmarked hsites hsegs hrun hleb rfl).1
    · have hvolume : a.lebAt a.lastSite + 1 = layout.pebsPerVolume := by omega
      obtain rfl : last = st.segs.pebAt a.lastSite + 1 := by omega
      refine ⟨hsegs, hleb, hportions, hwhole, hrecovered', ?_,
        (hfilled _ hrecovered' hportions hwhole).1 ?_, fun _ => by omega, fun _ => by omega⟩
      · rw [hvolume, walkEnd_volume]
        omega
      · intro x hx
        rw [hvolume, walkEnd_volume, firstLeft_volume, hfree x hx]
        omega
  · rintro ⟨hsegs, hleb, hportions, hwhole, hrecovered, hreach, hfill, hown, hwalks⟩
    obtain ⟨hgood, hrank⟩ := lastSite_peb hacc hn hmarked hsites hsegs hrun hleb rfl
    have hfree := (hfilled _ hrecovered hportions hwhole).2 hfill
    have hpeb : st.segs.pebAt a.lastSite < layout.pebsPerVolume := hgood.lt_volume
    constructor
    case segs => rwa [← hshape.segsCapacity, ← hshape.pebsCapacity]
    case leb_lt => rwa [← hshape.lastSite_eq, ← hshape.lebAt]
    case peb_lt => rwa [← hshape.lastSite_eq]
    case recovered => exact hrec.2 hrecovered
    case walk =>
      rw [← hshape.lastSite_eq, ← hshape.lebAt]
      rcases Nat.lt_or_ge (a.lebAt a.lastSite + 1) layout.pebsPerVolume with hlt | hge
      · have hfirst : firstLeft layout (a.lebAt a.lastSite + 1) = st.segs.pebAt a.lastSite + 1 := by
          have houtside := (hown hlt).clearBefore_outside (Nat.sub_pos_of_lt hreach)
          have htake := (hfill (stripeKey layout (a.lebAt a.lastSite))
            ((Nat.div_lt_iff_lt_mul hacc.pebs_pos).2 (by omega)) (stripeOf_lt hacc _)).taken
          have heq := hgood.eq_of_rank (hown hlt) (by omega)
          have hpos : 0 < firstLeft layout (a.lebAt a.lastSite + 1) := Nat.sub_pos_of_lt hreach
          omega
        refine ⟨walkEnd layout (a.lebAt a.lastSite + 1),
          (inStep_iff hacc hwhole hportions hlt (by omega)).2 ⟨hfirst ▸ hwalks hlt, rfl⟩, ?_, ?_⟩
        · rwa [hfirst] at hfree
        · unfold firstLeft at hfirst
          omega
      · have hvolume : a.lebAt a.lastSite + 1 = layout.pebsPerVolume := by omega
        rw [hvolume, walkEnd_volume, firstLeft_volume] at hfree
        refine ⟨st.segs.pebAt a.lastSite + 1, .stop hge, fun x hx => ?_, by omega⟩
        rw [hfree x hx]
        omega

end Last

/-- The marking does its work exactly when LEBs, PEBs and stripes stay in step behind the last
mapped pair. -/
theorem markUnallocatedPebsAsPreErased_iff {layout layout₀ : VolumeLayout} {fuel segs : Nat}
    {a a₀ a₁ a₂ a₃ : SegsArray} {prepared t : Tables} {c : MaptblCache} {st : MapState}
    (hpolicy : maptblMkfsAllocationPolicy fuel layout₀ a₀ = .ok (layout, a₁, segs))
    (hprepare : maptblMkfsPrepare layout a₂ = .ok (a₃, prepared)) (hmarked : prepared.Marked t)
    (hsites : a.sites = a.allSites)
    (hmap : mapAllocatedLebs2pebs layout ⟨t, c, a⟩ = .ok st)
    (herase : layout.needEraseDevice = false) :
    (∃ fuel t' stored,
      markUnallocatedPebsAsPreErased fuel layout st.tables st.segs = .ok (t', some stored) ∧
        PreErases layout st.tables t' stored) ↔ MarksInStep layout t a := by
  have hacc := maptblMkfsAllocationPolicy_accepted hpolicy
  obtain ⟨rfl, hn⟩ := maptblMkfsPrepare_ok hacc hprepare
  rw [mapAllocatedLebs2pebs_eq] at hmap
  obtain ⟨-, htaken, -⟩ := forEach_mapSite_inOrder hacc hn hmarked hmap
  rw [← marksFree_iff hacc hn hmarked hsites hmap]
  constructor
  · rintro ⟨fuel, t', stored, hrun, hpre⟩
    exact htaken.marksFree hacc hn herase hrun hpre
  · exact fun hmarks => hmarks.preErases hacc hn htaken herase

def metadataSegs (maptblSegs : Nat) : SegsArray where
  metaArray
    | .initialSnapshot => ⟨0, 1, .dedicated⟩
    | .superblock => ⟨1, 6, .dedicated⟩
    | .segbmap => ⟨7, 1, .dedicated⟩
    | .pebMappingTable => ⟨8, maptblSegs, .dedicated⟩
    | .userData => ⟨8 + maptblSegs, 0, .dedicated⟩
  segs i := ⟨some (if i = 0 then .initialSnapshot else if i < 7 then .superblock
      else if i = 7 then .segbmap else .pebMappingTable), .dedicated, i,
    fun _ => ⟨Word.u64Max, Word.u64Max, fun _ => ⟨none, 0, 0⟩⟩, 1, 1⟩
  segsCapacity := 8 + maptblSegs
  segsCount := 0
  lastAllocatedSegIndex := 7 + maptblSegs

theorem markUnallocatedPebsAsPreErased_1001 :
    ∃ b st, defineLebIds (eightStripesAccepted 1001) (metadataSegs 1) = .ok b ∧
      prepareAndMap (eightStripesAccepted 1001) maptblSegs b = .ok st ∧
      ∃ fuel t' stored, markUnallocatedPebsAsPreErased fuel (eightStripesAccepted 1001) st.tables
          st.segs = .ok (t', some stored) ∧
        PreErases (eightStripesAccepted 1001) st.tables t' stored := by
  have hpolicy : maptblMkfsAllocationPolicy 1 (eightStripes 1001) (freeSegs 10) =
      .ok (eightStripesAccepted 1001, maptblSegs, 1) := rfl
  have hacc := maptblMkfsAllocationPolicy_accepted hpolicy
  obtain ⟨b, st, hids, hrun, hsegs, hsites, hleb, hlebs⟩ : ∃ b st,
      defineLebIds (eightStripesAccepted 1001) (metadataSegs 1) = .ok b ∧
      prepareAndMap (eightStripesAccepted 1001) maptblSegs b = .ok st ∧
      (0 < b.segsCapacity ∧ 0 < (b.segs (b.segsCapacity - 1)).pebsCapacity) ∧
      b.sites = b.allSites ∧ b.lebAt b.lastSite = 8 ∧
      b.lebs b.sites = List.range 9 :=
    ⟨_, _, rfl, rfl, by decide, rfl, rfl, rfl⟩
  obtain ⟨a', t, c, hprepare, hmap⟩ := prepareAndMap_ok hrun
  obtain ⟨rfl, hn⟩ := maptblMkfsPrepare_ok hacc hprepare
  have hmarks : MarksInStep (eightStripesAccepted 1001)
      (Tables.fresh (eightStripesAccepted 1001) 1) b := by
    constructor
    case segs => exact hsegs
    case leb_lt => rw [hleb]; decide
    case portions => decide
    case whole => exact .inr (by decide)
    case recovered => exact fun pos _ => by rw [Tables.pebFragment, Tables.fresh_desc]; decide
    case reach => rw [hleb]; decide
    case filled =>
      rintro ⟨q, k⟩ hq hk
      have hstripe := Tables.fresh_stripe (n := 1) hacc hq hk
      change q < 1 at hq
      change k < 3 at hk
      obtain rfl : q = 0 := by omega
      rw [hleb, hlebs]
      refine ⟨?_, fun j _ _ => by rw [hstripe]; rfl⟩
      rw [hstripe]
      obtain rfl | rfl | rfl : k = 0 ∨ k = 1 ∨ k = 2 := by omega
      all_goals decide
    case last =>
      rw [hleb]
      exact fun _ => ⟨by decide, by decide, by
        rw [Tables.fresh_stripe hacc (by decide) (by decide)]; rfl⟩
    case walk =>
      rw [hleb]
      exact fun _ => ⟨by decide, pagesInStep_last hacc (by decide) (by decide), by decide⟩
  exact ⟨b, st, hids, hrun, (markUnallocatedPebsAsPreErased_iff hpolicy hprepare Tables.fresh_marked
    hsites hmap rfl).2 hmarks⟩

/-- The table for 1500 PEBs, in two portions of three stripes and two LEB pages. -/
def twoPortionsAccepted : VolumeLayout :=
  { eightStripes 1500 with
    maptbl := ⟨false, 3, 1, 10, 2, 8192, 2, 12288, 3, 1428, 1428, 2, 20480⟩ }

def twoPortionsSegs : SegsArray := (freeSegs 10).setMeta .pebMappingTable ⟨0, 2, .dedicated⟩

/-- The second LEB page leads back to the first stripe of its portion, although the walk stands
behind the portion's last stripe. -/
theorem markUnallocatedPebsAsPreErased_stops_at_1016 :
    maptblMkfsAllocationPolicy 1 (eightStripes 1500) (freeSegs 10) =
        .ok (twoPortionsAccepted, twoPortionsSegs, 2) ∧
      ∃ b st, defineLebIds twoPortionsAccepted (metadataSegs 2) = .ok b ∧
        prepareAndMap twoPortionsAccepted twoPortionsSegs b = .ok st ∧
        ¬∃ fuel t' stored, markUnallocatedPebsAsPreErased fuel twoPortionsAccepted st.tables
            st.segs = .ok (t', some stored) ∧
          PreErases twoPortionsAccepted st.tables t' stored := by
  have hpolicy : maptblMkfsAllocationPolicy 1 (eightStripes 1500) (freeSegs 10) =
      .ok (twoPortionsAccepted, twoPortionsSegs, 2) := rfl
  have hacc := maptblMkfsAllocationPolicy_accepted hpolicy
  obtain ⟨b, st, hids, hsites, hrun, hleb⟩ : ∃ b st,
      defineLebIds twoPortionsAccepted (metadataSegs 2) = .ok b ∧
      b.sites = b.allSites ∧
      prepareAndMap twoPortionsAccepted twoPortionsSegs b = .ok st ∧
      b.lebAt b.lastSite = 9 :=
    ⟨_, _, rfl, rfl, rfl, rfl⟩
  obtain ⟨a', t, c, hprepare, hmap⟩ := prepareAndMap_ok hrun
  obtain ⟨rfl, hn⟩ := maptblMkfsPrepare_ok hacc hprepare
  rw [mapAllocatedLebs2pebs_eq] at hmap
  have hmarked := @Tables.fresh_marked twoPortionsAccepted 2
  obtain ⟨-, htaken, -⟩ := forEach_mapSite_inOrder hacc hn hmarked hmap
  refine ⟨hpolicy, b, st, hids, hrun, ?_⟩
  rintro ⟨fuel, t', stored, hmark, hpre⟩
  have hmarks := (marksFree_iff hacc hn hmarked hsites hmap).1
    (htaken.marksFree hacc hn rfl hmark hpre)
  have hpages := (hmarks.walk (by rw [hleb]; decide)).pages 0 1 (by decide) (by rw [hleb]; decide)
    (by decide)
  exact absurd hpages (by decide)

end Ssdfs
