import Ssdfs.Log.Pages
import Ssdfs.Maptbl.MapOrder
import Ssdfs.Mkfs.LebIds
import Ssdfs.Write.Segments

namespace Ssdfs

def checkPebsValidity (checkPebs : Tables → Mkfs Tables) (layout : VolumeLayout) (t : Tables) :
    Mkfs (Tables × Bool) :=
  match layout.env.deviceType with
  | .mtd => do
    let t ← checkPebs t
    .ok (t, true)
  | .zns | .blk => .ok (t, false)
  | .max => .error .abort

/-- The array of segments `b` that is written: the phases behind the mapping, which has left `a`,
fill in the contents, and each of them begins in its first page. These phases stop where no number of
pages divides a zone. -/
structure Committed (layout : VolumeLayout) (a b : SegsArray) : Prop where
  capacity : b.segsCapacity = a.segsCapacity
  count : b.segsCount = b.segsCapacity
  segId : ∀ i, (b.segs i).segId = (a.segs i).segId
  pebId : ∀ site, b.pebAt site = a.pebAt site
  first : ∀ site ∈ b.written, ∀ k, (b.content site).items.head? = some k →
    (b.content site).start k < layout.pageSize.bytes
  pages : layout.env.deviceType = .zns → layout.LogPagesSet

section Map

variable {layout : VolumeLayout} {n : Nat} {st : MapState} {t : Tables} {c : MaptblCache}
  {a : SegsArray} {done : List (Nat × Nat)}

theorem forEach_mapSite_segId (h : Checked.forEach (mapSite layout) done ⟨t, c, a⟩ = .ok st) :
    st.segs.segsCapacity = a.segsCapacity ∧ ∀ i, (st.segs.segs i).segId = (a.segs i).segId := by
  refine Checked.forEach_inv (fun u => u.segs.segsCapacity = a.segsCapacity ∧
    ∀ i, (u.segs.segs i).segId = (a.segs i).segId) h ⟨rfl, fun _ => rfl⟩ fun site u u' hu hstep => ?_
  rcases mapSite_ok hstep with ⟨-, rfl⟩ | ⟨-, tables, peb, cache, -, -, rfl⟩
  · exact hu
  · refine ⟨hu.1, fun i => ?_⟩
    simp only [SegsArray.setPebId, SegsArray.setSeg, Function.update_apply]
    split
    case isTrue hi => rw [hi, ← hu.2]
    case isFalse => exact hu.2 i

theorem forEach_mapSite_pebAt (hacc : layout.Accepted) (hn : n < 65535)
    (hmarked : (Tables.fresh layout n).Marked t) (hnodup : done.Nodup)
    (hrun : Checked.forEach (mapSite layout) done ⟨t, c, a⟩ = .ok st) :
    (∀ site, site ∉ done ∨ a.lebAt site = Word.u64Max → st.segs.pebAt site = a.pebAt site) ∧
      ∀ before site after, done = before ++ site :: after → a.lebAt site ≠ Word.u64Max →
        ∃ item, t.Ranked layout (stripeKey layout (a.lebAt site))
            (takenFrom layout (stripeKey layout (a.lebAt site)) (a.lebs before)) item ∧
          st.segs.pebAt site =
            layout.stripeStart (a.lebAt site / layout.maptbl.pebsPerPortion)
              (stripeOf layout (a.lebAt site)) + item := by
  induction done using List.reverseRecOn generalizing st with
  | nil =>
    cases hrun
    exact ⟨fun _ _ => rfl, fun before site after h => by simp at h⟩
  | append_singleton done site ih =>
    obtain ⟨hnodup', -, hnew⟩ := List.nodup_append.1 hnodup
    rw [Checked.forEach_append] at hrun
    obtain ⟨u, hu, hrun⟩ := Checked.bind_eq_ok.1 hrun
    rw [Checked.forEach_singleton] at hrun
    obtain ⟨hkept, hranked⟩ := ih hnodup' hu
    obtain ⟨hshape, htaken, horder⟩ := forEach_mapSite_inOrder hacc hn hmarked hu
    have hlast : site ∉ done := fun h => hnew site h site (List.mem_singleton_self site) rfl
    -- The step changes the PEB of its own site only.
    have hstep : (∀ s, s ≠ site ∨ a.lebAt s = Word.u64Max → st.segs.pebAt s = u.segs.pebAt s) ∧
        (a.lebAt site ≠ Word.u64Max → ∃ item, t.Ranked layout (stripeKey layout (a.lebAt site))
            (takenFrom layout (stripeKey layout (a.lebAt site)) (a.lebs done)) item ∧
          st.segs.pebAt site = layout.stripeStart (a.lebAt site / layout.maptbl.pebsPerPortion)
            (stripeOf layout (a.lebAt site)) + item) := by
      rw [hshape.lebAt]
      rcases mapSite_ok hrun with ⟨hleb, rfl⟩ | ⟨hleb, tables, peb, cache, hpeb, hcall, rfl⟩
      · exact ⟨fun _ _ => rfl, fun hne => absurd hleb hne⟩
      · obtain ⟨slot, i, j, type, hmaps⟩ := mapLeb2peb_ok hacc hn htaken.toSameHeaders hcall hpeb
        obtain ⟨hnext, heq⟩ := horder.next hacc htaken.toSameHeaders hmaps
        refine ⟨fun s hs => ?_, fun _ => ⟨j, hnext, ?_⟩⟩
        · rw [SegsArray.pebAt_setPebId, if_neg]
          rintro rfl
          exact hs.elim (fun h => h rfl) hleb
        · rw [SegsArray.pebAt_setPebId, if_pos rfl, heq]
    refine ⟨fun s hs => ?_, fun before s after hdone hleb => ?_⟩
    · rw [hstep.1 s (hs.imp_left fun h heq => h (heq ▸ List.mem_append_cons_self)), hkept s]
      exact hs.imp_left fun h hmem => h (List.mem_append_left _ hmem)
    · rcases List.eq_nil_or_concat after with rfl | ⟨rest, y, rfl⟩
      · obtain ⟨rfl, hs⟩ := List.append_inj' hdone rfl
        obtain rfl := List.singleton_inj.1 hs
        exact hstep.2 hleb
      · have hsnoc : done ++ [site] = (before ++ s :: rest) ++ [y] := by
          rw [hdone, List.concat_eq_append, List.append_assoc, List.cons_append]
        obtain ⟨hprev, -⟩ := List.append_inj' hsnoc rfl
        have hne : s ≠ site := by
          rintro rfl
          exact hlast (hprev ▸ List.mem_append_cons_self)
        rw [hstep.1 s (.inl hne)]
        exact hranked before s rest hprev hleb

@[simp] theorem Tables.fresh_usedBmap (key : Nat × Nat) (j : Nat) :
    ((Tables.fresh layout n).stripe layout key.1 key.2).usedBmap j = false := by
  unfold Tables.stripe
  rcases @Tables.fresh_pebtbl_cases layout n (key.1 / layout.maptbl.portionsPerFragment)
    (key.1 % layout.maptbl.portionsPerFragment) key.2 with h | ⟨k, h⟩ <;>
    · rw [h]; rfl

theorem Tables.Ranked.fresh {key : Nat × Nat} {rank item : Nat}
    (h : (Tables.fresh layout n).Ranked layout key rank item) : item = rank := by
  have hrank := h.rank_eq
  unfold Bitmap.clearBefore at hrank
  rwa [Nat.count_of_forall fun j _ => Tables.fresh_usedBmap key j] at hrank

theorem Tables.Ranked.first {key : Nat × Nat} {item : Nat} (h : t.Ranked layout key 0 item)
    (hgood : (t.stripe layout key.1 key.2).usedBmap 0 = false) : item = 0 := by
  have hrank := h.rank_eq
  unfold Bitmap.clearBefore at hrank
  by_contra hne
  have hle := Nat.count_monotone (fun j => (t.stripe layout key.1 key.2).usedBmap j = false)
    (Nat.pos_of_ne_zero hne)
  rw [hrank, Nat.count_succ, if_pos hgood] at hle
  exact absurd hle (Nat.not_succ_le_zero _)

theorem checkPebsValidity_marked {checkPebs : Tables → Mkfs Tables} {isVolumeErased : Bool}
    (h : checkPebsValidity checkPebs layout (Tables.fresh layout n) = .ok (t, isVolumeErased))
    (hflash : layout.env.deviceType = .mtd → (Tables.fresh layout n).Marked t ∧
      (t.stripe layout 0 0).usedBmap 0 = false) :
    (Tables.fresh layout n).Marked t ∧ (t.stripe layout 0 0).usedBmap 0 = false := by
  unfold checkPebsValidity at h
  split at h
  · rename_i hmtd
    exact hflash hmtd
  · cases h
    exact ⟨Tables.fresh_marked, Tables.fresh_usedBmap (0, 0) 0⟩
  · cases h
    exact ⟨Tables.fresh_marked, Tables.fresh_usedBmap (0, 0) 0⟩
  · cases h

end Map

theorem VolumeLayout.SizesAccepted.segSize_eq {layout : VolumeLayout} (h : layout.SizesAccepted) :
    layout.segSize.toNat = layout.pebsPerSeg * layout.env.eraseSize.toNat := by
  obtain ⟨k, hk, -⟩ := h.pebsPerSeg_eq
  obtain ⟨k', hk'⟩ := h.pebs
  have herase := h.eraseSize_ge
  have hseg : layout.pebsPerSeg = Word.u32 (2 ^ k') := by
    unfold VolumeLayout.pebsPerSeg
    rw [hk', Nat.mul_div_cancel_left _ (by omega)]
  have hle := h.segSize_le
  have hpow := Nat.mul_le_mul_right (2 ^ k') herase
  rw [hseg, Word.u32_of_lt (by omega), hk', Nat.mul_comm]

/-- The segments that are erased come first on the volume, the stripes that the LEBs of these
segments get their PEBs from do not. -/
theorem writeSegments_erased_iff {sectorsPerZone : Option UInt32} {fuel writeFuel : Nat}
    {requested : UInt16}
    {options layout : VolumeLayout} {a a₂ a₃ b : SegsArray} {prepared t : Tables} {c : MaptblCache}
    {st : MapState} {checkPebs : Tables → Mkfs Tables} {erase : Nat → Nat → Mkfs Unit}
    {erased : List (Nat × Nat)} {checkPeb : Bool → Mkfs Unit} {w w' : WriteState} {u : Unit}
    (hsizes : options.SizesAccepted) (hindex : options.lebsPerPebIndex = 1)
    (hdefine : mkfsDefineSegs sectorsPerZone fuel requested options = .ok (layout, a))
    (hprepare : maptblMkfsPrepare layout a₂ = .ok (a₃, prepared))
    (hvalidity : checkPebsValidity checkPebs layout prepared = .ok (t, false))
    (hmap : mapAllocatedLebs2pebs layout ⟨t, c, a⟩ = .ok st)
    (hcommitted : Committed layout st.segs b) (hcheck : checkLayoutBeforeWrite layout b = .ok u)
    (herase : eraseAllocatedSegmentsOnly erase layout b = .ok erased)
    (hfuel : layout.env.eraseSize.toNat < writeFuel) (hempty : w.bufferOffset = 0)
    (hnone : w.writes = []) (hwrite : writeSegments layout writeFuel checkPeb b w = .ok w') :
    deviceBytes w'.writes ⊆ deviceBytes erased ↔
      ∀ done site rest, a.sites = done ++ site :: rest → site ∈ b.written →
        layout.stripeStart (a.lebAt site / layout.maptbl.pebsPerPortion)
            (stripeOf layout (a.lebAt site)) +
          takenFrom layout (stripeKey layout (a.lebAt site)) (a.lebs done) <
            a.segsCapacity * layout.pebsPerSeg := by
  obtain ⟨g, segbmapSegs, maptblSegs, a₀, hdefined⟩ := mkfsDefineSegs_run hsizes hindex hdefine
  have hacc := hdefined.accepted
  have hdvd : layout.pageSize.bytes ∣ layout.env.eraseSize.toNat := by
    by_cases hzns : layout.env.deviceType = .zns
    · exact (hcommitted.pages hzns).page_dvd
    · exact hdefined.page_dvd hzns
  obtain ⟨rfl, hn⟩ := maptblMkfsPrepare_ok hacc hprepare
  have hfresh : t = Tables.fresh layout layout.maptbl.portionsCount := by
    unfold checkPebsValidity at hvalidity
    split at hvalidity
    · obtain ⟨_, -, hvalidity⟩ := Checked.bind_eq_ok.1 hvalidity
      cases hvalidity
    · cases hvalidity; rfl
    · cases hvalidity; rfl
    · cases hvalidity
  subst hfresh
  rw [mapAllocatedLebs2pebs_eq] at hmap
  obtain ⟨hcapacity, hids⟩ := forEach_mapSite_segId hmap
  obtain ⟨hkept, hranked⟩ := forEach_mapSite_pebAt hacc hn Tables.fresh_marked hdefined.sites_nodup hmap
  have hcount : b.segsCount = a.segsCapacity :=
    hcommitted.count.trans (hcommitted.capacity.trans hcapacity)
  have hsize := hdefined.corrected.sizes.segSize_eq
  have hpebs : ∀ site ∈ b.written, (b.content site).pebId ≠ Word.u64Max := by
    intro site hsite hmax
    obtain ⟨bmap, bmap', blks, hsitecheck⟩ := checkLayoutBeforeWrite_site hcheck hsite
    obtain ⟨hitems, hpacked, -⟩ := checkPebBeforeWrite_ok (erase_add_page_le hdvd) hsitecheck
    obtain ⟨k, hk⟩ := List.exists_mem_of_ne_nil _ hitems
    have hvolume := (hpacked.fits k hk).volume
    have hfs := layout.env.fsSize.toNat_lt
    have hpos := hdefined.corrected.sizes.eraseSize_ge
    have hmul := Nat.mul_le_mul_left Word.u64Max hpos
    rw [hmax] at hvolume
    unfold Word.u64Max at hvolume hmul
    omega
  have hrange : deviceBytes erased =
      Set.Iio (a.segsCapacity * layout.pebsPerSeg * layout.env.eraseSize.toNat) := by
    have hfit : b.segsCount * layout.segSize.toNat ≤ layout.env.fsSize.toNat := by
      rw [hcount, hdefined.numbered.capacity, hdefined.capacity]
      exact Nat.le_trans (Nat.mul_le_mul_right _ hdefined.few) (Nat.div_mul_le_self _ _)
    have hnumbers : ∀ i < b.segsCount, (b.segs i).segId = i := fun i hi => by
      rw [hcommitted.segId, hids, (hdefined.segs_eq (hcount ▸ hi)).1]
    rw [deviceBytes_erased herase hnumbers hfit, hcount, hsize, Nat.mul_assoc]
  have hwritten := writeSegments_ok hdvd hfuel hcheck hcommitted.first hempty hnone hwrite
  rw [hrange, hwritten.subset_iff]
  have hpeb : ∀ done site rest, a.sites = done ++ site :: rest → site ∈ b.written →
      (b.content site).pebId = layout.stripeStart (a.lebAt site / layout.maptbl.pebsPerPortion)
          (stripeOf layout (a.lebAt site)) +
        takenFrom layout (stripeKey layout (a.lebAt site)) (a.lebs done) := by
    intro done site rest hsites hsite
    have hmem : site ∈ a.sites := hsites ▸ List.mem_append_cons_self
    have hsame : (b.content site).pebId = st.segs.pebAt site := hcommitted.pebId site
    have hleb : a.lebAt site ≠ Word.u64Max := fun hmax => by
      refine hpebs site hsite ?_
      rw [hsame, hkept site (.inr hmax)]
      exact (hdefined.segs_eq (hdefined.mem_sites.1 hmem).1).2.2 _
    obtain ⟨item, hitem, heq⟩ := hranked done site rest hsites hleb
    rw [hsame, heq, hitem.fresh]
  have hmem : ∀ site ∈ b.written, site ∈ a.sites := fun site hsite => by
    by_contra hnot
    refine hpebs site hsite ?_
    refine (hcommitted.pebId site).trans ((hkept site (.inl hnot)).trans ?_)
    exact (hdefined.segs_eq (hcount ▸ hsite.1)).2.2 _
  constructor
  · intro hall done site rest hsites hsite
    rw [← hpeb done site rest hsites hsite]
    exact hall site hsite
  · intro hall site hsite
    obtain ⟨done, rest, hsites⟩ := List.append_of_mem (hmem site hsite)
    rw [hpeb done site rest hsites hsite]
    exact hall done site rest hsites hsite

/-- A volume of 500 segments of four erase blocks of 128 KiB on one die. -/
def volumeOf500 : VolumeLayout := { volumeOnDies 1 with env := ⟨262144000, 131072, .blk⟩ }

theorem volumeOf500_sizesAccepted : volumeOf500.SizesAccepted where
  eraseSize_ge := show 512 ≤ 131072 by decide
  segSize_le := show 524288 ≤ 68719476736 by decide
  pebs := ⟨2, show 524288 = 131072 * 2 ^ 2 by decide⟩

def SegsArray.withHeaders (a : SegsArray) (pebsCount : Nat → Nat) : SegsArray :=
  { a with
    segs := fun i => { a.segs i with
      pebsCount := pebsCount i
      pebs := fun k => { (a.segs i).pebs k with
        extents := fun
          | .segHeader => ⟨some fun _ => 1, 0, 2048⟩
          | _ => ⟨none, 0, 0⟩ } }
    segsCount := a.segsCapacity }

theorem SegsArray.withHeaders_committed {layout : VolumeLayout} (hzns : layout.env.deviceType ≠ .zns)
    (a : SegsArray) (pebsCount : Nat → Nat) : Committed layout a (a.withHeaders pebsCount) where
  capacity := rfl
  count := rfl
  segId _ := rfl
  pebId _ := rfl
  first site _ k hk := by
    have hpage := layout.pageSize.bytes_ge
    have hstart : ((a.withHeaders pebsCount).content site).start k = 0 := by
      cases k <;> rfl
    omega
  pages hdevice := absurd hdevice hzns

structure Created where
  layout : VolumeLayout
  defined : SegsArray
  written : SegsArray
  erased : List (Nat × Nat)
  device : WriteState

/-- A run from the options to the written volume, which is not erased as a whole. -/
def createVolume (options : VolumeLayout) (pebsCount : Nat → Nat) : Mkfs Created := do
  let (layout, a) ← mkfsDefineSegs none 5 1 options
  let (_, prepared) ← maptblMkfsPrepare layout (emptySegs layout 0)
  let (t, isVolumeErased) ← checkPebsValidity (fun _ => .error .abort) layout prepared
  failIf isVolumeErased .einval
  let c ← maptblCacheMkfsPrepare layout.pageSize a
  let st ← mapAllocatedLebs2pebs layout ⟨t, c, a⟩
  let b := st.segs.withHeaders pebsCount
  checkLayoutBeforeWrite layout b
  let erased ← eraseAllocatedSegmentsOnly (fun _ _ => .ok ()) layout b
  let device ← writeSegments layout 131073 (fun _ => .ok ()) b ⟨fun _ => 0, 0, fun _ => 0, [], 0⟩
  .ok ⟨layout, a, b, erased, device⟩

theorem createVolume_ok {options : VolumeLayout} {pebsCount : Nat → Nat} {r : Created}
    (h : createVolume options pebsCount = .ok r) :
    ∃ a₃ prepared t c st u,
      mkfsDefineSegs none 5 1 options = .ok (r.layout, r.defined) ∧
      maptblMkfsPrepare r.layout (emptySegs r.layout 0) = .ok (a₃, prepared) ∧
      checkPebsValidity (fun _ => .error .abort) r.layout prepared = .ok (t, false) ∧
      mapAllocatedLebs2pebs r.layout ⟨t, c, r.defined⟩ = .ok st ∧
      r.written = st.segs.withHeaders pebsCount ∧
      checkLayoutBeforeWrite r.layout r.written = .ok u ∧
      eraseAllocatedSegmentsOnly (fun _ _ => .ok ()) r.layout r.written = .ok r.erased ∧
      writeSegments r.layout 131073 (fun _ => .ok ()) r.written ⟨fun _ => 0, 0, fun _ => 0, [], 0⟩ =
        .ok r.device := by
  obtain ⟨⟨layout, a⟩, hdefine, h⟩ := Checked.bind_eq_ok.1 h
  obtain ⟨⟨a₃, prepared⟩, hprepare, h⟩ := Checked.bind_eq_ok.1 h
  obtain ⟨⟨t, isVolumeErased⟩, hvalidity, h⟩ := Checked.bind_eq_ok.1 h
  obtain ⟨herased, h⟩ := failIf_bind_eq_ok.1 h
  obtain ⟨c, -, h⟩ := Checked.bind_eq_ok.1 h
  obtain ⟨st, hmap, h⟩ := Checked.bind_eq_ok.1 h
  obtain ⟨u, hcheck, h⟩ := Checked.bind_eq_ok.1 h
  obtain ⟨erased, herase, h⟩ := Checked.bind_eq_ok.1 h
  obtain ⟨device, hwrite, h⟩ := Checked.bind_eq_ok.1 h
  cases h
  obtain rfl := Bool.eq_false_iff.2 herased
  exact ⟨a₃, prepared, t, c, st, u, hdefine, hprepare, hvalidity, hmap, rfl, hcheck, herase, hwrite⟩

theorem SegsDefined.takenFrom_lt {options layout : VolumeLayout} {g : SegbmapGeometry} {b m : Nat}
    {a a' : SegsArray} (h : SegsDefined options layout g b m a a') {done rest : List (Nat × Nat)}
    {site key : Nat × Nat} (hsites : a'.sites = done ++ site :: rest) :
    takenFrom layout key (a'.lebs done) < a'.segsCapacity * layout.pebsPerSeg := by
  have hlength : a'.sites.length = a'.segsCapacity * layout.pebsPerSeg := by
    rw [h.sites_eq, SegsArray.allSites, List.length_flatMap, List.map_congr_left (g := fun _ => layout.pebsPerSeg)]
    · simp
    · intro i hi
      rw [List.length_map, List.length_range, (h.segs_eq (List.mem_range.1 hi)).2.1]
  have hle : takenFrom layout key (a'.lebs done) ≤ done.length := by
    refine Nat.le_trans (List.countP_le_length) ?_
    unfold SegsArray.lebs
    rw [List.length_map]
    exact List.length_filter_le _ _
  rw [hsites, List.length_append, List.length_cons] at hlength
  omega

def firstStripe (r : Created) : Bool :=
  (List.range r.written.segsCount).all fun i =>
    (r.written.segs i).pebsCount = 1 ∧
    r.layout.stripeStart (r.defined.lebAt (i, 0) / r.layout.maptbl.pebsPerPortion)
      (stripeOf r.layout (r.defined.lebAt (i, 0))) = 0

/-- One PEB of each segment is written. -/
theorem writeSegments_erased_500 : ∃ r, createVolume volumeOf500 (fun _ => 1) = .ok r ∧
    deviceBytes r.device.writes ⊆ deviceBytes r.erased := by
  have hrun : (createVolume volumeOf500 (fun _ => 1)).map (fun r =>
      (firstStripe r, r.layout.env.eraseSize, r.layout.env.deviceType)) = .ok (true, 131072, .blk) := by
    decide +kernel
  cases hcreate : createVolume volumeOf500 (fun _ => 1) with
  | error e =>
    rw [hcreate] at hrun
    cases hrun
  | ok r =>
    rw [hcreate] at hrun
    simp only [Except.map, Except.ok.injEq, Prod.mk.injEq] at hrun
    obtain ⟨hfirst, hsize, hdevice⟩ := hrun
    obtain ⟨a₃, prepared, t, c, st, u, hdefine, hprepare, hvalidity, hmap, hheaders, hcheck, herase,
      hwrite⟩ := createVolume_ok hcreate
    obtain ⟨g, b, m, a₀, hdefined⟩ := mkfsDefineSegs_run volumeOf500_sizesAccepted rfl hdefine
    have hcommitted : Committed r.layout st.segs r.written :=
      hheaders ▸ st.segs.withHeaders_committed (by
        rw [hdevice]
        decide) _
    have hfuel : r.layout.env.eraseSize.toNat < 131073 := by
      rw [hsize]
      decide
    refine ⟨r, rfl, (writeSegments_erased_iff volumeOf500_sizesAccepted rfl hdefine hprepare hvalidity
      hmap hcommitted hcheck herase hfuel rfl rfl hwrite).2 fun done ⟨i, k⟩ rest hsites hsite => ?_⟩
    obtain ⟨hone, hstart⟩ := of_decide_eq_true
      (List.all_eq_true.1 hfirst i (List.mem_range.2 hsite.1))
    have hk : k < 1 := hone ▸ hsite.2
    obtain rfl := Nat.lt_one_iff.1 hk
    rw [hstart, Nat.zero_add]
    exact hdefined.takenFrom_lt hsites

/-- The mapping table takes four PEBs of its segment, and the last two are from the second
stripe. -/
theorem writeSegments_misses_488 : ∃ r,
    createVolume volumeOf500 (fun i => if i = 8 then 4 else 1) = .ok r ∧
      ¬deviceBytes r.device.writes ⊆ deviceBytes r.erased := by
  have hrun : (createVolume volumeOf500 (fun i => if i = 8 then 4 else 1)).map (fun r =>
      (r.device.writes.getLast?, decide (∀ p ∈ r.erased, p.1 + p.2 ≤ 4718592))) =
        .ok (some (64094208, 4096), true) := by decide +kernel
  cases hcreate : createVolume volumeOf500 (fun i => if i = 8 then 4 else 1) with
  | error e =>
    rw [hcreate] at hrun
    cases hrun
  | ok r =>
    rw [hcreate] at hrun
    simp only [Except.map, Except.ok.injEq, Prod.mk.injEq] at hrun
    obtain ⟨hlast, herased⟩ := hrun
    have hend : ∀ p ∈ r.erased, p.1 + p.2 ≤ 4718592 := of_decide_eq_true herased
    refine ⟨r, rfl, fun hsub => ?_⟩
    obtain ⟨p, hp, -, hlt⟩ := hsub ⟨_, List.mem_of_getLast? hlast, Nat.le_refl _, by decide⟩
    have := hend p hp
    omega

end Ssdfs
