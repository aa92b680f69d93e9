import Mathlib.Data.List.Induction
import Ssdfs.Maptbl.Mapped

namespace Ssdfs

namespace SegsArray

def sites (a : SegsArray) : List (Nat × Nat) :=
  MetaIndex.all.flatMap fun metaIndex =>
    (List.range (a.metaArray metaIndex).segsCount).flatMap fun j =>
      (List.range (a.segs ((a.metaArray metaIndex).startSegIndex + j)).pebsCapacity).map fun i =>
        ((a.metaArray metaIndex).startSegIndex + j, i)

def allSites (a : SegsArray) : List (Nat × Nat) :=
  (List.range a.segsCapacity).flatMap fun i => (List.range (a.segs i).pebsCapacity).map fun k => (i, k)

def lastSite (a : SegsArray) : Nat × Nat :=
  (a.segsCapacity - 1, (a.segs (a.segsCapacity - 1)).pebsCapacity - 1)

def lebs (a : SegsArray) (sites : List (Nat × Nat)) : List Nat :=
  (sites.filter fun site => a.lebAt site ≠ Word.u64Max).map a.lebAt

def calls (a : SegsArray) (sites : List (Nat × Nat)) : List (Nat × Nat) :=
  (sites.filter fun site => a.lebAt site ≠ Word.u64Max).map fun site =>
    (a.lebAt site, a.pebAt site)

structure SameShape (a b : SegsArray) : Prop where
  metaArray : a.metaArray = b.metaArray
  pebsCapacity : ∀ i, (a.segs i).pebsCapacity = (b.segs i).pebsCapacity
  lebAt : a.lebAt = b.lebAt
  segsCapacity : a.segsCapacity = b.segsCapacity

variable {a b : SegsArray}

theorem SameShape.lebs_eq (h : a.SameShape b) (sites : List (Nat × Nat)) :
    a.lebs sites = b.lebs sites := by
  unfold lebs
  rw [h.lebAt]

theorem SameShape.lastSite_eq (h : a.SameShape b) : a.lastSite = b.lastSite := by
  unfold lastSite
  rw [h.segsCapacity, h.pebsCapacity]

theorem allSites_getLast? (hsegs : 0 < a.segsCapacity)
    (hpebs : 0 < (a.segs (a.segsCapacity - 1)).pebsCapacity) :
    a.allSites.getLast? = some a.lastSite := by
  unfold allSites lastSite
  obtain ⟨s, hs⟩ := Nat.exists_eq_succ_of_ne_zero (Nat.pos_iff_ne_zero.1 hsegs)
  obtain ⟨k, hk⟩ := Nat.exists_eq_succ_of_ne_zero (Nat.pos_iff_ne_zero.1 hpebs)
  rw [hs, Nat.succ_sub_one] at hk ⊢
  rw [List.range_succ, List.flatMap_append, List.flatMap_singleton, hk, List.range_succ,
    List.map_append, List.map_singleton, ← List.append_assoc, List.getLast?_concat]
  rfl

theorem calls_fst (a : SegsArray) (sites : List (Nat × Nat)) :
    (a.calls sites).map Prod.fst = a.lebs sites := by
  unfold calls lebs
  rw [List.map_map]
  rfl

theorem setPebId_content (a : SegsArray) (site s : Nat × Nat) (peb : Nat) :
    ((a.setPebId site peb).segs s.1).pebs s.2 =
      if s = site then { (a.segs s.1).pebs s.2 with pebId := peb } else (a.segs s.1).pebs s.2 := by
  obtain ⟨i, j⟩ := site
  obtain ⟨i', j'⟩ := s
  unfold setPebId setSeg
  by_cases hi : i' = i
  · subst hi
    by_cases hj : j' = j
    · subst hj
      simp
    · simp [hj]
  · simp [hi]

theorem setPebId_shape (a : SegsArray) (site : Nat × Nat) (peb : Nat) :
    a.SameShape (a.setPebId site peb) := by
  refine ⟨rfl, fun i => ?_, ?_, rfl⟩
  · change _ = (Function.update a.segs site.1 _ i).pebsCapacity
    by_cases hi : i = site.1
    · subst hi
      rw [Function.update_self]
    · rw [Function.update_of_ne hi]
  · funext s
    unfold lebAt
    rw [setPebId_content]
    split <;> rfl

theorem pebAt_setPebId (a : SegsArray) (site s : Nat × Nat) (peb : Nat) :
    (a.setPebId site peb).pebAt s = if s = site then peb else a.pebAt s := by
  unfold pebAt
  rw [setPebId_content]
  split <;> rfl

end SegsArray

section Shape

variable {layout : VolumeLayout} {st st' : MapState} {site : Nat × Nat} {a : SegsArray}

theorem mapSite_ok (h : mapSite layout site st = .ok st') :
    (st.segs.lebAt site = Word.u64Max ∧ st' = st) ∨
      (st.segs.lebAt site ≠ Word.u64Max ∧ ∃ tables peb cache, peb ≠ Word.u64Max ∧
        mapLeb2peb layout st.tables (st.segs.lebAt site) (st.segs.segs site.1).segType =
          .ok (tables, peb) ∧
        st' = ⟨tables, cache, st.segs.setPebId site peb⟩) := by
  unfold mapSite at h
  simp only at h
  split at h
  case isTrue hleb => cases h; exact .inl ⟨hleb, rfl⟩
  case isFalse hleb =>
    obtain ⟨⟨tables, peb⟩, hmap, h⟩ := Checked.bind_eq_ok.1 h
    obtain ⟨hpeb, h⟩ := failIf_bind_eq_ok.1 h
    obtain ⟨cache, -, h⟩ := Checked.bind_eq_ok.1 h
    cases h
    exact .inr ⟨hleb, tables, peb, cache, hpeb, hmap, rfl⟩

theorem mapSite_shape (hs : a.SameShape st.segs) (h : mapSite layout site st = .ok st') :
    a.SameShape st'.segs := by
  rcases mapSite_ok h with ⟨-, rfl⟩ | ⟨-, tables, peb, cache, -, -, rfl⟩
  · exact hs
  · have hset := st.segs.setPebId_shape site peb
    exact ⟨hs.1.trans hset.1, fun i => (hs.2 i).trans (hset.2 i), hs.3.trans hset.3,
      hs.4.trans hset.4⟩

theorem mapAllocatedLebs2pebs_eq (st : MapState) :
    mapAllocatedLebs2pebs layout st = Checked.forEach (mapSite layout) st.segs.sites st := by
  unfold mapAllocatedLebs2pebs SegsArray.sites
  rw [Checked.forEach_flatMap]
  refine Checked.forEach_congr (fun t => st.segs.SameShape t.segs) ⟨rfl, fun _ => rfl, rfl, rfl⟩ ?_ ?_
  · intro metaIndex _ t ht
    rw [Checked.forEach_flatMap, ← ht.metaArray, ← Checked.forEach_range]
    refine Checked.forEach_congr (fun u => st.segs.SameShape u.segs) ht ?_ ?_
    · intro j _ u hu
      rw [Checked.forEach_map, Checked.forEach_range, hu.pebsCapacity]
      rfl
    · intro j u u' hu h
      exact Checked.forEach_inv (fun v => st.segs.SameShape v.segs) h hu
        fun s v v' hv => mapSite_shape hv
  · intro metaIndex t t' ht h
    exact Checked.forEach_inv (fun v => st.segs.SameShape v.segs) h ht
      fun s v v' hv => mapSite_shape hv

end Shape

section Run

variable {layout : VolumeLayout} {n : Nat} {st : MapState} {t : Tables} {c : MaptblCache}
  {a : SegsArray} {done : List (Nat × Nat)}

theorem SegsArray.calls_append {site : Nat × Nat} {peb : Nat} (hleb : a.lebAt site ≠ Word.u64Max)
    (hnodup : (a.lebs (done ++ [site])).Nodup) :
    (a.setPebId site peb).calls (done ++ [site]) =
      a.calls done ++ [(a.lebAt site, peb)] := by
  have hlebAt : (a.setPebId site peb).lebAt = a.lebAt := (a.setPebId_shape site peb).lebAt.symm
  have hsite : site ∉ done.filter fun s => a.lebAt s ≠ Word.u64Max := by
    intro hmem
    unfold SegsArray.lebs at hnodup
    rw [List.filter_append, List.map_append, List.nodup_append] at hnodup
    exact hnodup.2.2 _ (List.mem_map_of_mem hmem) (a.lebAt site) (by simp [hleb]) rfl
  unfold SegsArray.calls
  rw [hlebAt, List.filter_append, List.map_append]
  congr 1
  · refine List.map_congr_left fun s hs => ?_
    rw [SegsArray.pebAt_setPebId, if_neg]
    rintro rfl
    exact hsite hs
  · simp [hleb, SegsArray.pebAt_setPebId]

theorem SegsArray.calls_append_skip {site : Nat × Nat} (hleb : a.lebAt site = Word.u64Max) :
    a.calls (done ++ [site]) = a.calls done := by
  unfold SegsArray.calls
  simp [hleb]

/-- Every prefix of the run keeps the tables' invariant for the LEBs mapped so far. -/
theorem forEach_mapSite_mapped (hacc : layout.Accepted) (hn : n < 65535)
    (hmarked : (Tables.fresh layout n).Marked t) (hnodup : (a.lebs done).Nodup)
    (hrun : Checked.forEach (mapSite layout) done ⟨t, c, a⟩ = .ok st) :
    a.SameShape st.segs ∧ st.tables.Mapped layout n t (st.segs.calls done) := by
  induction done using List.reverseRecOn generalizing st with
  | nil => cases hrun; exact ⟨⟨rfl, fun _ => rfl, rfl, rfl⟩, hmarked.mapped⟩
  | append_singleton done site ih =>
    have hnodup' : (a.lebs done).Nodup := by
      unfold SegsArray.lebs at hnodup ⊢
      rw [List.filter_append, List.map_append] at hnodup
      exact (List.nodup_append.1 hnodup).1
    rw [Checked.forEach_append] at hrun
    obtain ⟨u, hu, hrun⟩ := Checked.bind_eq_ok.1 hrun
    rw [Checked.forEach_singleton] at hrun
    obtain ⟨hshape, hmapped⟩ := ih hnodup' hu
    refine ⟨mapSite_shape hshape hrun, ?_⟩
    rw [hshape.lebs_eq] at hnodup
    rcases mapSite_ok hrun with ⟨hleb, rfl⟩ | ⟨hleb, tables, peb, cache, hpeb, hcall, rfl⟩
    · rwa [SegsArray.calls_append_skip hleb]
    · obtain ⟨slot, i, j, type, hmaps⟩ := mapLeb2peb_ok hacc hn hmapped.toSameHeaders hcall hpeb
      rw [SegsArray.calls_append hleb hnodup]
      refine hmapped.step hacc ?_ hmaps
      rw [SegsArray.calls_fst]
      intro hmem
      unfold SegsArray.lebs at hnodup hmem
      rw [List.filter_append, List.map_append, List.nodup_append] at hnodup
      exact hnodup.2.2 _ hmem _ (by simp [hleb]) rfl

theorem mapLeb2peb_fresh (hacc : layout.Accepted) (hn : n < 65535) {calls : List (Nat × Nat)}
    {t₀ t' : Tables} (h : t.Mapped layout n t₀ calls) {leb peb : Nat} {metaIndex : Option MetaIndex}
    (hcall : mapLeb2peb layout t leb metaIndex = .ok (t', peb)) (hpeb : peb ≠ Word.u64Max) :
    peb ∉ calls.map Prod.snd ∧ ∃ pos, decodeLeb layout t' leb = .ok pos ∧
      pos.itemIndex < (t'.pebFragment pos).pebsCount ∧ t'.pebAt pos = peb ∧
      (t.pebFragment pos).usedBmap pos.itemIndex = false := by
  obtain ⟨slot, i, j, type, -, -, hget, -, -, -, hj, -, hlt, hclear, -, rfl, rfl⟩ :=
    mapLeb2peb_ok hacc hn h.toSameHeaders hcall hpeb
  have hhdr := t.mapAt_pebHeader slot i j type slot.fragmentIndex slot.portionIndex i
  constructor
  · intro hmem
    obtain ⟨call, hmem, heq⟩ := List.mem_map.1 hmem
    obtain ⟨pos, -, hitem, hat, hused⟩ := h.decodes call hmem
    rw [← hat] at heq
    have hhdr₁ := h.pebHeader pos.fragmentIndex pos.portionIndex pos.stripeIndex
    have hhdr₂ := h.pebHeader slot.fragmentIndex slot.portionIndex i
    have hitem' := hitem
    have hlt' := hlt
    unfold Tables.pebAt Tables.pebFragment at heq
    unfold Tables.pebFragment at hitem hlt
    rw [hhdr₁.startPeb, hhdr₂.startPeb] at heq
    rw [hhdr₁.pebsCount] at hitem
    rw [hhdr₂.pebsCount] at hlt
    have hkey := Tables.fresh_peb_inj hacc hitem hlt heq
    obtain ⟨f, p, k, l⟩ := pos
    cases hkey
    obtain rfl : l = j := Nat.add_left_cancel heq
    rw [hclear] at hused
    cases hused
  · refine ⟨_, decodeLeb_mapAt_self hget hj type, ?_, ?_, hclear⟩
    · exact hhdr.pebsCount ▸ hlt
    · unfold Tables.pebAt Tables.pebFragment
      rw [hhdr.startPeb]

theorem SegsArray.lebs_nodup_done {sites rest : List (Nat × Nat)} {site : Nat × Nat}
    (hsites : sites = done ++ site :: rest) (hnodup : (a.lebs sites).Nodup) :
    (a.lebs done).Nodup := by
  subst hsites
  unfold SegsArray.lebs at hnodup ⊢
  rw [List.filter_append, List.map_append] at hnodup
  exact (List.nodup_append.1 hnodup).1

/-- No run maps two LEBs to one PEB or takes a used PEB, every LEB descriptor decodes to its
PEB, and the bitmaps and counters account for all of it. -/
theorem mapAllocatedLebs2pebs_sound {fuel segs : Nat} {layout₀ : VolumeLayout}
    {a₀ a₁ a₂ a₃ : SegsArray} {prepared : Tables}
    (hpolicy : maptblMkfsAllocationPolicy fuel layout₀ a₀ = .ok (layout, a₁, segs))
    (hprepare : maptblMkfsPrepare layout a₂ = .ok (a₃, prepared)) (hmarked : prepared.Marked t)
    (hnodup : (a.lebs a.sites).Nodup) :
    (∀ done site rest st t' peb, a.sites = done ++ site :: rest →
      Checked.forEach (mapSite layout) done ⟨t, c, a⟩ = .ok st →
      mapLeb2peb layout st.tables (a.lebAt site) (st.segs.segs site.1).segType = .ok (t', peb) →
      peb ≠ Word.u64Max →
      (∀ site' ∈ done, a.lebAt site' ≠ Word.u64Max → st.segs.pebAt site' ≠ peb) ∧
      ∃ pos, decodeLeb layout t' (a.lebAt site) = .ok pos ∧
        pos.itemIndex < (t'.pebFragment pos).pebsCount ∧ t'.pebAt pos = peb ∧
        (st.tables.pebFragment pos).usedBmap pos.itemIndex = false) ∧
    ∀ st, mapAllocatedLebs2pebs layout ⟨t, c, a⟩ = .ok st →
      (∀ site ∈ a.sites, a.lebAt site ≠ Word.u64Max → ∃ pos,
        decodeLeb layout st.tables (a.lebAt site) = .ok pos ∧
        pos.itemIndex < (st.tables.pebFragment pos).pebsCount ∧
        st.tables.pebAt pos = st.segs.pebAt site) ∧
      (∀ f p i, ∀ j < ((st.tables f p).pebtbl i).pebsCount,
        ((st.tables f p).pebtbl i).usedBmap j = true ↔
          (((st.tables f p).pebtbl i).desc j).Bad ∨
            (((st.tables f p).pebtbl i).desc j).state = .using) ∧
      ∀ f p m, ((st.tables f p).lebtbl m).mappedLebs =
        ((a.lebs a.sites).filter (lookedUpIn layout f p m)).length := by
  have hacc := maptblMkfsAllocationPolicy_accepted hpolicy
  obtain ⟨rfl, hn⟩ := maptblMkfsPrepare_ok hacc hprepare
  constructor
  · intro done site rest st t' peb hsites hrun hcall hpeb
    obtain ⟨hshape, hmapped⟩ := forEach_mapSite_mapped hacc hn hmarked
      (SegsArray.lebs_nodup_done hsites hnodup) hrun
    obtain ⟨hnew, hpos⟩ := mapLeb2peb_fresh hacc hn hmapped hcall hpeb
    refine ⟨fun site' hmem hleb heq => hnew ?_, hpos⟩
    rw [hshape.lebAt] at hleb
    refine List.mem_map.2 ⟨(st.segs.lebAt site', st.segs.pebAt site'), ?_, heq⟩
    exact List.mem_map_of_mem (List.mem_filter.2 ⟨hmem, by simpa using hleb⟩)
  · intro st hrun
    rw [mapAllocatedLebs2pebs_eq] at hrun
    obtain ⟨hshape, hmapped⟩ := forEach_mapSite_mapped hacc hn hmarked hnodup hrun
    refine ⟨fun site hmem hleb => ?_, hmapped.used, fun f p m => ?_⟩
    · rw [hshape.lebAt] at hleb ⊢
      have hcall : (st.segs.lebAt site, st.segs.pebAt site) ∈ st.segs.calls a.sites :=
        List.mem_map_of_mem (List.mem_filter.2 ⟨hmem, by simpa using hleb⟩)
      obtain ⟨pos, hpos, hitem, hat, -⟩ := hmapped.decodes _ hcall
      exact ⟨pos, hpos, hitem, hat⟩
    · rw [hmapped.mapped, hshape.lebs_eq, ← SegsArray.calls_fst, List.filter_map, List.length_map]
      rfl

end Run

def lebSegs (count : Nat) : SegsArray where
  metaArray metaIndex := if metaIndex = .pebMappingTable then ⟨0, count, .dedicated⟩
    else ⟨0, 0, .dedicated⟩
  segs i := ⟨some .pebMappingTable, .dedicated, i,
    fun _ => ⟨i, Word.u64Max, fun _ => ⟨none, 0, 0⟩⟩, 1, 1⟩
  segsCapacity := count
  segsCount := 0
  lastAllocatedSegIndex := count - 1

def prepareAndMap (layout : VolumeLayout) (a b : SegsArray) : Mkfs MapState := do
  let prepared ← maptblMkfsPrepare layout a
  let cache ← maptblCacheMkfsPrepare layout.pageSize b
  mapAllocatedLebs2pebs layout ⟨prepared.2, cache, b⟩

theorem prepareAndMap_ok {layout : VolumeLayout} {a b : SegsArray} {st : MapState}
    (h : prepareAndMap layout a b = .ok st) :
    ∃ a' t c, maptblMkfsPrepare layout a = .ok (a', t) ∧
      mapAllocatedLebs2pebs layout ⟨t, c, b⟩ = .ok st := by
  obtain ⟨⟨a', t⟩, hprepare, h⟩ := Checked.bind_eq_ok.1 h
  obtain ⟨c, -, h⟩ := Checked.bind_eq_ok.1 h
  exact ⟨a', t, c, hprepare, h⟩

theorem mapAllocatedLebs2pebs_two :
    ∃ st, prepareAndMap (eightStripesAccepted 1000) maptblSegs (lebSegs 2) = .ok st ∧
      st.segs.pebAt (1, 0) = 1 ∧
      ∃ pos, decodeLeb (eightStripesAccepted 1000) st.tables 1 = .ok pos ∧
        pos.itemIndex < (st.tables.pebFragment pos).pebsCount ∧
        st.tables.pebAt pos = st.segs.pebAt (1, 0) := by
  have hpolicy : maptblMkfsAllocationPolicy 1 (eightStripes 1000) (freeSegs 10) =
      .ok (eightStripesAccepted 1000, maptblSegs, 1) := rfl
  obtain ⟨st, hrun, hpeb⟩ : ∃ st,
      prepareAndMap (eightStripesAccepted 1000) maptblSegs (lebSegs 2) = .ok st ∧
        st.segs.pebAt (1, 0) = 1 := ⟨_, rfl, rfl⟩
  obtain ⟨a', t, c, hprepare, hmap⟩ := prepareAndMap_ok hrun
  have hmarked : t.Marked t := by
    rw [(maptblMkfsPrepare_ok (maptblMkfsAllocationPolicy_accepted hpolicy) hprepare).1]
    exact Tables.fresh_marked
  have hnodup : ((lebSegs 2).lebs (lebSegs 2).sites).Nodup := by decide
  have hsound := (mapAllocatedLebs2pebs_sound hpolicy hprepare hmarked hnodup).2 st hmap
  exact ⟨st, hrun, hpeb, hsound.1 (1, 0) (by decide) (by decide)⟩

end Ssdfs
