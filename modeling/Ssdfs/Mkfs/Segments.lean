import Ssdfs.Maptbl.MapRun
import Ssdfs.Mkfs.Create
import Ssdfs.Write.Placed

namespace Ssdfs

def metaIndexOf (b i : Nat) : MetaIndex :=
  if i < 1 then .initialSnapshot
  else if i < 7 then .superblock
  else if i < 7 + b then .segbmap
  else .pebMappingTable

def metaRange (b m : Nat) : MetaIndex → Nat × Nat
  | .initialSnapshot => (0, 1)
  | .superblock => (1, 6)
  | .segbmap => (7, b)
  | .pebMappingTable => (7 + b, m)
  | .userData => (0, 0)

structure SegmentDesc.Blank (desc : SegmentDesc) : Prop where
  pebs : ∀ k, desc.pebs k = ⟨Word.u64Max, Word.u64Max, fun _ => ⟨none, 0, 0⟩⟩
  pebsCount : desc.pebsCount = 0

structure SegsReserved (options layout : VolumeLayout) (g : SegbmapGeometry) (b m : Nat)
    (buffers : Nat → Buf) (a : SegsArray) : Prop where
  corrected : OptionsCorrected options layout
  accepted : layout.Accepted
  segbmap : SegbmapChosen layout g b
  segbmapPebs : layout.segbmap.pebsPerSeg = g.pebsPerSeg
  page_dvd : layout.env.deviceType ≠ .zns → layout.pageSize.bytes ∣ layout.env.eraseSize.toNat
  maptbl_pos : 0 < m
  half : 7 + b + m ≤ Word.u32 layout.segNums / 2
  capacity : a.segsCapacity = 7 + b + m
  types : ∀ i < a.segsCapacity, (a.segs i).segType = some (metaIndexOf b i)
  pebs : ∀ i, (a.segs i).pebsCapacity = layout.pebsPerSeg
  blank : ∀ i, (a.segs i).Blank
  segsCount : a.segsCount = 0
  places : ∀ metaIndex, (a.metaArray metaIndex).startSegIndex = (metaRange b m metaIndex).1 ∧
    (a.metaArray metaIndex).segsCount = (metaRange b m metaIndex).2
  prepared : Prepared layout g g.fragmentsCount buffers

/-- The array `a` of the reserved segments, and the array `a'` after they have got their numbers
and LEBs. -/
structure SegsDefined (options layout : VolumeLayout) (g : SegbmapGeometry) (b m : Nat)
    (a a' : SegsArray) : Prop where
  corrected : OptionsCorrected options layout
  accepted : layout.Accepted
  segbmap : SegbmapChosen layout g b
  segbmapPebs : layout.segbmap.pebsPerSeg = g.pebsPerSeg
  page_dvd : layout.env.deviceType ≠ .zns → layout.pageSize.bytes ∣ layout.env.eraseSize.toNat
  maptbl_pos : 0 < m
  few : 7 + b + m ≤ layout.segNums
  capacity : a.segsCapacity = 7 + b + m
  types : ∀ i < a.segsCapacity, (a.segs i).segType = some (metaIndexOf b i)
  pebs : ∀ i, (a.segs i).pebsCapacity = layout.pebsPerSeg
  unmapped : ∀ i k, ((a.segs i).pebs k).pebId = Word.u64Max
  places : ∀ metaIndex, (a.metaArray metaIndex).startSegIndex = (metaRange b m metaIndex).1 ∧
    (a.metaArray metaIndex).segsCount = (metaRange b m metaIndex).2
  numbered : Numbered layout a a.segsCapacity a'

section

variable {layout layout' : VolumeLayout} {a a' : SegsArray} {fuel b m : Nat} {requested : UInt16}
  {g : SegbmapGeometry} {sectorsPerZone : Option UInt32}

theorem SegbmapChosen.layoutPebs_lt {segs : Nat} (h : SegbmapChosen layout g segs)
    (hsizes : layout.SizesAccepted) : layout.pebsPerSeg < 65536 := by
  obtain ⟨k, hk, -, heq⟩ := h.pebs_eq hsizes
  rw [heq]
  exact Nat.pow_lt_pow_right (by decide) hk

theorem allocSegsArray_layout (h : allocSegsArray fuel requested layout = .ok (layout', g, a)) :
    layout'.Accepted ∧ layout'.pageSize = layout.pageSize ∧ layout'.env = layout.env ∧
      (∀ i, (a.segs i).Blank) ∧ a.segsCount = 0 ∧ (a.metaArray .userData).startSegIndex = 0 := by
  obtain ⟨⟨g', b⟩, hsegbmap, h⟩ := Checked.bind_eq_ok.1 h
  obtain ⟨hb, h⟩ := failIf_bind_eq_ok.1 h
  obtain ⟨⟨layout₁, a₁, m⟩, hmaptbl, h⟩ := Checked.bind_eq_ok.1 h
  obtain ⟨hm, h⟩ := failIf_bind_eq_ok.1 h
  obtain ⟨hfew, h⟩ := failIf_bind_eq_ok.1 h
  have haccepted := maptblMkfsAllocationPolicy_accepted hmaptbl
  obtain ⟨s, d, ppf, segs, -, rfl, -, rfl⟩ := maptblMkfsAllocationPolicy_inv hmaptbl
  cases h
  exact ⟨haccepted, rfl, rfl, fun i => ⟨fun _ => rfl, rfl⟩, rfl, rfl⟩

theorem reserveSegments_place {metaIndex : MetaIndex} {start : Nat}
    (hstart : a.lastAllocatedSegIndex = (start : Int) - 1)
    (hpos : 0 < (a.metaArray metaIndex).segsCount) (h : reserveSegments metaIndex a = .ok a') :
    (∀ i, (a.segs i).Blank → (a'.segs i).Blank) ∧ a'.segsCount = a.segsCount ∧
      ∀ i, (a'.metaArray i).startSegIndex =
        if i = metaIndex then start else (a.metaArray i).startSegIndex := by
  unfold reserveSegments at h
  simp only [hstart, Int.sub_add_cancel, Int.toNat_natCast] at h
  rw [if_neg (by omega)] at h
  split at h
  · cases h
  refine Checked.forRange_ind (fun _ t => (∀ i, (a.segs i).Blank → (t.segs i).Blank) ∧
    t.segsCount = a.segsCount ∧ ∀ i, (t.metaArray i).startSegIndex =
      if i = metaIndex then start else (a.metaArray i).startSegIndex) h
    ⟨fun _ => id, rfl, fun i => ?_⟩ ?_
  · simp only [SegsArray.setMeta, Function.update_apply]
    split <;> rfl
  · intro k _ t t' ht hstep
    cases hstep
    refine ⟨fun i hi => ?_, ht.2⟩
    have hblank := ht.1 i hi
    simp only [SegsArray.setSeg, Function.update_apply]
    split
    case isTrue heq =>
      rw [heq] at hblank
      exact ⟨hblank.pebs, hblank.pebsCount⟩
    case isFalse => exact hblank

theorem defineLebId_kept {desc desc' : SegmentDesc} (h : defineLebId layout desc = .ok desc') :
    desc'.segId = desc.segId ∧ desc'.pebsCapacity = desc.pebsCapacity ∧
      ∀ k, (desc'.pebs k).pebId = (desc.pebs k).pebId := by
  unfold defineLebId at h
  extract_lets startLebId pebsCapacity at h
  split at h
  · cases h
  · cases h
    exact ⟨rfl, rfl, fun _ => rfl⟩

theorem mkfsReserveSegs_run {buffers : Nat → Buf} (hsizes : layout.SizesAccepted)
    (hindex : layout.lebsPerPebIndex = 1)
    (h : mkfsReserveSegs sectorsPerZone fuel requested layout = .ok (layout', g, buffers, a)) :
    ∃ b m, SegsReserved layout layout' g b m buffers a := by
  obtain ⟨layout₁, hcorrect, h⟩ := Checked.bind_eq_ok.1 h
  have hcorrected := settleKeyCreationOptions_corrected hsizes hindex hcorrect
  obtain ⟨⟨layout₂, g, a₀⟩, halloc, h⟩ := Checked.bind_eq_ok.1 h
  obtain ⟨haccepted, hpage₂, henv₂, hblank, hsegs, huser⟩ := allocSegsArray_layout halloc
  obtain ⟨b, m, hallocated⟩ := allocSegsArray_ok hcorrected halloc
  have hb := hallocated.segbmap_pos
  have hm := hallocated.maptbl_pos
  obtain ⟨a₁, hsnap, h⟩ := Checked.bind_eq_ok.1 h
  have h₁ : Extended a₀ .initialSnapshot 0 1 a₁ :=
    reserveSegments_ok hallocated.last (hallocated.counts _) hsnap
  obtain ⟨a₂, hsb, h⟩ := Checked.bind_eq_ok.1 h
  have hcount₁ : ∀ i, (a₁.metaArray i).segsCount = _ := fun i =>
    (h₁.counts i).trans (hallocated.counts i)
  have h₂ : Extended a₁ .superblock 1 6 a₂ := reserveSegments_ok h₁.last (hcount₁ _) hsb
  obtain ⟨a₃, hsegbmap, h⟩ := Checked.bind_eq_ok.1 h
  have hcount₂ : ∀ i, (a₂.metaArray i).segsCount = _ := fun i => (h₂.counts i).trans (hcount₁ i)
  have h₃ : Extended a₂ .segbmap 7 b a₃ := reserveSegments_ok h₂.last (hcount₂ _) hsegbmap
  obtain ⟨buffers, hbuffers, h⟩ := Checked.bind_eq_ok.1 h
  obtain ⟨a₄, hmaptbl, h⟩ := Checked.bind_eq_ok.1 h
  have hcount₃ : ∀ i, (a₃.metaArray i).segsCount = _ := fun i => (h₃.counts i).trans (hcount₂ i)
  have h₄ : Extended a₃ .pebMappingTable (7 + b) m a₄ :=
    reserveSegments_ok h₃.last (hcount₃ _) hmaptbl
  have hlast : a₀.lastAllocatedSegIndex = ((0 : Nat) : Int) - 1 := hallocated.last
  obtain ⟨hblank₁, hsegs₁, hplace₁⟩ := reserveSegments_place hlast
    (by rw [hallocated.counts]; exact Nat.succ_pos 0) hsnap
  obtain ⟨hblank₂, hsegs₂, hplace₂⟩ := reserveSegments_place h₁.last
    (by rw [hcount₁]; exact Nat.succ_pos 5) hsb
  obtain ⟨hblank₃, hsegs₃, hplace₃⟩ := reserveSegments_place h₂.last (by rw [hcount₂]; exact hb) hsegbmap
  obtain ⟨hblank₄, hsegs₄, hplace₄⟩ := reserveSegments_place h₃.last (by rw [hcount₃]; exact hm) hmaptbl
  have hcapacity : a₄.segsCapacity = 7 + b + m := by
    rw [h₄.capacity, h₃.capacity, h₂.capacity, h₁.capacity, hallocated.capacity]
  have htypes : ∀ i < a₄.segsCapacity, (a₄.segs i).segType = some (metaIndexOf b i) := fun i hi => by
    rw [h₄.segType, h₃.segType, h₂.segType, h₁.segType]
    unfold metaIndexOf
    split_ifs <;> first | rfl | omega
  have hpebs : ∀ i, (a₄.segs i).pebsCapacity = layout₂.pebsPerSeg := fun i => by
    rw [h₄.pebsCapacity, h₃.pebsCapacity, h₂.pebsCapacity, h₁.pebsCapacity, hallocated.pebsCapacity,
      Word.u16_of_lt (hallocated.segbmap.layoutPebs_lt hallocated.corrected.sizes)]
  cases h
  have hchosen := hallocated.segbmap
  have hfs := hchosen.fragmentSize_ge
  refine ⟨b, m,
    { corrected := hallocated.corrected
      accepted := haccepted
      segbmap := hchosen
      segbmapPebs := hallocated.pebsPerSeg
      page_dvd := ?_
      maptbl_pos := hm
      half := hallocated.half
      capacity := hcapacity
      types := htypes
      pebs := hpebs
      blank := fun i => hblank₄ i (hblank₃ i (hblank₂ i (hblank₁ i (hblank i))))
      segsCount := by rw [hsegs₄, hsegs₃, hsegs₂, hsegs₁, hsegs]
      places := fun i => ?_
      prepared := segbmapMkfsPrepare_ok (segBmapFragments_lt hchosen.fragments) (by omega) hbuffers }⟩
  · rw [hpage₂, henv₂]
    exact settled_page_dvd hcorrect
  · rw [hplace₄, hplace₃, hplace₂, hplace₁, h₄.counts, hcount₃]
    cases i
    case userData => exact ⟨huser, rfl⟩
    all_goals exact ⟨rfl, rfl⟩

namespace SegsReserved

variable {options : VolumeLayout} {buffers : Nat → Buf}

theorem few (h : SegsReserved options layout g b m buffers a) : 7 + b + m ≤ layout.segNums := by
  have hhalf := h.half
  have hle := Word.u32_le layout.segNums
  omega

theorem metaTypes (h : SegsReserved options layout g b m buffers a) {i : Nat}
    (hi : i < a.segsCapacity) : ∃ t, (a.segs i).segType = some t ∧ t ≠ .userData :=
  ⟨_, h.types i hi, by
    unfold metaIndexOf
    split_ifs <;> decide⟩

theorem numbered {buf : Buf} (h : SegsReserved options layout g b m buffers a)
    (hvalidate : segbmapMkfsValidate layout g (buffers 0) a = .ok (buf, a')) :
    Reserved layout g a.segsCapacity buf ∧ Numbered layout a a.segsCapacity a' :=
  segbmapMkfsValidate_ok h.segbmap h.corrected.sizes.segNums_lt
    (h.prepared.reserved h.segbmap h.corrected.sizes.segNums_lt) (fun _ => h.metaTypes) hvalidate

theorem defined {buf : Buf} (h : SegsReserved options layout g b m buffers a)
    (hvalidate : segbmapMkfsValidate layout g (buffers 0) a = .ok (buf, a')) :
    SegsDefined options layout g b m a a' :=
  { corrected := h.corrected
    accepted := h.accepted
    segbmap := h.segbmap
    segbmapPebs := h.segbmapPebs
    page_dvd := h.page_dvd
    maptbl_pos := h.maptbl_pos
    few := h.few
    capacity := h.capacity
    types := h.types
    pebs := h.pebs
    unmapped := fun i k => by rw [(h.blank i).pebs]
    places := h.places
    numbered := (h.numbered hvalidate).2 }

end SegsReserved

theorem mkfsDefineSegs_run (hsizes : layout.SizesAccepted) (hindex : layout.lebsPerPebIndex = 1)
    (h : mkfsDefineSegs sectorsPerZone fuel requested layout = .ok (layout', a')) :
    ∃ g b m a, SegsDefined layout layout' g b m a a' := by
  obtain ⟨_, g, buffers, a, buf, hreserve, hvalidate, rfl⟩ := mkfsDefineSegs_ok_iff.1 h
  obtain ⟨b, m, hreserved⟩ := mkfsReserveSegs_run hsizes hindex hreserve
  exact ⟨g, b, m, a, hreserved.defined hvalidate⟩

namespace SegsDefined

variable {options : VolumeLayout}

theorem segs_eq (h : SegsDefined options layout g b m a a') {i : Nat} (hi : i < a'.segsCapacity) :
    (a'.segs i).segId = i ∧ (a'.segs i).pebsCapacity = layout.pebsPerSeg ∧
      ∀ k, ((a'.segs i).pebs k).pebId = Word.u64Max := by
  have hpebs := h.pebs i
  have hunmapped := h.unmapped i
  rw [h.numbered.capacity] at hi
  have hleb := (h.numbered.numbered i hi).2
  obtain ⟨hid, hcap, hpeb⟩ := defineLebId_kept hleb
  exact ⟨hid, hcap.trans hpebs, fun k => (hpeb k).trans (hunmapped k)⟩

theorem sites_eq (h : SegsDefined options layout g b m a a') :
    a'.sites = a'.allSites := by
  have hplaces := h.places
  rw [← h.numbered.metaArray] at hplaces
  have hrange : ∀ metaIndex, ((List.range (a'.metaArray metaIndex).segsCount).flatMap fun j =>
      (List.range (a'.segs ((a'.metaArray metaIndex).startSegIndex + j)).pebsCapacity).map fun k =>
        ((a'.metaArray metaIndex).startSegIndex + j, k)) =
      (List.range' (metaRange b m metaIndex).1 (metaRange b m metaIndex).2).flatMap fun i =>
        (List.range (a'.segs i).pebsCapacity).map fun k => (i, k) := fun metaIndex => by
    rw [(hplaces metaIndex).1, (hplaces metaIndex).2, List.range'_eq_map_range, List.flatMap_map]
  unfold SegsArray.sites SegsArray.allSites
  simp only [hrange]
  rw [← List.flatMap_assoc, h.numbered.capacity, h.capacity]
  congr 1
  have hall : (MetaIndex.all.flatMap fun x =>
      List.range' (metaRange b m x).1 (metaRange b m x).2) =
        List.range' 0 1 ++ (List.range' 1 6 ++ (List.range' 7 b ++ (List.range' (7 + b) m ++ []))) := rfl
  rw [hall, List.range_eq_range', List.append_nil, List.range'_append_1, List.range'_append_1,
    List.range'_append_1]
  congr 1
  omega

theorem mem_sites (h : SegsDefined options layout g b m a a') {site : Nat × Nat} :
    site ∈ a'.sites ↔ site.1 < a'.segsCapacity ∧ site.2 < layout.pebsPerSeg := by
  obtain ⟨i, k⟩ := site
  rw [h.sites_eq]
  unfold SegsArray.allSites
  simp only [List.mem_flatMap, List.mem_range, List.mem_map, Prod.mk.injEq]
  constructor
  · rintro ⟨i', hi', k', hk', rfl, rfl⟩
    exact ⟨hi', (h.segs_eq hi').2.1 ▸ hk'⟩
  · rintro ⟨hi, hk⟩
    exact ⟨i, hi, k, (h.segs_eq hi).2.1.symm ▸ hk, rfl, rfl⟩

theorem sites_nodup (h : SegsDefined options layout g b m a a') : a'.sites.Nodup := by
  rw [h.sites_eq]
  unfold SegsArray.allSites
  refine List.nodup_flatMap.2 ⟨fun i _ => ?_, ?_⟩
  · exact List.nodup_range.map fun k k' heq => (Prod.mk.inj heq).2
  · refine List.nodup_range.imp fun {i i'} hne => ?_
    rw [Function.onFun, List.disjoint_left]
    intro s hs hs'
    obtain ⟨k, -, rfl⟩ := List.mem_map.1 hs
    obtain ⟨k', -, heq⟩ := List.mem_map.1 hs'
    exact hne (Prod.mk.inj heq).1.symm

end SegsDefined

end

end Ssdfs
