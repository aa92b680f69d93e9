import Ssdfs.Mkfs.LebIds

namespace Ssdfs

def segState (g : SegbmapGeometry) (buffers : Nat → Buf) (seg : Nat) : Nat :=
  let f := seg / 8128
  itemState (buffers (f / g.fragmentsPerPeb)).data
    (f % g.fragmentsPerPeb * g.fragmentSize + segbmapFragmentHeaderSize) (seg % 8128)

section

variable {options layout layout' : VolumeLayout} {a a' : SegsArray} {fuel b m : Nat}
  {requested : UInt16} {g : SegbmapGeometry} {buffers : Nat → Buf} {sectorsPerZone : Option UInt32}

theorem defineLebId_exists {desc : SegmentDesc} (h : assignedPebs layout desc ≤ desc.pebsCapacity) :
    ∃ desc', defineLebId layout desc = .ok desc' := by
  unfold defineLebId
  change ∃ desc', (if desc.pebsCapacity < assignedPebs layout desc then _ else _) = _
  rw [if_neg (Nat.not_lt.2 h)]
  exact ⟨_, rfl⟩

namespace SegsReserved

theorem lebs (h : SegsReserved options layout g b m buffers a) {i : Nat} (hi : i < a.segsCapacity) :
    ∃ desc, defineLebId layout { a.segs i with segId := i } = .ok desc := by
  have hchosen := h.segbmap.pebsPerSeg_le
  have hpos := h.segbmap.pebsPerSeg_pos
  refine defineLebId_exists ?_
  unfold assignedPebs
  simp only [h.types i hi, h.pebs i]
  split
  · omega
  · rw [h.segbmapPebs]
    exact hchosen
  · exact Nat.le_refl _

theorem searched (h : SegsReserved options layout g b m buffers a) :
    a.segsCapacity ≤ (layout.segNums + 1) / 16 * 16 := by
  have hhalf := h.half
  have hb := h.segbmap.segs_eq
  have hpos := h.segbmap.segs_pos
  have hm := h.maptbl_pos
  have hle := Word.u32_le layout.segNums
  rw [h.capacity]
  split at hb <;> omega

theorem validates (h : SegsReserved options layout g b m buffers a)
    (hfit : a.segsCapacity ≤ g.fragmentsPerPeb * 8128) : ∃ buf a',
      segbmapMkfsValidate layout g (buffers 0) a = .ok (buf, a') ∧
        NumberedTo layout g a a.segsCapacity (buf, a') := by
  have hn := h.corrected.sizes.segNums_lt
  obtain ⟨⟨buf, a'⟩, hrun, hnumbered⟩ := segbmapMkfsValidate_exists h.segbmap hn
    (h.prepared.reserved h.segbmap hn) (fun _ => h.metaTypes) (fun _ => h.lebs) h.searched
    (h.capacity ▸ h.few) hfit
  exact ⟨buf, a', hrun, hnumbered⟩

end SegsReserved

/-- After the numbers have been given out the segments below `k` are reserved. -/
theorem segState_update {buf : Buf} {segs k seg : Nat} (hchosen : SegbmapChosen layout g segs)
    (hprepared : Prepared layout g g.fragmentsCount buffers) (hbuf : Reserved layout g k buf)
    (hfit : k ≤ g.fragmentsPerPeb * 8128) :
    segState g (Function.update buffers 0 buf) seg = if seg < k then segReserved else segClean := by
  have hpos := hchosen.fragmentsPerPeb_pos
  have hmod := Nat.mod_lt seg (show 0 < 8128 by decide)
  have hseg := Nat.div_add_mod' seg 8128
  unfold segState
  simp only
  rcases Nat.lt_or_ge (seg / 8128) g.fragmentsPerPeb with hfirst | hlater
  · rw [Nat.div_eq_of_lt hfirst, Nat.mod_eq_of_lt hfirst, Function.update_self]
    have hitem := hbuf.items _ hfirst _ hmod
    rwa [hseg] at hitem
  · have hne : seg / 8128 / g.fragmentsPerPeb ≠ 0 :=
      Nat.pos_iff_ne_zero.1 (Nat.div_pos hlater hpos)
    have hge : k ≤ seg := by
      have hmul := Nat.mul_le_mul_right 8128 hlater
      omega
    rw [Function.update_of_ne hne, if_neg (Nat.not_lt.2 hge)]
    exact hprepared.clean hchosen.fragmentSize_ge hmod

theorem segbmapMkfsValidate_numbers (hsizes : layout.SizesAccepted)
    (hindex : layout.lebsPerPebIndex = 1)
    (h : mkfsReserveSegs sectorsPerZone fuel requested layout = .ok (layout', g, buffers, a))
    (hfit : a.segsCapacity ≤ g.fragmentsPerPeb * 8128) :
    ∃ buf a', segbmapMkfsValidate layout' g (buffers 0) a = .ok (buf, a') ∧
      a'.segsCapacity = a.segsCapacity ∧ (∀ i < a.segsCapacity, (a'.segs i).segId = i) ∧
      ∀ seg < g.fragmentsCount * 8128, segState g (Function.update buffers 0 buf) seg =
        if seg < a.segsCapacity then segReserved else segClean := by
  obtain ⟨b, m, hreserved⟩ := mkfsReserveSegs_run hsizes hindex h
  obtain ⟨buf, a', hrun, hitems, hnumbered⟩ := hreserved.validates hfit
  refine ⟨buf, a', hrun, hnumbered.capacity, fun i hi => ?_, fun seg _ => ?_⟩
  · exact (defineLebId_kept (hnumbered.numbered i hi).2).1
  · exact segState_update hreserved.segbmap hreserved.prepared hitems hfit

end

def reserveSummary (r : VolumeLayout × SegbmapGeometry × (Nat → Buf) × SegsArray) :
    Nat × Bool × SegbmapGeometry :=
  (r.2.2.2.segsCapacity, r.1.segbmap.hasBackupCopy, r.2.1)

theorem mkfsReserveSegs_of_summary {layout : VolumeLayout} {sectorsPerZone : Option UInt32} {fuel : Nat}
    {requested : UInt16} {s : Nat × Bool × SegbmapGeometry}
    (h : (mkfsReserveSegs sectorsPerZone fuel requested layout).map reserveSummary = .ok s) :
    ∃ layout' buffers a,
      mkfsReserveSegs sectorsPerZone fuel requested layout = .ok (layout', s.2.2, buffers, a) ∧
      a.segsCapacity = s.1 ∧ layout'.segbmap.hasBackupCopy = s.2.1 := by
  cases hrun : mkfsReserveSegs sectorsPerZone fuel requested layout with
  | error e =>
    rw [hrun] at h
    cases h
  | ok r =>
    rw [hrun] at h
    cases h
    exact ⟨r.1, r.2.2.1, r.2.2.2, rfl, rfl, rfl⟩

/-- Nine segments of 200 are the metadata's. -/
theorem segbmapMkfsValidate_numbers_200 : ∃ layout g buffers a buf a',
    mkfsReserveSegs none 5 1 (volumeOnDies 1) = .ok (layout, g, buffers, a) ∧ a.segsCapacity = 9 ∧
      segbmapMkfsValidate layout g (buffers 0) a = .ok (buf, a') ∧
      ∀ seg < g.fragmentsCount * 8128, segState g (Function.update buffers 0 buf) seg =
        if seg < a.segsCapacity then segReserved else segClean := by
  obtain ⟨layout, buffers, a, hreserve, hcapacity, -⟩ :=
    @mkfsReserveSegs_of_summary (volumeOnDies 1) none 5 1 (9, false, ⟨100, 1, 1, 1, 1, 4096⟩)
      (by decide +kernel)
  obtain ⟨buf, a', hvalidate, -, -, hitems⟩ := segbmapMkfsValidate_numbers
    (volumeOnDies_sizesAccepted 1) rfl hreserve (by rw [hcapacity]; decide)
  exact ⟨layout, _, buffers, a, buf, a', hreserve, hcapacity, hvalidate, hitems⟩

end Ssdfs
