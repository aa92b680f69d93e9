import Ssdfs.HandOut.Buffers
import Ssdfs.Mkfs.Numbers

namespace Ssdfs

def segbmapBefore (a : SegsArray) (buffers : Nat → Buf) (calculatedOpenZones : Nat) : HandOut :=
  ⟨a, fun b => some (buffers b), calculatedOpenZones⟩

def SegbmapGeometry.buffersCount (g : SegbmapGeometry) : Nat := g.segsPerChain * g.pebsPerSeg

section

variable {options layout layout' : VolumeLayout} {g : SegbmapGeometry} {a a' : SegsArray}
  {fuel b m zones : Nat} {requested : UInt16} {buf : Buf} {buffers buffers' : Nat → Buf}
  {sectorsPerZone : Option UInt32}

theorem payload_defineLebId {desc desc' : SegmentDesc} (h : defineLebId layout desc = .ok desc')
    (k : Nat) : (desc'.pebs k).extents = (desc.pebs k).extents ∧
      desc'.pebsCount = desc.pebsCount := by
  unfold defineLebId at h
  extract_lets startLebId pebsCapacity at h
  split at h
  · cases h
  · cases h
    exact ⟨rfl, rfl⟩

namespace SegsReserved

theorem unpaid (h : SegsReserved options layout g b m buffers a)
    (hnumbered : Numbered layout a a.segsCapacity a') (i : Nat) :
    (∀ j, a'.payload (i, j) = none) ∧ (a'.segs i).pebsCount = 0 ∧
      (a'.segs i).pebsCapacity = layout.pebsPerSeg := by
  have hblank := h.blank i
  have hpebs := h.pebs i
  unfold SegsArray.payload
  rcases Nat.lt_or_ge i a.segsCapacity with hlt | hge
  · have hleb := (hnumbered.numbered i hlt).2
    refine ⟨fun j => ?_, ?_, ?_⟩
    · rw [(payload_defineLebId hleb j).1, hblank.pebs]
    · rw [(payload_defineLebId hleb 0).2]
      exact hblank.pebsCount
    · rw [(defineLebId_kept hleb).2.1]
      exact hpebs
  · simp only [hnumbered.rest i hge]
    exact ⟨fun j => by rw [hblank.pebs], hblank.pebsCount, hpebs⟩

theorem ready (h : SegsReserved options layout g b m buffers a)
    (hnumbered : Numbered layout a a.segsCapacity a') (hzones : zones < 4294967296) :
    HandOutReady layout (segbmapPayload g) (a'.metaArray .segbmap) (segbmapBefore a' buffers' zones) := by
  have hsound := h.segbmap.payload_sound
  have hblks := hsound.validBlks_eq
  have hfpp := h.segbmap.fragmentsPerPeb_pos
  have hplace := h.places .segbmap
  have hcapacity := h.capacity
  have hm := h.maptbl_pos
  have hmul : (segbmapPayload g).pebsPerSeg * (segbmapPayload g).validBlks layout < 4294967296 := by
    rw [hblks]
    exact Nat.lt_of_le_of_lt (Nat.mul_le_mul (Nat.le_of_lt_succ h.segbmap.pebsPerSeg_lt)
      (Nat.mul_le_mul (Nat.le_of_lt_succ h.segbmap.fragmentsPerPeb_lt) (Nat.le_refl 1))) (by decide)
  rw [← hnumbered.metaArray] at hplace
  exact
    { blks_pos := by
        rw [hblks]
        exact Nat.mul_pos hfpp Nat.one_pos
      blks_lt := hmul
      pebs_pos := hsound.pebs_pos
      start := by
        rw [hplace.1]
        change 7 < a'.segsCapacity
        rw [hnumbered.capacity]
        omega
      room := by
        rw [hplace.2]
        change a'.segsCount + b ≤ a'.segsCapacity
        rw [hnumbered.segsCount, h.segsCount, hnumbered.capacity]
        omega
      unpaid :=
        { payload := fun i _ j => (h.unpaid hnumbered _).1 j
          pebsCount := fun i _ => (h.unpaid hnumbered _).2.1
          pebsCapacity := fun i _ => by
            rw [show (segbmapBefore a' buffers' zones).a = a' from rfl,
              (h.unpaid hnumbered _).2.2]
            exact h.segbmap.pebsPerSeg_le
          pebs_lt := h.segbmap.pebsPerSeg_lt }
      fragments := fun b _ => rfl
      zones := hzones }

theorem visited (h : SegsReserved options layout g b m buffers a)
    (hnumbered : Numbered layout a a.segsCapacity a') :
    (segbmapPayload g).visited (a'.metaArray .segbmap).segsCount = min g.fragmentsCount
      (if layout.segbmap.hasBackupCopy then g.buffersCount * 2 else g.buffersCount) := by
  have hplace := (h.places .segbmap).2
  rw [← hnumbered.metaArray] at hplace
  unfold PayloadSource.visited SegbmapGeometry.buffersCount
  rw [hplace]
  change min g.fragmentsCount (b * g.pebsPerSeg) = _
  rw [h.segbmap.segs_eq]
  split
  · rw [Nat.mul_right_comm]
  · rfl

theorem segbmapCount (h : SegsReserved options layout g b m buffers a)
    (hnumbered : Numbered layout a a.segsCapacity a') :
    ¬((a'.metaArray .segbmap).segsCount = 0 ∨
      (a'.metaArray .segbmap).segsCount > segbmapSegsMax * 2) := by
  have hplace := (h.places .segbmap).2
  have hpos := h.segbmap.segs_pos
  have hle := h.segbmap.segs_le
  have hsegs := h.segbmap.segs_eq
  rw [← hnumbered.metaArray] at hplace
  unfold segbmapSegsMax at hle
  rw [hplace]
  change ¬(b = 0 ∨ b > 16)
  split at hsegs <;> omega

theorem segbmapHandOut_eq (h : SegsReserved options layout g b m buffers a)
    (hnumbered : Numbered layout a a.segsCapacity a') :
    segbmapHandOut layout g (segbmapBefore a' buffers' zones) =
      handOutBuffers layout (segbmapPayload g) (a'.metaArray .segbmap)
        (segbmapBefore a' buffers' zones) := by
  unfold segbmapHandOut
  simp only [show (segbmapBefore a' buffers' zones).a = a' from rfl]
  rw [failIf_of_not (h.segbmapCount hnumbered), Checked.ok_bind]

end SegsReserved

theorem SegsReserved.all_iff (h : SegsReserved options layout g b m buffers a)
    (hnumbered : Numbered layout a a.segsCapacity a') (hzones : zones < 4294967296) :
    (∃ st, segbmapHandOut layout g (segbmapBefore a' buffers' zones) = .ok st ∧
      AllHandedOut g.buffersCount (segbmapBefore a' buffers' zones) st) ↔
      g.buffersCount = g.fragmentsCount ∨
        g.buffersCount < g.fragmentsCount ∧ layout.segbmap.hasBackupCopy = false := by
  have hready : HandOutReady layout (segbmapPayload g) (a'.metaArray .segbmap)
      (segbmapBefore a' buffers' zones) := h.ready hnumbered hzones
  have hvisited := h.visited hnumbered
  have hbuffers : (segbmapPayload g).buffersCount = g.buffersCount := rfl
  have hpos : 0 < g.buffersCount := Nat.mul_pos h.segbmap.segs_pos hready.pebs_pos
  rw [h.segbmapHandOut_eq hnumbered]
  generalize (a'.metaArray .segbmap) = desc at *
  generalize hv : (segbmapPayload g).visited desc.segsCount = v at *
  rcases Nat.lt_or_ge g.buffersCount v with hlt | hle
  · refine iff_of_false (fun ⟨st, hrun, _⟩ => hready.not_run (hbuffers ▸ hv ▸ hlt) hrun) ?_
    rintro (heq | ⟨-, hcopy⟩)
    · omega
    · rw [if_neg (by rw [hcopy]; decide)] at hvisited
      omega
  obtain ⟨st, hrun, hpaid⟩ := hready.run (hbuffers ▸ hv ▸ hle)
  rw [hv] at hpaid
  have hunique : (∃ st, handOutBuffers layout (segbmapPayload g) desc
      (segbmapBefore a' buffers' zones) = .ok st ∧
        AllHandedOut g.buffersCount (segbmapBefore a' buffers' zones) st) ↔ v = g.buffersCount := by
    constructor
    · -- The buffer behind the last PEB's is left.
      rintro ⟨st', hrun', hall⟩
      cases hrun.symm.trans hrun'
      by_contra hne
      have htaken := hall.taken _ (Nat.lt_of_le_of_ne hle hne)
      rw [hpaid.fragments, if_neg (Nat.lt_irrefl _)] at htaken
      cases htaken
    · rintro rfl
      exact ⟨st, hrun, hpaid.all hready.pebs_pos fun _ _ => rfl⟩
  rw [hunique]
  cases hcopy : layout.segbmap.hasBackupCopy with
  | false =>
    rw [hcopy, if_neg (by decide)] at hvisited
    simp only [and_true]
    omega
  | true =>
    rw [hcopy, if_pos rfl] at hvisited
    simp only [Bool.true_eq_false, and_false, or_false]
    omega

/-- Every buffer becomes the payload of one PEB if there are as many buffers as fragments. With
fewer, the loops end in time only where no copy follows. -/
theorem segbmapHandOut_all_iff (hsizes : layout.SizesAccepted) (hindex : layout.lebsPerPebIndex = 1)
    (hreserve : mkfsReserveSegs sectorsPerZone fuel requested layout = .ok (layout', g, buffers, a))
    (hvalidate : segbmapMkfsValidate layout' g (buffers 0) a = .ok (buf, a'))
    (hzones : zones < 4294967296) :
    (∃ st, segbmapHandOut layout' g (segbmapBefore a' (Function.update buffers 0 buf) zones) = .ok st ∧
      AllHandedOut g.buffersCount (segbmapBefore a' (Function.update buffers 0 buf) zones) st) ↔
      g.buffersCount = g.fragmentsCount ∨
        g.buffersCount < g.fragmentsCount ∧ layout'.segbmap.hasBackupCopy = false := by
  obtain ⟨b, m, hreserved⟩ := mkfsReserveSegs_run hsizes hindex hreserve
  exact hreserved.all_iff (hreserved.numbered hvalidate).2 hzones

end

/-- Erase blocks of 128 KiB, with one or several of them in a segment. -/
def chainVolume (fsSize segSize : UInt64) (hasBackupCopy : Bool) : VolumeLayout where
  needEraseDevice := false
  segSize := segSize
  pageSize := .kib4
  nandDiesCount := 1
  lebsPerPebIndex := 1
  segbmap := ⟨hasBackupCopy, 1⟩
  maptbl := ⟨false, 1, 1, 10, 0, 0, 0, 0, 0, 0, 0, 0, 0⟩
  env := ⟨fsSize, 131072, .blk⟩

theorem chainVolume_sizesAccepted {fsSize : UInt64} {copy : Bool} :
    (chainVolume fsSize 131072 copy).SizesAccepted where
  eraseSize_ge := show 512 ≤ 131072 by decide
  segSize_le := show 131072 ≤ 68719476736 by decide
  pebs := ⟨0, show 131072 = 131072 * 2 ^ 0 by decide⟩

/-- 800 segments, and one buffer for their one fragment. -/
theorem segbmapHandOut_all_800 : ∃ layout g buffers a buf a' st,
    mkfsReserveSegs none 5 1 (chainVolume 104857600 131072 true) = .ok (layout, g, buffers, a) ∧
      segbmapMkfsValidate layout g (buffers 0) a = .ok (buf, a') ∧
      segbmapHandOut layout g (segbmapBefore a' (Function.update buffers 0 buf) 0) = .ok st ∧
      AllHandedOut g.buffersCount (segbmapBefore a' (Function.update buffers 0 buf) 0) st := by
  obtain ⟨layout, buffers, a, hreserve, hcapacity, -⟩ :=
    @mkfsReserveSegs_of_summary (chainVolume 104857600 131072 true) none 5 1
      (10, true, ⟨400, 1, 1, 1, 1, 4096⟩) (by decide +kernel)
  obtain ⟨b, m, hreserved⟩ := mkfsReserveSegs_run chainVolume_sizesAccepted rfl hreserve
  obtain ⟨buf, a', hvalidate, -⟩ := hreserved.validates (by rw [hcapacity]; decide)
  obtain ⟨st, hrun, hall⟩ := (segbmapHandOut_all_iff chainVolume_sizesAccepted rfl hreserve hvalidate
    (show 0 < 4294967296 by decide)).2 (.inl rfl)
  exact ⟨layout, _, buffers, a, buf, a', st, hreserve, hvalidate, hrun, hall⟩

/-- Three fragments of 16384 segments share a buffer. The copy is given what is behind it. -/
theorem segbmapHandOut_strays_16384 : ∃ layout g buffers a buf a',
    mkfsReserveSegs none 5 4 (chainVolume 2147483648 131072 true) = .ok (layout, g, buffers, a) ∧
      segbmapMkfsValidate layout g (buffers 0) a = .ok (buf, a') ∧
      ¬∃ st, segbmapHandOut layout g (segbmapBefore a' (Function.update buffers 0 buf) 0) = .ok st ∧
        AllHandedOut g.buffersCount (segbmapBefore a' (Function.update buffers 0 buf) 0) st := by
  obtain ⟨layout, buffers, a, hreserve, hcapacity, hcopy⟩ :=
    @mkfsReserveSegs_of_summary (chainVolume 2147483648 131072 true) none 5 4
      (27, true, ⟨8192, 3, 1, 1, 3, 4096⟩) (by decide +kernel)
  obtain ⟨b, m, hreserved⟩ := mkfsReserveSegs_run chainVolume_sizesAccepted rfl hreserve
  obtain ⟨buf, a', hvalidate, -⟩ := hreserved.validates (by rw [hcapacity]; decide)
  refine ⟨layout, _, buffers, a, buf, a', hreserve, hvalidate, ?_⟩
  rw [hreserved.all_iff (hreserved.numbered hvalidate).2 (by decide), hcopy]
  decide

end Ssdfs
