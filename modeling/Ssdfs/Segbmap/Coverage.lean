import Mathlib.Algebra.Order.BigOperators.Group.Finset
import Ssdfs.Segbmap.Policy

namespace Ssdfs

open Finset

section

variable {n b F i : Nat}

@[simp] theorem segbmapItemsPerFragment_page : segbmapItemsPerFragment pageCacheSize = .ok 8128 := rfl

@[simp] theorem segbmapPayloadBytesPerFragment_page :
    segbmapPayloadBytesPerFragment pageCacheSize = .ok 4064 := rfl

theorem segBmapBytes_ok (h : segBmapBytes n = .ok b) : b = Word.u64 (n + 1) / 2 := by
  obtain ⟨-, h⟩ := bugOn_bind_eq_ok.1 h
  cases h
  rfl

theorem segBmapFragments_le (h : segBmapFragments n pageCacheSize = .ok F) :
    F * 4096 ≤ (n + 1) / 2 + ((n + 1) / 2 + 4095) / 4096 * 32 + 4095 := by
  obtain ⟨b, hb, h⟩ := Checked.bind_eq_ok.1 h
  obtain ⟨-, h⟩ := bugOn_bind_eq_ok.1 h
  have hle := Word.u64_le (n + 1)
  rw [segBmapBytes_ok hb] at h
  cases h
  unfold pageCacheSize segbmapFragmentHeaderSize
  generalize hbytes : Word.u64 (n + 1) / 2 = b
  have h₁ := Word.u32_le (b + 4096 - 1)
  generalize hpages : Word.u32 (b + 4096 - 1) / 4096 = p
  have h₂ := Word.u32_le (b + p * 32)
  have h₃ := Word.u32_le (Word.u32 (b + p * 32) + 4096 - 1)
  omega

/-- As many headers as there are pages of raw bitmap reach into the last fragment. -/
def HeadersSuffice (n : Nat) : Prop :=
  (((n + 1) / 2 + 4063) / 4064) * 4096 < (n + 1) / 2 + ((n + 1) / 2 + 4095) / 4096 * 32 + 4096

instance : Decidable (HeadersSuffice n) := by
  unfold HeadersSuffice
  infer_instance

theorem HeadersSuffice.bound (h : HeadersSuffice n) : n < 134217728 := by
  unfold HeadersSuffice at h
  omega

theorem HeadersSuffice.segBmapBytes_eq (h : HeadersSuffice n) :
    segBmapBytes n = .ok ((n + 1) / 2) := by
  have hn := h.bound
  have hu : Word.u64 (n + segbmapItemsPerByte - 1) / segbmapItemsPerByte = (n + 1) / 2 := by
    have hsum : n + segbmapItemsPerByte - 1 = n + 1 := rfl
    rw [hsum, Word.u64_of_lt (by omega)]
    rfl
  unfold segBmapBytes
  simp only [hu]
  rw [bugOn_of_not (by unfold Word.u32Max; omega), Checked.ok_bind]

theorem HeadersSuffice.segBmapFragments_eq (h : HeadersSuffice n) :
    segBmapFragments n pageCacheSize = .ok (((n + 1) / 2 + 4063) / 4064) := by
  have hn := h.bound
  unfold segBmapFragments
  rw [h.segBmapBytes_eq, Checked.ok_bind]
  unfold HeadersSuffice at h
  unfold pageCacheSize segbmapFragmentHeaderSize
  simp only
  rw [Word.u32_of_lt (n := (n + 1) / 2 + 4096 - 1) (by omega),
    Word.u32_of_lt (n := (n + 1) / 2 + _) (by omega), Word.u32_of_lt (by omega)]
  have hF : ((n + 1) / 2 + ((n + 1) / 2 + 4096 - 1) / 4096 * 32 + 4096 - 1) / 4096 =
      ((n + 1) / 2 + 4063) / 4064 := by
    omega
  rw [hF, bugOn_of_not (by unfold Word.u16Max; omega), Checked.ok_bind]

end

/-- The fragments give every segment its item, in order and once. -/
structure SegbmapCovers (layout : VolumeLayout) (segbmap : SegbmapGeometry)
    (hdr : Nat → SegbmapFragmentHeader) : Prop where
  prepared : ∀ i < segbmap.fragmentsCount,
    (segbmapPrepareFragment layout segbmap i).map SegbmapFragment.hdr = .ok (hdr i)
  start_lt : ∀ i < segbmap.fragmentsCount, (hdr i).startItem.toNat < layout.segNums
  first : 0 < segbmap.fragmentsCount → (hdr 0).startItem.toNat = 0
  next : ∀ i, i + 1 < segbmap.fragmentsCount →
    (hdr (i + 1)).startItem.toNat = (hdr i).startItem.toNat + (hdr i).totalSegs.toNat
  disjoint : ∀ i j, i < j → j < segbmap.fragmentsCount →
    (hdr i).startItem.toNat + (hdr i).totalSegs.toNat ≤ (hdr j).startItem.toNat
  sum : ∑ i ∈ range segbmap.fragmentsCount, (hdr i).totalSegs.toNat = layout.segNums
  bytes : ∀ i < segbmap.fragmentsCount, segbmapFragmentHeaderSize +
    ((hdr i).totalSegs.toNat + 1) / segbmapItemsPerByte ≤ (hdr i).fragmentBytes.toNat

section

variable {layout : VolumeLayout} {segbmap : SegbmapGeometry} {n i : Nat} {f : SegbmapFragment}

theorem segbmapPrepareFragment_total (h : segbmapPrepareFragment layout segbmap i = .ok f) :
    f.hdr.totalSegs.toNat ≤ 8128 := by
  obtain ⟨-, h⟩ := failIf_bind_eq_ok.1 h
  obtain ⟨-, h⟩ := quot_bind_eq_ok.1 h
  obtain ⟨-, h⟩ := quot_bind_eq_ok.1 h
  obtain ⟨-, h⟩ := quot_bind_eq_ok.1 h
  obtain ⟨s, hs, h⟩ := Checked.bind_eq_ok.1 h
  obtain ⟨-, h⟩ := failIf_bind_eq_ok.1 h
  rw [segbmapPayloadBytesPerFragment_page, Checked.ok_bind] at h
  obtain ⟨-, h⟩ := bugOn_bind_eq_ok.1 h
  rw [segbmapItemsPerFragment_page, Checked.ok_bind] at h
  obtain ⟨-, h⟩ := bugOn_bind_eq_ok.1 h
  cases h
  refine Nat.le_trans (Nat.mod_le _ _) (Nat.min_le_left _ _)

theorem segbmapPrepareFragment_divides (h : segbmapPrepareFragment layout segbmap i = .ok f) :
    Word.u16 (segbmap.pebsPerSeg * segbmap.fragmentsPerPeb) ≠ 0 := by
  obtain ⟨-, h⟩ := failIf_bind_eq_ok.1 h
  obtain ⟨-, h⟩ := quot_bind_eq_ok.1 h
  exact (quot_bind_eq_ok.1 h).1

/-- The header of fragment `i` of a bitmap of `n` segments with `bmapBytes` bytes. -/
theorem segbmapPrepareFragment_eq (hn : n = layout.segNums)
    (hseg : layout.segSize.toNat ≠ 0) (hbound : n < 134217728) (hF : segbmap.fragmentsCount < 65535)
    (hbytes : segbmap.bmapBytes < 134217728) (hi : i < segbmap.fragmentsCount)
    (hproduct : Word.u16 (segbmap.pebsPerSeg * segbmap.fragmentsPerPeb) ≠ 0)
    (hstart : i * 8128 < n)
    (hrest : i * 4096 ≤ segbmap.bmapBytes + segbmap.fragmentsCount * 32) :
    ∃ f, segbmapPrepareFragment layout segbmap i = .ok f ∧ f.hdr.startItem.toNat = i * 8128 ∧
      f.hdr.totalSegs.toNat = min 8128 (n - i * 8128) ∧ f.hdr.fragmentBytes.toNat =
        min (segbmap.bmapBytes + segbmap.fragmentsCount * 32 - i * 4096) 4096 := by
  have hpeb : segbmap.fragmentsPerPeb ≠ 0 := fun h => hproduct (by rw [h, Nat.mul_zero]; rfl)
  have hitem : segbmapDefineFirstFragmentItem i pageCacheSize = .ok (i * 8128) := by
    unfold segbmapDefineFirstFragmentItem
    rw [segbmapItemsPerFragment_page, Checked.ok_bind, Word.u64_of_lt (by omega)]
  have hleft : Word.sub64 (Word.u64 (segbmap.bmapBytes + segbmap.fragmentsCount *
      segbmapFragmentHeaderSize)) (i * (4064 + segbmapFragmentHeaderSize)) =
      segbmap.bmapBytes + segbmap.fragmentsCount * 32 - i * 4096 := by
    unfold segbmapFragmentHeaderSize
    rw [Word.u64_of_lt (by omega), Word.sub64_of_le hrest (by omega)]
  have hnums : layout.env.fsSize.toNat / layout.segSize.toNat = n := hn.symm
  unfold segbmapPrepareFragment
  simp only
  rw [failIf_of_not (Nat.not_le.2 hi), Checked.ok_bind]
  simp only [quot, Checked.quot_of_ne hseg, Checked.quot_of_ne hproduct, Checked.quot_of_ne hpeb,
    Checked.ok_bind, hitem, segbmapPayloadBytesPerFragment_page, segbmapItemsPerFragment_page, hleft,
    hnums]
  rw [failIf_of_not (Nat.not_le.2 hstart), Checked.ok_bind,
    bugOn_of_not (by unfold ushrtMax pageCacheSize; omega), Checked.ok_bind,
    bugOn_of_not (by unfold ushrtMax; omega), Checked.ok_bind]
  refine ⟨_, rfl, ?_, ?_, ?_⟩
  · exact UInt64.toNat_ofNat_of_lt' (show i * 8128 < 18446744073709551616 by omega)
  · exact UInt16.toNat_ofNat_of_lt' (show min 8128 (n - i * 8128) < 65536 by omega)
  · exact UInt16.toNat_ofNat_of_lt'
      (show min (segbmap.bmapBytes + segbmap.fragmentsCount * 32 - i * 4096) 4096 < 65536 by omega)

theorem sum_fragments (k : Nat) : ∑ i ∈ range k, min 8128 (n - i * 8128) = min n (k * 8128) := by
  induction k with
  | zero => simp
  | succ k ih =>
    rw [sum_range_succ, ih]
    omega

theorem SegbmapCovers.prepared_ok {hdr : Nat → SegbmapFragmentHeader}
    (h : SegbmapCovers layout segbmap hdr) (hi : i < segbmap.fragmentsCount) :
    ∃ f, segbmapPrepareFragment layout segbmap i = .ok f ∧ f.hdr = hdr i := by
  have hi' := h.prepared i hi
  cases hf : segbmapPrepareFragment layout segbmap i with
  | error e =>
    rw [hf] at hi'
    cases hi'
  | ok f =>
    rw [hf] at hi'
    exact ⟨f, rfl, Except.ok.inj hi'⟩

theorem SegbmapCovers.segNums_le {hdr : Nat → SegbmapFragmentHeader}
    (h : SegbmapCovers layout segbmap hdr) : layout.segNums ≤ segbmap.fragmentsCount * 8128 := by
  rw [← h.sum]
  refine Nat.le_trans (sum_le_card_nsmul _ _ 8128 fun i hi => ?_) (by simp)
  obtain ⟨f, hf, hhdr⟩ := h.prepared_ok (mem_range.1 hi)
  rw [← hhdr]
  exact segbmapPrepareFragment_total hf

/-- The condition is on the number of segments alone, unless the division by the fragments of a
segment cannot be made. -/
theorem segbmapFragments_cover_iff
    (hbytes : segBmapBytes layout.segNums = .ok segbmap.bmapBytes)
    (hfragments : segBmapFragments layout.segNums pageCacheSize = .ok segbmap.fragmentsCount) :
    (∃ hdr, SegbmapCovers layout segbmap hdr) ↔ HeadersSuffice layout.segNums ∧
      (layout.segNums = 0 ∨ Word.u16 (segbmap.pebsPerSeg * segbmap.fragmentsPerPeb) ≠ 0) := by
  generalize hn : layout.segNums = n at *
  constructor
  · rintro ⟨hdr, hcovers⟩
    have hsum := hcovers.segNums_le
    rw [hn] at hsum
    have hle := segBmapFragments_le hfragments
    refine ⟨by unfold HeadersSuffice; omega, ?_⟩
    rcases Nat.eq_zero_or_pos segbmap.fragmentsCount with hzero | hpos
    · exact .inl (by omega)
    · obtain ⟨f, hf, -⟩ := hcovers.prepared_ok hpos
      exact .inr (segbmapPrepareFragment_divides hf)
  · rintro ⟨hsuffice, hproduct⟩
    have hbound := hsuffice.bound
    have hb : segbmap.bmapBytes = (n + 1) / 2 :=
      Except.ok.inj (hbytes.symm.trans hsuffice.segBmapBytes_eq)
    have hF : segbmap.fragmentsCount = ((n + 1) / 2 + 4063) / 4064 :=
      Except.ok.inj (hfragments.symm.trans hsuffice.segBmapFragments_eq)
    have hstart : ∀ i < segbmap.fragmentsCount, i * 8128 < n := fun i hi => by omega
    have hfrag : ∀ i, ∃ hdr : SegbmapFragmentHeader, i < segbmap.fragmentsCount →
        (segbmapPrepareFragment layout segbmap i).map SegbmapFragment.hdr = .ok hdr ∧
          hdr.startItem.toNat = i * 8128 ∧ hdr.totalSegs.toNat = min 8128 (n - i * 8128) ∧
          hdr.fragmentBytes.toNat =
            min (segbmap.bmapBytes + segbmap.fragmentsCount * 32 - i * 4096) 4096 := fun i => by
      by_cases hi : i < segbmap.fragmentsCount
      · have hlt := hstart i hi
        have hseg : layout.segSize.toNat ≠ 0 := fun h => by
          unfold VolumeLayout.segNums at hn
          rw [h, Nat.div_zero] at hn
          omega
        unfold HeadersSuffice at hsuffice
        obtain ⟨f, hf, hf'⟩ := segbmapPrepareFragment_eq hn.symm hseg hbound (by omega) (by omega) hi
          (hproduct.resolve_left (by omega)) hlt (by omega)
        exact ⟨f.hdr, fun _ => ⟨by rw [hf]; rfl, hf'⟩⟩
      · exact ⟨⟨0, 0, 0, 0, 0, 0, 0, 0, 0, 0, 0⟩, fun h => absurd h hi⟩
    choose hdr hhdr using hfrag
    refine ⟨hdr, fun i hi => (hhdr i hi).1, fun i hi => ?_, fun h0 => ?_, fun i hi => ?_,
      fun i j hij hj => ?_, ?_, fun i hi => ?_⟩
    · rw [(hhdr i hi).2.1, hn]
      exact hstart i hi
    · rw [(hhdr 0 h0).2.1, Nat.zero_mul]
    · have hnext := hstart (i + 1) hi
      rw [(hhdr _ hi).2.1, (hhdr i (by omega)).2.1, (hhdr i (by omega)).2.2.1]
      omega
    · rw [(hhdr j hj).2.1, (hhdr i (by omega)).2.1, (hhdr i (by omega)).2.2.1]
      have hle := Nat.mul_le_mul_right 8128 (Nat.succ_le_of_lt hij)
      omega
    · rw [sum_congr rfl fun i hi => (hhdr i (mem_range.1 hi)).2.2.1, sum_fragments, hn]
      omega
    · have hlt := hstart i hi
      rw [(hhdr i hi).2.2.1, (hhdr i hi).2.2.2]
      unfold segbmapFragmentHeaderSize segbmapItemsPerByte
      omega

end

/-- Segments of one erase block of 128 KiB. -/
def volumeOf (segs : UInt64) : VolumeLayout where
  needEraseDevice := false
  segSize := 131072
  pageSize := .kib4
  nandDiesCount := 1
  lebsPerPebIndex := 1
  segbmap := ⟨false, 1⟩
  maptbl := ⟨false, 1, 1, 10, 0, 0, 0, 0, 0, 0, 0, 0, 0⟩
  env := ⟨segs * 131072, 131072, .blk⟩

theorem segbmapFragments_cover_20000 :
    ∃ hdr, SegbmapCovers (volumeOf 20000) ⟨10000, 3, 1, 1, 3, 4096⟩ hdr :=
  (@segbmapFragments_cover_iff (volumeOf 20000) ⟨10000, 3, 1, 1, 3, 4096⟩ (by decide +kernel)
    (by decide +kernel)).2
    ⟨by decide, .inr (by decide)⟩

/-- 129 fragments have items for 1048512 segments. -/
theorem segbmapFragments_miss_1048513 :
    segBmapBytes (volumeOf 1048513).segNums = .ok 524257 ∧
      segBmapFragments (volumeOf 1048513).segNums pageCacheSize = .ok 129 ∧
      ¬∃ hdr, SegbmapCovers (volumeOf 1048513) ⟨524257, 17, 1, 8, 129, 4096⟩ hdr := by
  refine ⟨by decide +kernel, by decide +kernel, ?_⟩
  rintro ⟨hdr, h⟩
  exact absurd h.segNums_le (by decide)

end Ssdfs
