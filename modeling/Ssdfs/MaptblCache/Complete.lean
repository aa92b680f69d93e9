import Ssdfs.MaptblCache.Committed
import Ssdfs.MaptblCache.Counted

namespace Ssdfs

open Memory

/-- The bytes of every fragment lie in the extent, and the checksum goes over nothing else. -/
structure CacheComplete (layout : VolumeLayout) (c : MaptblCache) (extent : ExtentDesc) : Prop where
  fragments : ∃ buf, extent.buf = some buf ∧
    ∀ i < c.fragmentsCount, ∀ j < (c.fragments i).hdr.bytesCount, j < layout.pageSize.bytes ∧
      i * layout.pageSize.bytes + j < extent.bytesCount.toNat ∧
      buf (i * layout.pageSize.bytes + j) = (c.fragments i).page j
  checked : ∀ crc32 buf buf', extent.buf = some buf →
    (∀ x < extent.bytesCount.toNat, buf' x = buf x) →
    prepareMaptblCacheMetadataDescriptor crc32 layout c { extent with buf := some buf' } =
      prepareMaptblCacheMetadataDescriptor crc32 layout c extent

/-- No page has room behind its fragment, but for the page of the last one. -/
structure MaptblCache.Gapless (page : PageSize) (c : MaptblCache) : Prop where
  holds : ∀ i < c.fragmentsCount, 0 < (c.fragments i).hdr.itemsCount
  full : 1 < c.fragmentsCount → page = .kib4 ∧ ∀ i, i + 1 < c.fragmentsCount →
    (c.fragments i).hdr.itemsCount = leb2pebPairPerFragment page.bytes

section

variable {page : PageSize} {layout : VolumeLayout} {c : MaptblCache} {lebId pebId : Nat}

theorem countedBytes_eq_page {n : Nat} (h : countedBytes n = page.bytes) :
    page = .kib4 ∧ n = leb2pebPairPerFragment page.bytes := by
  unfold countedBytes at h
  split at h
  · cases page <;> cases h
  · cases page
    · refine ⟨rfl, ?_⟩
      change 36 + 20 * n = 4096 at h
      change n = 203
      omega
    · change 36 + 20 * n = 8192 at h
      omega
    · change 36 + 20 * n = 16384 at h
      omega
    · change 36 + 20 * n = 32768 at h
      omega

theorem MaptblCache.Counted.gapless_of_fits (h : c.Counted page)
    (hpage : ∀ i < c.fragmentsCount, (c.fragments i).hdr.bytesCount ≤ page.bytes)
    (hfits : ∀ i < c.fragmentsCount, i * page.bytes + (c.fragments i).hdr.bytesCount ≤ c.bytesCount) :
    c.Gapless page := by
  rcases Nat.eq_zero_or_pos c.fragmentsCount with hzero | hpos
  · exact ⟨fun i hi => absurd hi (by omega), fun hmany => absurd hmany (by omega)⟩
  obtain ⟨m, hm⟩ : ∃ m, c.fragmentsCount = m + 1 := ⟨_, (Nat.succ_pred_eq_of_pos hpos).symm⟩
  have hle : ∀ i ∈ Finset.range m, countedBytes (c.fragments i).hdr.itemsCount ≤ page.bytes :=
    fun i hi => by
      have hi := Finset.mem_range.1 hi
      exact Nat.le_trans (h.counted_le (by omega)) (hpage i (by omega))
  have hbefore := Finset.sum_le_sum hle
  have hpages : ∑ _i ∈ Finset.range m, page.bytes = m * page.bytes := by
    rw [Finset.sum_const_nat fun _ _ => rfl, Finset.card_range]
  have hbytes := h.bytes
  rw [hm, Finset.sum_range_succ] at hbytes
  have hlast := hfits m (by omega)
  have hcounted := h.counted_le (i := m) (by omega)
  have hused := h.used m (by omega)
  -- the last fragment counts all it uses, so that the others have to count whole pages
  have hsum : ∑ i ∈ Finset.range m, countedBytes (c.fragments i).hdr.itemsCount =
      ∑ _i ∈ Finset.range m, page.bytes := by omega
  have hfull := (Finset.sum_eq_sum_iff_of_le hle).1 hsum
  have hlastItems : 0 < (c.fragments m).hdr.itemsCount := by
    by_contra hnone
    have hzero : countedBytes (c.fragments m).hdr.itemsCount = 0 := if_pos (by omega)
    omega
  refine ⟨fun i hi => ?_, fun hmany => ?_⟩
  · rcases Nat.lt_or_ge i m with hlt | hge
    · rw [(countedBytes_eq_page (hfull i (Finset.mem_range.2 hlt))).2]
      exact (leb2pebPairPerFragment_bound page).2.1
    · obtain rfl : i = m := by omega
      exact hlastItems
  · refine ⟨(countedBytes_eq_page (hfull 0 (Finset.mem_range.2 (by omega)))).1, fun i hi => ?_⟩
    exact (countedBytes_eq_page (hfull i (Finset.mem_range.2 (by omega)))).2

theorem MaptblCache.Counted.fits_of_gapless (h : c.Counted page) (hgapless : c.Gapless page) {i : Nat}
    (hi : i < c.fragmentsCount) : (c.fragments i).hdr.bytesCount ≤ page.bytes ∧
      i * page.bytes + (c.fragments i).hdr.bytesCount ≤ c.bytesCount := by
  have hcap := leb2pebPairPerFragment_bound page
  obtain ⟨m, hm⟩ : ∃ m, c.fragmentsCount = m + 1 := ⟨_, (Nat.succ_pred_eq_of_pos (by omega)).symm⟩
  have hitems : (c.fragments i).hdr.itemsCount ≤ leb2pebPairPerFragment page.bytes := by
    rcases Nat.lt_or_ge i m with hlt | hge
    · exact Nat.le_of_eq ((hgapless.full (by omega)).2 i (by omega))
    · exact h.last i (by omega)
  have hused := h.used i hi
  refine ⟨by omega, ?_⟩
  have hbefore : ∀ k < m, countedBytes (c.fragments k).hdr.itemsCount = page.bytes := fun k hk => by
    obtain ⟨hpage, hfull⟩ := hgapless.full (by omega)
    rw [hfull k (by omega), hpage]
    rfl
  have hlast := h.used m (by omega)
  have hlastItems := hgapless.holds m (by omega)
  have hbytes : c.bytesCount = m * page.bytes + (c.fragments m).hdr.bytesCount := by
    rw [h.bytes, hm, Finset.sum_range_succ,
      Finset.sum_const_nat fun k hk => hbefore k (Finset.mem_range.1 hk), Finset.card_range, hlast]
    exact congrArg (m * page.bytes + ·) (if_neg (by omega))
  rcases Nat.lt_or_ge i m with hlt | hge
  · have hmul := Nat.mul_le_mul_right page.bytes (Nat.succ_le_of_lt hlt)
    rw [Nat.succ_mul] at hmul
    omega
  · obtain rfl : i = m := by omega
    exact Nat.le_of_eq hbytes.symm

theorem prepareMaptblCache_agree {crc32 : UInt32 → List UInt8 → UInt32} {extent : ExtentDesc}
    {buf buf' : Bytes} (hbuf : extent.buf = some buf)
    (hused : ∀ i < c.fragmentsCount, 32 ≤ cacheUsed layout.pageSize.bytes buf i ∧
      i * layout.pageSize.bytes + cacheUsed layout.pageSize.bytes buf i ≤ extent.bytesCount.toNat)
    (hagree : ∀ x < extent.bytesCount.toNat, buf' x = buf x) :
    prepareMaptblCacheMetadataDescriptor crc32 layout c { extent with buf := some buf' } =
      prepareMaptblCacheMetadataDescriptor crc32 layout c extent := by
  have hread : ∀ i < c.fragmentsCount,
      MaptblCacheRecord.wire.read buf' (i * layout.pageSize.bytes) =
        MaptblCacheRecord.wire.read buf (i * layout.pageSize.bytes) := fun i hi => by
    refine MaptblCacheRecord.wire.read_congr fun j hj => hagree _ ?_
    rw [MaptblCacheRecord.wire_size] at hj
    have := hused i hi
    omega
  have hfold := List.foldl_ext
    (fun (st : UInt32 × Nat) i =>
      (crc32 st.1 (slice buf' (i * layout.pageSize.bytes)
        (cacheUsed layout.pageSize.bytes buf' i)),
        Word.u32 (st.2 + cacheUsed layout.pageSize.bytes buf' i)))
    (fun st i =>
      (crc32 st.1 (slice buf (i * layout.pageSize.bytes) (cacheUsed layout.pageSize.bytes buf i)),
        Word.u32 (st.2 + cacheUsed layout.pageSize.bytes buf i))) (0, 0)
    (l := List.range c.fragmentsCount) fun st i hi => by
      have hi := List.mem_range.1 hi
      have hlen : cacheUsed layout.pageSize.bytes buf' i = cacheUsed layout.pageSize.bytes buf i :=
        congrArg (fun r => r.bytesCount.toNat) (hread i hi)
      have hslice : slice buf' (i * layout.pageSize.bytes) (cacheUsed layout.pageSize.bytes buf i) =
          slice buf (i * layout.pageSize.bytes) (cacheUsed layout.pageSize.bytes buf i) :=
        List.map_congr_left fun j hj => hagree _ (by
          have := hused i hi
          have := List.mem_range.1 hj
          omega)
      rw [hlen, hslice]
  unfold cacheUsed at hfold
  unfold prepareMaptblCacheMetadataDescriptor ExtentDesc.contents
  rw [hbuf]
  simp only [Checked.ok_bind]
  rw [hfold]

theorem MaptblCache.Counted.complete_of_gapless (h : c.Counted layout.pageSize)
    (hgapless : c.Gapless layout.pageSize) :
    CacheComplete layout c ((sbLog layout c lebId pebId).extents .maptblCache) := by
  obtain ⟨hbuf, hbytes⟩ := extents_sbLog layout c lebId pebId
  have htotal := h.bytes_le
  have hsize : ((sbLog layout c lebId pebId).extents .maptblCache).bytesCount.toNat = c.bytesCount := by
    rw [hbytes]
    exact UInt32.toNat_ofNat_of_lt' (Nat.lt_of_le_of_lt htotal (by decide))
  refine ⟨⟨_, hbuf, fun i hi j hj => ?_⟩, fun crc32 buf buf' hbuf' hagree => ?_⟩
  · obtain ⟨hpage, hfits⟩ := h.fits_of_gapless hgapless hi
    rw [hsize]
    exact ⟨by omega, by omega, c.buffer_page i (by omega)⟩
  · obtain rfl := Option.some.inj (hbuf.symm.trans hbuf')
    refine prepareMaptblCache_agree hbuf (fun i hi => ?_) hagree
    have hused := h.used_le hi
    have hread : cacheUsed layout.pageSize.bytes (c.buffer layout.pageSize) i =
        (c.fragments i).hdr.bytesCount := by
      unfold cacheUsed
      rw [c.record_buffer]
      exact UInt16.toNat_ofNat_of_lt' (Nat.lt_of_le_of_lt hused.2 (by decide))
    rw [hread, hsize]
    exact ⟨by omega, (h.fits_of_gapless hgapless hi).2⟩

theorem MaptblCache.Counted.gapless_of_complete (h : c.Counted layout.pageSize)
    (hcomplete : CacheComplete layout c ((sbLog layout c lebId pebId).extents .maptblCache)) :
    c.Gapless layout.pageSize := by
  obtain ⟨-, hbytes⟩ := extents_sbLog layout c lebId pebId
  obtain ⟨buf, -, hfragments⟩ := hcomplete.fragments
  have hsize : ((sbLog layout c lebId pebId).extents .maptblCache).bytesCount.toNat ≤ c.bytesCount := by
    rw [hbytes, UInt32.toNat_ofNat']
    exact Nat.mod_le ..
  have hlastByte : ∀ i < c.fragmentsCount,
      (c.fragments i).hdr.bytesCount - 1 < layout.pageSize.bytes ∧
        i * layout.pageSize.bytes + ((c.fragments i).hdr.bytesCount - 1) < c.bytesCount := fun i hi => by
    have hused := h.used_le hi
    obtain ⟨hpage, hfits, -⟩ := hfragments i hi ((c.fragments i).hdr.bytesCount - 1) (by omega)
    exact ⟨hpage, by omega⟩
  refine h.gapless_of_fits (fun i hi => ?_) fun i hi => ?_
  · have := hlastByte i hi
    omega
  · have := hlastByte i hi
    have := h.used_le hi
    omega

end

section

variable {page : PageSize} {layout : VolumeLayout} {c c₀ : MaptblCache} {L : Nat → List CacheItem}
  {xs pairs : List (Nat × Nat)} {a : SegsArray} {lebId pebId : Nat}

/-- The extent of the cache is complete exactly if no page but the last one has room behind its
fragment. -/
theorem sbLog_cacheComplete_iff (hprepare : maptblCacheMkfsPrepare layout.pageSize a = .ok c₀)
    (hrun : cachePairs layout.pageSize pairs c₀ = .ok c) :
    CacheComplete layout c ((sbLog layout c lebId pebId).extents .maptblCache) ↔
      c.Gapless layout.pageSize :=
  have hcounted := cachePairs_counted hprepare hrun
  ⟨hcounted.gapless_of_complete, hcounted.complete_of_gapless⟩

theorem MaptblCache.Filled.gapless_iff (h : c.Filled page L xs)
    (hfew : c.fragmentsCount * leb2pebPairPerFragment page.bytes <
      xs.length + leb2pebPairPerFragment page.bytes) :
    c.Gapless page ↔ c.fragmentsCount ≤ 1 ∨ page = .kib4 := by
  have hcap := (leb2pebPairPerFragment_bound page).2.1
  have hbefore : ∀ i < c.fragmentsCount, leb2pebPairPerFragment page.bytes * i < xs.length :=
    fun i hi => by
      have hmul := Nat.mul_le_mul_right (leb2pebPairPerFragment page.bytes) (Nat.succ_le_of_lt hi)
      rw [Nat.succ_mul, Nat.mul_comm] at hmul
      omega
  constructor
  · intro hgapless
    rcases Nat.lt_or_ge 1 c.fragmentsCount with hmany | hone
    · exact .inr (hgapless.full hmany).1
    · exact .inl hone
  · intro hpage
    refine ⟨fun i hi => ?_, fun hmany => ⟨hpage.resolve_left (Nat.not_le.2 hmany), fun i hi => ?_⟩⟩
    · rw [(h.sound.holds i hi).count, h.length_eq hi]
      have := hbefore i hi
      omega
    · rw [(h.sound.holds i (by omega)).count]
      exact h.full ((Nat.le_div_iff_mul_le hcap).2
        (by rw [Nat.mul_comm]; exact Nat.le_of_lt (hbefore (i + 1) hi))) (by omega)

end

def manyLebs (n : Nat) : SegsArray where
  metaArray _ := ⟨0, 0, .dedicated⟩
  segs i := ⟨none, .max, i, fun _ => ⟨i, Word.u64Max, fun _ => ⟨none, 0, 0⟩⟩, 1, 1⟩
  segsCapacity := n
  segsCount := 0
  lastAllocatedSegIndex := n

/-- The LEBs from 0 on, each in the PEB of its own number. -/
def firstPairs (n : Nat) : List (Nat × Nat) := (List.range n).map fun i => (i, i)

/-- A volume with 64 erase blocks in a segment. -/
def cacheVolume (pageSize : PageSize) : VolumeLayout where
  needEraseDevice := false
  segSize := 8388608
  pageSize := pageSize
  nandDiesCount := 1
  lebsPerPebIndex := 1
  segbmap := ⟨false, 64⟩
  maptbl := ⟨false, 1, 1, 10, 1, 4096, 1, 4096, 1, 64, 64, 1, 8192⟩
  env := ⟨1073741824, 131072, .blk⟩

theorem lebsInSegs_manyLebs {n : Nat} (hn : n < 65535) : lebsInSegs (manyLebs n) = n := by
  have hone : ∀ i ∈ List.range n, ((List.range 1).filter fun j =>
      (((manyLebs n).segs i).pebs j).lebId ≠ Word.u64Max).length = 1 := fun i hi => by
    have hi := List.mem_range.1 hi
    have hne : i ≠ Word.u64Max := by
      unfold Word.u64Max
      omega
    simp [manyLebs, hne]
  unfold lebsInSegs
  refine (congrArg List.sum (List.map_congr_left hone)).trans ?_
  simp

theorem firstPairs_cached {n : Nat} (page : PageSize) (hn : n < 65535) : ∃ c₀ c L, maptblCacheMkfsPrepare page (manyLebs n) = .ok c₀ ∧
      cachePairs page (firstPairs n) c₀ = .ok c ∧
      c.fragmentsCount =
        (n + leb2pebPairPerFragment page.bytes - 1) / leb2pebPairPerFragment page.bytes ∧
      c.Filled page L (firstPairs n) := by
  have hcap := (leb2pebPairPerFragment_bound page).2.1
  have hlen : (firstPairs n).length = n := by simp [firstPairs]
  have hget : ∀ i (hi : i < (firstPairs n).length), (firstPairs n)[i] = (i, i) := by
    simp [firstPairs]
  have hkeys : (firstPairs n).map Prod.fst = List.range n := by
    simp [firstPairs, Function.comp_def]
  have hfew : (n + leb2pebPairPerFragment page.bytes - 1) / leb2pebPairPerFragment page.bytes <
      Word.u16Max := Nat.div_lt_of_lt_mul (by unfold Word.u16Max; omega)
  obtain ⟨c₀, hprepare, hcount⟩ := maptblCacheMkfsPrepare_ok (lebsInSegs_manyLebs hn) (by omega) hfew
  have hroom : n ≤ c₀.fragmentsCount * leb2pebPairPerFragment page.bytes := by
    have hdm := Nat.div_add_mod (n + leb2pebPairPerFragment page.bytes - 1)
      (leb2pebPairPerFragment page.bytes)
    have hmod := Nat.mod_lt (n + leb2pebPairPerFragment page.bytes - 1) hcap
    rw [hcount, Nat.mul_comm]
    omega
  obtain ⟨c, L, hrun, hsame, hfilled⟩ := cachePairs_filled (maptblCacheMkfsPrepare_filled hprepare)
    (hkeys ▸ List.nodup_range)
    (fun p hp => by
      obtain ⟨i, hi, rfl⟩ := List.mem_map.1 hp
      have hi := List.mem_range.1 hi
      unfold Word.u64Max
      exact ⟨by omega, by omega⟩)
    (by rwa [hlen])
    (fun i j hi hj hij _ => by
      rw [hget, hget]
      exact hij)
  exact ⟨c₀, c, L, hprepare, hrun, hsame.trans hcount, hfilled⟩

theorem sbLog_cacheComplete_204 : ∃ c₀ c,
    maptblCacheMkfsPrepare .kib4 (manyLebs 204) = .ok c₀ ∧
    cachePairs .kib4 (firstPairs 204) c₀ = .ok c ∧ c.fragmentsCount = 2 ∧
    CacheComplete (cacheVolume .kib4) c ((sbLog (cacheVolume .kib4) c 1 1).extents .maptblCache) := by
  obtain ⟨c₀, c, L, hprepare, hrun, hcount, hfilled⟩ := @firstPairs_cached 204 .kib4 (by decide)
  have hlen : (firstPairs 204).length = 204 := by simp [firstPairs]
  have hgapless : c.Gapless .kib4 := (hfilled.gapless_iff (by rw [hcount, hlen]; decide)).2 (.inr rfl)
  exact ⟨c₀, c, hprepare, hrun, hcount,
    (@sbLog_cacheComplete_iff (cacheVolume .kib4) c c₀ _ _ 1 1 hprepare hrun).2 hgapless⟩

/-- The second fragment ends 16 bytes behind the extent. -/
theorem sbLog_cacheComplete_misses_408 : ∃ c₀ c,
    maptblCacheMkfsPrepare .kib8 (manyLebs 408) = .ok c₀ ∧
    cachePairs .kib8 (firstPairs 408) c₀ = .ok c ∧ c.fragmentsCount = 2 ∧
    ¬CacheComplete (cacheVolume .kib8) c ((sbLog (cacheVolume .kib8) c 1 1).extents .maptblCache) := by
  obtain ⟨c₀, c, L, hprepare, hrun, hcount, hfilled⟩ := @firstPairs_cached 408 .kib8 (by decide)
  have hlen : (firstPairs 408).length = 408 := by simp [firstPairs]
  refine ⟨c₀, c, hprepare, hrun, hcount, fun hcomplete => ?_⟩
  have hgapless := (cachePairs_counted hprepare hrun).gapless_of_complete 
    hcomplete
  have hpage := (hfilled.gapless_iff (by rw [hcount, hlen]; decide)).1 hgapless
  rw [hcount] at hpage
  revert hpage
  decide

end Ssdfs
