import Ssdfs.MaptblCache.Committed
import Ssdfs.Mkfs.LebIds

namespace Ssdfs

open Align

def metaLebs (layout : VolumeLayout) (a : SegsArray) : Nat :=
  1 + 6 * layout.pebsPerSeg +
    (a.metaArray .segbmap).segsCount * layout.segbmap.pebsPerSeg +
    (a.metaArray .pebMappingTable).segsCount * layout.pebsPerSeg

section Lebs

variable {options layout : VolumeLayout} {g : SegbmapGeometry} {b m : Nat} {a a' : SegsArray}

theorem LebsDefined.lebAt_eq_max_iff (h : LebsDefined options layout b m a) {i k : Nat}
    (hi : i < a.segsCapacity) (hk : k < layout.pebsPerSeg) :
    a.lebAt (i, k) = Word.u64Max ↔ assignedPebs layout (a.segs i) ≤ k := by
  constructor
  · intro hmax
    by_contra hlt
    have hlt := Nat.not_le.1 hlt
    have hleb : a.lebAt (i, k) = ((a.segs i).pebs k).lebId := rfl
    have hvolume := layout.pebsPerVolume_lt
    by_cases hindex : layout.lebsPerPebIndex = 1
    · obtain ⟨heq, hbelow⟩ := h.lebId_packed hindex hi hlt
      unfold Word.u64Max at hmax
      omega
    · have heq := h.lebId_spread hindex hi hlt
      have hfew := Nat.lt_of_lt_of_le hi h.few
      have hn := h.corrected.sizes.segNums_lt
      have hoffset := @lebOffset_lt layout.lebsPerPebIndex.toNat k
      unfold Word.u64Max at hmax
      omega
  · exact fun hle => h.rest i hi k hle hk

theorem LebsDefined.lebs_segment (h : LebsDefined options layout b m a) {i : Nat}
    (hi : i < a.segsCapacity) :
    ((List.range layout.pebsPerSeg).filter fun k => a.lebAt (i, k) ≠ Word.u64Max) =
      List.range (assignedPebs layout (a.segs i)) := by
  have hle := h.assigned_le i hi
  obtain ⟨rest, hrest⟩ := Nat.exists_eq_add_of_le hle
  rw [hrest, List.range_add, List.filter_append]
  have hkept : (List.range (assignedPebs layout (a.segs i))).filter
      (fun k => a.lebAt (i, k) ≠ Word.u64Max) = List.range (assignedPebs layout (a.segs i)) := by
    refine List.filter_eq_self.2 fun k hk => ?_
    have hlt := List.mem_range.1 hk
    have hne := (h.lebAt_eq_max_iff hi (Nat.lt_of_lt_of_le hlt hle)).not.2 (Nat.not_le.2 hlt)
    exact decide_eq_true hne
  have hnone : ((List.range rest).map (assignedPebs layout (a.segs i) + ·)).filter
      (fun k => a.lebAt (i, k) ≠ Word.u64Max) = [] := by
    refine List.filter_eq_nil_iff.2 fun k hk => ?_
    obtain ⟨j, hj, rfl⟩ := List.mem_map.1 hk
    have hlt := List.mem_range.1 hj
    have hmax := (h.lebAt_eq_max_iff hi (k := assignedPebs layout (a.segs i) + j) (by omega)).2
      (Nat.le_add_right _ _)
    simp [hmax]
  rw [hkept, hnone, List.append_nil]

theorem SegsDefined.lebs_eq (h : SegsDefined options layout g b m a a') :
    a'.lebs a'.sites = (List.range a'.segsCapacity).flatMap fun i =>
      (List.range (assignedPebs layout (a'.segs i))).map fun k => a'.lebAt (i, k) := by
  unfold SegsArray.lebs
  rw [h.sites_eq, SegsArray.allSites, List.filter_flatMap, List.map_flatMap]
  refine List.flatMap_congr fun i hi => ?_
  have hi := List.mem_range.1 hi
  rw [(h.segs_eq hi).2.1, List.filter_map, List.map_map, ← h.lebsDefined.lebs_segment hi]
  rfl

theorem SegsDefined.lebs_length (h : SegsDefined options layout g b m a a') :
    (a'.lebs a'.sites).length = metaLebs layout a' := by
  have hdefined := h.lebsDefined
  have hcapacity := hdefined.capacity
  rw [h.lebs_eq, List.length_flatMap]
  simp only [List.length_map, List.length_range]
  have hsplit : List.range a'.segsCapacity = List.range' 0 1 ++ (List.range' 1 6 ++
      (List.range' 7 b ++ List.range' (7 + b) m)) := by
    rw [List.range'_append_1, List.range'_append_1, List.range'_append_1, List.range_eq_range',
      hcapacity]
    congr 1
    omega
  have hsum : ∀ start n count, start + n ≤ a'.segsCapacity →
      (∀ i, start ≤ i → i < start + n → assignedPebs layout (a'.segs i) = count) →
      ((List.range' start n).map fun i => assignedPebs layout (a'.segs i)).sum = n * count := by
    intro start n count hle hcount
    rw [List.map_congr_left (g := fun _ => count)]
    · simp
    · intro i hi
      obtain ⟨hlo, hhi⟩ := List.mem_range'_1.1 hi
      exact hcount i hlo hhi
  rw [hsplit]
  simp only [List.map_append, List.sum_append]
  rw [hsum 0 1 1 (by omega) fun i _ hi => by
      obtain rfl : i = 0 := by omega
      exact hdefined.first,
    hsum 1 6 layout.pebsPerSeg (by omega) fun i hlo hhi =>
      hdefined.whole i (by omega) (by omega) (.inl (by omega)),
    hsum 7 b layout.segbmap.pebsPerSeg (by omega) fun i hlo hhi =>
      hdefined.segbmap i (by omega) hlo hhi,
    hsum (7 + b) m layout.pebsPerSeg (by omega) fun i hlo hhi =>
      hdefined.whole i (by omega) (by omega) (.inr hlo)]
  unfold metaLebs
  rw [h.numbered.metaArray, (h.places .segbmap).2, (h.places .pebMappingTable).2]
  simp only [metaRange]
  omega

theorem SegsDefined.lebsInSegs_eq (h : SegsDefined options layout g b m a a') :
    lebsInSegs a' = metaLebs layout a' := by
  rw [← h.lebs_length, h.lebs_eq, List.length_flatMap]
  unfold lebsInSegs
  congr 1
  refine List.map_congr_left fun i hi => ?_
  have hi := List.mem_range.1 hi
  rw [(h.segs_eq hi).2.1, List.length_map, ← h.lebsDefined.lebs_segment hi]
  rfl

theorem SegsDefined.lebs_ascending (h : SegsDefined options layout g b m a a')
    (hindex : layout.lebsPerPebIndex = 1) : (a'.lebs a'.sites).Pairwise (· < ·) := by
  have hdefined := h.lebsDefined
  rw [h.lebs_eq, List.pairwise_flatMap]
  refine ⟨fun i hi => ?_, ?_⟩
  · rw [List.pairwise_map]
    refine List.pairwise_lt_range.imp_of_mem fun {k k'} hk hk' hlt => ?_
    have hi := List.mem_range.1 hi
    have hleb := (hdefined.lebId_packed hindex hi (List.mem_range.1 hk)).1
    have hleb' := (hdefined.lebId_packed hindex hi (List.mem_range.1 hk')).1
    change ((a'.segs i).pebs k).lebId < ((a'.segs i).pebs k').lebId
    omega
  · refine List.pairwise_lt_range.imp_of_mem fun {i i'} hi hi' hlt x hx y hy => ?_
    obtain ⟨k, hk, rfl⟩ := List.mem_map.1 hx
    obtain ⟨k', hk', rfl⟩ := List.mem_map.1 hy
    have hi := List.mem_range.1 hi
    have hk := List.mem_range.1 hk
    have hleb := (hdefined.lebId_packed hindex hi hk).1
    have hleb' := (hdefined.lebId_packed hindex (List.mem_range.1 hi') (List.mem_range.1 hk')).1
    have hassigned := hdefined.assigned_le i hi
    have hmul := Nat.mul_le_mul_right layout.pebsPerSeg (Nat.succ_le_of_lt hlt)
    rw [Nat.succ_mul] at hmul
    change ((a'.segs i).pebs k).lebId < ((a'.segs i').pebs k').lebId
    omega

end Lebs

section

variable {page : PageSize} {c₀ : MaptblCache} {a : SegsArray}

theorem maptblCacheMkfsPrepare_count (hlt : lebsInSegs a < 4294900000)
    (h : maptblCacheMkfsPrepare page a = .ok c₀) : c₀.fragmentsCount =
      (lebsInSegs a + leb2pebPairPerFragment page.bytes - 1) / leb2pebPairPerFragment page.bytes := by
  have hcap := leb2pebPairPerFragment_bound page
  unfold maptblCacheMkfsPrepare at h
  obtain ⟨-, h⟩ := bugOn_bind_eq_ok.1 h
  obtain ⟨fragments, -, h⟩ := Checked.bind_eq_ok.1 h
  cases h
  simp only
  rw [Word.u32_of_lt (n := lebsInSegs a) (by omega), Word.u32_of_lt (by omega)]

end

section

variable {options layout : VolumeLayout} {g : SegbmapGeometry} {b m : Nat} {a a' : SegsArray}
  {pairs : List (Nat × Nat)} {crc32 : UInt32 → List UInt8 → UInt32} {lebId pebId fuel : Nat}
  {requested : UInt16} {sectorsPerZone : Option UInt32} {c c₀ : MaptblCache}

theorem SegsDefined.lebs_lt (h : SegsDefined options layout g b m a a') {leb : Nat}
    (hleb : leb ∈ a'.lebs a'.sites) : leb < Word.u64Max := by
  have hdefined := h.lebsDefined
  rw [h.lebs_eq] at hleb
  obtain ⟨i, hi, hleb⟩ := List.mem_flatMap.1 hleb
  obtain ⟨k, hk, rfl⟩ := List.mem_map.1 hleb
  have hi := List.mem_range.1 hi
  have hk := List.mem_range.1 hk
  have hle := hdefined.assigned_le i hi
  have hne := (hdefined.lebAt_eq_max_iff hi (Nat.lt_of_lt_of_le hk hle)).not.2 (Nat.not_le.2 hk)
  have hlt : a'.lebAt (i, k) < 18446744073709551616 := by
    change ((a'.segs i).pebs k).lebId < _
    rw [hdefined.lebId i hi k hk]
    exact Word.u64_lt _
  unfold Word.u64Max at hne ⊢
  omega

namespace SegsDefined

variable (h : SegsDefined options layout g b m a a') (hlebs : pairs.map Prod.fst = a'.lebs a'.sites)

include h hlebs

theorem pairs_length : pairs.length = metaLebs layout a' := by
  rw [← h.lebs_length, ← hlebs, List.length_map]

theorem cache_counts (hprepare : maptblCacheMkfsPrepare layout.pageSize a' = .ok c₀)
    (hbuilt : cachePairs layout.pageSize pairs c₀ = .ok c) :
    c.kept layout.pageSize = metaLebs layout a' ∧ c.fragmentsCount =
      (metaLebs layout a' + leb2pebPairPerFragment layout.pageSize.bytes - 1) /
        leb2pebPairPerFragment layout.pageSize.bytes := by
  have hcap := leb2pebPairPerFragment_bound layout.pageSize
  have hsame := cachePairs_fragmentsCount hbuilt
  have hkept := cachePairs_kept hprepare hbuilt
  have hlength := h.pairs_length hlebs
  have hfew := (cachePairs_counted hprepare hbuilt).count
  have hle := @MaptblCache.kept_le layout.pageSize c
  have hmul := Nat.mul_le_mul (Nat.le_of_lt hfew)
    (show leb2pebPairPerFragment layout.pageSize.bytes ≤ 32768 by omega)
  have hcount := maptblCacheMkfsPrepare_count (by rw [h.lebsInSegs_eq]; omega) hprepare
  rw [h.lebsInSegs_eq] at hcount
  exact ⟨hkept.trans hlength, hsame.trans hcount⟩

variable (hpebs : ∀ p ∈ pairs, p.2 < Word.u64Max)

include hpebs

theorem pairs_valid : ∀ p ∈ pairs, p.1 < Word.u64Max ∧ p.2 < Word.u64Max := fun p hp =>
  ⟨h.lebs_lt (hlebs ▸ List.mem_map_of_mem hp), hpebs p hp⟩

theorem cachePairs_ascending (hindex : layout.lebsPerPebIndex = 1)
    (hprepare : maptblCacheMkfsPrepare layout.pageSize a' = .ok c₀)
    (hlen : metaLebs layout a' ≤ c₀.fragmentsCount * leb2pebPairPerFragment layout.pageSize.bytes) :
    ∃ c, cachePairs layout.pageSize pairs c₀ = .ok c ∧ c.surplus layout.pageSize = 0 := by
  have hascending := h.lebs_ascending hindex
  rw [← hlebs] at hascending
  obtain ⟨c, L, hrun, -, hfilled⟩ := cachePairs_filled (maptblCacheMkfsPrepare_filled hprepare)
    (hascending.imp Nat.ne_of_lt) (h.pairs_valid hlebs hpebs) (h.pairs_length hlebs ▸ hlen)
    (Chunks.Ascend.of_pairwise (List.pairwise_map.1 hascending))
  exact ⟨c, hrun, hfilled.sound.surplus_eq_zero⟩

theorem cache_surplus (hprepare : maptblCacheMkfsPrepare layout.pageSize a' = .ok c₀)
    (hbuilt : cachePairs layout.pageSize pairs c₀ = .ok c) (hfew : layout.lebsPerPebIndex = 1 ∨
      metaLebs layout a' ≤ leb2pebPairPerFragment layout.pageSize.bytes) :
    c.surplus layout.pageSize = 0 := by
  have hcap := (leb2pebPairPerFragment_bound layout.pageSize).2.1
  obtain ⟨hkept, hcount⟩ := h.cache_counts hlebs hprepare hbuilt
  rcases hfew with hindex | hone
  · have hle := @MaptblCache.kept_le layout.pageSize c
    rw [hkept, cachePairs_fragmentsCount hbuilt] at hle
    obtain ⟨c', hrun, hsurplus⟩ := h.cachePairs_ascending hlebs hpebs hindex hprepare hle
    obtain rfl : c = c' := Except.ok.inj (hbuilt.symm.trans hrun)
    exact hsurplus
  · have hle := (cachePairs_counted hprepare hbuilt).surplus_le
    have hfew := Nat.le_of_lt_succ ((Nat.div_lt_iff_lt_mul hcap).2
      (show metaLebs layout a' + leb2pebPairPerFragment layout.pageSize.bytes - 1 <
        2 * leb2pebPairPerFragment layout.pageSize.bytes by omega))
    rw [← hcount] at hfew
    omega

end SegsDefined

/-- The cache built of the LEBs of all metadata segments can be committed exactly if 16 bits count its
bytes and the erase block has room for the log with it. The fragments count at most one item too many
for each of them but the last, and none if the LEBs come in ascending order or one fragment takes them
all. -/
theorem maptblCache_committed_iff (hsizes : options.SizesAccepted)
    (hindex : options.lebsPerPebIndex = 1)
    (h : mkfsDefineSegs sectorsPerZone fuel requested options = .ok (layout, a))
    (hlebs : pairs.map Prod.fst = a.lebs a.sites) (hpebs : ∀ p ∈ pairs, p.2 < Word.u64Max)
    (hprepare : maptblCacheMkfsPrepare layout.pageSize a = .ok c₀)
    (hbuilt : cachePairs layout.pageSize pairs c₀ = .ok c) :
    (CacheCommitted crc32 layout c (sbLog layout c lebId pebId) ↔ CacheFits layout
      (cacheBytesOf layout.pageSize (metaLebs layout a) + 20 * c.surplus layout.pageSize)) ∧
    c.surplus layout.pageSize ≤ (metaLebs layout a - 1) / leb2pebPairPerFragment layout.pageSize.bytes ∧
    (layout.lebsPerPebIndex = 1 ∨ metaLebs layout a ≤ leb2pebPairPerFragment layout.pageSize.bytes →
      c.surplus layout.pageSize = 0) := by
  obtain ⟨g, b, m, a₀, hdefined⟩ := mkfsDefineSegs_run hsizes hindex h
  obtain ⟨hkept, hcount⟩ := hdefined.cache_counts hlebs hprepare hbuilt
  have hcap := (leb2pebPairPerFragment_bound layout.pageSize).2.1
  have hpos : 0 < metaLebs layout a := by
    unfold metaLebs
    omega
  have hcounted := cachePairs_counted hprepare hbuilt
  refine ⟨?_, ?_, hdefined.cache_surplus hlebs hpebs hprepare hbuilt⟩
  · rw [← hkept] at hpos hcount ⊢
    exact hcounted.committed_iff hpos hcount
  · have hle := hcounted.surplus_le
    rw [hcount, show metaLebs layout a + leb2pebPairPerFragment layout.pageSize.bytes - 1 =
      metaLebs layout a - 1 + leb2pebPairPerFragment layout.pageSize.bytes by omega,
      Nat.add_div_right _ hcap, Nat.succ_sub_one] at hle
    exact hle

end

def cacheSummary (r : VolumeLayout × SegsArray) : Nat × PageSize × UInt32 × UInt32 :=
  (metaLebs r.1 r.2, r.1.pageSize, r.1.env.eraseSize, r.1.lebsPerPebIndex)

theorem mkfsDefineSegs_of_summary {options : VolumeLayout} {s : Nat × PageSize × UInt32 × UInt32}
    (h : (mkfsDefineSegs none 5 1 options).map cacheSummary = .ok s) : ∃ layout a,
      mkfsDefineSegs none 5 1 options = .ok (layout, a) ∧ metaLebs layout a = s.1 ∧ layout.pageSize = s.2.1 ∧
        layout.env.eraseSize = s.2.2.1 ∧ layout.lebsPerPebIndex = s.2.2.2 := by
  obtain ⟨⟨layout, a⟩, hrun, heq⟩ := Checked.exists_of_map h
  obtain rfl := heq
  exact ⟨layout, a, hrun, rfl, rfl, rfl, rfl⟩

def SegsArray.ownPairs (a : SegsArray) : List (Nat × Nat) := (a.lebs a.sites).map fun leb => (leb, leb)

theorem SegsArray.ownPairs_fst (a : SegsArray) : a.ownPairs.map Prod.fst = a.lebs a.sites := by
  unfold SegsArray.ownPairs
  rw [List.map_map]
  exact List.map_id _

theorem SegsDefined.ownPairs_snd {options layout : VolumeLayout} {g : SegbmapGeometry} {b m : Nat}
    {a a' : SegsArray} (h : SegsDefined options layout g b m a a') :
    ∀ p ∈ a'.ownPairs, p.2 < Word.u64Max := fun p hp => by
  obtain ⟨leb, hleb, rfl⟩ := List.mem_map.1 hp
  exact h.lebs_lt hleb

theorem ownPairs_cached {options layout : VolumeLayout} {g : SegbmapGeometry} {b m : Nat}
    {a a' : SegsArray} (h : SegsDefined options layout g b m a a')
    (hindex : layout.lebsPerPebIndex = 1) (hlebs : metaLebs layout a' < 65535) : ∃ c₀ c,
      maptblCacheMkfsPrepare layout.pageSize a' = .ok c₀ ∧
        cachePairs layout.pageSize a'.ownPairs c₀ = .ok c := by
  have hcap := leb2pebPairPerFragment_bound layout.pageSize
  have hle := Nat.div_le_self (metaLebs layout a' + leb2pebPairPerFragment layout.pageSize.bytes - 1)
    (leb2pebPairPerFragment layout.pageSize.bytes)
  have hdm := Nat.div_add_mod (metaLebs layout a' + leb2pebPairPerFragment layout.pageSize.bytes - 1)
    (leb2pebPairPerFragment layout.pageSize.bytes)
  have hmod := Nat.mod_lt (metaLebs layout a' + leb2pebPairPerFragment layout.pageSize.bytes - 1) hcap.2.1
  have hfew : (metaLebs layout a' + leb2pebPairPerFragment layout.pageSize.bytes - 1) /
      leb2pebPairPerFragment layout.pageSize.bytes < Word.u16Max :=
    (Nat.div_lt_iff_lt_mul hcap.2.1).2 (by unfold Word.u16Max; omega)
  obtain ⟨c₀, hprepare, hcount⟩ := @maptblCacheMkfsPrepare_ok layout.pageSize a' _ h.lebsInSegs_eq
    (by omega) hfew
  obtain ⟨c, hrun, -⟩ := h.cachePairs_ascending a'.ownPairs_fst h.ownPairs_snd hindex hprepare (by
    rw [hcount, Nat.mul_comm]
    omega)
  exact ⟨c₀, c, hprepare, hrun⟩

/-- 30 LEBs on one die. -/
theorem maptblCache_committed_30 : ∃ layout a c, mkfsDefineSegs none 5 1 (volumeOnDies 1) = .ok (layout, a) ∧
    CacheCommitted (fun _ _ => 0) layout c (sbLog layout c 1 1) := by
  obtain ⟨layout, a, hrun, hlebs, hpage, herase, hindex⟩ :=
    @mkfsDefineSegs_of_summary (volumeOnDies 1) (30, .kib4, 131072, 1) (by decide +kernel)
  obtain ⟨g, b, m, a₀, hdefined⟩ := mkfsDefineSegs_run (volumeOnDies_sizesAccepted 1) rfl hrun
  obtain ⟨c₀, c, hprepare, hbuilt⟩ := ownPairs_cached hdefined hindex (hlebs ▸ by decide)
  obtain ⟨hiff, -, hsurplus⟩ := @maptblCache_committed_iff (volumeOnDies 1) layout a a.ownPairs (fun _ _ => 0)
    1 1 5 1 none c c₀ (volumeOnDies_sizesAccepted 1) rfl hrun a.ownPairs_fst hdefined.ownPairs_snd
    hprepare hbuilt
  refine ⟨layout, a, c, hrun, hiff.2 ?_⟩
  rw [hsurplus (.inl hindex), hlebs, hpage]
  exact ⟨by decide, by rw [herase]; decide⟩

/-- 200 segments of 512 erase blocks of 128 KiB. -/
def volumeOfLargeSegs : VolumeLayout where
  needEraseDevice := false
  segSize := 67108864
  pageSize := .kib4
  nandDiesCount := 1
  lebsPerPebIndex := 1
  segbmap := ⟨false, 1⟩
  maptbl := ⟨false, 1, 1, 10, 0, 0, 0, 0, 0, 0, 0, 0, 0⟩
  env := ⟨13421772800, 131072, .blk⟩

theorem volumeOfLargeSegs_sizesAccepted : volumeOfLargeSegs.SizesAccepted where
  eraseSize_ge := show 512 ≤ 131072 by decide
  segSize_le := show 67108864 ≤ 68719476736 by decide
  pebs := ⟨9, show 67108864 = 131072 * 2 ^ 9 by decide⟩

/-- The nine segments have 3586 LEBs, whose pairs need more than 64 KiB. -/
theorem maptblCache_not_committed_3586 : ∃ layout a c₀ c,
    mkfsDefineSegs none 5 1 volumeOfLargeSegs = .ok (layout, a) ∧ metaLebs layout a = 3586 ∧
      maptblCacheMkfsPrepare layout.pageSize a = .ok c₀ ∧
      cachePairs layout.pageSize a.ownPairs c₀ = .ok c ∧
      ¬CacheCommitted (fun _ _ => 0) layout c (sbLog layout c 1 1) := by
  obtain ⟨layout, a, hrun, hlebs, hpage, -, hindex⟩ :=
    @mkfsDefineSegs_of_summary volumeOfLargeSegs (3586, .kib4, 131072, 1) (by decide +kernel)
  obtain ⟨g, b, m, a₀, hdefined⟩ := mkfsDefineSegs_run volumeOfLargeSegs_sizesAccepted rfl hrun
  obtain ⟨c₀, c, hprepare, hbuilt⟩ := ownPairs_cached hdefined hindex (hlebs ▸ by decide)
  refine ⟨layout, a, c₀, c, hrun, hlebs, hprepare, hbuilt, fun hcommitted => ?_⟩
  obtain ⟨hkept, hcount⟩ := hdefined.cache_counts a.ownPairs_fst hprepare hbuilt
  have hbytes := ((cachePairs_counted hprepare hbuilt).bytes_eq (hkept.symm ▸ hcount)).1 ▸ hcommitted.bytes
  rw [hkept, hlebs, hpage] at hbytes
  exact absurd (Nat.lt_of_le_of_lt (Nat.le_add_right ..) hbytes) (by decide)

end Ssdfs
