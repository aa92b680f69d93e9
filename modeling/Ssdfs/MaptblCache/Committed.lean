import Ssdfs.MaptblCache.Counted
import Ssdfs.MaptblCache.Log

namespace Ssdfs

open Align Memory

/-- None of the checks stops the commit of a log with the cache in it. -/
structure CacheCommitted (crc32 : UInt32 → List UInt8 → UInt32) (layout : VolumeLayout)
    (c : MaptblCache) (peb : PebContent) : Prop where
  bytes : ∑ i ∈ Finset.range c.fragmentsCount, (c.fragments i).hdr.bytesCount < Word.u16Max
  pages : ∃ pages, calculateLogPages layout .sb peb = .ok pages ∧
    4096 * pages ≤ layout.env.eraseSize.toNat
  descriptor : ∃ desc, prepareMaptblCacheMetadataDescriptor crc32 layout c
    (peb.extents .maptblCache) = .ok desc

section

variable {page : PageSize} {a : SegsArray}

theorem maptblCachePrepareFragment_exists (page : PageSize) (i : Nat) :
    ∃ fragment, maptblCachePrepareFragment page i = .ok fragment := by
  have hpage := page.bytes_ge
  unfold maptblCachePrepareFragment
  rw [Buf.store_ok (by simp only [Buf.zero, maptblCacheHdrSize]; omega), Checked.ok_bind]
  exact ⟨_, rfl⟩

theorem maptblCacheMkfsPrepare_ok {n : Nat} (hn : lebsInSegs a = n) (hlt : n < 4294900000)
    (hfragments : (n + leb2pebPairPerFragment page.bytes - 1) / leb2pebPairPerFragment page.bytes <
      Word.u16Max) :
    ∃ c₀, maptblCacheMkfsPrepare page a = .ok c₀ ∧ c₀.fragmentsCount =
      (n + leb2pebPairPerFragment page.bytes - 1) / leb2pebPairPerFragment page.bytes := by
  have hcap := leb2pebPairPerFragment_bound page
  unfold maptblCacheMkfsPrepare
  simp only
  rw [hn, Word.u32_of_lt (n := n) (by omega), Word.u32_of_lt (by omega),
    bugOn_of_not (Nat.not_le.2 hfragments), Checked.ok_bind]
  obtain ⟨fragments, hfill⟩ := Checked.fill_exists (fun i _ _ =>
    maptblCachePrepareFragment_exists page (Word.u16 i))
  rw [hfill, Checked.ok_bind]
  exact ⟨_, rfl, rfl⟩

end

/-- The counts of a descriptor hold the bytes of the cache, and the erase block holds the log with the
cache in it. -/
structure CacheFits (layout : VolumeLayout) (cacheBytes : Nat) : Prop where
  bytes : cacheBytes < Word.u16Max
  log : sbLogBytes cacheBytes ≤ layout.env.eraseSize.toNat

section

variable {layout : VolumeLayout} {c : MaptblCache} {lebId pebId : Nat}

theorem start_sbLog_maptblCache (hbytes : c.bytesCount < 4294967296) :
    (sbLog layout c lebId pebId).start .maptblCache =
      if c.bytesCount ≤ layout.pageSize.bytes - segmentHeaderSize then 2048 else 4096 := by
  have hcache : (sbExtentSizes c .maptblCache).toNat = c.bytesCount :=
    UInt32.toNat_ofNat_of_lt' hbytes
  have hstart : startOffset 4096 0 (sizesOf sbItems (sbExtentSizes c)) .maptblCache = padTo 4096 2048 :=
    @header_maptblCache 4096 2048 0 _ (by decide) (by decide) (fun k hk => if_neg hk)
      (show 0 + 2048 ≤ 2048 by decide)
  rw [start_sbLog, start_sbMkfsDefineLayout.2.1, hcache]
  change (if _ then _ else Word.u32 (startOffset 4096 0 _ _)) = _
  rw [hstart]
  rfl

theorem extents_sbLog (layout : VolumeLayout) (c : MaptblCache) (lebId pebId : Nat) :
    ((sbLog layout c lebId pebId).extents .maptblCache).buf = some (c.buffer layout.pageSize) ∧
      ((sbLog layout c lebId pebId).extents .maptblCache).bytesCount = UInt32.ofNat c.bytesCount := by
  refine ⟨?_, UInt32.toNat_inj.1 (congrFun (size_sbLog layout c lebId pebId) .maptblCache)⟩
  unfold sbLog
  simp only
  rw [Function.update_self]

theorem foldl_bytes {α : Type} (f : α → Nat → α) (used : Nat → Nat) (x : α) (n : Nat) :
    ((List.range n).foldl (fun (st : α × Nat) i => (f st.1 i, Word.u32 (st.2 + used i))) (x, 0)).2 =
      Word.u32 (∑ i ∈ Finset.range n, used i) := by
  induction n with
  | zero => rfl
  | succ n ih =>
    rw [List.range_succ, List.foldl_append, List.foldl_cons, List.foldl_nil, ih, Finset.sum_range_succ]
    unfold Word.u32
    exact Nat.mod_add_mod ..

end

section

variable {layout : VolumeLayout} {c : MaptblCache}
  {crc32 : UInt32 → List UInt8 → UInt32} {lebId pebId : Nat}

theorem prepareMaptblCache_sbLog (hpos : 0 < c.bytesCount) (hbytes : c.bytesCount < Word.u16Max)
    (hlog : sbLogBytes c.bytesCount ≤ layout.env.eraseSize.toNat)
    (hused : ∑ i ∈ Finset.range c.fragmentsCount, (c.fragments i).hdr.bytesCount < Word.u16Max)
    (hfragments : ∀ i < c.fragmentsCount, (c.fragments i).hdr.bytesCount < 65536) :
    ∃ desc, prepareMaptblCacheMetadataDescriptor crc32 layout c
      ((sbLog layout c lebId pebId).extents .maptblCache) = .ok desc := by
  unfold Word.u16Max at hbytes hused
  have hwide : c.bytesCount < 4294967296 := Nat.lt_trans hbytes (by decide)
  have hroom : c.bytesCount + 4096 < layout.env.eraseSize.toNat := by
    unfold sbLogBytes at hlog
    have := @Align.le_padTo 4096 c.bytesCount (by decide)
    split at hlog <;> omega
  obtain ⟨hbuf, hsize⟩ := extents_sbLog layout c lebId pebId
  have hcount : ((sbLog layout c lebId pebId).extents .maptblCache).bytesCount.toNat = c.bytesCount := by
    rw [hsize]
    exact UInt32.toNat_ofNat_of_lt' hwide
  have hstart : ((sbLog layout c lebId pebId).extents .maptblCache).offset.toNat =
      if c.bytesCount ≤ layout.pageSize.bytes - segmentHeaderSize then 2048 else 4096 :=
    start_sbLog_maptblCache hwide
  have hne : ∀ {x : UInt32}, x.toNat ≠ 0 → x ≠ 0 := fun hx h => hx (by rw [h]; rfl)
  have htotal : ((List.range c.fragmentsCount).foldl (fun (st : UInt32 × Nat) i =>
      (crc32 st.1 (slice (c.buffer layout.pageSize) (i * layout.pageSize.bytes)
        (MaptblCacheRecord.wire.read (c.buffer layout.pageSize)
          (i * layout.pageSize.bytes)).bytesCount.toNat),
        Word.u32 (st.2 + (MaptblCacheRecord.wire.read (c.buffer layout.pageSize)
          (i * layout.pageSize.bytes)).bytesCount.toNat))) (0, 0)).2 < 65535 := by
    rw [foldl_bytes (fun csum i => crc32 csum (slice (c.buffer layout.pageSize)
        (i * layout.pageSize.bytes) (MaptblCacheRecord.wire.read (c.buffer layout.pageSize)
          (i * layout.pageSize.bytes)).bytesCount.toNat))
      (fun i => (MaptblCacheRecord.wire.read (c.buffer layout.pageSize)
        (i * layout.pageSize.bytes)).bytesCount.toNat)]
    have hread : ∀ i ∈ Finset.range c.fragmentsCount, (MaptblCacheRecord.wire.read
        (c.buffer layout.pageSize) (i * layout.pageSize.bytes)).bytesCount.toNat =
          (c.fragments i).hdr.bytesCount := fun i hi => by
      rw [c.record_buffer]
      exact UInt16.toNat_ofNat_of_lt' (hfragments i (Finset.mem_range.1 hi))
    rw [Finset.sum_congr rfl hread]
    exact Nat.lt_of_le_of_lt (Word.u32_le _) hused
  unfold prepareMaptblCacheMetadataDescriptor ExtentDesc.contents
  rw [hbuf, hcount]
  have hoffset : ((sbLog layout c lebId pebId).extents .maptblCache).offset.toNat ≠ 0 ∧
      ((sbLog layout c lebId pebId).extents .maptblCache).offset.toNat <
        layout.env.eraseSize.toNat := by
    rw [hstart]
    split <;> omega
  simp only [Checked.ok_bind]
  refine ⟨_, bugOn_bind_eq_ok.2 ⟨?_, bugOn_bind_eq_ok.2 ⟨?_, bugOn_bind_eq_ok.2 ⟨?_,
    bugOn_bind_eq_ok.2 ⟨Nat.not_le.2 htotal, rfl⟩⟩⟩⟩⟩
  · rintro (hzero | hbig)
    · exact hne (hcount.trans_ne (Nat.pos_iff_ne_zero.1 hpos)) hzero
    · omega
  · rintro (hzero | hbig)
    · exact hne hoffset.1 hzero
    · exact absurd hoffset.2 (Nat.not_lt.2 hbig)
  · unfold Word.u16Max
    omega

theorem MaptblCache.Counted.committed_iff (h : c.Counted layout.pageSize)
    (hkept : 0 < c.kept layout.pageSize) (hcount : c.fragmentsCount =
      (c.kept layout.pageSize + leb2pebPairPerFragment layout.pageSize.bytes - 1) /
        leb2pebPairPerFragment layout.pageSize.bytes) :
    CacheCommitted crc32 layout c (sbLog layout c lebId pebId) ↔ CacheFits layout
      (cacheBytesOf layout.pageSize (c.kept layout.pageSize) + 20 * c.surplus layout.pageSize) := by
  obtain ⟨hsum, hbytes⟩ := h.bytes_eq hcount
  rw [← hbytes]
  constructor
  · intro hcommitted
    have hfew : c.bytesCount < Word.u16Max := hbytes ▸ hsum ▸ hcommitted.bytes
    obtain ⟨pages, hpages, -⟩ := hcommitted.pages
    rw [calculateLogPages_sbLog hfew] at hpages
    split at hpages
    case isTrue => cases hpages
    case isFalse hroom => exact ⟨hfew, Nat.not_lt.1 hroom⟩
  · rintro ⟨hfew, hroom⟩
    have hpos : 0 < c.bytesCount := by
      rw [hbytes]
      unfold cacheBytesOf
      simp only
      omega
    have hused := (hsum.trans hbytes.symm).trans_lt hfew
    refine ⟨hused, ⟨sbLogBytes c.bytesCount / 4096, ?_, ?_⟩, ?_⟩
    · rw [calculateLogPages_sbLog hfew, if_neg (Nat.not_lt.2 hroom)]
    · exact Nat.le_trans (Nat.mul_div_le ..) hroom
    · exact prepareMaptblCache_sbLog hpos hfew hroom hused fun i hi =>
        Nat.lt_of_le_of_lt (h.used_le hi).2 (by decide)

end

end Ssdfs
