import Ssdfs.Commit.HeaderLogs
import Ssdfs.Fsck.MaptblCache
import Ssdfs.MaptblCache.Complete
import Ssdfs.MaptblCache.FirstFragment

namespace Ssdfs

open Memory

def ReadsBack (read : Nat → Nat → Search Bytes) (eraseSize pebId : Nat) (extent : ExtentDesc) : Prop :=
  ∃ buf content, extent.buf = some buf ∧
    read (Word.u64 (Word.u64 (pebId * eraseSize) + extent.offset.toNat)) extent.bytesCount.toNat =
      .ok content ∧
    ∀ i < extent.bytesCount.toNat, content i = buf i

/-- The cache of the pairs in a superblock's log, as `mkfs.ssdfs` commits the log and the device gives
it back. -/
structure CacheWritten (crc32 : UInt32 → List UInt8 → UInt32) (layout : VolumeLayout)
    (src : CommitSource) (read : Nat → Nat → Search Bytes) (pairs : List (Nat × Nat))
    (log : FoundLog) : Prop where
  cached : ∃ a c₀, maptblCacheMkfsPrepare layout.pageSize a = .ok c₀ ∧
    cachePairs layout.pageSize pairs c₀ = .ok src.cache
  committed : ∃ a segIndex lebId peb hdr, commitHeaderLog crc32 layout src .sb a segIndex
      (sbLog layout src.cache lebId log.pebId).withRecords = .ok peb ∧
    (peb.extents .segHeader).buf = some hdr ∧ (∀ i < logHeaderSize, log.header i = hdr i) ∧
    ReadsBack read layout.env.eraseSize.toNat log.pebId (peb.extents .maptblCache)

/-- Every pair is found by its LEB, and no other LEB has a PEB. -/
structure FoundCache.Converts (cache : FoundCache) (pairs : List (Nat × Nat)) : Prop where
  inserted : ∀ p ∈ pairs, maptblCacheConvertLeb2peb (some cache) p.1 = .ok p.2
  others : ∀ leb, leb ∉ pairs.map Prod.fst →
    maptblCacheConvertLeb2peb (some cache) leb = .ok Word.u64Max

/-- There is a pair, the first fragment has room for all of them, the first LEB is the lowest one, and
all of them have 16 bits. -/
structure ReadablePairs (page : PageSize) (pairs : List (Nat × Nat)) : Prop where
  nonempty : pairs ≠ []
  fits : pairs.length ≤ leb2pebPairPerFragment page.bytes
  first : Chunks.Ascend (leb2pebPairPerFragment page.bytes) Prod.fst pairs
  small : ∀ p ∈ pairs, p.1 < 65536

section

variable {items : List CacheItem} {data : Buf} {bytesCount leb : Nat}

theorem le_lastLeb (hs : items.Pairwise (·.pair.lebId < ·.pair.lebId)) {x : CacheItem}
    (hx : x ∈ items) : x.pair.lebId ≤ lastLeb items := by
  obtain ⟨i, hi, rfl⟩ := List.mem_iff_getElem.1 hx
  rw [lastLeb_eq items (by omega)]
  rcases Nat.eq_or_lt_of_le (Nat.le_sub_one_of_lt hi) with rfl | hlt
  · exact Nat.le_refl _
  · exact Nat.le_of_lt (List.pairwise_iff_getElem.1 hs i _ hi (by omega) hlt)

structure HoldsPairs (data : Buf) (bytesCount : Nat) (items : List CacheItem) : Prop where
  bytes : 16 * items.length < bytesCount
  max : bytesCount < 65536
  room : 16 * items.length ≤ data.size
  pair : ∀ i (h : i < items.length), peek data.data 8 (16 * i) = items[i].pair.lebId ∧
    peek data.data 8 (16 * i + 8) = items[i].pair.pebId

theorem HoldsPairs.findCachedLeb_eq (h : HoldsPairs data bytesCount items) {rest i : Nat}
    (hi : i + rest = items.length) : findCachedLeb data bytesCount leb rest i (16 * i) =
      .ok (((items.drop i).find? fun x => x.pair.lebId = leb).elim Word.u64Max (·.pair.pebId)) := by
  have hbytes := h.bytes
  have hmax := h.max
  have hroom := h.room
  induction rest generalizing i with
  | zero =>
    rw [List.drop_of_length_le (by omega)]
    rfl
  | succ rest ih =>
    have hlt : i < items.length := by omega
    obtain ⟨hleb, hpeb⟩ := h.pair i hlt
    unfold findCachedLeb
    simp only
    rw [Buf.load_ok (by omega), Checked.ok_bind, Word.u16_of_lt (by omega), if_neg (by omega),
      Buf.load_ok (by omega), Checked.ok_bind, hleb, hpeb, Word.u16_of_lt (by omega),
      List.drop_eq_getElem_cons hlt, List.find?_cons]
    by_cases heq : items[i].pair.lebId = leb
    · rw [if_pos heq]
      simp [heq]
    · rw [if_neg heq, if_neg (by omega)]
      have hnext := ih (i := i + 1) (by omega)
      rw [show 16 * i + 8 + 8 = 16 * (i + 1) by omega, hnext]
      simp [heq]

end

section

variable {crc32 : UInt32 → List UInt8 → UInt32} {layout : VolumeLayout} {src : CommitSource}
  {read : Nat → Nat → Search Bytes} {decompress : CacheCompression → Buf → Nat → Nat → Search Buf}
  {pairs : List (Nat × Nat)} {log : FoundLog} {extent : ExtentDesc} {desc : MetadataDescriptor}
  {page : PageSize} {c : MaptblCache} {content : Bytes} {record : MetadataDescriptorRecord}

theorem prepareMaptblCache_placed
    (h : prepareMaptblCacheMetadataDescriptor crc32 layout c extent = .ok desc) :
    isSsdfsFsckAreaValid desc.record ∧ desc.record.offset = extent.offset ∧
      desc.record.size = extent.bytesCount := by
  obtain ⟨hbytes, h⟩ := bugOn_bind_eq_ok.1 h
  obtain ⟨hoffset, h⟩ := bugOn_bind_eq_ok.1 h
  obtain ⟨buf, -, h⟩ := Checked.bind_eq_ok.1 h
  obtain ⟨-, h⟩ := bugOn_bind_eq_ok.1 h
  obtain ⟨-, h⟩ := bugOn_bind_eq_ok.1 h
  cases h
  have herase := layout.env.eraseSize.toNat_lt
  have hmax : ∀ {x : UInt32}, ¬(x = 0 ∨ x.toNat ≥ layout.env.eraseSize.toNat) →
      x ≠ 0 ∧ x ≠ 0xFFFFFFFF := by
    intro x hx
    refine ⟨fun h0 => hx (.inl h0), ?_⟩
    rintro rfl
    have hlast : (0xFFFFFFFF : UInt32).toNat = 4294967295 := rfl
    exact hx (.inr (by omega))
  have hoff : (UInt32.ofNat extent.offset.toNat) = extent.offset := UInt32.ofNat_toNat
  have hsize : (UInt32.ofNat extent.bytesCount.toNat) = extent.bytesCount := UInt32.ofNat_toNat
  refine ⟨?_, hoff, hsize⟩
  unfold isSsdfsFsckAreaValid MetadataDescriptor.record
  simp only [hoff, hsize, decide_eq_true_eq]
  exact ⟨(hmax hbytes).1, (hmax hbytes).2, (hmax hoffset).1, (hmax hoffset).2⟩

/-- The header of the log leads to the bytes of the cache, unless it is empty. -/
theorem CacheWritten.area (h : CacheWritten crc32 layout src read pairs log)
    (hbytes : src.cache.bytesCount < 4294967296) :
    ∃ record, MetadataDescriptorRecord.wire.read log.header (SegHdr.descOffset .maptblCache) = record ∧
      (src.cache.bytesCount = 0 → record.size = 0) ∧
      (0 < src.cache.bytesCount → isSsdfsFsckAreaValid record ∧ ∃ content,
        readMappingTableCache read log.pebId layout.env.eraseSize.toNat record =
          .ok ⟨src.cache.bytesCount, content⟩ ∧
        ∀ i < src.cache.bytesCount, content i = src.cache.buffer layout.pageSize i) := by
  obtain ⟨a, segIndex, lebId, peb, hdr, hcommit, hhdr, hheader, hback⟩ := h.committed
  obtain ⟨buf, hdr', hbuf, hhdr', hextent, hdescribed, hnone⟩ :=
    commitHeaderLog_area (k := .maptblCache) hcommit (by decide) (by decide)
  obtain rfl := Option.some.inj (hhdr.symm.trans hhdr')
  have hlog : (sbLog layout src.cache lebId log.pebId).withRecords.extents .maptblCache =
      (sbLog layout src.cache lebId log.pebId).extents .maptblCache := rfl
  obtain ⟨hcache, hcount⟩ := extents_sbLog layout src.cache lebId log.pebId
  have hsize : ((sbLog layout src.cache lebId log.pebId).extents .maptblCache).bytesCount.toNat =
      src.cache.bytesCount := by
    rw [hcount]
    exact UInt32.toNat_ofNat_of_lt' hbytes
  have hread : MetadataDescriptorRecord.wire.read log.header (SegHdr.descOffset .maptblCache) =
      MetadataDescriptorRecord.wire.read hdr (SegHdr.descOffset .maptblCache) :=
    MetadataDescriptorRecord.wire.read_congr fun i hi => hheader _ (by
      rw [MetadataDescriptorRecord.wire_size] at hi
      exact Nat.lt_of_lt_of_le (Nat.add_lt_add_left hi _) (by decide))
  rw [hlog] at hextent hdescribed hnone
  rw [hextent] at hback
  rw [hsize] at hdescribed hnone
  refine ⟨_, hread, fun hzero => ?_, fun hpos => ?_⟩
  · rw [hnone hzero]
    obtain rfl : (fun _ => 0) = buf := Option.some.inj hbuf
    rfl
  · obtain ⟨desc, hdesc, hrecord⟩ := hdescribed hpos
    obtain ⟨-, hdesc⟩ := bugOn_bind_eq_ok.1 hdesc
    obtain ⟨hvalid, hoffset, hbytesCount⟩ := prepareMaptblCache_placed hdesc
    obtain ⟨buf', content, hbuf', hcontent, hsame⟩ := hback
    obtain rfl := Option.some.inj (hcache.symm.trans hbuf')
    rw [hrecord]
    refine ⟨hvalid, content, ?_, fun i hi => hsame i (by rwa [hsize])⟩
    unfold readMappingTableCache
    rw [hoffset, hbytesCount, hcontent, Checked.ok_bind, hsize]

structure FoundCache.OfFirst (page : PageSize) (cache : FoundCache) (c : MaptblCache) : Prop where
  hdr : cache.hdr = (c.fragments 0).hdr.record
  size : cache.data.size = (c.fragments 0).hdr.bytesCount
  data : ∀ i, 32 + i < c.bytesCount → cache.data.data i = c.buffer page (32 + i)

theorem CacheWritten.found (h : CacheWritten crc32 layout src read pairs log) :
    Checked.Exact (isMappingTableCacheFound read decompress layout.env.eraseSize.toNat true none log)
      (0 < src.cache.bytesCount ∧ src.cache.bytesCount ≤ (src.cache.fragments 0).hdr.bytesCount)
      (·.OfFirst layout.pageSize src.cache) := by
  obtain ⟨a, c₀, hprepare, hrun⟩ := h.cached
  have hcounted := cachePairs_counted hprepare hrun
  have htotal := hcounted.bytes_le
  obtain ⟨record, hrecord, hempty, harea⟩ := h.area (by omega)
  unfold isMappingTableCacheFound
  rw [if_neg (by decide)]
  simp only [hrecord]
  rcases Nat.eq_zero_or_pos src.cache.bytesCount with hzero | hpos
  · have hinvalid : isSsdfsFsckAreaValid record = false := by
      unfold isSsdfsFsckAreaValid
      simp [hempty hzero]
    rw [if_pos (by simp [hinvalid])]
    exact Checked.Exact.error.congr ⟨fun hc => absurd hc.1 (by omega), False.elim⟩ fun _ hq => hq
  obtain ⟨hge, hfragments⟩ := hcounted.bytes_ge hpos
  obtain ⟨hvalid, content, hread, hcontent⟩ := harea hpos
  have hused := hcounted.used_le hfragments
  have hflags : (src.cache.fragments 0).hdr.flags = 0 :=
    cachePairs_flags hprepare hrun (cachePairs_fragmentsCount hrun ▸ hfragments)
  have hhdr : MaptblCacheRecord.wire.read content 0 = (src.cache.fragments 0).hdr.record := by
    have hfirst := @MaptblCache.record_buffer layout.pageSize src.cache 0
    rw [Nat.zero_mul] at hfirst
    rw [← hfirst]
    refine MaptblCacheRecord.wire.read_congr fun i hi => hcontent _ ?_
    rw [MaptblCacheRecord.wire_size] at hi
    omega
  rw [if_neg (by simp [hvalid])]
  have hbug : Search.bugOn ((none : Option FoundCache).isSome = true) = .ok () := rfl
  have hroom : 0 + MaptblCacheRecord.wire.size ≤ src.cache.bytesCount := by
    rw [MaptblCacheRecord.wire_size]
    omega
  have hbytes : (src.cache.fragments 0).hdr.record.bytesCount.toNat =
      (src.cache.fragments 0).hdr.bytesCount :=
    UInt16.toNat_ofNat_of_lt' (Nat.lt_of_le_of_lt hused.2 (by decide))
  have hplain : CacheCompression.of (src.cache.fragments 0).hdr.record.flags = none := by
    have hzero : (src.cache.fragments 0).hdr.record.flags = 0 := congrArg UInt16.ofNat hflags
    rw [hzero]
    decide
  rw [hbug, Checked.ok_bind, hread, Checked.ok_bind, Buf.get_ok hroom, Checked.ok_bind, hhdr, hbytes]
  by_cases hfits : (src.cache.fragments 0).hdr.bytesCount < src.cache.bytesCount
  · rw [if_pos hfits]
    exact Checked.Exact.error.congr ⟨fun hc => absurd hc.2 (Nat.not_le.2 hfits), False.elim⟩
      fun _ hq => hq
  rw [if_neg hfits]
  unfold uncompressCache
  simp only [hplain]
  obtain ⟨data, hcopy, hsize, hdata, -⟩ := @Buf.copy_ok SearchResult
    (Buf.zero (src.cache.fragments 0).hdr.bytesCount) ⟨src.cache.bytesCount, content⟩ 0
    maptblCacheHdrSize (src.cache.bytesCount - maptblCacheHdrSize)
    (by unfold Buf.zero; simp only; omega) (by unfold maptblCacheHdrSize; simp only; omega)
  rw [hcopy]
  simp only [Checked.ok_bind]
  refine (Checked.Exact.ok ⟨rfl, hsize, fun i hi => ?_⟩).congr
    (iff_true_intro ⟨hpos, Nat.not_lt.1 hfits⟩) fun _ hq => hq
  have hi' := hdata i (by unfold maptblCacheHdrSize; omega)
  rw [Nat.zero_add] at hi'
  rw [hi']
  exact hcontent _ hi

end

section

variable {page : PageSize} {c : MaptblCache} {cache : FoundCache} {items : List CacheItem} {leb : Nat}

theorem FoundCache.OfFirst.holdsPairs (h : cache.OfFirst page c)
    (hholds : (c.fragments 0).Holds page items) (hbytes : c.bytesCount = 36 + 20 * items.length) :
    HoldsPairs cache.data (c.fragments 0).hdr.bytesCount items := by
  have hcap := leb2pebPairPerFragment_bound page
  have hfits := hholds.fits
  have hsize := h.size
  have hused := hholds.bytes
  have hdata : ∀ i < 16 * items.length, cache.data.data i = (c.fragments 0).area.data i := by
    intro i hi
    have hbuffer : c.buffer page (0 * page.bytes + (32 + i)) = (c.fragments 0).page (32 + i) :=
      c.buffer_page 0 (by omega)
    rw [Nat.zero_mul, Nat.zero_add] at hbuffer
    rw [h.data i (by omega), hbuffer]
    unfold MaptblCacheFragment.page
    rw [MaptblCacheRecord.wire.write_frame (.inr (by rw [MaptblCacheRecord.wire_size]; omega))]
    unfold maptblCacheHdrSize
    rw [Nat.add_sub_cancel_left]
  refine ⟨by omega, by omega, by omega, fun i hi => ?_⟩
  obtain ⟨hleb, hpeb, -⟩ := hholds.item i hi
  constructor
  · rw [← hleb]
    exact peek_congr fun j hj => hdata _ (by omega)
  · rw [← hpeb]
    exact peek_congr fun j hj => hdata _ (by omega)

theorem FoundCache.OfFirst.convert_eq (h : cache.OfFirst page c)
    (hholds : (c.fragments 0).Holds page items) (hbytes : c.bytesCount = 36 + 20 * items.length)
    (hpos : 0 < items.length) : maptblCacheConvertLeb2peb (some cache) leb =
      if leb < Word.u16 (firstLeb items) ∨ leb > Word.u16 (lastLeb items) then .ok Word.u64Max
      else .ok ((items.find? fun x => x.pair.lebId = leb).elim Word.u64Max (·.pair.pebId)) := by
  have hcap := leb2pebPairPerFragment_bound page
  have hfits := hholds.fits
  have hused := hholds.bytes
  have hne := List.length_pos_iff.1 hpos
  obtain ⟨x, hx, hfirst⟩ := firstLeb_mem hne
  obtain ⟨y, hy, hlast⟩ := lastLeb_mem hne
  have hxlt := (hholds.valid x hx).1
  have hylt := (hholds.valid y hy).1
  unfold Word.u64Max at hxlt hylt
  have hcount : cache.hdr.itemsCount.toNat = items.length := by
    rw [h.hdr, ← hholds.count]
    have hcount := hholds.count
    exact UInt16.toNat_ofNat_of_lt' (Nat.lt_of_le_of_lt (m := 32768) (by omega) (by decide))
  have hbytesCount : cache.hdr.bytesCount.toNat = (c.fragments 0).hdr.bytesCount := by
    rw [h.hdr]
    exact UInt16.toNat_ofNat_of_lt' (Nat.lt_of_le_of_lt (m := 32768) (by omega) (by decide))
  have hstart : cache.hdr.startLeb.toNat = firstLeb items := by
    rw [h.hdr, ← hholds.start]
    exact UInt64.toNat_ofNat_of_lt' (by rw [hholds.start, hfirst]; exact Nat.lt_trans hxlt (by decide))
  have hend : cache.hdr.endLeb.toNat = lastLeb items := by
    rw [h.hdr, ← hholds.finish]
    exact UInt64.toNat_ofNat_of_lt' (by rw [hholds.finish, hlast]; exact Nat.lt_trans hylt (by decide))
  have hfind := @HoldsPairs.findCachedLeb_eq items cache.data (c.fragments 0).hdr.bytesCount leb
    (h.holdsPairs hholds hbytes) items.length 0 (Nat.zero_add _)
  rw [Nat.mul_zero, List.drop_zero] at hfind
  unfold maptblCacheConvertLeb2peb
  simp only
  rw [hcount, hbytesCount, hstart, hend, if_neg (by omega : ¬(c.fragments 0).hdr.bytesCount < 8), hfind]

end

section

variable {crc32 : UInt32 → List UInt8 → UInt32} {layout : VolumeLayout} {src : CommitSource}
  {read : Nat → Nat → Search Bytes} {decompress : CacheCompression → Buf → Nat → Nat → Search Buf}
  {pairs : List (Nat × Nat)} {log : FoundLog} {page : PageSize} {c : MaptblCache} {cache : FoundCache}
  {L : Nat → List CacheItem}

theorem FoundCache.Converts.small (h : cache.Converts pairs)
    (hvalid : ∀ p ∈ pairs, p.1 < Word.u64Max ∧ p.2 < Word.u64Max) {p : Nat × Nat} (hp : p ∈ pairs) :
    p.1 < 65536 := by
  by_contra hlarge
  have hpeb := (hvalid p hp).2
  have hconvert := h.inserted p hp
  unfold maptblCacheConvertLeb2peb at hconvert
  have hend := Word.u16_lt cache.hdr.endLeb.toNat
  simp only at hconvert
  rw [if_pos (by omega)] at hconvert
  exact absurd (Except.ok.inj hconvert) (by omega)

theorem FoundCache.OfFirst.converts (h : cache.OfFirst page c) (hfilled : c.Filled page L pairs)
    (hfragments : 0 < c.fragmentsCount) (hbytes : c.bytesCount = 36 + 20 * pairs.length)
    (hnodup : (pairs.map Prod.fst).Nodup) (hreadable : ReadablePairs page pairs) :
    cache.Converts pairs := by
  have hholds := hfilled.sound.holds 0 hfragments
  have hlength : (L 0).length = pairs.length := by
    rw [hfilled.length_eq hfragments]
    have := hreadable.fits
    omega
  have hpos : 0 < (L 0).length := hlength ▸ List.length_pos_iff.2 hreadable.nonempty
  have hmem : ∀ x, x ∈ L 0 ↔ ∃ p ∈ pairs, cacheItem p = x := by
    intro x
    rw [hfilled.mem_iff hfragments]
    constructor
    · rintro ⟨u, hu, -, rfl⟩
      exact ⟨pairs[u], List.getElem_mem hu, rfl⟩
    · rintro ⟨p, hp, rfl⟩
      obtain ⟨u, hu, rfl⟩ := List.mem_iff_getElem.1 hp
      exact ⟨u, hu, Nat.div_eq_of_lt (Nat.lt_of_lt_of_le hu hreadable.fits), rfl⟩
  have hne := List.length_pos_iff.1 hpos
  have hsmall : ∀ x ∈ L 0, x.pair.lebId < 65536 := by
    intro x hx
    obtain ⟨p, hp, rfl⟩ := (hmem x).1 hx
    exact hreadable.small p hp
  obtain ⟨x, hx, hfirst⟩ := firstLeb_mem hne
  obtain ⟨y, hy, hlast⟩ := lastLeb_mem hne
  have hfirst16 : Word.u16 (firstLeb (L 0)) = firstLeb (L 0) :=
    Word.u16_of_lt (hfirst ▸ hsmall x hx)
  have hlast16 : Word.u16 (lastLeb (L 0)) = lastLeb (L 0) := Word.u16_of_lt (hlast ▸ hsmall y hy)
  constructor
  · intro p hp
    have hitem := (hmem _).2 ⟨p, hp, rfl⟩
    have hlo : firstLeb (L 0) ≤ p.1 := firstLeb_le hholds.sorted hitem
    have hhi : p.1 ≤ lastLeb (L 0) := le_lastLeb hholds.sorted hitem
    rw [h.convert_eq hholds (hlength ▸ hbytes) hpos, hfirst16, hlast16, if_neg (by omega)]
    cases hfind : (L 0).find? fun x => x.pair.lebId = p.1 with
    | none =>
      have hne : (cacheItem p).pair.lebId ≠ p.1 := by simpa using List.find?_eq_none.1 hfind _ hitem
      exact absurd rfl hne
    | some z =>
      obtain ⟨q, hq, rfl⟩ := (hmem z).1 (List.mem_of_find?_eq_some hfind)
      have hleb : (cacheItem q).pair.lebId = p.1 := by simpa using List.find?_some hfind
      obtain rfl := List.inj_on_of_nodup_map hnodup hq hp hleb
      rfl
  · intro leb hleb
    have hnone : (L 0).find? (fun x => x.pair.lebId = leb) = none := by
      rw [List.find?_eq_none]
      intro x hx
      obtain ⟨p, hp, rfl⟩ := (hmem x).1 hx
      have hne : (cacheItem p).pair.lebId ≠ leb := fun heq => hleb (List.mem_map.2 ⟨p, hp, heq⟩)
      simpa using hne
    rw [h.convert_eq hholds (hlength ▸ hbytes) hpos, hnone]
    split <;> rfl

theorem CacheWritten.of_found (h : CacheWritten crc32 layout src read pairs log)
    (hnodup : (pairs.map Prod.fst).Nodup)
    (hvalid : ∀ p ∈ pairs, p.1 < Word.u64Max ∧ p.2 < Word.u64Max)
    (hfound : isMappingTableCacheFound read decompress layout.env.eraseSize.toNat true none log =
      .ok cache) :
    pairs ≠ [] ∧ pairs.length ≤ leb2pebPairPerFragment layout.pageSize.bytes ∧
      Chunks.Ascend (leb2pebPairPerFragment layout.pageSize.bytes) Prod.fst pairs := by
  obtain ⟨a, c₀, hprepare, hrun⟩ := h.cached
  have h₀ := maptblCacheMkfsPrepare_filled hprepare
  have hcounted := cachePairs_counted hprepare hrun
  obtain ⟨hpos, hle⟩ := h.found.only cache hfound
  obtain ⟨-, hfragments⟩ := hcounted.bytes_ge hpos
  obtain ⟨hfirst, hitems⟩ := (hcounted.onlyFirst_iff hfragments).1 ⟨hpos, hle⟩
  refine ⟨?_, (cachePairs_onlyFirst_iff h₀ hnodup hvalid hrun).1 hfirst⟩
  rintro rfl
  cases hrun
  rw [(h₀.sound.holds 0 hfragments).count] at hitems
  exact Nat.lt_irrefl 0 hitems

theorem CacheWritten.converts (h : CacheWritten crc32 layout src read pairs log)
    (hnodup : (pairs.map Prod.fst).Nodup)
    (hvalid : ∀ p ∈ pairs, p.1 < Word.u64Max ∧ p.2 < Word.u64Max)
    (hreadable : ReadablePairs layout.pageSize pairs) :
    ∃ cache, isMappingTableCacheFound read decompress layout.env.eraseSize.toNat true none log =
      .ok cache ∧ cache.Converts pairs := by
  obtain ⟨a, c₀, hprepare, hrun⟩ := h.cached
  have h₀ := maptblCacheMkfsPrepare_filled hprepare
  have hcounted := cachePairs_counted hprepare hrun
  have hfragments : 0 < src.cache.fragmentsCount :=
    cachePairs_fragmentsCount hrun ▸ cachePairs_pos hrun hreadable.nonempty
  obtain ⟨⟨L, hfilled⟩, hfirst⟩ :=
    cachePairs_filled_first h₀ hnodup hvalid hreadable.fits hreadable.first hrun
  have hlength : (L 0).length = pairs.length := by
    rw [hfilled.length_eq hfragments]
    have := hreadable.fits
    omega
  have hitems : (src.cache.fragments 0).hdr.itemsCount = pairs.length :=
    (hfilled.sound.holds 0 hfragments).count.trans hlength
  have hpairs := List.length_pos_iff.2 hreadable.nonempty
  obtain ⟨hpos, hle⟩ := (hcounted.onlyFirst_iff hfragments).2 ⟨hfirst, by omega⟩
  obtain ⟨cache, hfound, hofFirst⟩ := h.found.succeeds ⟨hpos, hle⟩
  refine ⟨cache, hfound, hofFirst.converts hfilled hfragments ?_ hnodup hreadable⟩
  rw [hcounted.bytes_first hfragments hfirst, hitems]
  exact if_neg (by omega)

/-- The reader gives back the pairs exactly if they stay in one fragment, the lowest LEB first, and the
LEBs have 16 bits. -/
theorem maptblCache_convertsAll_iff (h : CacheWritten crc32 layout src read pairs log)
    (hnodup : (pairs.map Prod.fst).Nodup)
    (hvalid : ∀ p ∈ pairs, p.1 < Word.u64Max ∧ p.2 < Word.u64Max) :
    (∃ cache, isMappingTableCacheFound read decompress layout.env.eraseSize.toNat true none log =
        .ok cache ∧ cache.Converts pairs) ↔ ReadablePairs layout.pageSize pairs := by
  constructor
  · rintro ⟨cache, hfound, hconverts⟩
    obtain ⟨hnonempty, hfits, hasc⟩ := h.of_found hnodup hvalid hfound
    exact ⟨hnonempty, hfits, hasc, fun p hp => hconverts.small hvalid hp⟩
  · exact h.converts hnodup hvalid

end

def superblockSegs : SegsArray where
  metaArray _ := ⟨0, 0, .dedicated⟩
  segs i := ⟨some .superblock, .dedicated, i, fun _ => ⟨i, i, fun _ => ⟨none, 0, 0⟩⟩, 1, 1⟩
  segsCapacity := 1
  segsCount := 1
  lastAllocatedSegIndex := 0

def sbFooterStart (cacheBytes : Nat) : Nat :=
  startOffset 4096 0 (sizesOf sbItems
    (sbExtentSizes ⟨fun _ => ⟨⟨0, 0, 0, 0, 0, 0, 0⟩, Buf.zero 0⟩, 0, cacheBytes⟩)) .logFooter

theorem start_sbLog_logFooter (layout : VolumeLayout) (c : MaptblCache) (lebId pebId : Nat) :
    (sbLog layout c lebId pebId).start .logFooter = Word.u32 (sbFooterStart c.bytesCount) := by
  rw [start_sbLog, start_sbMkfsDefineLayout.2.2]
  rfl

theorem firstPairs_ascend (size n : Nat) : Chunks.Ascend size Prod.fst (firstPairs n) := by
  apply Chunks.Ascend.of_pairwise
  unfold firstPairs
  rw [List.pairwise_map]
  exact List.pairwise_lt_range

theorem firstPairs_written {n : Nat} (hpos : 0 < n) (hn : n < 65535)
    (hfits : CacheFits (cacheVolume .kib4) (cacheBytesOf .kib4 n))
    (hfooter : 0 < Word.u32 (sbFooterStart (cacheBytesOf .kib4 n)) ∧
      Word.u32 (sbFooterStart (cacheBytesOf .kib4 n)) < 131072) :
    ∃ src read log, CacheWritten (fun _ _ => 0) (cacheVolume .kib4) src read (firstPairs n) log := by
  obtain ⟨c₀, c, L, hprepare, hrun, hcount, hfilled⟩ := firstPairs_cached .kib4 hn
  have hlen : (firstPairs n).length = n := by simp [firstPairs]
  have hcounted := cachePairs_counted hprepare hrun
  have hkept : c.kept .kib4 = n := (cachePairs_kept hprepare hrun).trans hlen
  have hfragments : c.fragmentsCount = (c.kept .kib4 + leb2pebPairPerFragment PageSize.kib4.bytes - 1) /
      leb2pebPairPerFragment PageSize.kib4.bytes := hkept.symm ▸ hcount
  have hsurplus := hfilled.sound.surplus_eq_zero
  have hbytes := (hcounted.bytes_eq hfragments).2
  rw [hsurplus, hkept] at hbytes
  have hcommitted := (@MaptblCache.Counted.committed_iff (cacheVolume .kib4) c (fun _ _ => 0) 1 1 hcounted
    (hkept.symm ▸ hpos) hfragments).2 (by
      change CacheFits _ (cacheBytesOf .kib4 (c.kept .kib4) + 20 * c.surplus .kib4)
      rw [hsurplus, hkept]
      exact hfits)
  obtain ⟨pages, hpages, hfew⟩ := hcommitted.pages
  obtain ⟨desc, hdesc⟩ := hcommitted.descriptor
  obtain ⟨src, rfl, hsrc⟩ : ∃ src : CommitSource, src.cache = c ∧
      src.blkbmapBackup = false ∧ src.blk2offBackup = false ∧ 0 < src.sbLogPages.toNat :=
    ⟨{ commit32 with cache := c }, rfl, rfl, rfl, (by decide : 0 < commit32.sbLogPages.toNat)⟩
  have hsame : Rewritten [.segHeader, .logFooter] (sbLog (cacheVolume .kib4) src.cache 1 1)
      (sbLog (cacheVolume .kib4) src.cache 1 1).withRecords :=
    (Rewritten.setBuf (by decide)).trans (Rewritten.setBuf (by decide))
  have hsizes : ∀ k, k ≠ .segHeader → k ≠ .maptblCache → k ≠ .logFooter →
      ((sbLog (cacheVolume .kib4) src.cache 1 1).extents k).bytesCount.toNat = 0 := by
    intro k h1 h2 h3
    have hsize := congrFun (size_sbLog (cacheVolume .kib4) src.cache 1 1) k
    exact hsize.trans (if_neg (by simp [sbItems, h1, h2, h3]))
  have hareas : ∀ k ∈ SegHdr.areas, k ≠ .logFooter →
      0 < ((sbLog (cacheVolume .kib4) src.cache 1 1).withRecords.extents k).bytesCount.toNat →
      ∃ desc, prepareMetadataDescriptor (fun _ _ => 0) (cacheVolume .kib4) src (some .superblock)
        ((sbLog (cacheVolume .kib4) src.cache 1 1).withRecords.extents k) k = .ok desc := by
    intro k hk hfoot hsize
    have hhead : k ≠ .segHeader := by
      rintro rfl
      exact absurd hk (by decide)
    rw [hsame.keeps k (by simp [hhead, hfoot])] at hsize ⊢
    by_cases hcache : k = .maptblCache
    · subst hcache
      exact ⟨desc, hdesc⟩
    · rw [hsizes k hhead hcache hfoot] at hsize
      exact absurd hsize (Nat.lt_irrefl 0)
  have hplaced : ((sbLog (cacheVolume .kib4) src.cache 1 1).withRecords.extents .logFooter).Placed
      (cacheVolume .kib4) := by
    have hcount : ((sbLog (cacheVolume .kib4) src.cache 1 1).extents .logFooter).bytesCount.toNat =
        2048 := congrFun (size_sbLog (cacheVolume .kib4) src.cache 1 1) .logFooter
    have hstart := start_sbLog_logFooter (cacheVolume .kib4) src.cache 1 1
    rw [hbytes, Nat.mul_zero, Nat.add_zero] at hstart
    rw [← hstart] at hfooter
    have hne : ∀ {x : UInt32}, 0 < x.toNat → x ≠ 0 := by
      rintro x hx rfl
      exact Nat.lt_irrefl 0 hx
    refine ⟨?_, ?_⟩
    · rintro (hzero | hlarge)
      · exact hne (hcount ▸ Nat.succ_pos _) hzero
      · exact absurd (hcount ▸ hlarge) (by decide)
    · rintro (hzero | hlarge)
      · exact hne hfooter.1 hzero
      · exact absurd hfooter.2 (Nat.not_lt.2 hlarge)
  have hpages' : calculateLogPages (cacheVolume .kib4) .sb
      (sbLog (cacheVolume .kib4) src.cache 1 1).withRecords = .ok pages := by
    rw [calculateLogPages_congr hsame.size, hpages]
  have hushort : pages < ushrtMax := by
    have herase : (cacheVolume .kib4).env.eraseSize.toNat = 131072 := rfl
    unfold ushrtMax
    omega
  obtain ⟨peb, hpeb⟩ := @commitHeaderLog_superblock (fun _ _ => 0) (cacheVolume .kib4) src
    (sbLog (cacheVolume .kib4) src.cache 1 1).withRecords .sb superblockSegs 0 pages (fun _ => 0)
    (fun _ => 0) (by decide) (by decide) rfl ⟨hsrc.1, hsrc.2.1⟩ hsrc.2.2 rfl rfl hpages' hushort hareas
    hplaced
  obtain ⟨_, hdr, -, hhdr, hextent, -⟩ := commitHeaderLog_area (k := .maptblCache) hpeb (by decide) (by decide)
  obtain ⟨hcache, -⟩ := extents_sbLog (cacheVolume .kib4) src.cache 1 1
  refine ⟨src, fun _ _ => .ok (src.cache.buffer .kib4), ⟨1, 0, hdr, fun _ => 0⟩,
    ⟨⟨manyLebs n, c₀, hprepare, hrun⟩, superblockSegs, 0, 1, peb, hdr, hpeb, hhdr, fun _ _ => rfl, ?_⟩⟩
  rw [hextent]
  exact ⟨src.cache.buffer .kib4, _, hcache, rfl, fun _ _ => rfl⟩

theorem firstPairs_nodup (n : Nat) : ((firstPairs n).map Prod.fst).Nodup := by
  have hkeys : (firstPairs n).map Prod.fst = List.range n := by
    simp [firstPairs, Function.comp_def]
  rw [hkeys]
  exact List.nodup_range

theorem firstPairs_valid {n : Nat} (hn : n < 65535) :
    ∀ p ∈ firstPairs n, p.1 < n ∧ p.1 < Word.u64Max ∧ p.2 < Word.u64Max := by
  intro p hp
  obtain ⟨i, hi, rfl⟩ := List.mem_map.1 hp
  have hi := List.mem_range.1 hi
  unfold Word.u64Max
  exact ⟨hi, by omega, by omega⟩

/-- The pairs that fill the first fragment in pages of 4 KiB. -/
theorem maptblCache_convertsAll_203 : ∃ src read log cache,
    CacheWritten (fun _ _ => 0) (cacheVolume .kib4) src read (firstPairs 203) log ∧
    isMappingTableCacheFound read (fun _ _ _ _ => Search.failure) 131072 true none log = .ok cache ∧
    cache.Converts (firstPairs 203) := by
  have hvalid := @firstPairs_valid 203 (by decide)
  obtain ⟨src, read, log, hwritten⟩ := @firstPairs_written 203 (by decide) (by decide)
    ⟨by decide, by decide⟩ (by decide)
  have hlen : (firstPairs 203).length = 203 := by simp [firstPairs]
  have hreadable : ReadablePairs PageSize.kib4 (firstPairs 203) :=
    { nonempty := List.length_pos_iff.1 (by rw [hlen]; decide)
      fits := by rw [hlen]; decide
      first := firstPairs_ascend _ _
      small := fun p hp => Nat.lt_trans (hvalid p hp).1 (by decide) }
  obtain ⟨cache, hfound, hconverts⟩ := (maptblCache_convertsAll_iff hwritten (firstPairs_nodup 203)
    fun p hp => (hvalid p hp).2).2 hreadable
  exact ⟨src, read, log, cache, hwritten, hfound, hconverts⟩

/-- One pair more goes to a second fragment, and the reader finds no cache at all. -/
theorem maptblCache_not_found_204 : ∃ src read log,
    CacheWritten (fun _ _ => 0) (cacheVolume .kib4) src read (firstPairs 204) log ∧
    ∀ decompress cache,
      isMappingTableCacheFound read decompress 131072 true none log ≠ .ok cache := by
  have hvalid := @firstPairs_valid 204 (by decide)
  obtain ⟨src, read, log, hwritten⟩ := @firstPairs_written 204 (by decide) (by decide)
    ⟨by decide, by decide⟩ (by decide)
  refine ⟨src, read, log, hwritten, fun decompress cache hfound => ?_⟩
  obtain ⟨-, hfits, -⟩ := hwritten.of_found (firstPairs_nodup 204) (fun p hp => (hvalid p hp).2) hfound
  have hlen : (firstPairs 204).length = 204 := by simp [firstPairs]
  rw [hlen] at hfits
  exact absurd hfits (by decide)

end Ssdfs
