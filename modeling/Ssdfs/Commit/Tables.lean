import Ssdfs.Commit.Verifiable

/-! The logs whose descriptors verify, whatever the contents of their areas. -/

namespace Ssdfs

open Memory

section

variable {crc32 : UInt32 → List UInt8 → UInt32} {layout : VolumeLayout} {src : CommitSource}
  {segType : Option MetaIndex} {peb peb' peb₀ peb₁ : PebContent} {extent : ExtentDesc} {page n : Nat}
  {blksCount : Nat} {hdr buf : Bytes} {k : ExtentIndex} {desc : MetadataDescriptor}

namespace PebContent

@[simp] theorem extents_setBuf_self : (peb.setBuf k buf).extents k = { peb.extents k with buf := some buf } :=
  Function.update_self ..

theorem extents_setBuf_of_ne {j : ExtentIndex} (h : j ≠ k) :
    (peb.setBuf k buf).extents j = peb.extents j := Function.update_of_ne h ..

theorem bytes_of_eq (h : (peb.extents k).buf = some buf) : peb.bytes k = buf := by
  unfold bytes
  rw [h]
  rfl

end PebContent

/-- The log with its table of offsets sealed, and nothing else changed. -/
structure SealedTables (crc32 : UInt32 → List UInt8 → UInt32) (peb peb₀ : PebContent) : Prop where
  others : ∀ k, k ≠ .offsetTable → peb₀.extents k = peb.extents k
  offset : (peb₀.extents .offsetTable).offset = (peb.extents .offsetTable).offset
  bytesCount : (peb₀.extents .offsetTable).bytesCount = (peb.extents .offsetTable).bytesCount
  present : (peb₀.extents .offsetTable).buf.isSome = (peb.extents .offsetTable).buf.isSome
  sealed : 0 < (peb.extents .offsetTable).bytesCount.toNat → ∃ data,
    (peb₀.extents .offsetTable).buf = some (sealRecord crc32 data recordCheckOffset blk2offTblHdrSize)

theorem sealTables_exact : Checked.Exact (sealTables crc32 peb)
    (0 < (peb.extents .offsetTable).bytesCount.toNat → (peb.extents .offsetTable).buf.isSome = true)
    (SealedTables crc32 peb) := by
  unfold sealTables
  split
  case isTrue hpos =>
    cases hbuf : (peb.extents .offsetTable).buf with
    | none =>
      have hnone : (peb.extents .offsetTable).contents = .error .abort := by
        unfold ExtentDesc.contents
        rw [hbuf]
      unfold commitOffsetTable
      rw [hnone]
      exact Checked.Exact.error.congr ⟨fun h => (nomatch h hpos), False.elim⟩ fun _ h => h
    | some data =>
      unfold commitOffsetTable
      rw [contents_eq_ok.2 hbuf]
      refine (Checked.Exact.ok ?_).congr ⟨fun _ => trivial, fun _ _ => rfl⟩ fun _ h => h
      refine ⟨fun k hk => PebContent.extents_setBuf_of_ne hk, ?_, ?_, ?_, fun _ => ⟨data, ?_⟩⟩
      all_goals rw [PebContent.extents_setBuf_self]
      rw [hbuf]
      rfl
  case isFalse hzero =>
    exact (Checked.Exact.ok ⟨fun _ _ => rfl, rfl, rfl, rfl, fun h => absurd h hzero⟩).congr
      ⟨fun _ => trivial, fun _ h => absurd h hzero⟩ fun _ h => h

theorem SealedTables.extents_eq (h : SealedTables crc32 peb peb₀) (k : ExtentIndex) :
    (peb₀.extents k).offset = (peb.extents k).offset ∧
      (peb₀.extents k).bytesCount = (peb.extents k).bytesCount ∧
      (peb₀.extents k).buf.isSome = (peb.extents k).buf.isSome := by
  by_cases hk : k = .offsetTable
  · subst hk
    exact ⟨h.offset, h.bytesCount, h.present⟩
  · rw [h.others k hk]
    exact ⟨rfl, rfl, rfl⟩

theorem prepare_buf (hcrc : RunningChecksum crc32) (hn : src.cache.fragmentsCount < Word.u16Max)
    (hk : k ∈ SegHdr.areas)
    (h : prepareMetadataDescriptor crc32 layout src segType extent k = .ok desc) :
    ∃ buf, extent.buf = some buf := by
  have hgeneral : ∀ {check}, prepareDescriptor layout extent check = .ok desc →
      ∃ buf, extent.buf = some buf := fun h =>
    let ⟨_, buf, hbuf, _⟩ := prepareDescriptor_eq_ok.1 h
    ⟨buf, hbuf⟩
  simp only [SegHdr.areas, List.mem_cons, List.not_mem_nil, or_false] at hk
  rcases hk with rfl | rfl | rfl | rfl | rfl | rfl
  · exact hgeneral h
  · exact hgeneral h
  · exact hgeneral h
  · obtain ⟨-, h⟩ := bugOn_bind_eq_ok.1 h
    obtain ⟨-, buf, hbuf, -⟩ := (prepareMaptblCache_eq_ok hcrc hn).1 h
    exact ⟨buf, hbuf⟩
  · exact hgeneral h
  · exact hgeneral h

theorem describedAreas_subset (hk : k ∈ describedAreas) : k ∈ SegHdr.areas ∧ k ≠ .segHeader := by
  have h : ∀ k ∈ describedAreas, k ∈ SegHdr.areas ∧ k ≠ .segHeader := by decide
  exact h k hk

theorem headerVerifies_iff (hcrc : RunningChecksum crc32)
    (hn : src.cache.fragmentsCount < Word.u16Max)
    (h : commitTables crc32 layout src segType blksCount peb = .ok peb₁) :
    HeaderVerifies crc32 peb₁ ↔ ∀ k ∈ describedAreas, 0 < (peb.extents k).bytesCount.toNat →
      AreaPasses crc32 layout.pageSize.bytes src.cache.fragmentsCount
        (peb.extents k).bytesCount.toNat (peb.bytes k) k := by
  obtain ⟨peb₀, hseal, h⟩ := Checked.bind_eq_ok.1 h
  have hsealed := sealTables_exact.result hseal
  obtain ⟨hdr, rfl, hdescribed⟩ := commitSegmentHeader_described h
  have harea : ∀ k ∈ describedAreas, 0 < (peb.extents k).bytesCount.toNat →
      (AreaVerifies crc32 k (peb₀.extents k)
          (MetadataDescriptorRecord.wire.read hdr (SegHdr.descOffset k)) ↔
        AreaPasses crc32 layout.pageSize.bytes src.cache.fragmentsCount
          (peb.extents k).bytesCount.toNat (peb.bytes k) k) := by
    intro k hk hpos
    obtain ⟨-, hbytes, -⟩ := hsealed.extents_eq k
    obtain ⟨desc, hdesc, hread⟩ := hdescribed k (describedAreas_subset hk).1 (hbytes ▸ hpos)
    obtain ⟨buf, hbuf⟩ := prepare_buf hcrc hn (describedAreas_subset hk).1 hdesc
    rw [hread, prepare_areaVerifies_iff hcrc hn hk ?_ hbuf hdesc, hbytes]
    · by_cases htable : k = .offsetTable
      · subst htable
        exact Iff.rfl
      · rw [hsealed.others k htable] at hbuf
        rw [PebContent.bytes_of_eq hbuf]
    · rintro rfl
      obtain ⟨data, hdata⟩ := hsealed.sealed hpos
      exact ⟨data, Option.some.inj (hbuf.symm.trans hdata)⟩
  have hextent : ∀ k ∈ describedAreas, (peb₀.setBuf .segHeader hdr).extents k = peb₀.extents k :=
    fun k hk => PebContent.extents_setBuf_of_ne (describedAreas_subset hk).2
  constructor
  · rintro ⟨hdr', hhdr, hverifies⟩ k hk hpos
    rw [PebContent.extents_setBuf_self] at hhdr
    cases hhdr
    have := hverifies k hk
    rw [hextent k hk, (hsealed.extents_eq k).2.1] at this
    exact (harea k hk hpos).1 (this hpos)
  · intro hpasses
    refine ⟨hdr, by rw [PebContent.extents_setBuf_self], fun k hk hpos => ?_⟩
    rw [hextent k hk] at hpos ⊢
    rw [(hsealed.extents_eq k).2.1] at hpos
    exact (harea k hk hpos).2 (hpasses k hk hpos)

theorem commitTables_present (hcrc : RunningChecksum crc32)
    (hn : src.cache.fragmentsCount < Word.u16Max)
    (h : commitTables crc32 layout src segType blksCount peb = .ok peb₁) (hk : k ∈ SegHdr.areas)
    (hpos : 0 < (peb.extents k).bytesCount.toNat) : (peb.extents k).buf = some (peb.bytes k) := by
  obtain ⟨peb₀, hseal, h⟩ := Checked.bind_eq_ok.1 h
  obtain ⟨-, hbytes, hpresent⟩ := (sealTables_exact.result hseal).extents_eq k
  obtain ⟨hdr, -, hdescribed⟩ := commitSegmentHeader_described h
  obtain ⟨desc, hdesc, -⟩ := hdescribed k hk (hbytes ▸ hpos)
  obtain ⟨buf, hbuf⟩ := prepare_buf hcrc hn hk hdesc
  rw [hbuf] at hpresent
  obtain ⟨data, hdata⟩ := Option.isSome_iff_exists.1 hpresent.symm
  rw [PebContent.bytes_of_eq hdata, hdata]

namespace SameShape

theorem refl (page n : Nat) (peb : PebContent) : SameShape page n peb peb :=
  ⟨fun _ => rfl, fun _ => rfl, fun _ => rfl, fun _ _ => rfl⟩

theorem setBuf (hk : (peb.extents k).buf = some (peb.bytes k))
    (hused : k = .maptblCache → ∀ i < n, cacheUsed page buf i = cacheUsed page (peb.bytes k) i) :
    SameShape page n peb (peb.setBuf k buf) := by
  refine ⟨fun j => ?_, fun j => ?_, fun j => ?_, fun i hi => ?_⟩
  all_goals first | by_cases hj : j = k | by_cases hj : ExtentIndex.maptblCache = k
  all_goals first
    | subst hj; simp only [PebContent.bytes, PebContent.extents_setBuf_self]
    | simp only [PebContent.bytes, PebContent.extents_setBuf_of_ne hj]
  · rw [hk]
    rfl
  · exact hused rfl i hi

theorem sealed {peb₀' : PebContent} (h : SameShape page n peb peb') (h0 : SealedTables crc32 peb peb₀)
    (h0' : SealedTables crc32 peb' peb₀') : SameShape page n peb₀ peb₀' where
  offset k := ((h0'.extents_eq k).1.trans (h.offset k)).trans (h0.extents_eq k).1.symm
  bytesCount k := ((h0'.extents_eq k).2.1.trans (h.bytesCount k)).trans (h0.extents_eq k).2.1.symm
  present k := ((h0'.extents_eq k).2.2.trans (h.present k)).trans (h0.extents_eq k).2.2.symm
  used i hi := by
    unfold PebContent.bytes
    rw [h0.others _ (by decide), h0'.others _ (by decide)]
    exact h.used i hi

theorem commitSegmentHeader_exists (hcrc : RunningChecksum crc32)
    (hn : src.cache.fragmentsCount < Word.u16Max)
    (hshape : SameShape layout.pageSize.bytes src.cache.fragmentsCount peb peb')
    (h : commitSegmentHeader crc32 layout src segType blksCount peb = .ok peb₁) :
    ∃ peb₁', commitSegmentHeader crc32 layout src segType blksCount peb' = .ok peb₁' := by
  obtain ⟨hdr, -, hdescribed⟩ := commitSegmentHeader_described h
  obtain ⟨buf, hbuf, h⟩ := Checked.bind_eq_ok.1 h
  obtain ⟨hblks, h⟩ := bugOn_bind_eq_ok.1 h
  obtain ⟨⟨logPages, less⟩, hpages, -⟩ := Checked.bind_eq_ok.1 h
  have hpresent := hshape.present .segHeader
  rw [contents_eq_ok.1 hbuf] at hpresent
  obtain ⟨buf', hbuf'⟩ := Option.isSome_iff_exists.1 hpresent
  have hloop : ∀ st, ∃ st', Checked.forEach (commitDescriptor crc32 layout src segType peb')
      SegHdr.areas st = .ok st' ∧ True := by
    refine fun st => Checked.forEach_ok (fun _ _ => True) trivial
      fun es k bs t (heq : [] ++ SegHdr.areas = es ++ k :: bs) _ => ?_
    have hk : k ∈ SegHdr.areas := by
      rw [← List.nil_append SegHdr.areas, heq]
      simp
    unfold commitDescriptor
    simp only
    split
    case isTrue hpos =>
      rw [hshape.bytesCount k] at hpos
      obtain ⟨desc, hdesc, -⟩ := hdescribed k hk hpos
      obtain ⟨old, hold⟩ := prepare_buf hcrc hn hk hdesc
      have hnew := hshape.present k
      rw [hold] at hnew
      obtain ⟨new, hnew⟩ := Option.isSome_iff_exists.1 hnew
      obtain ⟨desc', hdesc'⟩ := prepare_congr hcrc hn hk (hshape.offset k) (hshape.bytesCount k) hold
        hnew (by
          rintro rfl i hi
          have := hshape.used i hi
          rwa [PebContent.bytes_of_eq hold, PebContent.bytes_of_eq hnew] at this) hdesc
      rw [hdesc']
      exact ⟨_, rfl, trivial⟩
    case isFalse => exact ⟨t, rfl, trivial⟩
  unfold commitSegmentHeader
  rw [contents_eq_ok.2 hbuf', Checked.ok_bind, bugOn_of_not hblks, Checked.ok_bind, hpages,
    Checked.ok_bind]
  obtain ⟨st', hst', -⟩ := hloop (Wire.u16.write buf' SegHdr.logPagesOffset (UInt16.ofNat logPages),
    if less then SegHdr.isPartial else 0)
  simp only [hst', Checked.ok_bind]
  exact ⟨_, rfl⟩

theorem commitTables_exists (hcrc : RunningChecksum crc32)
    (hn : src.cache.fragmentsCount < Word.u16Max)
    (hshape : SameShape layout.pageSize.bytes src.cache.fragmentsCount peb peb')
    (h : commitTables crc32 layout src segType blksCount peb = .ok peb₁) :
    ∃ peb₁', commitTables crc32 layout src segType blksCount peb' = .ok peb₁' := by
  obtain ⟨peb₀, hseal, h⟩ := Checked.bind_eq_ok.1 h
  have hpresent := sealTables_exact.only _ hseal
  obtain ⟨peb₀', hseal', hsealed'⟩ := (@sealTables_exact crc32 peb').succeeds (by
    rw [hshape.bytesCount, hshape.present]
    exact hpresent)
  obtain ⟨peb₁', h'⟩ := (hshape.sealed (sealTables_exact.result hseal) hsealed').commitSegmentHeader_exists
    hcrc hn h
  exact ⟨peb₁', Checked.bind_eq_ok.2 ⟨peb₀', hseal', h'⟩⟩

end SameShape

theorem ne_add_one (b : UInt8) : b ≠ b + 1 := by
  intro h
  have hnat := congrArg UInt8.toNat h
  rw [UInt8.toNat_add] at hnat
  have hlt := b.toNat_lt
  simp only [UInt8.toNat_one] at hnat
  omega

theorem cacheUsed_update {x : Nat} {b : UInt8} (hused : ∀ i < n, 36 ≤ cacheUsed page buf i)
    (hx : x ∉ Strided.places page (cacheUsed page buf) n) {i : Nat} (hi : i < n) :
    cacheUsed page (Function.update buf x b) i = cacheUsed page buf i := by
  have hread : MaptblCacheRecord.wire.read (Function.update buf x b) (i * page) =
      MaptblCacheRecord.wire.read buf (i * page) := by
    refine MaptblCacheRecord.wire.read_congr fun j hj => ?_
    rw [MaptblCacheRecord.wire_size] at hj
    have h36 := hused i hi
    refine Function.update_of_ne (fun heq => hx (Strided.mem_places.2 ⟨i, hi, ?_, ?_⟩)) ..
    · omega
    · omega
  unfold cacheUsed
  rw [hread]

section

variable (crc32 layout src segType blksCount)

/-- Every log of this shape that can be committed has a header that verifies. -/
def ShapeVerifies (peb : PebContent) : Prop :=
  ∀ peb', SameShape layout.pageSize.bytes src.cache.fragmentsCount peb peb' → ∀ peb₁',
    commitTables crc32 layout src segType blksCount peb' = .ok peb₁' → HeaderVerifies crc32 peb₁'

end

theorem ShapeVerifies.passes_update (hcrc : RunningChecksum crc32)
    (hn : src.cache.fragmentsCount < Word.u16Max)
    (hall : ShapeVerifies crc32 layout src segType blksCount peb)
    (h : commitTables crc32 layout src segType blksCount peb = .ok peb₁) {k : ExtentIndex}
    (hk : k ∈ describedAreas) (hpos : 0 < (peb.extents k).bytesCount.toNat) (buf : Bytes)
    (hused : k = .maptblCache → ∀ i < src.cache.fragmentsCount,
      cacheUsed layout.pageSize.bytes buf i = cacheUsed layout.pageSize.bytes (peb.bytes k) i) :
    AreaPasses crc32 layout.pageSize.bytes src.cache.fragmentsCount
      (peb.extents k).bytesCount.toNat buf k := by
  have hbuf := commitTables_present hcrc hn h (describedAreas_subset hk).1 hpos
  have hshape := SameShape.setBuf hbuf hused
  obtain ⟨peb₁', h'⟩ := hshape.commitTables_exists hcrc hn h
  have hpasses := (headerVerifies_iff hcrc hn h').1 (hall _ hshape _ h') k hk
  have hbytes : (peb.setBuf k buf).bytes k = buf :=
    PebContent.bytes_of_eq (by rw [PebContent.extents_setBuf_self])
  rw [PebContent.extents_setBuf_self, hbytes] at hpasses
  exact hpasses hpos

theorem DescriptorsCover.verifies (hcrc : RunningChecksum crc32)
    (hn : src.cache.fragmentsCount < Word.u16Max)
    (h : DescriptorsCover layout.pageSize.bytes src.cache.fragmentsCount peb) :
    ShapeVerifies crc32 layout src segType blksCount peb := by
  intro peb' hshape peb₁' h'
  refine (headerVerifies_iff hcrc hn h').2 fun k hk hpos => ?_
  rw [hshape.bytesCount k] at hpos ⊢
  simp only [describedAreas, List.mem_cons, List.not_mem_nil, or_false] at hk
  rcases hk with rfl | rfl | rfl | rfl | rfl
  · exact h.blockBitmap hpos
  · exact h.offsetTable hpos
  · unfold AreaPasses
    rw [Nat.mod_eq_of_lt h.blockDescriptors]
  · trivial
  · obtain ⟨hle, hfull⟩ := h.maptblCache hpos
    have hsum := Finset.sum_congr rfl fun i hi => hshape.used i (Finset.mem_range.1 hi)
    refine ⟨hsum ▸ hle, ?_⟩
    rw [Strided.places_of_full fun i hi => (hshape.used i (by omega)).trans (hfull i hi)]

theorem ShapeVerifies.cover (hcrc : RunningChecksum crc32)
    (hn : src.cache.fragmentsCount < Word.u16Max)
    (hused : 0 < (peb.extents .maptblCache).bytesCount.toNat → ∀ i < src.cache.fragmentsCount,
      36 ≤ cacheUsed layout.pageSize.bytes (peb.bytes .maptblCache) i)
    (hall : ShapeVerifies crc32 layout src segType blksCount peb)
    (h : commitTables crc32 layout src segType blksCount peb = .ok peb₁) :
    DescriptorsCover layout.pageSize.bytes src.cache.fragmentsCount peb := by
  have hpasses := (headerVerifies_iff hcrc hn h).1 (hall _ (.refl ..) _ h)
  refine ⟨fun hpos => hpasses .blockBitmap (by decide) hpos,
    fun hpos => hpasses .offsetTable (by decide) hpos, ?_, fun hpos => ?_⟩
  · by_contra hbig
    have hpos : 0 < (peb.extents .blockDescriptors).bytesCount.toNat := by omega
    have hbyte := hall.passes_update hcrc hn h (by decide) hpos (Function.update
      (peb.bytes .blockDescriptors) ((peb.extents .blockDescriptors).bytesCount.toNat - 1)
      (peb.bytes .blockDescriptors ((peb.extents .blockDescriptors).bytesCount.toNat - 1) + 1))
      fun hcache => (nomatch hcache)
    refine hcrc.not_same (List.mem_range.2 (Nat.sub_lt hpos Nat.one_pos)) List.nodup_range
      (fun hmem => ?_) ?_ (fun y hy => ?_) (hpasses .blockDescriptors (by decide) hpos) hbyte
    · have := List.mem_range.1 hmem
      omega
    · rw [Function.update_self]
      exact ne_add_one _
    · rw [Function.update_of_ne hy]
  · obtain ⟨hle, hsame⟩ := hpasses .maptblCache (by decide) hpos
    refine ⟨hle, fun j hj => ?_⟩
    by_contra hne
    have h36 := hused hpos
    obtain ⟨x, hx, hgap⟩ := Strided.exists_gap (fun i hi => Nat.lt_of_lt_of_le (by decide) (h36 i hi)) hj
      hne
    let buf := Function.update (peb.bytes .maptblCache) x (peb.bytes .maptblCache x + 1)
    have hkeep : ∀ i < src.cache.fragmentsCount, cacheUsed layout.pageSize.bytes buf i =
        cacheUsed layout.pageSize.bytes (peb.bytes .maptblCache) i :=
      fun i hi => cacheUsed_update h36 hgap hi
    obtain ⟨-, hbyte⟩ := hall.passes_update hcrc hn h (by decide) hpos buf fun _ => hkeep
    rw [Finset.sum_congr rfl fun i hi => hkeep i (Finset.mem_range.1 hi),
      Strided.places_congr hkeep] at hbyte
    refine hcrc.not_same (List.mem_range.2 hx) List.nodup_range hgap ?_ (fun y hy => ?_) hsame hbyte
    · have hself : buf x = peb.bytes .maptblCache x + 1 := Function.update_self ..
      rw [hself]
      exact ne_add_one _
    · exact (Function.update_of_ne hy ..).symm

/-- The descriptors of a log verify for all its contents exactly if they cover its areas. -/
theorem commitTables_verifies_iff (hcrc : RunningChecksum crc32)
    (hn : src.cache.fragmentsCount < Word.u16Max)
    (hused : 0 < (peb.extents .maptblCache).bytesCount.toNat → ∀ i < src.cache.fragmentsCount,
      36 ≤ cacheUsed layout.pageSize.bytes (peb.bytes .maptblCache) i)
    (h : commitTables crc32 layout src segType blksCount peb = .ok peb₁) :
    ShapeVerifies crc32 layout src segType blksCount peb ↔
      DescriptorsCover layout.pageSize.bytes src.cache.fragmentsCount peb :=
  ⟨fun hall => hall.cover hcrc hn hused h, DescriptorsCover.verifies hcrc hn⟩

end

def segbmapLog (blkDescs : UInt32) (bytes : ExtentIndex → Bytes) : PebContent where
  lebId := 0
  pebId := 0
  extents k :=
    { buf := some (bytes k)
      offset := if k = .segHeader then 0 else 4096
      bytesCount := match k with
        | .segHeader => 2048
        | .blockBitmap => 64
        | .offsetTable => 200
        | .blockDescriptors => blkDescs
        | .logPayload => 4064
        | .logFooter => 2048
        | _ => 0 }

def commit32 : CommitSource where
  vh _ := 0
  vs _ := 0
  uuid _ := 0
  createTimestamp := 0
  createCno := 1
  calculatedOpenZones := 0
  sbLogPages := 32
  segbmapLogPages := 32
  maptblLogPages := 32
  cache := ⟨fun _ => ⟨⟨0, 0, 0, 0, 0, 0, 0⟩, Buf.zero 0⟩, 0, 0⟩
  blkbmapBackup := false
  blk2offBackup := false

theorem commitTables_segbmapLog (bytes : ExtentIndex → Bytes) :
    (∃ peb₁, commitTables crc32 pages32 commit32 (some .segbmap) 20 (segbmapLog 512 bytes) =
      .ok peb₁) ∧
    ∃ peb₁, commitTables crc32 pages32 commit32 (some .segbmap) 20 (segbmapLog 65536 bytes) =
      .ok peb₁ :=
  ⟨⟨_, rfl⟩, ⟨_, rfl⟩⟩

theorem commitTables_verifies_512 :
    ShapeVerifies crc32 pages32 commit32 (some .segbmap) 20 (segbmapLog 512 fun _ _ => 0) := by
  obtain ⟨⟨peb₁, h⟩, -⟩ := commitTables_segbmapLog fun _ _ => 0
  refine (commitTables_verifies_iff crc32_running (by decide)
    (fun hcache => absurd hcache (by decide)) h).2 ⟨fun _ => ?_, fun _ => ?_, ?_, fun hcache => ?_⟩
  · decide
  · decide
  · decide
  · exact absurd hcache (by decide)

def zeroingBytes (i : Nat) : UInt8 := if i < 4 then 0xFF else 0

theorem crc32_zeroingBytes (n : Nat) :
    crc32 0 ((List.range (4 + n)).map zeroingBytes) = 0xFFFFFFFF := by
  have hzeros : ((List.range n).map (4 + ·)).map zeroingBytes = List.replicate n 0 := by
    refine List.eq_replicate_iff.2 ⟨by simp, fun b hb => ?_⟩
    obtain ⟨i, -, rfl⟩ := List.mem_map.1 (List.map_map (l := List.range n) ▸ hb)
    exact if_neg (by simp)
  have hstay : ∀ k : Nat, (List.replicate k (0 : UInt8)).foldl (Crc.step 0xEDB88320#32) 0#32 = 0#32 := by
    intro k
    induction k with
    | zero => rfl
    | succ k ih => rw [List.replicate_succ, List.foldl_cons]; exact ih
  have hzero : ((List.range 4).map zeroingBytes).foldl (Crc.step 0xEDB88320#32) (~~~0#32) = 0#32 := by
    decide +kernel
  unfold crc32 Crc.sum
  rw [List.range_add, List.map_append, hzeros, List.foldl_append]
  exact congrArg (fun r => UInt32.ofBitVec (~~~r))
    ((congrArg (fun r => (List.replicate n (0 : UInt8)).foldl (Crc.step 0xEDB88320#32) r) hzero).trans
      (hstay n))

/-- The descriptor of 65536 bytes of block descriptors records none of them. -/
theorem commitTables_fails_65536 : ∃ peb₁,
    commitTables crc32 pages32 commit32 (some .segbmap) 20 (segbmapLog 65536 fun _ => zeroingBytes) =
      .ok peb₁ ∧ ¬HeaderVerifies crc32 peb₁ := by
  obtain ⟨-, peb₁, h⟩ := commitTables_segbmapLog fun _ => zeroingBytes
  refine ⟨peb₁, h, fun hverifies => ?_⟩
  have hpasses := (headerVerifies_iff crc32_running (by decide) h).1 hverifies .blockDescriptors
    (by decide) (by decide)
  change crc32 0 [] = crc32 0 ((List.range (4 + 65532)).map zeroingBytes) at hpasses
  rw [crc32_running.nil, crc32_zeroingBytes] at hpasses
  exact absurd hpasses (by decide)

end Ssdfs
