import Ssdfs.Commit.MetadataBlks

namespace Ssdfs

open Memory

def PebContent.withRecords (peb : PebContent) : PebContent :=
  (peb.setBuf .segHeader fun _ => 0).setBuf .logFooter fun _ => 0

section

variable (crc32 : UInt32 → List UInt8 → UInt32) (layout : VolumeLayout) (src : CommitSource)

/-- The steps of `sb_mkfs_commit` and of `snap_mkfs_commit` for one log. -/
def commitHeaderLog (segType : SegType) (a : SegsArray) (segIndex : Nat) (peb : PebContent) :
    Mkfs PebContent := do
  let peb ← preCommitSegmentHeader src segType a segIndex 0 peb
  preCommitLogFooter a segIndex 0 peb
  let blks ← calculateLogPages layout segType peb
  let peb ← commitLogFooter crc32 layout src (a.segs segIndex) blks peb
  commitSegmentHeader crc32 layout src (a.segs segIndex).segType blks peb

end

section

variable {crc32 : UInt32 → List UInt8 → UInt32} {layout : VolumeLayout} {src : CommitSource}
  {segType : Option MetaIndex} {peb peb' : PebContent} {blksCount : Nat} {k : ExtentIndex}

theorem forEach_commitDescriptor_kept {st st' : Bytes × UInt32}
    (h : Checked.forEach (commitDescriptor crc32 layout src segType peb) SegHdr.areas st = .ok st')
    (hk : k ∈ SegHdr.areas) (hnone : (peb.extents k).bytesCount.toNat = 0) :
    MetadataDescriptorRecord.wire.read st'.1 (SegHdr.descOffset k) =
      MetadataDescriptorRecord.wire.read st.1 (SegHdr.descOffset k) := by
  have h0 : [] <+: SegHdr.areas → MetadataDescriptorRecord.wire.read st.1 (SegHdr.descOffset k) =
      MetadataDescriptorRecord.wire.read st.1 (SegHdr.descOffset k) := fun _ => rfl
  refine Checked.forEach_ind (fun ks (t : Bytes × UInt32) => ks <+: SegHdr.areas →
    MetadataDescriptorRecord.wire.read t.1 (SegHdr.descOffset k) =
      MetadataDescriptorRecord.wire.read st.1 (SegHdr.descOffset k)) h h0
    (fun ks j t t' ht hstep hks => ?_) (List.prefix_refl _)
  rw [← ht ((List.prefix_append ks [j]).trans hks)]
  unfold commitDescriptor at hstep
  simp only at hstep
  split at hstep
  case isTrue hpos =>
    obtain ⟨desc, -, hstep⟩ := Checked.bind_eq_ok.1 hstep
    cases hstep
    have hne : j ≠ k := by
      rintro rfl
      omega
    have hdisjoint := descOffset_disjoint hk (hks.subset (by simp)) hne
    exact Wire.read_write_of_disjoint MetadataDescriptorRecord.wire MetadataDescriptorRecord.wire
      (by simpa using hdisjoint)
  case isFalse =>
    cases hstep
    rfl

theorem commitSegmentHeader_undescribed
    (h : commitSegmentHeader crc32 layout src segType blksCount peb = .ok peb')
    (hk : k ∈ SegHdr.areas) (hnone : (peb.extents k).bytesCount.toNat = 0) :
    ∃ buf hdr, (peb.extents .segHeader).buf = some buf ∧ peb' = peb.setBuf .segHeader hdr ∧
      MetadataDescriptorRecord.wire.read hdr (SegHdr.descOffset k) =
        MetadataDescriptorRecord.wire.read buf (SegHdr.descOffset k) := by
  obtain ⟨buf, hbuf, h⟩ := Checked.bind_eq_ok.1 h
  obtain ⟨-, h⟩ := bugOn_bind_eq_ok.1 h
  obtain ⟨⟨logPages, less⟩, -, h⟩ := Checked.bind_eq_ok.1 h
  obtain ⟨⟨hdr, segFlags⟩, hloop, h⟩ := Checked.bind_eq_ok.1 h
  cases h
  have hge := descOffset_ge k
  have hcheck : SegHdr.checkOffset + 8 ≤ SegHdr.descOffset k := Nat.le_trans (by decide) hge
  have hflags : SegHdr.segFlagsOffset + Wire.u32.size ≤ SegHdr.descOffset k :=
    Nat.le_trans (by decide) hge
  have hpages : SegHdr.logPagesOffset + Wire.u16.size ≤ SegHdr.descOffset k :=
    Nat.le_trans (by decide) hge
  refine ⟨buf, _, contents_eq_ok.1 hbuf, rfl, ?_⟩
  rw [read_sealRecord _ (.inr hcheck), Wire.read_write_of_disjoint _ _ (.inr hflags)]
  exact (forEach_commitDescriptor_kept hloop hk hnone).trans
    (Wire.read_write_of_disjoint _ _ (.inr hpages))

theorem descOffset_le (k : ExtentIndex) : SegHdr.descOffset k + 16 ≤ SegHdr.pebMigrationIdOffset := by
  cases k <;> decide

theorem preCommitSegmentHeader_descOffset {kind : SegType} {a : SegsArray} {segIndex pebIndex : Nat}
    (h : preCommitSegmentHeader src kind a segIndex pebIndex peb = .ok peb') (k : ExtentIndex) :
    ∃ buf hdr, (peb.extents .segHeader).buf = some buf ∧ peb' = peb.setBuf .segHeader hdr ∧
      MetadataDescriptorRecord.wire.read hdr (SegHdr.descOffset k) =
        MetadataDescriptorRecord.wire.read buf (SegHdr.descOffset k) := by
  obtain ⟨-, h⟩ := failIf_bind_eq_ok.1 h
  obtain ⟨-, h⟩ := failIf_bind_eq_ok.1 h
  obtain ⟨buf, hbuf, h⟩ := Checked.bind_eq_ok.1 h
  cases h
  have hbefore : ∀ {off}, off ≤ 0x418 → off ≤ SegHdr.descOffset k :=
    fun hle => Nat.le_trans hle (descOffset_ge k)
  have hbehind : ∀ {off}, SegHdr.pebMigrationIdOffset ≤ off →
      SegHdr.descOffset k + MetadataDescriptorRecord.wire.size ≤ off :=
    fun hle => Nat.le_trans (descOffset_le k) hle
  refine ⟨buf, _, contents_eq_ok.1 hbuf, rfl, ?_⟩
  rw [Wire.read_write_of_disjoint _ _ (.inl (hbehind (by decide))),
    Wire.read_write_of_disjoint _ _ (.inl (hbehind (by decide))),
    Wire.read_write_of_disjoint _ _ (.inl (hbehind (by decide))),
    Wire.read_write_of_disjoint _ _ (.inl (hbehind (by decide))),
    Wire.read_write_of_disjoint _ _ (.inl (hbehind (by decide))),
    Wire.read_write_of_disjoint _ _ (.inl (hbehind (by decide))),
    Wire.read_write_of_disjoint _ _ (.inl (hbehind (by decide))),
    Wire.read_write_of_disjoint _ _ (.inr (hbefore (by decide))),
    Wire.read_write_of_disjoint _ _ (.inr (hbefore (by decide))),
    Wire.read_write_of_disjoint _ _ (.inr (hbefore (by decide))),
    Wire.read_write_of_disjoint _ _ (.inr (hbefore (by decide)))]
  refine MetadataDescriptorRecord.wire.read_congr fun i _ => ?_
  have hge := descOffset_ge k
  unfold copyRange
  exact if_neg (by omega)

theorem commitHeaderLog_area {kind : SegType} {a : SegsArray} {segIndex : Nat}
    (h : commitHeaderLog crc32 layout src kind a segIndex peb = .ok peb') (hk : k ∈ SegHdr.areas)
    (hfooter : k ≠ .logFooter) : ∃ buf hdr, (peb.extents .segHeader).buf = some buf ∧
      (peb'.extents .segHeader).buf = some hdr ∧ peb'.extents k = peb.extents k ∧
      (0 < (peb.extents k).bytesCount.toNat → ∃ desc, prepareMetadataDescriptor crc32 layout src
          (a.segs segIndex).segType (peb.extents k) k = .ok desc ∧
        MetadataDescriptorRecord.wire.read hdr (SegHdr.descOffset k) = desc.record) ∧
      ((peb.extents k).bytesCount.toNat = 0 →
        MetadataDescriptorRecord.wire.read hdr (SegHdr.descOffset k) =
          MetadataDescriptorRecord.wire.read buf (SegHdr.descOffset k)) := by
  have hheader : k ≠ .segHeader := by
    rintro rfl
    exact absurd hk (by decide)
  obtain ⟨peb₁, hpre, h⟩ := Checked.bind_eq_ok.1 h
  obtain ⟨_, -, h⟩ := Checked.bind_eq_ok.1 h
  obtain ⟨blks, -, h⟩ := Checked.bind_eq_ok.1 h
  obtain ⟨peb₂, hfoot, hcommit⟩ := Checked.bind_eq_ok.1 h
  obtain ⟨buf, hdr₁, hbuf, rfl, hsame⟩ := preCommitSegmentHeader_descOffset hpre k
  have hrewritten : Rewritten [.logFooter] (peb.setBuf .segHeader hdr₁) peb₂ :=
    commitLogFooter_rewritten (List.mem_singleton.2 rfl) hfoot
  have hextent : peb₂.extents k = peb.extents k := by
    rw [hrewritten.keeps k (by simpa using hfooter), PebContent.extents_setBuf_of_ne hheader]
  have hdrBuf : (peb₂.extents .segHeader).buf = some hdr₁ := by
    rw [hrewritten.keeps .segHeader (by decide), PebContent.extents_setBuf_self]
  rw [← hextent]
  rcases Nat.eq_zero_or_pos (peb₂.extents k).bytesCount.toNat with hzero | hpos
  · obtain ⟨buf₂, hdr, hbuf₂, rfl, hkept⟩ := commitSegmentHeader_undescribed hcommit hk hzero
    obtain rfl := Option.some.inj (hdrBuf.symm.trans hbuf₂)
    refine ⟨buf, hdr, hbuf, by rw [PebContent.extents_setBuf_self],
      PebContent.extents_setBuf_of_ne hheader, fun hpos => ?_, fun _ => ?_⟩
    · omega
    · exact hkept.trans hsame
  · obtain ⟨hdr, rfl, hdescribed⟩ := commitSegmentHeader_described hcommit
    refine ⟨buf, hdr, hbuf, by rw [PebContent.extents_setBuf_self],
      PebContent.extents_setBuf_of_ne hheader, fun _ => ?_, fun hzero => ?_⟩
    · exact hdescribed k hk hpos
    · omega

theorem commitBackups_of_none {descArray : Nat} (h : src.blkbmapBackup = false ∧ src.blk2offBackup = false)
    (st : Bytes × UInt32) : commitBackups crc32 layout src peb descArray st = .ok st := by
  unfold commitBackups commitBackup
  simp [h.1, h.2]

theorem commitSegmentHeader_superblock {pages : Nat} {hdr : Bytes} (hlogPages : 0 < src.sbLogPages.toNat)
    (hheader : (peb.extents .segHeader).buf = some hdr) (hfew : pages < ushrtMax)
    (hareas : ∀ k ∈ SegHdr.areas, 0 < (peb.extents k).bytesCount.toNat → ∃ desc,
      prepareMetadataDescriptor crc32 layout src (some .superblock) (peb.extents k) k = .ok desc) :
    ∃ peb', commitSegmentHeader crc32 layout src (some .superblock) pages peb = .ok peb' := by
  have hstep : ∀ k ∈ SegHdr.areas, ∀ st, ∃ st',
      commitDescriptor crc32 layout src (some .superblock) peb k st = .ok st' := by
    intro k hk st
    unfold commitDescriptor
    simp only
    split
    case isTrue hpos =>
      obtain ⟨desc, hdesc⟩ := hareas k hk hpos
      rw [hdesc]
      exact ⟨_, rfl⟩
    case isFalse => exact ⟨_, rfl⟩
  have hloop : ∀ st, ∃ st', Checked.forEach (commitDescriptor crc32 layout src (some .superblock) peb)
      SegHdr.areas st = .ok st' := by
    intro st
    obtain ⟨st', hst', -⟩ := @Checked.forEach_ok Errno ExtentIndex (Bytes × UInt32)
      (commitDescriptor crc32 layout src (some .superblock) peb) (fun _ _ => True) [] SegHdr.areas st
      trivial fun es k bs t heq _ => by
        have hk : k ∈ [] ++ SegHdr.areas := by
          rw [heq]
          simp
        obtain ⟨t', ht'⟩ := hstep k hk t
        exact ⟨t', ht', trivial⟩
    exact ⟨st', hst'⟩
  obtain ⟨st', hst'⟩ := hloop (Wire.u16.write hdr SegHdr.logPagesOffset
    (UInt16.ofNat (min src.sbLogPages.toNat logMaxPages)), 0)
  have hpos : ¬min src.sbLogPages.toNat logMaxPages = 0 := by
    unfold logMaxPages
    omega
  have hmax : ¬min src.sbLogPages.toNat logMaxPages ≥ Word.u16Max := by
    unfold logMaxPages Word.u16Max
    omega
  unfold commitSegmentHeader committedLogPages
  rw [contents_eq_ok.2 hheader, Checked.ok_bind, bugOn_of_not (Nat.not_le.2 hfew), Checked.ok_bind]
  simp only
  rw [bugOn_of_not hpos, Checked.ok_bind, bugOn_of_not hmax]
  simp only [Checked.ok_bind, Bool.false_eq_true, if_false]
  rw [hst', Checked.ok_bind]
  exact ⟨_, rfl⟩

/-- A footer without copies of tables is committed whatever it has. -/
theorem commitLogFooter_superblock {seg : SegmentDesc} {pages : Nat} {footer : Bytes}
    (htype : seg.segType = some .superblock)
    (hbackup : src.blkbmapBackup = false ∧ src.blk2offBackup = false) (hfew : pages < ushrtMax)
    (hfooter : (peb.extents .logFooter).buf = some footer) : ∃ footer',
      commitLogFooter crc32 layout src seg pages peb = .ok (peb.setBuf .logFooter footer') := by
  have hmany : ¬pages > Word.u32Max / layout.pageSize.bytes := by
    refine Nat.not_lt.2 ((Nat.le_div_iff_mul_le (Nat.lt_of_lt_of_le (by decide)
      layout.pageSize.bytes_ge)).2 ?_)
    unfold ushrtMax at hfew
    calc pages * layout.pageSize.bytes ≤ 65535 * 32768 :=
          Nat.mul_le_mul (by omega) layout.pageSize.bytes_le
      _ ≤ Word.u32Max := by decide
  unfold commitLogFooter
  rw [bugOn_of_not hmany, Checked.ok_bind, htype]
  simp only
  unfold commitFullLogFooter
  simp only
  rw [contents_eq_ok.2 hfooter, Checked.ok_bind, commitBackups_of_none hbackup]
  exact ⟨_, rfl⟩

theorem commitHeaderLog_superblock {kind : SegType} {a : SegsArray} {segIndex pages : Nat}
    {hdr footer : Bytes} (hseg : segIndex < a.segsCapacity) (hpeb : 0 < (a.segs segIndex).pebsCapacity)
    (htype : (a.segs segIndex).segType = some .superblock)
    (hbackup : src.blkbmapBackup = false ∧ src.blk2offBackup = false)
    (hlogPages : 0 < src.sbLogPages.toNat) (hheader : (peb.extents .segHeader).buf = some hdr)
    (hfooter : (peb.extents .logFooter).buf = some footer)
    (hpages : calculateLogPages layout kind peb = .ok pages) (hfew : pages < ushrtMax)
    (hareas : ∀ k ∈ SegHdr.areas, k ≠ .logFooter → 0 < (peb.extents k).bytesCount.toNat → ∃ desc,
      prepareMetadataDescriptor crc32 layout src (some .superblock) (peb.extents k) k = .ok desc)
    (hplaced : (peb.extents .logFooter).Placed layout) :
    ∃ peb', commitHeaderLog crc32 layout src kind a segIndex peb = .ok peb' := by
  have hkeep : ∀ {k buf}, k ≠ .segHeader → (peb.setBuf .segHeader buf).extents k = peb.extents k :=
    fun hk => PebContent.extents_setBuf_of_ne hk
  obtain ⟨hdr₁, hpre⟩ : ∃ hdr₁, preCommitSegmentHeader src kind a segIndex 0 peb =
      .ok (peb.setBuf .segHeader hdr₁) := by
    unfold preCommitSegmentHeader
    rw [failIf_of_not (Nat.not_le.2 hseg), Checked.ok_bind, failIf_of_not (Nat.not_le.2 hpeb),
      Checked.ok_bind, contents_eq_ok.2 hheader]
    exact ⟨_, rfl⟩
  have hfoot₁ : ((peb.setBuf .segHeader hdr₁).extents .logFooter).buf = some footer := by
    rw [hkeep (by decide), hfooter]
  have hpreFooter : preCommitLogFooter a segIndex 0 (peb.setBuf .segHeader hdr₁) = .ok () := by
    unfold preCommitLogFooter
    rw [failIf_of_not (Nat.not_le.2 hseg), Checked.ok_bind, failIf_of_not (Nat.not_le.2 hpeb),
      Checked.ok_bind, contents_eq_ok.2 hfoot₁]
    rfl
  have hpages₁ : calculateLogPages layout kind (peb.setBuf .segHeader hdr₁) = .ok pages := by
    rw [calculateLogPages_congr (Rewritten.setBuf (ExtentIndex.mem_all .segHeader)).size, hpages]
  obtain ⟨footer₁, hcommitFooter⟩ := commitLogFooter_superblock htype hbackup hfew hfoot₁
  obtain ⟨peb', hcommitHeader⟩ : ∃ peb', commitSegmentHeader crc32 layout src (some .superblock) pages
      ((peb.setBuf .segHeader hdr₁).setBuf .logFooter footer₁) = .ok peb' := by
    refine commitSegmentHeader_superblock hlogPages (?_ : _ = some hdr₁) hfew fun k hk hpos => ?_
    · rw [PebContent.extents_setBuf_of_ne (by decide), PebContent.extents_setBuf_self]
    · by_cases hne : k = .logFooter
      · subst hne
        refine ⟨_, prepareDescriptor_eq_ok.2 ⟨?_, footer₁, ?_, rfl⟩⟩
        · rw [PebContent.extents_setBuf_self, hkeep (by decide)]
          exact hplaced
        · rw [PebContent.extents_setBuf_self]
      · have hsame : ((peb.setBuf .segHeader hdr₁).setBuf .logFooter footer₁).extents k =
            peb.extents k := by
          have hheader : k ≠ .segHeader := by
            rintro rfl
            exact absurd hk (by decide)
          rw [PebContent.extents_setBuf_of_ne hne, hkeep hheader]
        rw [hsame] at hpos ⊢
        exact hareas k hk hne hpos
  refine ⟨peb', ?_⟩
  unfold commitHeaderLog
  rw [hpre, Checked.ok_bind, hpreFooter, Checked.ok_bind, hpages₁, Checked.ok_bind, hcommitFooter,
    Checked.ok_bind, htype, hcommitHeader]

end

end Ssdfs
