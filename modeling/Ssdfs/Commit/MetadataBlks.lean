import Mathlib.Data.Nat.ModEq
import Ssdfs.Commit.Thresholds

namespace Ssdfs

open Memory Align

namespace PebContent

def payloadPages (page : Nat) (peb : PebContent) : Nat := (peb.size .logPayload + (page - 1)) / page

/-- A log of a table has no cache of the mapping table, and it fits into the erase block. -/
structure TableLog (peb : PebContent) (layout : VolumeLayout) (segType : SegType) : Prop where
  cache : peb.size .maptblCache = 0
  fits : logEnd (logPageSize layout segType) peb.size ≤ layout.env.eraseSize.toNat

def HasMetadataBlks (peb : PebContent) (k : ExtentIndex) (blks : Nat) : Prop :=
  ∃ buf, (peb.extents k).buf = some buf ∧
    (BlockBitmapFragment.wire.read buf blkBmapHdrSize).metadataBlks.toNat = blks

/-- The block bitmap, and its copy if there is one, record the pages that are no payload. -/
def CountsMetadataBlks (peb : PebContent) (layout : VolumeLayout) (src : CommitSource)
    (segType : SegType) : Prop :=
  ∃ pages, calculateLogPages layout segType peb = .ok pages ∧
    peb.HasMetadataBlks .blockBitmap (pages - peb.payloadPages (logPageSize layout segType)) ∧
    (src.blkbmapBackup = true →
      peb.HasMetadataBlks .blockBitmapBackup (pages - peb.payloadPages (logPageSize layout segType)))

/-- The block descriptors need no page of their own, and sixteen bits hold the number of pages. -/
structure DescriptorsShare (peb : PebContent) (page : Nat) : Prop where
  share : padTo page (itemsEnd peb.size) =
    padTo page (peb.size .segHeader + peb.size .blockBitmap + peb.size .offsetTable)
  few : padTo page (itemsEnd peb.size) / page + padTo page (peb.size .logFooter +
    peb.size .blockBitmapBackup + peb.size .offsetTableBackup) / page < 65536

end PebContent

section

variable {crc32 : UInt32 → List UInt8 → UInt32} {layout : VolumeLayout} {src : CommitSource}
  {segType : SegType} {peb peb' peb'' : PebContent} {k : ExtentIndex} {ks ks' : List ExtentIndex}
  {blks n : Nat} {buf : Bytes}

theorem logPageSize_ge (layout : VolumeLayout) (segType : SegType) :
    4096 ≤ logPageSize layout segType := by
  unfold logPageSize
  split
  · exact Nat.le_refl _
  · exact Nat.le_refl _
  · exact layout.pageSize.bytes_ge

theorem logPageSize_dvd (layout : VolumeLayout) (segType : SegType) :
    logPageSize layout segType ∣ 4294967296 := by
  unfold logPageSize
  split
  · decide
  · decide
  · cases layout.pageSize <;> decide

theorem logPageSize_pos (layout : VolumeLayout) (segType : SegType) : 0 < logPageSize layout segType :=
  Nat.lt_of_lt_of_le (by decide) (logPageSize_ge layout segType)

/-- Only the buffers of the extents `ks` have been written. -/
structure Rewritten (ks : List ExtentIndex) (peb peb' : PebContent) : Prop where
  size : peb'.size = peb.size
  keeps : ∀ k, k ∉ ks → peb'.extents k = peb.extents k

theorem PebContent.HasMetadataBlks.unique {m : Nat} (h : peb.HasMetadataBlks k n)
    (h' : peb.HasMetadataBlks k m) : n = m := by
  obtain ⟨buf, hbuf, hn⟩ := h
  obtain ⟨buf', hbuf', hm⟩ := h'
  obtain rfl := Option.some.inj (hbuf.symm.trans hbuf')
  exact hn.symm.trans hm

namespace Rewritten

theorem refl : Rewritten ks peb peb := ⟨rfl, fun _ _ => rfl⟩

theorem setBuf (hk : k ∈ ks) : Rewritten ks peb (peb.setBuf k buf) where
  size := by
    funext j
    by_cases hj : j = k
    · subst hj
      unfold PebContent.size
      rw [PebContent.extents_setBuf_self]
    · unfold PebContent.size
      rw [PebContent.extents_setBuf_of_ne hj]
  keeps j hj := by
    apply PebContent.extents_setBuf_of_ne
    rintro rfl
    exact hj hk

theorem trans (h : Rewritten ks peb peb') (h' : Rewritten ks peb' peb'') : Rewritten ks peb peb'' where
  size := h'.size.trans h.size
  keeps k hk := (h'.keeps k hk).trans (h.keeps k hk)

theorem metadataBlks (h : Rewritten ks peb peb') (hk : k ∉ ks) :
    peb'.HasMetadataBlks k n ↔ peb.HasMetadataBlks k n := by
  unfold PebContent.HasMetadataBlks
  rw [h.keeps k hk]

end Rewritten

theorem calculateMetadataBlks_congr (h : peb'.size = peb.size) :
    calculateMetadataBlks layout segType peb' = calculateMetadataBlks layout segType peb := by
  unfold calculateMetadataBlks
  rw [h]

theorem calculateLogPages_congr (h : peb'.size = peb.size) :
    calculateLogPages layout segType peb' = calculateLogPages layout segType peb := by
  unfold calculateLogPages
  rw [h]

theorem commitBlockBitmap_ok (hk : k ∈ ks) (h : commitBlockBitmap layout k blks peb = .ok peb') :
    Rewritten ks peb peb' ∧ peb'.HasMetadataBlks k (Word.u16 blks) := by
  obtain ⟨buf, -, h⟩ := Checked.bind_eq_ok.1 h
  obtain ⟨-, h⟩ := bugOn_bind_eq_ok.1 h
  cases h
  refine ⟨Rewritten.setBuf hk, _, by rw [PebContent.extents_setBuf_self], ?_⟩
  rw [Wire.read_write]
  exact UInt32.toNat_ofNat_of_lt' (Nat.lt_trans (Word.u16_lt blks) (by decide))

theorem commitOffsetTable_rewritten (hk : k ∈ ks) (h : commitOffsetTable crc32 k peb = .ok peb') :
    Rewritten ks peb peb' := by
  obtain ⟨buf, -, h⟩ := Checked.bind_eq_ok.1 h
  cases h
  exact Rewritten.setBuf hk

theorem commitOffsetTableBackup_rewritten (hk : .offsetTableBackup ∈ ks)
    (h : commitOffsetTableBackup crc32 src peb = .ok peb') : Rewritten ks peb peb' := by
  unfold commitOffsetTableBackup at h
  split at h
  · exact commitOffsetTable_rewritten hk h
  · cases h
    exact Rewritten.refl

theorem commitBlockBitmapBackup_ok (hk : .blockBitmapBackup ∈ ks)
    (h : commitBlockBitmapBackup layout src blks peb = .ok peb') :
    Rewritten ks peb peb' ∧ (src.blkbmapBackup = true → peb'.HasMetadataBlks .blockBitmapBackup
      (Word.u16 blks)) := by
  unfold commitBlockBitmapBackup at h
  split at h
  · obtain ⟨hrewritten, hblks⟩ := commitBlockBitmap_ok hk h
    exact ⟨hrewritten, fun _ => hblks⟩
  · rename_i hnone
    cases h
    exact ⟨Rewritten.refl, fun hbackup => absurd hbackup hnone⟩

theorem commitLogFooter_rewritten {seg : SegmentDesc} (hk : .logFooter ∈ ks)
    (h : commitLogFooter crc32 layout src seg blks peb = .ok peb') : Rewritten ks peb peb' := by
  have hfull : ∀ {segType}, commitFullLogFooter crc32 layout src segType blks peb = .ok peb' →
      Rewritten ks peb peb' := fun h => by
    obtain ⟨⟨buf, rfl⟩, -⟩ := commitFullLogFooter_ok h
    exact Rewritten.setBuf hk
  have hpart : commitPartialLogHeader crc32 layout src seg blks peb = .ok peb' →
      Rewritten ks peb peb' := fun h => by
    obtain ⟨⟨buf, rfl⟩, -⟩ := commitPartialLogHeader_ok h
    exact Rewritten.setBuf hk
  obtain ⟨-, h⟩ := bugOn_bind_eq_ok.1 h
  split at h
  · exact hfull h
  · exact hfull h
  · split at h
    · exact hpart h
    · exact hfull h
  · split at h
    · exact hpart h
    · exact hfull h
  · cases h
    exact Rewritten.refl

theorem commitSegmentHeader_rewritten {metaIndex : Option MetaIndex} (hk : .segHeader ∈ ks)
    (h : commitSegmentHeader crc32 layout src metaIndex blks peb = .ok peb') :
    Rewritten ks peb peb' := by
  obtain ⟨hdr, rfl, -⟩ := commitSegmentHeader_described h
  exact Rewritten.setBuf hk

variable {logs : MetaLogs} {a : SegsArray} {segIndex pebIndex : Nat}

theorem preCommitSegmentHeader_rewritten (hk : .segHeader ∈ ks)
    (h : preCommitSegmentHeader src segType a segIndex pebIndex peb = .ok peb') :
    Rewritten ks peb peb' := by
  obtain ⟨-, h⟩ := failIf_bind_eq_ok.1 h
  obtain ⟨-, h⟩ := failIf_bind_eq_ok.1 h
  obtain ⟨buf, -, h⟩ := Checked.bind_eq_ok.1 h
  cases h
  exact Rewritten.setBuf hk

theorem defineMigrationThreshold_rewritten {threshold : UInt16} (hk : .logFooter ∈ ks)
    (h : defineMigrationThreshold threshold peb = .ok peb') : Rewritten ks peb peb' := by
  obtain ⟨buf, -, h⟩ := Checked.bind_eq_ok.1 h
  cases h
  exact Rewritten.setBuf hk

theorem commitPeb_metadataBlks (h : commitPeb crc32 layout src logs a segIndex pebIndex peb = .ok peb') :
    ∃ blks pages, calculateMetadataBlks layout logs.segType peb = .ok blks ∧
      calculateLogPages layout logs.segType peb = .ok pages ∧ peb'.size = peb.size ∧
      peb'.HasMetadataBlks .blockBitmap (Word.u16 blks) ∧
      (src.blkbmapBackup = true → peb'.HasMetadataBlks .blockBitmapBackup (Word.u16 blks)) := by
  obtain ⟨peb₇, hareas, h⟩ := Checked.bind_eq_ok.1 h
  obtain ⟨pages, hpages, h⟩ := Checked.bind_eq_ok.1 h
  obtain ⟨peb₈, hfooter, h⟩ := Checked.bind_eq_ok.1 h
  obtain ⟨peb₁, hheader, hareas⟩ := Checked.bind_eq_ok.1 hareas
  obtain ⟨_, -, hareas⟩ := Checked.bind_eq_ok.1 hareas
  obtain ⟨payload, -, hareas⟩ := Checked.bind_eq_ok.1 hareas
  obtain ⟨_, -, hareas⟩ := Checked.bind_eq_ok.1 hareas
  obtain ⟨peb₃, hthreshold, hareas⟩ := Checked.bind_eq_ok.1 hareas
  obtain ⟨blks, hblks, hareas⟩ := Checked.bind_eq_ok.1 hareas
  obtain ⟨peb₄, hbitmap, hareas⟩ := Checked.bind_eq_ok.1 hareas
  obtain ⟨peb₅, htable, hareas⟩ := Checked.bind_eq_ok.1 hareas
  obtain ⟨peb₆, hbackup, hareas⟩ := Checked.bind_eq_ok.1 hareas
  have hbefore : Rewritten ExtentIndex.all peb peb₃ :=
    ((preCommitSegmentHeader_rewritten (ExtentIndex.mem_all _) hheader).trans
      (Rewritten.setBuf (ExtentIndex.mem_all .logPayload))).trans
        (defineMigrationThreshold_rewritten (ExtentIndex.mem_all _) hthreshold)
  obtain ⟨hrewritten, hmain⟩ := commitBlockBitmap_ok (ExtentIndex.mem_all _) hbitmap
  have hend : ∀ {ks}, .offsetTableBackup ∈ ks → .logFooter ∈ ks → .segHeader ∈ ks →
      Rewritten ks peb₆ peb' := fun htail hfoot hhead =>
    ((commitOffsetTableBackup_rewritten htail hareas).trans
      (commitLogFooter_rewritten hfoot hfooter)).trans (commitSegmentHeader_rewritten hhead h)
  have hmiddle : Rewritten [.offsetTable, .blockBitmapBackup, .offsetTableBackup, .logFooter, .segHeader]
      peb₄ peb' :=
    ((commitOffsetTable_rewritten (by decide) htable).trans
      (commitBlockBitmapBackup_ok (by decide) hbackup).1).trans
        (hend (by decide) (by decide) (by decide))
  have hclosing : Rewritten [.offsetTableBackup, .logFooter, .segHeader] peb₆ peb' :=
    hend (by decide) (by decide) (by decide)
  have hcopy := (commitBlockBitmapBackup_ok (ExtentIndex.mem_all _) hbackup).2
  have hsize : peb₄.size = peb.size := (hbefore.trans hrewritten).size
  have hareaSize : peb₇.size = peb₆.size :=
    (commitOffsetTableBackup_rewritten (ExtentIndex.mem_all _) hareas).size
  have hall : peb'.size = peb.size := hmiddle.size.trans hsize
  have hsame : peb₇.size = peb.size := hareaSize.trans (hclosing.size.symm.trans hall)
  refine ⟨blks, pages, ?_, ?_, hall, ?_, fun hhas => ?_⟩
  · rw [← calculateMetadataBlks_congr hbefore.size]
    exact hblks
  · rw [← calculateLogPages_congr hsame]
    exact hpages
  · exact (hmiddle.metadataBlks (by decide)).2 hmain
  · exact (hclosing.metadataBlks (by decide)).2 (hcopy hhas)

end

section

variable {layout : VolumeLayout} {segType : SegType} {peb : PebContent} {page blks pages x y : Nat}
  {size : ExtentIndex → Nat}

theorem padTo_pages (hpage : 0 < page) : padTo page x / page = (x + (page - 1)) / page :=
  Nat.mul_div_cancel _ hpage

theorem logEnd_parts (hpage : 0 < page) (hcache : size .maptblCache = 0) : logEnd page size =
    padTo page (itemsEnd size) + padTo page (size .logPayload) +
      padTo page (size .logFooter + size .blockBitmapBackup + size .offsetTableBackup) := by
  rw [logEnd_eq hpage]
  unfold payloadEnd
  rw [padTo_add hpage dvd_payloadStart, payloadStart_of_no_cache hcache]

theorem logEnd_limit (h : peb.TableLog layout segType) :
    logEnd (logPageSize layout segType) peb.size + logPageSize layout segType ≤ 4294967296 := by
  have hlt := Nat.lt_of_le_of_lt h.fits layout.env.eraseSize.toNat_lt
  obtain ⟨m, hm⟩ : logPageSize layout segType ∣ logEnd (logPageSize layout segType) peb.size := dvd_padTo
  obtain ⟨n, hn⟩ := logPageSize_dvd layout segType
  have hlt' : m < n := by
    apply Nat.lt_of_mul_lt_mul_left (a := logPageSize layout segType)
    rw [← hm, ← hn]
    exact hlt
  calc logEnd (logPageSize layout segType) peb.size + logPageSize layout segType
      = logPageSize layout segType * (m + 1) := by rw [hm, Nat.mul_succ]
    _ ≤ logPageSize layout segType * n := Nat.mul_le_mul_left _ hlt'
    _ = 4294967296 := hn.symm

theorem calculateLogPages_parts (h : peb.TableLog layout segType)
    (hpages : calculateLogPages layout segType peb = .ok pages) :
    pages = padTo (logPageSize layout segType) (itemsEnd peb.size) / logPageSize layout segType +
      peb.payloadPages (logPageSize layout segType) +
      padTo (logPageSize layout segType) (peb.size .logFooter + peb.size .blockBitmapBackup +
        peb.size .offsetTableBackup) / logPageSize layout segType := by
  have hpage := logPageSize_pos layout segType
  obtain ⟨-, hpages⟩ := bugOn_bind_eq_ok.1 hpages
  rw [logBytesCount_eq hpage (logEnd_limit h) (Nat.le_refl _), logEnd_parts hpage h.cache] at hpages
  rw [← Except.ok.inj hpages, Nat.add_div_of_dvd_right (Nat.dvd_add dvd_padTo dvd_padTo),
    Nat.add_div_of_dvd_right dvd_padTo, padTo_pages (x := peb.size .logPayload) hpage]
  rfl

theorem calculateMetadataBlks_parts (h : peb.TableLog layout segType)
    (hblks : calculateMetadataBlks layout segType peb = .ok blks) :
    blks = padTo (logPageSize layout segType) (peb.size .segHeader + peb.size .blockBitmap +
        peb.size .offsetTable) / logPageSize layout segType +
      padTo (logPageSize layout segType) (peb.size .logFooter + peb.size .blockBitmapBackup +
        peb.size .offsetTableBackup) / logPageSize layout segType := by
  have hpage := logPageSize_pos layout segType
  have hlimit := logEnd_limit h
  rw [logEnd_parts hpage h.cache] at hlimit
  have hitems : padTo (logPageSize layout segType) (peb.size .segHeader + peb.size .blockBitmap +
      peb.size .offsetTable) ≤ padTo (logPageSize layout segType) (itemsEnd peb.size) :=
    padTo_mono hpage (Nat.le_add_right _ _)
  have hhead : peb.size .segHeader + peb.size .blockBitmap + peb.size .offsetTable ≤
      padTo (logPageSize layout segType) (peb.size .segHeader + peb.size .blockBitmap +
        peb.size .offsetTable) := le_padTo hpage
  have htail : peb.size .logFooter + peb.size .blockBitmapBackup + peb.size .offsetTableBackup ≤
      padTo (logPageSize layout segType) (peb.size .logFooter + peb.size .blockBitmapBackup +
        peb.size .offsetTableBackup) := le_padTo hpage
  obtain ⟨-, hblks⟩ := bugOn_bind_eq_ok.1 hblks
  have hround : roundUp32 (logPageSize layout segType) (Word.u32 (Word.u32 (peb.size .segHeader +
      peb.size .blockBitmap) + peb.size .offsetTable)) = padTo (logPageSize layout segType)
      (peb.size .segHeader + peb.size .blockBitmap + peb.size .offsetTable) := by
    rw [Word.u32_of_lt (by omega : peb.size .segHeader + peb.size .blockBitmap < 4294967296),
      Word.u32_of_lt (by omega), roundUp32_eq hpage (by omega)]
  have hagain : roundUp32 (logPageSize layout segType) (Word.u32 (padTo (logPageSize layout segType)
      (peb.size .segHeader + peb.size .blockBitmap + peb.size .offsetTable))) =
      padTo (logPageSize layout segType) (peb.size .segHeader + peb.size .blockBitmap +
        peb.size .offsetTable) := by
    rw [Word.u32_of_lt (by omega), roundUp32_eq hpage (by omega), padTo_padTo hpage]
  have hfooter : Word.u32 (padTo (logPageSize layout segType) (peb.size .segHeader +
      peb.size .blockBitmap + peb.size .offsetTable) + peb.size .logFooter) = _ := Word.u32_of_lt (by omega)
  have hsum : Word.u32 (Word.u32 (Word.u32 (padTo (logPageSize layout segType) (peb.size .segHeader +
      peb.size .blockBitmap + peb.size .offsetTable) + peb.size .logFooter) +
      peb.size .blockBitmapBackup) + peb.size .offsetTableBackup) = padTo (logPageSize layout segType)
      (peb.size .segHeader + peb.size .blockBitmap + peb.size .offsetTable) + (peb.size .logFooter +
        peb.size .blockBitmapBackup + peb.size .offsetTableBackup) := by
    rw [hfooter, Word.u32_of_lt (by omega : padTo _ _ + peb.size .logFooter +
      peb.size .blockBitmapBackup < 4294967296), Word.u32_of_lt (by omega)]
    omega
  rw [← Except.ok.inj hblks, h.cache, Nat.add_zero, hround, hagain, hsum, Word.u32_of_lt (by omega),
    Nat.add_assoc (padTo _ _), Nat.add_div_of_dvd_right dvd_padTo,
    padTo_pages (x := peb.size .logFooter + _ + _) hpage]

variable {crc32 : UInt32 → List UInt8 → UInt32} {src : CommitSource} {logs : MetaLogs} {a : SegsArray}
  {segIndex pebIndex : Nat} {peb' : PebContent}

/-- The number of metadata blocks is that of the pages without payload exactly if the block descriptors
end in the last page of what comes before them. -/
theorem commitPeb_metadataBlks_iff (hlog : peb.TableLog layout logs.segType)
    (h : commitPeb crc32 layout src logs a segIndex pebIndex peb = .ok peb') :
    peb'.CountsMetadataBlks layout src logs.segType ↔
      peb.DescriptorsShare (logPageSize layout logs.segType) := by
  have hpage := logPageSize_pos layout logs.segType
  obtain ⟨blks, pages, hblks, hpages, hsize, hmain, hcopy⟩ := commitPeb_metadataBlks h
  have hparts := calculateLogPages_parts hlog hpages
  have hcount := calculateMetadataBlks_parts hlog hblks
  have hpayload : peb'.payloadPages (logPageSize layout logs.segType) =
      peb.payloadPages (logPageSize layout logs.segType) := by
    unfold PebContent.payloadPages
    rw [hsize]
  have hle : padTo (logPageSize layout logs.segType) (peb.size .segHeader + peb.size .blockBitmap +
      peb.size .offsetTable) ≤ padTo (logPageSize layout logs.segType) (itemsEnd peb.size) :=
    padTo_mono hpage (Nat.le_add_right _ _)
  have hdiv := Nat.div_le_div_right (c := logPageSize layout logs.segType) hle
  have hrest : pages - peb.payloadPages (logPageSize layout logs.segType) =
      padTo (logPageSize layout logs.segType) (itemsEnd peb.size) / logPageSize layout logs.segType +
        padTo (logPageSize layout logs.segType) (peb.size .logFooter + peb.size .blockBitmapBackup +
          peb.size .offsetTableBackup) / logPageSize layout logs.segType := by omega
  constructor
  · rintro ⟨pages', hpages', hblks', -⟩
    rw [calculateLogPages_congr hsize, hpages] at hpages'
    obtain rfl := Except.ok.inj hpages'
    have heq := hmain.unique hblks'
    rw [hpayload, hrest] at heq
    have hlt := Word.u16_lt blks
    have hsmall := Word.u16_of_lt (n := blks) (by omega)
    refine ⟨?_, by omega⟩
    rw [← Nat.div_mul_cancel (dvd_padTo (a := logPageSize layout logs.segType) (x := itemsEnd peb.size)),
      ← Nat.div_mul_cancel (dvd_padTo (a := logPageSize layout logs.segType)
        (x := peb.size .segHeader + peb.size .blockBitmap + peb.size .offsetTable))]
    apply congrArg (· * logPageSize layout logs.segType)
    omega
  · rintro ⟨hshare, hfew⟩
    rw [← hshare] at hcount
    rw [← hcount] at hrest hfew
    rw [Word.u16_of_lt hfew] at hmain hcopy
    refine ⟨pages, (calculateLogPages_congr hsize).trans hpages, ?_, ?_⟩
    · rw [hpayload, hrest]
      exact hmain
    · rw [hpayload, hrest]
      exact hcopy

end

def describedLog (blkDescs start payload : UInt32) : PebContent where
  lebId := 0
  pebId := 0
  extents k :=
    { buf := some fun i => if k = .logPayload then tablePayload .segbmap i else 0
      offset := match k with
        | .blockBitmap => 2048
        | .offsetTable => 2112
        | .blockDescriptors => 2312
        | .logPayload => start
        | .logFooter => start + payload
        | _ => 0
      bytesCount := match k with
        | .segHeader => 2048
        | .blockBitmap => 64
        | .offsetTable => 200
        | .blockDescriptors => blkDescs
        | .logPayload => payload
        | .logFooter => 2048
        | _ => 0 }

def commitPages (pages : UInt16) : CommitSource := { commit32 with segbmapLogPages := pages }

theorem describedLog_commit :
    (∃ peb, commitPeb crc32 eightPebs (commitPages 3) (segbmapLogs crc32 oneFragment 2)
      tableLogs 0 0 (describedLog 320 4096 4096) = .ok peb) ∧
    ∃ peb, commitPeb crc32 eightPebs (commitPages 31) (segbmapLogs crc32 oneFragment 2)
      tableLogs 0 0 (describedLog 2048 8192 114688) = .ok peb :=
  ⟨Checked.exists_ok rfl, Checked.exists_ok rfl⟩

theorem commitPeb_metadataBlks_320 : ∃ peb,
    commitPeb crc32 eightPebs (commitPages 3) (segbmapLogs crc32 oneFragment 2) tableLogs 0 0
        (describedLog 320 4096 4096) = .ok peb ∧
      peb.CountsMetadataBlks eightPebs (commitPages 3) .segbmap := by
  obtain ⟨⟨peb, h⟩, -⟩ := describedLog_commit
  exact ⟨peb, h, (commitPeb_metadataBlks_iff ⟨by decide, by decide⟩ h).2 ⟨by decide, by decide⟩⟩

/-- Twenty-eight descriptors begin a second page, which is not counted. -/
theorem commitPeb_metadataBlks_2048 : ∃ peb,
    commitPeb crc32 eightPebs (commitPages 31) (segbmapLogs crc32 oneFragment 2) tableLogs 0 0
        (describedLog 2048 8192 114688) = .ok peb ∧
      ¬peb.CountsMetadataBlks eightPebs (commitPages 31) .segbmap := by
  obtain ⟨-, peb, h⟩ := describedLog_commit
  refine ⟨peb, h, ?_⟩
  rintro ⟨pages, hpages, hblks, -⟩
  obtain ⟨blks, pages', hmeta, hlog, hsize, hmain, -⟩ := commitPeb_metadataBlks h
  have hsame := (calculateLogPages_congr hsize).symm.trans hpages
  obtain rfl := Except.ok.inj (hlog.symm.trans hsame)
  have hpages31 : calculateLogPages eightPebs .segbmap (describedLog 2048 8192 114688) = .ok 31 := by decide +kernel
  have hmeta2 : calculateMetadataBlks eightPebs .segbmap (describedLog 2048 8192 114688) = .ok 2 := by decide +kernel
  obtain rfl := Except.ok.inj (hmeta.symm.trans hmeta2)
  obtain rfl := Except.ok.inj (hlog.symm.trans hpages31)
  have hpayload : peb.payloadPages (logPageSize eightPebs .segbmap) = 28 := by
    unfold PebContent.payloadPages
    rw [hsize]
    rfl
  have heq := hmain.unique hblks
  rw [hpayload] at heq
  exact absurd heq (by decide)

end Ssdfs
