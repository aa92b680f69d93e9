import Ssdfs.Lib.Chunks
import Ssdfs.LogTables.Payload
import Ssdfs.Segbmap.Coverage

namespace Ssdfs

/-- Both tables of every log agree, and the pages go on from log to log. -/
structure TablesAgree (logs : List LogTables) : Prop where
  agree : ∀ log ∈ logs, log.Agree
  pages : logs.flatMap LogTables.pages = List.range (logs.flatMap LogTables.pages).length

/-- The logs of a table whose geometry an allocation policy has accepted, with the number of
segments that they are spread over. -/
inductive MetadataLogs (crc32 : List UInt8 → UInt32) (layout : VolumeLayout) (a : SegsArray) :
    PayloadSource → Nat → List LogTables → Prop
  | segbmap {requested : UInt16} {g : SegbmapGeometry} {segs : Nat} {logs : List LogTables}
      (hpolicy : segbmapMkfsAllocationPolicy layout requested = .ok (g, segs))
      (hlogs : segbmapDefineLogTables crc32 layout a g = .ok logs) :
      MetadataLogs crc32 layout a (segbmapPayload g) (a.metaArray .segbmap).segsCount logs
  | maptbl {fuel segs : Nat} {layout₀ : VolumeLayout} {a₀ a₁ : SegsArray} {logs : List LogTables}
      (hpolicy : maptblMkfsAllocationPolicy fuel layout₀ a₀ = .ok (layout, a₁, segs))
      (hlogs : maptblDefineLogTables crc32 layout a = .ok logs) :
      MetadataLogs crc32 layout a (maptblPayload layout) (a.metaArray .pebMappingTable).segsCount logs

/-- There is one log, or no descriptor is stored, or one fragment for each PEB keeps the two
offsets in step. -/
def AgreeWhen (layout : VolumeLayout) (src : PayloadSource) (segsCount : Nat) : Prop :=
  let pebs := min src.fragmentsCount (segsCount * src.pebsPerSeg)
  let validBlks := Word.u16 (src.validBlks layout)
  pebs ≤ 1 ∨ validBlks = 0 ∨ validBlks = 60 ∨
    src.fragmentsPerPeb = 1 ∧ validBlks % 60 ≠ 0 ∧ pebs * src.fragmentSize ≤ 4294967296

section

variable {N page m f v P p k : Nat}

theorem u32_pages (hN : 4294967296 = N * page) (hpage : 0 < page) :
    Word.u32 (Word.u32 (p * page) + k * page) / page = (p + k) % N := by
  rw [u32_add_u32, ← Nat.add_mul]
  unfold Word.u32
  rw [hN, Nat.mul_mod_mul_right, Nat.mul_div_cancel _ hpage]

/-- The page of block `k` in the log of PEB `p` by the one table and by the other. -/
theorem pages_agree_iff (hm : 0 < m) (hf : 0 < f) (hv : f * m ≤ 253) (hN : 131072 ≤ N)
    (hN' : N ≤ 4294967296) :
    (∀ p < P, ∀ k < storedBlks (f * m),
        Word.u32 (p * m + k) = (p * (f * m) + k) % N ∧
        (p * (f * m) + k) % N = p * storedBlks (f * m) + k) ↔
      P ≤ 1 ∨ f * m = 60 ∨ f = 1 ∧ f * m % 60 ≠ 0 ∧ P * m ≤ N := by
  have hpos := Nat.mul_pos hf hm
  have hle := storedBlks_le (f * m)
  have hmle := Nat.le_mul_of_pos_left m hf
  constructor
  · intro h
    by_contra hnot
    simp only [not_or] at hnot
    obtain ⟨hP, h60, hnot⟩ := hnot
    have hstored : 0 < storedBlks (f * m) := Nat.pos_of_ne_zero fun h => by
      rcases storedBlks_eq_zero_iff.1 h with h0 | h0 <;> omega
    -- The second log tells the offsets apart, the last block the width of a word.
    obtain ⟨hplace, hnext⟩ := h 1 (by omega) 0 hstored
    rw [Nat.one_mul, Nat.one_mul, Nat.add_zero, Nat.mod_eq_of_lt (by omega)] at hnext
    rw [Nat.one_mul, Nat.one_mul, Nat.add_zero, Nat.add_zero, Word.u32_of_lt (by omega),
      Nat.mod_eq_of_lt (by omega)] at hplace
    have hrest := (storedBlks_eq_self_iff hpos).1 (by omega)
    have hf1 : f = 1 := Nat.eq_of_mul_eq_mul_right hm (by omega)
    obtain ⟨-, hlast⟩ := h (P - 1) (by omega) (storedBlks (f * m) - 1) (by omega)
    obtain ⟨q, rfl⟩ := Nat.exists_eq_succ_of_ne_zero (show P ≠ 0 by omega)
    rw [Nat.succ_sub_one, (storedBlks_eq_self_iff hpos).2 hrest] at hlast
    have hlt := Nat.mod_lt (q * (f * m) + (f * m - 1)) (show 0 < N by omega)
    refine hnot ⟨hf1, hrest, ?_⟩
    rw [hplace, Nat.succ_mul]
    omega
  · rintro (hP | h60 | ⟨rfl, hrest, hend⟩) p hp k hk
    · have hp0 : p = 0 := by omega
      subst hp0
      simp only [Nat.zero_mul, Nat.zero_add]
      rw [Word.u32_of_lt (by omega), Nat.mod_eq_of_lt (by omega)]
      exact ⟨rfl, rfl⟩
    · rw [storedBlks_eq_zero_iff.2 (.inr h60)] at hk
      omega
    · rw [Nat.one_mul] at *
      rw [(storedBlks_eq_self_iff hm).2 hrest] at *
      have hnext := Nat.mul_le_mul_right m (Nat.succ_le_of_lt hp)
      rw [Nat.succ_mul] at hnext
      rw [Nat.mod_eq_of_lt (by omega)]
      exact ⟨Word.u32_of_lt (by omega), rfl⟩

end

section

variable {crc32 : List UInt8 → UInt32} {layout : VolumeLayout} {a : SegsArray}
  {src : PayloadSource} {startSegIndex m p N : Nat} {log : LogTables}

theorem LogWritten.start_lt (h : LogWritten crc32 layout a src startSegIndex p log) :
    Word.u32 (p % src.pebsPerSeg * src.validBlks layout) < Word.u16Max := by
  obtain ⟨-, h⟩ := failIf_bind_eq_ok.1 h.offsetTable
  obtain ⟨-, h⟩ := failIf_bind_eq_ok.1 h
  obtain ⟨-, h⟩ := bugOn_bind_eq_ok.1 h
  obtain ⟨hlt, -⟩ := bugOn_bind_eq_ok.1 h
  rw [UInt32.toNat_ofNat_of_lt' (Word.u32_lt _)] at hlt
  exact Nat.not_le.1 hlt

theorem LogWritten.offsets_written (h : LogWritten crc32 layout a src startSegIndex p log) :
    ∃ extent, preCommitOffsetTable crc32 layout (p % src.pebsPerSeg) extent
      (UInt64.ofNat (Word.u64 (p * src.fragmentSize)))
      (UInt32.ofNat (Word.u32 (p % src.pebsPerSeg * src.validBlks layout)))
      (UInt16.ofNat (src.validBlks layout))
      (UInt32.ofNat (Word.u32 (src.pebsPerSeg * src.validBlks layout)))
      (UInt32.ofNat (Word.sub32 (Word.u32 (src.pebsPerSeg * src.validBlks layout)) 1)) =
        .ok log.offsetTable := by
  obtain ⟨-, h⟩ := failIf_bind_eq_ok.1 h.offsetTable
  obtain ⟨-, h⟩ := failIf_bind_eq_ok.1 h
  exact ⟨_, h⟩

theorem LogWritten.used_le (h : LogWritten crc32 layout a src startSegIndex p log)
    (hvalid : Word.u16 (src.validBlks layout) ≠ 0) :
    Word.u32 (src.pebsPerSeg * src.validBlks layout) ≤ 253 ∧
      p % src.pebsPerSeg < Word.u16Max ∧
      Word.u16 (src.validBlks layout) ≤ layout.env.eraseSize.toNat / layout.pageSize.bytes := by
  obtain ⟨extent, h⟩ := h.offsets_written
  have hpos : 1 ≤ (UInt16.ofNat (src.validBlks layout)).toNat := Nat.pos_of_ne_zero hvalid
  have haccepted := preCommitOffsetTable_accepted hpos h
  obtain ⟨-, hused⟩ := Nat.le_min.1 haccepted.used_le
  simp only [UInt32.toNat_ofNat_of_lt' (Word.u32_lt _)] at hused
  obtain ⟨-, h⟩ := bugOn_bind_eq_ok.1 h
  obtain ⟨-, h⟩ := bugOn_bind_eq_ok.1 h
  obtain ⟨-, h⟩ := bugOn_bind_eq_ok.1 h
  obtain ⟨hfit, -⟩ := failIf_bind_eq_ok.1 h
  exact ⟨hused, haccepted.pebIndex, Nat.not_lt.1 hfit⟩

theorem PayloadSource.Sound.narrow (hsound : src.Sound layout m) (hsizes : layout.SizesAccepted)
    {desc : MetadataDesc} {logs : List LogTables}
    (hrun : defineLogTables crc32 layout a src desc = .ok logs) (hlogs : logs ≠ [])
    (hvalid : Word.u16 (src.validBlks layout) ≠ 0) :
    src.fragmentsPerPeb * m < 65536 ∧ src.pebsPerSeg * (src.fragmentsPerPeb * m) < 4294967296 := by
  have hv := hsound.validBlks_eq
  rcases hsound.room with hroom | ⟨hpebs, hsingle⟩
  · exact hroom
  obtain ⟨hlength, hwritten⟩ := defineLogTables_run hrun
  have hpos : 0 < logs.length := List.length_pos_of_ne_nil hlogs
  obtain ⟨hused, -, hfit⟩ := (hwritten 0 hpos).used_le hvalid
  by_cases hone : src.pebsPerSeg = 1
  · rw [hone, Nat.one_mul, hv, Word.u32_of_lt (Nat.lt_trans hsound.blks_lt (by decide))] at hused
    rw [hone, Nat.one_mul]
    omega
  have hpebs_pos := hsound.pebs_pos
  have hcount : src.fragmentsCount ≠ 1 := fun h => hone (hsingle h)
  have hsegs := Nat.le_mul_of_pos_left src.pebsPerSeg (Nat.pos_of_ne_zero fun h : desc.segsCount = 0 => by
    rw [h, Nat.zero_mul, Nat.min_zero] at hlength
    omega)
  have hstart := (hwritten 1 (by omega)).start_lt
  rw [Nat.mod_eq_of_lt (by omega), Nat.one_mul, hv,
    Word.u32_of_lt (Nat.lt_trans hsound.blks_lt (by decide))] at hstart
  unfold Word.u16Max at hstart
  rw [hv, Word.u16_of_lt (by omega)] at hfit
  refine ⟨by omega, ?_⟩
  obtain ⟨k, hk, hle⟩ := hsizes.pebsPerSeg_eq
  rw [hpebs, hk]
  have hmul := Nat.mul_le_mul_left (2 ^ k) hfit
  have hdiv := Nat.mul_div_le_mul_div_assoc (2 ^ k) layout.env.eraseSize.toNat layout.pageSize.bytes
  have hquot := Nat.div_le_div hle layout.pageSize.bytes_ge (by decide)
  rw [Nat.mul_comm] at hquot
  omega

def startBlk (layout : VolumeLayout) (src : PayloadSource) (p : Nat) : Nat :=
  Word.u32 (p % src.pebsPerSeg * src.validBlks layout)

structure LogRead (layout : VolumeLayout) (src : PayloadSource) (m p : Nat) (log : LogTables) :
    Prop where
  offsets : log.offsets = (List.range (src.fragmentsPerPeb * m)).map
    (physOffset logBlkDescArea (Word.u32 (p * m)) (Word.u16 (startBlk layout src p)) 0)
  descriptors : log.descriptors = blockDescriptors
    ⟨p % src.pebsPerSeg, src.inodeId, UInt32.ofNat layout.pageSize.bytes, layout.pageSize.bytes,
      UInt32.ofNat (Word.u32 (p * src.pebBufferSize))⟩
    (startBlk layout src p) 0 (storedBlks (src.fragmentsPerPeb * m))

theorem LogWritten.read (h : LogWritten crc32 layout a src startSegIndex p log)
    (hsound : src.Sound layout m) (hp : p < src.fragmentsCount)
    (hvalid : src.fragmentsPerPeb * m < 65536)
    (hused : src.pebsPerSeg * (src.fragmentsPerPeb * m) < 4294967296) :
    src.fragmentsPerPeb * m ≤ 253 ∧ LogRead layout src m p log := by
  have hv := hsound.validBlks_eq
  have hpos := Nat.mul_pos hsound.fragments_pos hsound.pages_pos
  have hpebs := Nat.le_mul_of_pos_left (src.fragmentsPerPeb * m) hsound.pebs_pos
  obtain ⟨hle, hindex, -⟩ := h.used_le (by rw [hv, Word.u16_of_lt hvalid]; omega)
  rw [hv, Word.u32_of_lt hused] at hle
  have hblks : (UInt16.ofNat (src.validBlks layout)).toNat = src.fragmentsPerPeb * m := by
    rw [hv]
    exact UInt16.toNat_ofNat_of_lt' hvalid
  have hstart : (UInt32.ofNat (Word.u32 (p % src.pebsPerSeg * src.validBlks layout))).toNat =
    startBlk layout src p := UInt32.toNat_ofNat_of_lt' (Word.u32_lt _)
  have hbytes : (UInt64.ofNat (Word.u64 (p * src.fragmentSize))).toNat / layout.pageSize.bytes =
      p * m := by
    have hpage := layout.pageSize.bytes_ge
    have hsize := Nat.mul_le_mul (Nat.le_of_lt hsound.pages_lt) layout.pageSize.bytes_le
    have hprod := Nat.mul_le_mul (Nat.le_of_lt (Nat.lt_trans hp hsound.count_lt)) hsize
    rw [UInt64.toNat_ofNat_of_lt' (Word.u64_lt _), hsound.size,
      Word.u64_of_lt (Nat.lt_of_le_of_lt hprod (by decide)), ← Nat.mul_assoc,
      Nat.mul_div_cancel _ (by omega)]
  refine ⟨by omega, ?_, ?_⟩
  · obtain ⟨extent, hoffset⟩ := h.offsets_written
    obtain ⟨extents, hread⟩ := readOffsetTable_written (by omega) (by
      rw [hblks, hv, Word.u32_of_lt hused, UInt32.toNat_ofNat_of_lt' hused]
      exact hpebs) hoffset
    unfold LogTables.offsets
    rw [hread, hblks, hbytes, hstart]
  · have hread := readBlockDescriptors_written hindex (by omega) (by omega) h.blockDescriptors
    unfold LogTables.descriptors
    rw [hread, hblks, hstart]

theorem LogRead.page_eq (h : LogRead layout src m p log) (hsound : src.Sound layout m)
    (hN : 4294967296 = N * layout.pageSize.bytes) (hmax : src.fragmentsPerPeb * m ≤ 253)
    {k : Nat} (hk : k < storedBlks (src.fragmentsPerPeb * m))
    (hk' : k < log.descriptors.length) :
    log.descriptors[k].logicalOffset.toNat = (p * (src.fragmentsPerPeb * m) + k) % N := by
  have hpage := layout.pageSize.bytes_ge
  have hle := layout.pageSize.bytes_le
  have hstored := storedBlks_le (src.fragmentsPerPeb * m)
  have hoffset := Nat.mul_le_mul (show k ≤ 253 by omega) hle
  have hitem : (UInt32.ofNat layout.pageSize.bytes).toNat = layout.pageSize.bytes :=
    UInt32.toNat_ofNat_of_lt' (show layout.pageSize.bytes < 4294967296 by omega)
  have hpayload := UInt32.toNat_ofNat_of_lt' (Word.u32_lt (p * src.pebBufferSize))
  have hdiv := Nat.div_le_self
    (Word.u32 (Word.u32 (p * src.pebBufferSize) + k * layout.pageSize.bytes)) layout.pageSize.bytes
  have hlt := Word.u32_lt (Word.u32 (p * src.pebBufferSize) + k * layout.pageSize.bytes)
  simp only [h.descriptors, blockDescriptors, List.getElem_map, List.getElem_range,
    blockDescriptor, hitem, hpayload]
  rw [Nat.zero_add, Word.u32_of_lt (n := k * _) (by omega), UInt32.toNat_ofNat_of_lt'
    (show _ < 4294967296 by omega), hsound.pebBufferSize_eq, ← Nat.mul_assoc,
    u32_pages hN (by omega)]

theorem LogRead.length (h : LogRead layout src m p log) :
    log.descriptors.length = storedBlks (src.fragmentsPerPeb * m) := by
  rw [h.descriptors, blockDescriptors, List.length_map, List.length_range]

theorem LogRead.pages_eq (h : LogRead layout src m p log) (hsound : src.Sound layout m)
    (hN : 4294967296 = N * layout.pageSize.bytes) (hmax : src.fragmentsPerPeb * m ≤ 253) :
    log.pages = (List.range (storedBlks (src.fragmentsPerPeb * m))).map fun k =>
      (p * (src.fragmentsPerPeb * m) + k) % N := by
  unfold LogTables.pages
  refine List.ext_getElem (by simp [h.length]) fun k hk _ => ?_
  rw [List.length_map] at hk
  rw [List.getElem_map, List.getElem_map, List.getElem_range]
  exact h.page_eq hsound hN hmax (h.length ▸ hk) hk

theorem LogRead.agree_iff (h : LogRead layout src m p log) (hsound : src.Sound layout m)
    (hN : 4294967296 = N * layout.pageSize.bytes) (hmax : src.fragmentsPerPeb * m ≤ 253) :
    log.Agree ↔ ∀ k < storedBlks (src.fragmentsPerPeb * m),
      Word.u32 (p * m + k) = (p * (src.fragmentsPerPeb * m) + k) % N := by
  have hoffsets : log.offsets.length = src.fragmentsPerPeb * m := by
    rw [h.offsets, List.length_map, List.length_range]
  have hplace : ∀ k (hk : k < log.offsets.length),
      log.offsets[k].pageDesc.logicalOffset.toNat = Word.u32 (p * m + k) := fun k hk => by
    simp only [h.offsets, List.getElem_map, List.getElem_range, physOffset]
    exact (UInt32.toNat_ofNat' ..).trans (u32_add_u32 ..)
  have hblk : ∀ k (hk : k < log.offsets.length) (hk' : k < log.descriptors.length),
      log.offsets[k].pageDesc.logicalBlk = log.descriptors[k].pebPage := fun k hk hk' => by
    simp only [h.offsets, h.descriptors, blockDescriptors, blockDescriptor, List.getElem_map,
      List.getElem_range, physOffset]
    rw [← UInt16.toNat_inj, UInt16.toNat_ofNat', UInt16.toNat_ofNat']
    unfold Word.u16 Word.u32
    omega
  have hstored := storedBlks_le (src.fragmentsPerPeb * m)
  constructor
  · intro hagree k hk
    obtain ⟨hk', -, heq⟩ := hagree k (by rwa [h.length])
    rw [← hplace k hk', heq]
    exact h.page_eq hsound hN hmax hk (by rwa [h.length])
  · intro hall k hk
    have hk' : k < storedBlks (src.fragmentsPerPeb * m) := h.length ▸ hk
    refine ⟨by omega, hblk k _ hk, UInt32.toNat_inj.1 ?_⟩
    rw [hplace, hall k hk', h.page_eq hsound hN hmax hk' hk]

end

theorem PageSize.pages_of_word (page : PageSize) :
    ∃ N, 4294967296 = N * page.bytes ∧ 131072 ≤ N ∧ N ≤ 4294967296 := by
  cases page
  · exact ⟨1048576, rfl, by decide, by decide⟩
  · exact ⟨524288, rfl, by decide, by decide⟩
  · exact ⟨262144, rfl, by decide, by decide⟩
  · exact ⟨131072, rfl, by decide, by decide⟩

section

variable {crc32 : List UInt8 → UInt32} {layout : VolumeLayout} {a : SegsArray}
  {src : PayloadSource} {m : Nat} {logs : List LogTables}

theorem tablesAgree_iff {N : Nat} (hsound : src.Sound layout m)
    (hN : 4294967296 = N * layout.pageSize.bytes) (hmax : src.fragmentsPerPeb * m ≤ 253)
    (hread : ∀ p (h : p < logs.length), LogRead layout src m p logs[p]) :
    TablesAgree logs ↔ ∀ p < logs.length, ∀ k < storedBlks (src.fragmentsPerPeb * m),
      Word.u32 (p * m + k) = (p * (src.fragmentsPerPeb * m) + k) % N ∧
      (p * (src.fragmentsPerPeb * m) + k) % N = p * storedBlks (src.fragmentsPerPeb * m) + k := by
  have hpages : logs.flatMap LogTables.pages = (List.range logs.length).flatMap fun p =>
      (List.range (storedBlks (src.fragmentsPerPeb * m))).map fun k =>
        (p * (src.fragmentsPerPeb * m) + k) % N := by
    rw [List.flatMap_def, List.flatMap_def]
    congr 1
    refine List.ext_getElem (by simp) fun p hp _ => ?_
    rw [List.length_map] at hp
    rw [List.getElem_map, List.getElem_map, List.getElem_range]
    exact (hread p hp).pages_eq hsound hN hmax
  have hlength : (logs.flatMap LogTables.pages).length =
      logs.length * storedBlks (src.fragmentsPerPeb * m) := by
    rw [hpages]
    simp [List.length_flatMap]
  constructor
  · intro h p hp k hk
    have hlist := h.pages
    rw [hlength, hpages, Chunks.flatMap_range_eq_range_iff] at hlist
    exact ⟨((hread p hp).agree_iff hsound hN hmax).1 (h.agree _ (List.getElem_mem hp)) k hk,
      hlist p hp k hk⟩
  · intro h
    refine ⟨fun log hlog => ?_, ?_⟩
    · obtain ⟨p, hp, rfl⟩ := List.getElem_of_mem hlog
      exact ((hread p hp).agree_iff hsound hN hmax).2 fun k hk => (h p hp k hk).1
    · rw [hlength, hpages, Chunks.flatMap_range_eq_range_iff]
      exact fun p hp k hk => (h p hp k hk).2

theorem tablesAgree_of_empty (h : ∀ log ∈ logs, log.descriptors = []) : TablesAgree logs where
  agree log hlog k hk := by
    rw [h log hlog] at hk
    cases hk
  pages := by
    have hpages : logs.flatMap LogTables.pages = [] := List.flatMap_eq_nil_iff.2 fun log hlog => by
      unfold LogTables.pages
      rw [h log hlog]
      rfl
    rw [hpages]
    rfl

theorem LogWritten.descriptors_empty {startSegIndex p : Nat} {log : LogTables}
    (h : LogWritten crc32 layout a src startSegIndex p log)
    (hvalid : Word.u16 (src.validBlks layout) = 0) : log.descriptors = [] := by
  unfold LogTables.descriptors
  split
  case h_1 ds hds =>
    have hcount : (UInt16.ofNat (src.validBlks layout)).toNat = 0 := hvalid
    exact absurd hds (readBlockDescriptors_empty hcount h.blockDescriptors)
  case h_2 => rfl

theorem defineLogTables_agree_iff {desc : MetadataDesc} (hsizes : layout.SizesAccepted)
    (hsound : src.Sound layout m) (hrun : defineLogTables crc32 layout a src desc = .ok logs) :
    TablesAgree logs ↔ AgreeWhen layout src desc.segsCount := by
  obtain ⟨hlength, hwritten⟩ := defineLogTables_run hrun
  unfold AgreeWhen
  simp only
  rw [← hlength]
  by_cases hvalid : Word.u16 (src.validBlks layout) = 0
  · refine iff_of_true (tablesAgree_of_empty fun log hlog => ?_) (.inr (.inl hvalid))
    obtain ⟨p, hp, rfl⟩ := List.getElem_of_mem hlog
    exact (hwritten p hp).descriptors_empty hvalid
  by_cases hlogs : logs = []
  · refine iff_of_true (tablesAgree_of_empty fun log hlog => ?_) (.inl ?_)
    · rw [hlogs] at hlog
      cases hlog
    · rw [hlogs]
      exact Nat.zero_le 1
  obtain ⟨hlt, hused⟩ := hsound.narrow hsizes hrun hlogs hvalid
  have hpos : 0 < logs.length := List.length_pos_of_ne_nil hlogs
  have hread : ∀ p (hp : p < logs.length), src.fragmentsPerPeb * m ≤ 253 ∧
      LogRead layout src m p logs[p] := fun p hp =>
    (hwritten p hp).read hsound (by omega) hlt hused
  have hmax := (hread 0 hpos).1
  obtain ⟨N, hN, hle, hle'⟩ := layout.pageSize.pages_of_word
  have hpage : 0 < layout.pageSize.bytes := Nat.lt_of_lt_of_le (by decide) layout.pageSize.bytes_ge
  have hend : logs.length * src.fragmentSize ≤ 4294967296 ↔ logs.length * m ≤ N := by
    rw [hsound.size, hN, ← Nat.mul_assoc]
    exact Nat.mul_le_mul_right_iff hpage
  rw [tablesAgree_iff hsound hN hmax fun p hp => (hread p hp).2,
    pages_agree_iff hsound.pages_pos hsound.fragments_pos hmax hle hle', hend, hsound.validBlks_eq,
    Word.u16_of_lt hlt]
  have hne : src.fragmentsPerPeb * m ≠ 0 := fun h => hvalid (by rw [hsound.validBlks_eq, h]; rfl)
  constructor
  · rintro (h | h | h)
    · exact .inl h
    · exact .inr (.inr (.inl h))
    · exact .inr (.inr (.inr h))
  · rintro (h | h | h | h)
    · exact .inl h
    · exact absurd h hne
    · exact .inr (.inl h)
    · exact .inr (.inr h)

theorem metadataLogs_agree_iff {segsCount : Nat} (hsizes : layout.SizesAccepted)
    (h : MetadataLogs crc32 layout a src segsCount logs) :
    TablesAgree logs ↔ AgreeWhen layout src segsCount := by
  cases h with
  | segbmap hpolicy hlogs =>
    obtain ⟨-, hrun⟩ := failIf_bind_eq_ok.1 hlogs
    exact defineLogTables_agree_iff hsizes (segbmapPayload_sound hpolicy) hrun
  | maptbl hpolicy hlogs =>
    obtain ⟨-, hlogs⟩ := quot_bind_eq_ok.1 hlogs
    obtain ⟨-, hrun⟩ := failIf_bind_eq_ok.1 hlogs
    obtain ⟨m, hsound⟩ := maptblPayload_sound hpolicy hsizes
    exact defineLogTables_agree_iff hsizes hsound hrun

end

/-- The array with `n` segments of one PEB for the bitmap. -/
def bitmapSegs (n : Nat) : SegsArray where
  metaArray _ := ⟨0, n, .dedicated⟩
  segs i := ⟨some .segbmap, .dedicated, i, fun _ => ⟨i, i, fun _ => ⟨none, 0, 0⟩⟩, 0, 1⟩
  segsCapacity := n
  segsCount := 0
  lastAllocatedSegIndex := 0

theorem volumeOf_sizesAccepted (segs : UInt64) : (volumeOf segs).SizesAccepted where
  eraseSize_ge := show 512 ≤ 131072 by decide
  segSize_le := show 131072 ≤ 68719476736 by decide
  pebs := ⟨0, (Nat.mul_one _).symm⟩

theorem metadataLogs_agree_single : ∃ logs, MetadataLogs (fun _ => 0) (volumeOf 20000) (bitmapSegs 3)
    (segbmapPayload ⟨10000, 1, 1, 3, 3, 4096⟩) 3 logs ∧ TablesAgree logs := by
  obtain ⟨logs, hlogs⟩ := @Checked.exists_ok _ _ (segbmapDefineLogTables (fun _ => 0)
    (volumeOf 20000) (bitmapSegs 3) ⟨10000, 1, 1, 3, 3, 4096⟩) (by decide +kernel)
  have hpolicy : segbmapMkfsAllocationPolicy (volumeOf 20000) 1 =
    .ok (⟨10000, 1, 1, 3, 3, 4096⟩, 3) := by decide +kernel
  have hmeta := MetadataLogs.segbmap hpolicy hlogs
  exact ⟨logs, hmeta, (metadataLogs_agree_iff (volumeOf_sizesAccepted 20000) hmeta).2
    (.inr (.inr (.inr (by decide +kernel))))⟩

/-- The second of two buffers with two fragments each begins with page 1 by the table of offsets
and with page 2 by the block descriptors. -/
theorem metadataLogs_disagree_two : ∃ logs, MetadataLogs (fun _ => 0) (volumeOf 20000) (bitmapSegs 2)
    (segbmapPayload ⟨10000, 2, 1, 2, 3, 4096⟩) 2 logs ∧ ¬TablesAgree logs := by
  obtain ⟨logs, hlogs⟩ := @Checked.exists_ok _ _ (segbmapDefineLogTables (fun _ => 0)
    (volumeOf 20000) (bitmapSegs 2) ⟨10000, 2, 1, 2, 3, 4096⟩) (by decide +kernel)
  have hpolicy : segbmapMkfsAllocationPolicy (volumeOf 20000) 2 =
    .ok (⟨10000, 2, 1, 2, 3, 4096⟩, 2) := by decide +kernel
  have hsound := segbmapPayload_sound hpolicy
  obtain ⟨-, hrun⟩ := failIf_bind_eq_ok.1 hlogs
  refine ⟨logs, .segbmap hpolicy hlogs, fun hagree => ?_⟩
  have hwhen := (defineLogTables_agree_iff (volumeOf_sizesAccepted 20000) hsound hrun).1 hagree
  have hnot : ¬AgreeWhen (volumeOf 20000) (segbmapPayload ⟨10000, 2, 1, 2, 3, 4096⟩) 2 := by
    unfold AgreeWhen
    decide +kernel
  exact hnot hwhen

end Ssdfs
