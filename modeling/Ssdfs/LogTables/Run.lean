import Ssdfs.LogTables.Define

namespace Ssdfs

section

variable (crc32 : List UInt8 → UInt32) (layout : VolumeLayout) (a : SegsArray)
  (src : PayloadSource)

/-- The log of the PEB with number `p` in the structure that begins at `startSegIndex`. -/
structure LogWritten (startSegIndex p : Nat) (log : LogTables) : Prop where
  offsetTable : preCommitPebOffsetTable crc32 layout a (startSegIndex + p / src.pebsPerSeg)
    (p % src.pebsPerSeg) (UInt64.ofNat (Word.u64 (p * src.fragmentSize)))
    (UInt32.ofNat (Word.u32 (p % src.pebsPerSeg * src.validBlks layout)))
    (UInt16.ofNat (src.validBlks layout))
    (UInt32.ofNat (Word.u32 (src.pebsPerSeg * src.validBlks layout)))
    (UInt32.ofNat (Word.sub32 (Word.u32 (src.pebsPerSeg * src.validBlks layout)) 1)) =
      .ok log.offsetTable
  blockDescriptors : preCommitBlockDescriptors crc32 layout a (startSegIndex + p / src.pebsPerSeg)
    (p % src.pebsPerSeg) (UInt32.ofNat (Word.u32 (p % src.pebsPerSeg * src.validBlks layout)))
    (UInt16.ofNat (src.validBlks layout)) src.inodeId
    (UInt32.ofNat (Word.u32 (p * src.pebBufferSize))) (UInt32.ofNat layout.pageSize.bytes) =
      .ok log.blockDescriptors

/-- The counters once `n` PEBs have been offered a buffer. -/
structure DefineState.Reached (startSegIndex n : Nat) (st : DefineState) : Prop where
  fragmentIndex : st.fragmentIndex = min src.fragmentsCount n
  payload : st.payloadOffsetInBytes = Word.u32 (st.fragmentIndex * src.pebBufferSize)
  length : st.logs.length = st.fragmentIndex
  logs : ∀ p (h : p < st.logs.length), LogWritten crc32 layout a src startSegIndex p st.logs[p]

end

section

variable {crc32 : List UInt8 → UInt32} {layout : VolumeLayout} {a : SegsArray}
  {src : PayloadSource} {startSegIndex i j : Nat} {st st' : DefineState}

theorem countUsedBlks_run {n used : Nat}
    (h : Checked.forRange n (countUsedBlks layout src) 0 = .ok used) :
    used = Word.u32 (n * src.validBlks layout) := by
  refine Checked.forRange_ind (fun k used => used = Word.u32 (k * src.validBlks layout)) h
    (by rw [Nat.zero_mul]; rfl) ?_
  intro k _ t t' ht hstep
  obtain ⟨-, hstep⟩ := failIf_bind_eq_ok.1 hstep
  cases hstep
  rw [ht, u32_add_u32, Nat.succ_mul]

/-- The first log block of PEB `j` is right as long as no PEB has gone without a buffer. -/
theorem definePebTables_step (hj : j < src.pebsPerSeg)
    (h : definePebTables crc32 layout a src (startSegIndex + i)
      (Word.u32 (src.pebsPerSeg * src.validBlks layout))
      (Word.sub32 (Word.u32 (src.pebsPerSeg * src.validBlks layout)) 1) j st = .ok st')
    (hst : st.Reached crc32 layout a src startSegIndex (i * src.pebsPerSeg + j))
    (hstart : i * src.pebsPerSeg + j ≤ src.fragmentsCount →
      st.startLogicalBlk = Word.u32 (j * src.validBlks layout)) :
    st'.Reached crc32 layout a src startSegIndex (i * src.pebsPerSeg + (j + 1)) ∧
      (i * src.pebsPerSeg + (j + 1) ≤ src.fragmentsCount →
        st'.startLogicalBlk = Word.u32 ((j + 1) * src.validBlks layout)) := by
  have hindex := hst.fragmentIndex
  unfold definePebTables at h
  split at h
  case isTrue hge =>
    cases h
    exact ⟨⟨by omega, hst.payload, hst.length, hst.logs⟩, fun hle => by omega⟩
  case isFalse hlt =>
    have hfragment : st.fragmentIndex = i * src.pebsPerSeg + j := by omega
    have hseg : (i * src.pebsPerSeg + j) / src.pebsPerSeg = i := by
      rw [Nat.mul_comm, Nat.mul_add_div (by omega), Nat.div_eq_of_lt hj, Nat.add_zero]
    have hpeb : (i * src.pebsPerSeg + j) % src.pebsPerSeg = j := by
      rw [Nat.mul_comm, Nat.mul_add_mod, Nat.mod_eq_of_lt hj]
    obtain ⟨offsetTable, hoffset, h⟩ := Checked.bind_eq_ok.1 h
    obtain ⟨blockDescriptors, hblocks, h⟩ := Checked.bind_eq_ok.1 h
    obtain ⟨-, -, h⟩ := Checked.bind_eq_ok.1 h
    cases h
    have hblk := hstart (by omega)
    rw [hblk, hfragment] at hoffset
    rw [hst.payload, hblk, hfragment] at hblocks
    have hlog : LogWritten crc32 layout a src startSegIndex (i * src.pebsPerSeg + j)
      ⟨offsetTable, blockDescriptors⟩ := ⟨by rwa [hseg, hpeb], by rwa [hseg, hpeb]⟩
    have hlength := hst.length.trans hfragment
    refine ⟨⟨?_, ?_, ?_, ?_⟩, fun _ => ?_⟩
    · simp only
      omega
    · simp only
      rw [hst.payload, u32_add_u32, Nat.succ_mul]
    · simp only
      rw [List.length_append, hst.length, List.length_singleton]
    · intro p hp
      simp only [List.length_append, List.length_singleton] at hp
      rcases Nat.lt_succ_iff_lt_or_eq.1 hp with hold | rfl
      · simp only [List.getElem_append_left hold]
        exact hst.logs p hold
      · rw [← hlength] at hlog
        simp only [List.getElem_concat_length rfl]
        exact hlog
    · simp only
      rw [hblk, u32_add_u32, Nat.succ_mul]

theorem defineSegTables_step (h : defineSegTables crc32 layout a src startSegIndex i st = .ok st')
    (hst : st.Reached crc32 layout a src startSegIndex (i * src.pebsPerSeg)) :
    st'.Reached crc32 layout a src startSegIndex ((i + 1) * src.pebsPerSeg) := by
  obtain ⟨used, hused, h⟩ := Checked.bind_eq_ok.1 h
  cases countUsedBlks_run hused
  rw [Nat.succ_mul]
  refine (Checked.forRange_ind (fun j t =>
    t.Reached crc32 layout a src startSegIndex (i * src.pebsPerSeg + j) ∧
      (i * src.pebsPerSeg + j ≤ src.fragmentsCount →
        t.startLogicalBlk = Word.u32 (j * src.validBlks layout))) h ?_ ?_).1
  · refine ⟨⟨hst.fragmentIndex, hst.payload, hst.length, hst.logs⟩, fun _ => ?_⟩
    rw [Nat.zero_mul]
    rfl
  · rintro j hj t t' ⟨ht, hstart⟩ hstep
    rw [if_neg (by omega)] at hstep
    exact definePebTables_step hj hstep ht hstart

theorem defineLogTables_run {desc : MetadataDesc} {logs : List LogTables}
    (h : defineLogTables crc32 layout a src desc = .ok logs) :
    logs.length = min src.fragmentsCount (desc.segsCount * src.pebsPerSeg) ∧
      ∀ p (hp : p < logs.length), LogWritten crc32 layout a src desc.startSegIndex p logs[p] := by
  obtain ⟨-, h⟩ := failIf_bind_eq_ok.1 h
  obtain ⟨-, h⟩ := failIf_bind_eq_ok.1 h
  obtain ⟨st, hst, h⟩ := Checked.bind_eq_ok.1 h
  cases h
  have hrun := Checked.forRange_ind
    (fun i t => t.Reached crc32 layout a src desc.startSegIndex (i * src.pebsPerSeg)) hst
    (by
      refine ⟨?_, ?_, rfl, fun p hp => absurd hp (Nat.not_lt_zero p)⟩
      · rw [Nat.zero_mul, Nat.min_zero]
      · rw [Nat.zero_mul]
        rfl)
    fun i _ t t' ht hstep => defineSegTables_step hstep ht
  exact ⟨hrun.length.trans hrun.fragmentIndex, hrun.logs⟩

end

namespace LogTables

/-- A table that cannot be walked stores nothing. -/
def offsets (log : LogTables) : List PhysOffsetDescriptor :=
  match readOffsetTable log.offsetTable with
  | .ok t => t.offsets
  | .error _ => []

def descriptors (log : LogTables) : List BlockDescriptor :=
  match readBlockDescriptors log.blockDescriptors with
  | .ok ds => ds
  | .error _ => []

def pages (log : LogTables) : List Nat := log.descriptors.map fun d => d.logicalOffset.toNat

def Agree (log : LogTables) : Prop :=
  ∀ k (h : k < log.descriptors.length), ∃ h' : k < log.offsets.length,
    log.offsets[k].pageDesc.logicalBlk = log.descriptors[k].pebPage ∧
    log.offsets[k].pageDesc.logicalOffset = log.descriptors[k].logicalOffset

end LogTables

/-- The descriptors that are stored for `v` blocks: a last fragment that is full is lost. -/
def storedBlks (v : Nat) : Nat := ((v + 59) / 60 - 1) * 60 + v % 60

theorem storedBlks_le (v : Nat) : storedBlks v ≤ v := by
  unfold storedBlks
  omega

theorem storedBlks_eq_self_iff {v : Nat} (hv : 0 < v) : storedBlks v = v ↔ v % 60 ≠ 0 := by
  unfold storedBlks
  omega

theorem storedBlks_eq_zero_iff {v : Nat} : storedBlks v = 0 ↔ v = 0 ∨ v = 60 := by
  unfold storedBlks
  omega

section

variable {crc32 : List UInt8 → UInt32} {layout : VolumeLayout} {a : SegsArray}
  {segIndex pebIndex : Nat} {startLogicalBlk : UInt32} {validBlks : UInt16} {inodeId : UInt64}
  {payloadOffsetInBytes itemSize : UInt32} {buf : Buf}

theorem readBlockDescriptors_written (hindex : pebIndex < Word.u16Max) (hvalid : 1 ≤ validBlks.toNat)
    (hmax : validBlks.toNat ≤ 780)
    (h : preCommitBlockDescriptors crc32 layout a segIndex pebIndex startLogicalBlk validBlks inodeId
      payloadOffsetInBytes itemSize = .ok buf) :
    readBlockDescriptors buf = .ok (blockDescriptors
      ⟨pebIndex, inodeId, itemSize, layout.pageSize.bytes, payloadOffsetInBytes⟩
      startLogicalBlk.toNat 0 (storedBlks validBlks.toNat)) := by
  have hinv := h
  obtain ⟨hseg, hinv⟩ := failIf_bind_eq_ok.1 hinv
  obtain ⟨hpeb, hinv⟩ := failIf_bind_eq_ok.1 hinv
  obtain ⟨hbuf, hinv⟩ := bugOn_bind_eq_ok.1 hinv
  obtain ⟨hpage, hinv⟩ := bugOn_bind_eq_ok.1 hinv
  obtain ⟨hfit, -⟩ := failIf_bind_eq_ok.1 hinv
  have hwrite := @preCommitBlockDescriptors_exact crc32 layout a segIndex pebIndex startLogicalBlk
    validBlks inodeId payloadOffsetInBytes itemSize (Nat.not_le.1 hseg) (Nat.not_le.1 hpeb) hindex
    (by simpa using hbuf) (Nat.not_lt.1 hpage) hvalid (Nat.not_lt.1 hfit)
  obtain ⟨hsize, htables⟩ := hwrite.result h
  obtain ⟨ds, hds, heq⟩ :=
    (readBlockDescriptors_exact (by omega) (by omega) rfl hsize htables).succeeds (by omega)
  have hone : ((validBlks.toNat + 59) / 60 + 13) / 14 = 1 := by omega
  have hstored : areaItems ((validBlks.toNat + 59) / 60) validBlks.toNat 0 =
      storedBlks validBlks.toNat := by
    rw [areaItems_last hone.symm (by omega) (by omega)]
    unfold storedBlks
    omega
  rw [hds, heq, hone, List.range_one, List.flatMap_singleton, areaDescriptors, hstored, Nat.zero_mul,
    Nat.zero_mul, Nat.add_zero]

theorem readBlockDescriptors_empty {ds : List BlockDescriptor} (hvalid : validBlks.toNat = 0)
    (h : preCommitBlockDescriptors crc32 layout a segIndex pebIndex startLogicalBlk validBlks inodeId
      payloadOffsetInBytes itemSize = .ok buf) : readBlockDescriptors buf ≠ .ok ds := by
  obtain ⟨-, h⟩ := failIf_bind_eq_ok.1 h
  obtain ⟨-, h⟩ := failIf_bind_eq_ok.1 h
  obtain ⟨-, h⟩ := bugOn_bind_eq_ok.1 h
  obtain ⟨-, h⟩ := bugOn_bind_eq_ok.1 h
  obtain ⟨-, h⟩ := failIf_bind_eq_ok.1 h
  rw [hvalid] at h
  cases h
  generalize Word.u32 (calculateBlkDescTableSize (Word.u16 (blkDescTableFragments 0)) 0) = size
  intro hread
  unfold readBlockDescriptors at hread
  cases size with
  | zero => cases hread
  | succ size =>
    obtain ⟨r, hr, -⟩ := Checked.bind_eq_ok.1 hread
    obtain ⟨header, hheader, hr⟩ := Checked.bind_eq_ok.1 hr
    obtain ⟨hcount, -⟩ := failIf_bind_eq_ok.1 hr
    refine hcount (.inl ?_)
    unfold Buf.get at hheader
    split at hheader
    · cases hheader
      rfl
    · cases hheader

variable {extent : ExtentDesc} {logicalByteOffset : UInt64} {usedLogicalBlks lastAllocatedBlk : UInt32}

theorem readOffsetTable_written (hvalid : 1 ≤ validBlks.toNat)
    (hused : validBlks.toNat ≤ usedLogicalBlks.toNat)
    (h : preCommitOffsetTable crc32 layout pebIndex extent logicalByteOffset startLogicalBlk validBlks
      usedLogicalBlks lastAllocatedBlk = .ok buf) :
    ∃ extents, readOffsetTable buf = .ok ⟨extents, (List.range validBlks.toNat).map
      (physOffset logBlkDescArea (Word.u32 (logicalByteOffset.toNat / layout.pageSize.bytes))
        (Word.u16 startLogicalBlk.toNat) 0)⟩ := by
  have haccepted := preCommitOffsetTable_accepted hvalid h
  have hinv := h
  obtain ⟨hbuf, hinv⟩ := bugOn_bind_eq_ok.1 hinv
  obtain ⟨-, hinv⟩ := bugOn_bind_eq_ok.1 hinv
  obtain ⟨hpage, hinv⟩ := bugOn_bind_eq_ok.1 hinv
  obtain ⟨hfit, -⟩ := failIf_bind_eq_ok.1 hinv
  obtain ⟨hseg, hlimit⟩ := Nat.le_min.1 haccepted.used_le
  have hwrite := @preCommitOffsetTable_exact crc32 layout pebIndex extent logicalByteOffset
    startLogicalBlk validBlks usedLogicalBlks lastAllocatedBlk haccepted.pebIndex
    (by simpa using hbuf) (Nat.not_lt.1 hpage) hvalid (Nat.not_lt.1 hfit) hused hseg
  obtain ⟨hsize, hat⟩ := hwrite.result h
  exact ⟨_, readOffsetTable_ok hat (Nat.le_trans hused hlimit) (Nat.le_of_eq hsize.symm)⟩

end

end Ssdfs
