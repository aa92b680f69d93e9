import Ssdfs.Recover.BlkDescWalk

/-! Whether a thread of `recoverfs.ssdfs` comes to the end of an erase block, and to all of its
logs. -/

namespace Ssdfs

open Memory

def LogStalls (n : Nat) : Prop := Word.u32 (n + (log4kb - 1)) < log4kb

instance {n : Nat} : Decidable (LogStalls n) :=
  inferInstanceAs (Decidable (Word.u32 (n + (log4kb - 1)) < log4kb))

section

variable {σ : Type} (env : RecoverEnvironment σ)

def logParsing (hdr : Bytes) :
    Option (LogFields × (Bytes → Nat → RawDump → Mkfs (Option Nat × RawDump))) :=
  if isSsdfsSegmentHeader hdr then some (segHdrFields, fullLogIndex env.dev env.peb)
  else if isSsdfsPartialLogHeader hdr then some (plHdrFields, partialLogIndex)
  else none

def recordedLogSize (hdr : Bytes) (dump : RawDump) : Option Nat :=
  if isSsdfsSegmentHeader hdr then
    match readFooterArea env.dev env.peb
      ((createAreas (segHdrFields.desc hdr) dump).desc logFooterIndex) with
    | .ok footer =>
      if isSsdfsLogFooter footer.data then some (LogFooter.logBytes footer.data) else none
    | .error _ => none
  else some (PlHdr.logBytes hdr)

def TableSound (desc : AreaDescriptor) (s : Recovery σ) : Prop :=
  let area := s.dump.desc blkDescAreaIndex
  area.offset < env.peb.pebSize.toNat → area.size ≠ 0 →
    ∀ area', prefetchBlkDescTable env.dev env.peb desc area = .ok area' →
      BlkDescsSound env { s with dump := s.dump.setArea blkDescAreaIndex area' }

structure NextLog (w : PebWalk σ) (i : Nat) (hdr : Bytes) (fields : LogFields)
    (next : Bytes → Nat → RawDump → Mkfs (Option Nat × RawDump)) (files : σ) : Prop where
  found : foundLog env w.logIndex = .ok (i, hdr)
  parsing : logParsing env hdr = some (fields, next)
  folder : openFolder env fields hdr w.recovery.files = (none, files)

/-- The size that it records brings the thread behind it. -/
def SizeSound (w : PebWalk σ) : Prop :=
  ∀ i hdr fields next files, NextLog env w i hdr fields next files →
    ∀ n, recordedLogSize env hdr w.recovery.dump = some n → ¬LogStalls n

/-- The descriptors of its blocks can be walked. -/
def BlocksSound (w : PebWalk σ) : Prop :=
  ∀ i hdr fields next files, NextLog env w i hdr fields next files →
    ∀ n dump, next hdr i (createAreas (fields.desc hdr) w.recovery.dump) = .ok (some n, dump) →
      TableSound env (fields.desc hdr blkDescAreaIndex) ⟨dump, files⟩

/-- The device has what the thread reads of it for the log that comes next: the first page that starts like
a record, the footer that a full log names, and the table of its block descriptors. -/
structure ReadsSucceed (w : PebWalk σ) : Prop where
  headers : Checked.Returns (foundLog env w.logIndex)
  footer : ∀ i hdr fields next files, NextLog env w i hdr fields next files →
    isSsdfsSegmentHeader hdr = true → ∃ footer, readFooterArea env.dev env.peb
      ((createAreas (fields.desc hdr) w.recovery.dump).desc logFooterIndex) = .ok footer
  table : ∀ i hdr fields next files, NextLog env w i hdr fields next files →
    ∀ n dump, next hdr i (createAreas (fields.desc hdr) w.recovery.dump) = .ok (some n, dump) →
      (dump.desc blkDescAreaIndex).offset < env.peb.pebSize.toNat →
      (dump.desc blkDescAreaIndex).size ≠ 0 → ∃ area, prefetchBlkDescTable env.dev env.peb
        (fields.desc hdr blkDescAreaIndex) (dump.desc blkDescAreaIndex) = .ok area

/-- The rounds of a thread, each with enough fuel. -/
inductive PebReached (w₀ : PebWalk σ) : PebWalk σ → Prop
  | start : PebReached w₀ w₀
  | again {fuel : Nat} {w w' : PebWalk σ} : PebReached w₀ w →
      processPebRound env fuel w = .ok (.again w') → PebReached w₀ w'

end

section

variable {σ : Type} {env : RecoverEnvironment σ} {w w' : PebWalk σ} {hdr : Bytes} {i k n : Nat}
  {is : List Nat} {fields : LogFields} {s s' : Recovery σ} {files : σ} {dump dump' : RawDump}
  {next : Bytes → Nat → RawDump → Mkfs (Option Nat × RawDump)}

theorem findValidLog_mem (h : findValidLog env.dev env.peb is = .ok (i, hdr)) :
    i ∈ is ∧ peek hdr 4 0 = superMagic.toNat := by
  induction is with
  | nil => cases h
  | cons j is ih =>
    obtain ⟨hdr', -, h⟩ := Checked.bind_eq_ok.1 h
    split at h
    · rename_i hmagic
      cases h
      exact ⟨List.mem_cons_self, hmagic⟩
    · obtain ⟨hmem, hmagic⟩ := ih h
      exact ⟨List.mem_cons_of_mem j hmem, hmagic⟩

theorem foundLog_bounds (h : foundLog env k = .ok (i, hdr)) :
    k ≤ i ∧ i < logsCount env.peb := by
  have hmem := (findValidLog_mem h).1
  rw [List.mem_range'_1] at hmem
  omega

theorem logsCount_le (hpeb : env.peb.pebSize.toNat ≤ 2147483648) : logsCount env.peb ≤ 524288 :=
  Nat.div_le_of_le_mul (by unfold log4kb; omega)

/-- What a log is rounded up to, where the index cannot wrap. -/
theorem behindLog_eq (hi : i ≤ 524288) :
    behindLog n i = Word.u32 (n + (log4kb - 1)) / log4kb + i := by
  have hlt := Word.u32_lt (n + (log4kb - 1))
  exact Word.u32_of_lt (by unfold log4kb at *; omega)

theorem lt_behindLog_iff (hi : i ≤ 524288) : i < behindLog n i ↔ ¬LogStalls n := by
  rw [behindLog_eq hi]
  unfold LogStalls log4kb
  omega

theorem latestArea_inside {pebSize : Nat} {desc : Fin segHdrDescMax → AreaDescriptor} :
    latestArea pebSize desc = (0, 0) ∨
      (latestArea pebSize desc).1 + (latestArea pebSize desc).2 < pebSize := by
  unfold latestArea
  refine @List.foldlRecOn _ _ (fun latest => latest = (0, 0) ∨ latest.1 + latest.2 < pebSize) _ _ _
    (.inl rfl) fun latest hlatest i _ => ?_
  simp only
  split
  · rename_i hlast
    exact .inr hlast.2.2
  · exact hlatest

theorem lt_defineNextLogIndex {desc : Fin segHdrDescMax → AreaDescriptor} (hi : i ≤ 524288)
    (hpeb : env.peb.pebSize.toNat ≤ 2147483648) :
    i < defineNextLogIndex i (logOffset i) (latestArea env.peb.pebSize.toNat desc) := by
  have hinside := @latestArea_inside env.peb.pebSize.toNat desc
  generalize latestArea env.peb.pebSize.toNat desc = latest at *
  unfold defineNextLogIndex
  split
  · rename_i hpos
    have hlt : latest.1 + latest.2 < 2147483648 := by
      rcases hinside with rfl | hinside
      · exact absurd hpos.1 (Nat.lt_irrefl 0)
      · omega
    rw [Word.u32_of_lt (by omega)]
    refine (lt_behindLog_iff hi).2 ?_
    unfold LogStalls log4kb
    split
    · rw [Word.u32_of_lt (by omega)]
      omega
    · rw [Word.u32_of_lt (by omega)]
      omega
  · rw [Word.u32_of_lt (by omega)]
    exact Nat.lt_succ_self i

/-! What the parsing of a log does with the index. -/

theorem nextIndex_ok (hparsing : logParsing env hdr = some (fields, next))
    (hread : isSsdfsSegmentHeader hdr = true →
      ∃ footer, readFooterArea env.dev env.peb (dump.desc logFooterIndex) = .ok footer) :
    ∃ r, next hdr i dump = .ok r := by
  unfold logParsing at hparsing
  split at hparsing
  · rename_i hfull
    cases hparsing
    obtain ⟨footer, hfooter⟩ := hread hfull
    unfold fullLogIndex
    simp only
    rw [hfooter]
    split
    · exact ⟨_, rfl⟩
    · simp only
      split
      · exact ⟨_, rfl⟩
      · exact ⟨_, rfl⟩
  · split at hparsing
    · cases hparsing
      exact ⟨_, rfl⟩
    · cases hparsing

theorem nextIndex_eq {r : Option Nat} (hparsing : logParsing env hdr = some (fields, next))
    (hi : i ≤ 524288) (hpeb : env.peb.pebSize.toNat ≤ 2147483648)
    (h : next hdr i (createAreas (fields.desc hdr) dump) = .ok (r, dump')) :
    match recordedLogSize env hdr dump with
    | some size => r = some (behindLog size i)
    | none => ∀ n ∈ r, i < n := by
  unfold logParsing at hparsing
  unfold recordedLogSize
  split at hparsing
  case isTrue hfull =>
    cases hparsing
    rw [if_pos hfull]
    unfold fullLogIndex at h
    simp only at h
    split at h
    case isTrue hoffset =>
      have hlt : ((createAreas (segHdrFields.desc hdr) dump).desc logFooterIndex).offset < Word.u64Max :=
        Nat.lt_of_lt_of_le (UInt32.toNat_lt _) (by decide)
      exact absurd hlt (Nat.not_lt.2 hoffset)
    case isFalse =>
      split at h
      · rename_i hcode
        cases h
        rw [hcode]
        exact nofun
      · cases h
      · rename_i footer hfooter
        rw [hfooter]
        simp only
        split at h
        · rename_i hmagic
          cases h
          rw [if_pos hmagic]
        · rename_i hmagic
          cases h
          rw [if_neg hmagic]
          rintro n ⟨⟩
          exact lt_defineNextLogIndex hi hpeb
  case isFalse hfull =>
    rw [if_neg hfull]
    split at hparsing
    · cases hparsing
      cases h
      rfl
    · cases hparsing

theorem nextIndex_unknown {r : Option Nat} (hparsing : logParsing env hdr = some (fields, next))
    (h : next hdr i (createAreas (fields.desc hdr) dump) = .ok (r, dump')) :
    (dump'.desc blkDescAreaIndex).iter.state = .unknown := by
  unfold logParsing at hparsing
  split at hparsing
  · cases hparsing
    unfold fullLogIndex at h
    simp only at h
    split at h
    · cases h
      rfl
    · split at h
      · cases h
        rw [RawDump.setArea_desc_of_ne (by decide)]
        rfl
      · cases h
      · split at h
        · cases h
          rw [RawDump.setArea_desc_of_ne (by decide)]
          rfl
        · cases h
          rw [RawDump.setArea_desc_of_ne (by decide)]
          rfl
  · split at hparsing
    · cases hparsing
      cases h
      rfl
    · cases hparsing

/-! A log is parsed with enough fuel for its block descriptors. -/

theorem recoverBlocks_eq {desc : AreaDescriptor}
    (hread : (s.dump.desc blkDescAreaIndex).offset < env.peb.pebSize.toNat →
      (s.dump.desc blkDescAreaIndex).size ≠ 0 → Checked.Returns
        (prefetchBlkDescTable env.dev env.peb desc (s.dump.desc blkDescAreaIndex))) :
    (∃ s', ∀ fuel, recoverBlocks env fuel desc s = .ok s') ∨
      ∃ area', (s.dump.desc blkDescAreaIndex).offset < env.peb.pebSize.toNat ∧
        (s.dump.desc blkDescAreaIndex).size ≠ 0 ∧
        prefetchBlkDescTable env.dev env.peb desc (s.dump.desc blkDescAreaIndex) = .ok area' ∧
        ∀ fuel, recoverBlocks env fuel desc s =
          Checked.loop (blkDescRound env) fuel
            { s with dump := s.dump.setArea blkDescAreaIndex area' } := by
  unfold recoverBlocks
  simp only
  split
  · exact .inl ⟨s, fun _ => rfl⟩
  · rename_i hnone
    rw [not_or, Nat.not_le] at hnone
    match hpre : prefetchBlkDescTable env.dev env.peb desc (s.dump.desc blkDescAreaIndex) with
    | .error f =>
      obtain ⟨e, rfl⟩ := hread hnone.1 hnone.2 f hpre
      exact .inl ⟨_, fun _ => rfl⟩
    | .ok area' => exact .inr ⟨area', hnone.1, hnone.2, rfl, fun _ => rfl⟩

theorem recoverBlocks_read {desc : AreaDescriptor} (h : recoverBlocks env n desc s = .ok s')
    (hoffset : (s.dump.desc blkDescAreaIndex).offset < env.peb.pebSize.toNat)
    (hsize : (s.dump.desc blkDescAreaIndex).size ≠ 0) :
    Checked.Returns (prefetchBlkDescTable env.dev env.peb desc (s.dump.desc blkDescAreaIndex)) := by
  intro f hpre
  unfold recoverBlocks at h
  simp only at h
  rw [if_neg (not_or.2 ⟨Nat.not_le.2 hoffset, hsize⟩), hpre] at h
  cases f with
  | code e => exact ⟨e, rfl⟩
  | _ => cases h

theorem recoverBlocks_mono {m : Nat} {desc : AreaDescriptor} (h : recoverBlocks env n desc s = .ok s')
    (hle : n ≤ m) : recoverBlocks env m desc s = .ok s' := by
  obtain ⟨t, ht⟩ | ⟨area', -, -, -, hloop⟩ := recoverBlocks_eq (recoverBlocks_read h)
  · exact (ht m).trans ((ht n).symm.trans h)
  · rw [hloop] at h ⊢
    exact (Checked.loop_mono (fun h0 => nomatch h.symm.trans h0) hle).trans h

theorem recoverBlocks_returns {desc : AreaDescriptor} (hsound : TableSound env desc s)
    (hread : (s.dump.desc blkDescAreaIndex).offset < env.peb.pebSize.toNat →
      (s.dump.desc blkDescAreaIndex).size ≠ 0 → ∃ area, prefetchBlkDescTable env.dev env.peb desc
        (s.dump.desc blkDescAreaIndex) = .ok area)
    (h0 : (s.dump.desc blkDescAreaIndex).iter.state = .unknown) :
    ∃ fuel s', recoverBlocks env fuel desc s = .ok s' := by
  obtain ⟨s', hs'⟩ | ⟨area', hoffset, hsize, hpre, hloop⟩ := recoverBlocks_eq
    fun hoffset hsize f hf => by
      obtain ⟨area, harea⟩ := hread hoffset hsize
      cases harea.symm.trans hf
  · exact ⟨0, s', hs' 0⟩
  · have hiter : area'.iter = (s.dump.desc blkDescAreaIndex).iter := by
      obtain ⟨buf, -, hbuf⟩ := Checked.bind_eq_ok.1 hpre
      cases hbuf
      rfl
    obtain ⟨fuel, s', hs'⟩ := blkDescs_return (hsound hoffset hsize area' hpre) (by
      simp only [RawDump.setArea_desc]
      rw [hiter, h0])
    exact ⟨fuel, s', (hloop fuel).trans hs'⟩

theorem parseLog_mono {m : Nat} {r : Nat × Recovery σ} (h : parseLog env fields next n hdr i s = .ok r)
    (hle : n ≤ m) : parseLog env fields next m hdr i s = .ok r := by
  unfold parseLog at h ⊢
  split
  · rename_i hfolder
    rwa [hfolder] at h
  · rename_i hfolder
    rw [hfolder] at h
    obtain ⟨⟨n', dump'⟩, hnext, h⟩ := Checked.bind_eq_ok.1 h
    rw [hnext, Checked.ok_bind]
    cases n' with
    | none => exact h
    | some n' =>
      obtain ⟨s', hblocks, h⟩ := Checked.bind_eq_ok.1 h
      exact Checked.bind_eq_ok.2 ⟨s', recoverBlocks_mono hblocks hle, h⟩

theorem parseLog_returns {w : PebWalk σ} (hreads : ReadsSucceed env w) (hblocks : BlocksSound env w)
    (hfound : foundLog env w.logIndex = .ok (i, hdr))
    (hparsing : logParsing env hdr = some (fields, next)) :
    ∃ fuel r, parseLog env fields next fuel hdr i w.recovery = .ok r := by
  unfold parseLog
  match hfolder : openFolder env fields hdr w.recovery.files with
  | (some e, files) => exact ⟨0, _, rfl⟩
  | (none, files) =>
    obtain ⟨⟨n', dump'⟩, hnext⟩ := @nextIndex_ok σ env hdr i fields
      (createAreas (fields.desc hdr) w.recovery.dump) next hparsing
      (hreads.footer i hdr fields next files ⟨hfound, hparsing, hfolder⟩)
    simp only
    rw [hnext]
    cases n' with
    | none => exact ⟨0, _, rfl⟩
    | some n' =>
      obtain ⟨fuel, s', hs'⟩ := recoverBlocks_returns
        (hblocks i hdr fields next files ⟨hfound, hparsing, hfolder⟩ n' dump' hnext)
        (hreads.table i hdr fields next files ⟨hfound, hparsing, hfolder⟩ n' dump' hnext)
        (nextIndex_unknown hparsing hnext)
      exact ⟨fuel, (n', s'), Checked.bind_eq_ok.2
        ⟨(some n', dump'), rfl, Checked.bind_eq_ok.2 ⟨s', hs', rfl⟩⟩⟩

theorem parseLog_index (hpeb : env.peb.pebSize.toNat ≤ 2147483648) (hi : i ≤ 524288)
    (hparsing : logParsing env hdr = some (fields, next))
    (h : parseLog env fields next n hdr i s = .ok (k, s')) :
    (∃ files size, openFolder env fields hdr s.files = (none, files) ∧
        recordedLogSize env hdr s.dump = some size ∧ k = behindLog size i) ∨
      ((∀ files, openFolder env fields hdr s.files ≠ (none, files)) ∨
        recordedLogSize env hdr s.dump = none) ∧ i < k := by
  have hsucc : i < Word.u32 (i + 1) := by
    rw [Word.u32_of_lt (by omega)]
    exact Nat.lt_succ_self i
  unfold parseLog at h
  split at h
  · rename_i hfolder
    cases h
    exact .inr ⟨.inl fun _ h0 => Option.some_ne_none _ (congrArg Prod.fst (hfolder.symm.trans h0)), hsucc⟩
  · rename_i files hfolder
    obtain ⟨⟨r, dump'⟩, hnext, h⟩ := Checked.bind_eq_ok.1 h
    have hindex := nextIndex_eq hparsing hi hpeb hnext
    match hsize : recordedLogSize env hdr s.dump with
    | some size =>
      rw [hsize] at hindex
      cases hindex
      obtain ⟨t, -, h⟩ := Checked.bind_eq_ok.1 h
      cases h
      exact .inl ⟨files, size, hfolder, rfl, rfl⟩
    | none =>
      rw [hsize] at hindex
      refine .inr ⟨.inr rfl, ?_⟩
      cases r with
      | none =>
        cases h
        exact hsucc
      | some n' =>
        obtain ⟨t, -, h⟩ := Checked.bind_eq_ok.1 h
        cases h
        exact hindex _ rfl

end

end Ssdfs
