import Ssdfs.MaptblCache.Log
import Ssdfs.Recover.PebWalk

namespace Ssdfs

open Memory

section

variable {σ : Type} (env : RecoverEnvironment σ)

def footerBytes (hdr : Bytes) : Bytes := fun x =>
  env.dev.data (Word.u64 (Word.u64 (env.peb.id.toNat * env.peb.pebSize.toNat) +
    (segHdrFields.desc hdr logFooterIndex).offset.toNat) + x)

/-- The device has the footer that the header names, and this records `n` bytes. -/
structure FooterAt (hdr : Bytes) (n : Nat) : Prop where
  size : logFooterSize ≤ (segHdrFields.desc hdr logFooterIndex).size.toNat
  inside : Word.u64 (Word.u64 (env.peb.id.toNat * env.peb.pebSize.toNat) +
    (segHdrFields.desc hdr logFooterIndex).offset.toNat) +
      (segHdrFields.desc hdr logFooterIndex).size.toNat ≤ env.dev.size
  magic : isSsdfsLogFooter (footerBytes env hdr) = true
  logBytes : LogFooter.logBytes (footerBytes env hdr) = n

/-- A log of `n` bytes starts at that index. -/
structure LogAt (j n : Nat) (hdr : Bytes) : Prop where
  index : j < logsCount env.peb
  header : readSegmentHeader (deviceRead env.dev) env.peb.id.toNat env.peb.pebSize.toNat (logOffset j) =
    .ok hdr
  records : isSsdfsSegmentHeader hdr = true ∧ FooterAt env hdr n ∨
    isSsdfsPartialLogHeader hdr = true ∧ PlHdr.logBytes hdr = n
  positive : 0 < n
  inside : j * log4kb + n ≤ env.peb.pebSize.toNat

inductive ConsecutiveLogs : Nat → List Nat → Prop
  | nil {j : Nat} : ConsecutiveLogs j []
  | cons {j n : Nat} {hdr : Bytes} {logs : List Nat} : LogAt env j n hdr →
      ConsecutiveLogs (j + (n + (log4kb - 1)) / log4kb) logs → ConsecutiveLogs j (j :: logs)

def roundWalk : PebRound σ → PebWalk σ
  | .again w => w
  | .leave (_, w) => w

/-- How a round has come to its end: nothing could be parsed, there was a footer alone, or a log has
been parsed. -/
inductive RoundEnds (w : PebWalk σ) : PebRound σ → Prop
  | unparsed {err : Option Errno} :
      (∀ i hdr, foundLog env w.logIndex = .ok (i, hdr) → logParsing env hdr = none) →
      RoundEnds w (.leave (err, w))
  | footer {i : Nat} {hdr : Bytes} : foundLog env w.logIndex = .ok (i, hdr) →
      logParsing env hdr = none → RoundEnds w (goOn env (Word.u32 (i + 1)) w)
  | log {i k fuel : Nat} {hdr : Bytes} {fields : LogFields}
      {next : Bytes → Nat → RawDump → Mkfs (Option Nat × RawDump)} {recovery : Recovery σ} :
      foundLog env w.logIndex = .ok (i, hdr) → logParsing env hdr = some (fields, next) →
      parseLog env fields next fuel hdr i w.recovery = .ok (k, recovery) →
      RoundEnds w (goOn env k { w with parsed := w.parsed ++ [i], recovery })

/-- The thread goes through the erase block log by log. -/
structure ProcessedAll (recovery : Recovery σ) : Prop where
  forward : ∀ w, PebReached env ⟨0, [], recovery⟩ w → ∀ fuel w' i hdr,
    processPebRound env fuel w = .ok (.again w') → foundLog env w.logIndex = .ok (i, hdr) →
      i < w'.logIndex
  returns : ∃ blkDescFuel fuel ret, processPeb env blkDescFuel fuel recovery = .ok ret
  once : ∀ blkDescFuel fuel err w, processPeb env blkDescFuel fuel recovery = .ok (err, w) →
    w.parsed.Pairwise (· < ·)
  all : (∀ timestamp files, (env.createFolder timestamp files).1 = none) →
    ∀ logs, ConsecutiveLogs env 0 logs →
      ∀ blkDescFuel fuel err w, processPeb env blkDescFuel fuel recovery = .ok (err, w) →
        ∀ j ∈ logs, j ∈ w.parsed

end

section

variable {σ : Type} {env : RecoverEnvironment σ} {w w₀ w' : PebWalk σ} {r : PebRound σ} {hdr : Bytes}
  {i j k n fuel : Nat} {fields : LogFields} {dump : RawDump} {recovery : Recovery σ}
  {next : Bytes → Nat → RawDump → Mkfs (Option Nat × RawDump)}

theorem processPebRound_log (hfound : foundLog env w.logIndex = .ok (i, hdr))
    (hparsing : logParsing env hdr = some (fields, next)) :
    processPebRound env fuel w = (do
      let (k, recovery) ← parseLog env fields next fuel hdr i w.recovery
      .ok (goOn env k { w with parsed := w.parsed ++ [i], recovery })) := by
  unfold logParsing at hparsing
  unfold processPebRound
  rw [hfound]
  simp only
  split at hparsing
  · rename_i hfull
    cases hparsing
    rw [if_pos hfull]
    rfl
  · rename_i hfull
    rw [if_neg hfull]
    split at hparsing
    · rename_i hpart
      cases hparsing
      rw [if_pos hpart]
      rfl
    · cases hparsing

theorem processPebRound_found (h : processPebRound env fuel w = .ok r) :
    Checked.Returns (foundLog env w.logIndex) := by
  intro f hfound
  unfold processPebRound at h
  rw [hfound] at h
  cases f with
  | code e => exact ⟨e, rfl⟩
  | _ => cases h

theorem processPebRound_other (hreturns : Checked.Returns (foundLog env w.logIndex))
    (hnone : ∀ i hdr, foundLog env w.logIndex = .ok (i, hdr) → logParsing env hdr = none) :
    ∃ r, (∀ fuel, processPebRound env fuel w = .ok r) ∧ RoundEnds env w r := by
  unfold processPebRound
  match hfound : foundLog env w.logIndex with
  | .error f =>
    obtain ⟨e, rfl⟩ := hreturns f hfound
    have hunparsed : ∀ i hdr, foundLog env w.logIndex = .ok (i, hdr) → logParsing env hdr = none :=
      fun i hdr h => nomatch hfound.symm.trans h
    cases e with
    | enodata => exact ⟨_, fun _ => rfl, .unparsed hunparsed⟩
    | _ => exact ⟨_, fun _ => rfl, .unparsed hunparsed⟩
  | .ok (i, hdr) =>
    have hother := hnone i hdr hfound
    have hfull : ¬isSsdfsSegmentHeader hdr = true := fun hfull => by
      unfold logParsing at hother
      rw [if_pos hfull] at hother
      cases hother
    have hpart : ¬isSsdfsPartialLogHeader hdr = true := fun hpart => by
      unfold logParsing at hother
      rw [if_neg hfull, if_pos hpart] at hother
      cases hother
    simp only [if_neg hfull, if_neg hpart]
    by_cases hfooter : isSsdfsLogFooter hdr = true
    · exact ⟨_, fun _ => if_pos hfooter, .footer hfound hother⟩
    · exact ⟨_, fun _ => if_neg hfooter, .unparsed hnone⟩

theorem parsed_or_not (env : RecoverEnvironment σ) (w : PebWalk σ) :
    (∃ i hdr fields next, foundLog env w.logIndex = .ok (i, hdr) ∧
        logParsing env hdr = some (fields, next)) ∨
      ∀ i hdr, foundLog env w.logIndex = .ok (i, hdr) → logParsing env hdr = none := by
  refine or_iff_not_imp_left.2 fun hnot i hdr hfound => ?_
  match hparsing : logParsing env hdr with
  | none => rfl
  | some (fields, next) => exact absurd ⟨i, hdr, fields, next, hfound, hparsing⟩ hnot

theorem processPebRound_ends (h : processPebRound env fuel w = .ok r) : RoundEnds env w r := by
  obtain ⟨i, hdr, fields, next, hfound, hparsing⟩ | hnone := parsed_or_not env w
  · rw [processPebRound_log hfound hparsing] at h
    obtain ⟨⟨k, recovery⟩, hparsed, h⟩ := Checked.bind_eq_ok.1 h
    cases h
    exact .log hfound hparsing hparsed
  · obtain ⟨t, ht, hends⟩ := processPebRound_other (processPebRound_found h) hnone
    obtain rfl := Except.ok.inj (h.symm.trans (ht fuel))
    exact hends

theorem processPebRound_mono {m : Nat} (hle : m ≤ n) (h : processPebRound env m w = .ok r) :
    processPebRound env n w = .ok r := by
  obtain ⟨i, hdr, fields, next, hfound, hparsing⟩ | hnone := parsed_or_not env w
  · rw [processPebRound_log hfound hparsing] at h ⊢
    obtain ⟨t, hparsed, h⟩ := Checked.bind_eq_ok.1 h
    exact Checked.bind_eq_ok.2 ⟨t, parseLog_mono hparsed hle, h⟩
  · obtain ⟨t, ht, -⟩ := processPebRound_other (processPebRound_found h) hnone
    exact (ht n).trans ((ht m).symm.trans h)

theorem processPebRound_returns (hreads : ReadsSucceed env w) (hblocks : BlocksSound env w) :
    ∃ fuel r, processPebRound env fuel w = .ok r := by
  obtain ⟨i, hdr, fields, next, hfound, hparsing⟩ | hnone := parsed_or_not env w
  · obtain ⟨fuel, t, hparsed⟩ := parseLog_returns hreads hblocks hfound hparsing
    exact ⟨fuel, _,
      (processPebRound_log hfound hparsing).trans (Checked.bind_eq_ok.2 ⟨t, hparsed, rfl⟩)⟩
  · obtain ⟨t, ht, -⟩ := processPebRound_other hreads.headers hnone
    exact ⟨0, t, ht 0⟩

theorem goOn_again (h : goOn env k w = .again w') :
    w' = { w with logIndex := k } ∧ k < logsCount env.peb := by
  unfold goOn at h
  simp only at h
  split at h
  · rename_i hk
    cases h
    exact ⟨rfl, hk⟩
  · cases h

theorem foundLog_le (hpeb : env.peb.pebSize.toNat ≤ 2147483648)
    (hfound : foundLog env k = .ok (i, hdr)) : i ≤ 524288 :=
  Nat.le_trans (Nat.le_of_lt (foundLog_bounds hfound).2) (logsCount_le hpeb)

structure WentOn (env : RecoverEnvironment σ) (w w' : PebWalk σ) (i : Nat) : Prop where
  forward : i < w'.logIndex
  index : w'.logIndex < logsCount env.peb
  parsed : w'.parsed = w.parsed ∨ w'.parsed = w.parsed ++ [i]

theorem processPebRound_again (hpeb : env.peb.pebSize.toNat ≤ 2147483648) (hsizes : SizeSound env w)
    (h : processPebRound env fuel w = .ok (.again w')) :
    ∃ i hdr, foundLog env w.logIndex = .ok (i, hdr) ∧ WentOn env w w' i := by
  generalize hr : Round.again w' = r at h
  cases processPebRound_ends h with
  | unparsed => cases hr
  | footer hfound =>
    obtain ⟨rfl, hk⟩ := goOn_again hr.symm
    refine ⟨_, _, hfound, ?_, hk, .inl rfl⟩
    have hi := foundLog_le hpeb hfound
    simp only
    rw [Word.u32_of_lt (by omega)]
    exact Nat.lt_succ_self _
  | log hfound hparsing hparsed =>
    obtain ⟨rfl, hk⟩ := goOn_again hr.symm
    refine ⟨_, _, hfound, ?_, hk, .inr rfl⟩
    have hi := foundLog_le hpeb hfound
    obtain ⟨files, size, hfolder, hsize, rfl⟩ | ⟨-, hlt⟩ := parseLog_index hpeb hi hparsing hparsed
    · exact (lt_behindLog_iff hi).2 (hsizes _ _ _ _ _ ⟨hfound, hparsing, hfolder⟩ size hsize)
    · exact hlt

/-! The logs that have been parsed. -/

@[simp] theorem roundWalk_goOn : roundWalk (goOn env k w) = { w with logIndex := k } := by
  unfold goOn
  simp only
  split
  · rfl
  · rfl

theorem RoundEnds.parsed (h : RoundEnds env w r) : (roundWalk r).parsed = w.parsed ∨
    ∃ i hdr, foundLog env w.logIndex = .ok (i, hdr) ∧ (roundWalk r).parsed = w.parsed ++ [i] := by
  cases h with
  | unparsed => exact .inl rfl
  | footer =>
    rw [roundWalk_goOn]
    exact .inl rfl
  | log hfound =>
    rw [roundWalk_goOn]
    exact .inr ⟨_, _, hfound, rfl⟩

structure ParsedBehind (w : PebWalk σ) : Prop where
  ordered : w.parsed.Pairwise (· < ·)
  behind : ∀ j ∈ w.parsed, j < w.logIndex

theorem ParsedBehind.ordered_round (h : ParsedBehind w) (hends : RoundEnds env w r) :
    (roundWalk r).parsed.Pairwise (· < ·) := by
  obtain hsame | ⟨i, hdr, hfound, hparsed⟩ := hends.parsed
  · exact hsame ▸ h.ordered
  · rw [hparsed]
    refine List.pairwise_append.2 ⟨h.ordered, List.pairwise_singleton .., fun j hj i' hi' => ?_⟩
    obtain rfl := List.mem_singleton.1 hi'
    exact Nat.lt_of_lt_of_le (h.behind j hj) (foundLog_bounds hfound).1

theorem ParsedBehind.again (hpeb : env.peb.pebSize.toNat ≤ 2147483648) (hsizes : SizeSound env w)
    (h : ParsedBehind w) (hround : processPebRound env fuel w = .ok (.again w')) : ParsedBehind w' := by
  refine ⟨h.ordered_round (processPebRound_ends hround), fun j hj => ?_⟩
  obtain ⟨i, hdr, hfound, hon⟩ := processPebRound_again hpeb hsizes hround
  have hi := (foundLog_bounds hfound).1
  have hforward := hon.forward
  obtain hsame | hparsed := hon.parsed
  · have hj := h.behind j (hsame ▸ hj)
    omega
  · obtain hj | hj := List.mem_append.1 (hparsed ▸ hj)
    · have hj := h.behind j hj
      omega
    · obtain rfl := List.mem_singleton.1 hj
      exact hforward

/-! The logs that lie one behind the other. -/

theorem isSsdfsPartialLogHeader_full (h : isSsdfsPartialLogHeader hdr = true) :
    ¬isSsdfsSegmentHeader hdr = true := by
  intro hfull
  have hkey := (of_decide_eq_true h).2
  rw [(of_decide_eq_true hfull).2] at hkey
  exact absurd hkey (by decide)

theorem isSsdfsPartialLogHeader_super (h : isSsdfsPartialLogHeader hdr = true) :
    peek hdr 4 0 = superMagic.toNat := (of_decide_eq_true h).1

theorem createRawBuffer_le {buf : Option Buf} (hn : n ≠ 0) : n ≤ rawSize (createRawBuffer buf n) := by
  unfold createRawBuffer
  cases buf with
  | none =>
    simp only
    rw [if_neg hn]
    exact Nat.le_refl n
  | some b =>
    simp only
    rw [if_neg hn]
    split
    · exact Nat.le_refl n
    · rename_i hle
      exact Nat.not_lt.1 hle

theorem FooterAt.recordedLogSize (h : FooterAt env hdr n) (hfull : isSsdfsSegmentHeader hdr = true) :
    recordedLogSize env hdr dump = some n := by
  have hbuf : area2bufferSize ≤ rawSize
      ((createAreas (segHdrFields.desc hdr) dump).desc logFooterIndex).buffer :=
    createRawBuffer_le (by decide)
  have hread : logFooterSize ≤ min (segHdrFields.desc hdr logFooterIndex).size.toNat
      (rawSize ((createAreas (segHdrFields.desc hdr) dump).desc logFooterIndex).buffer) :=
    Nat.le_min.2 ⟨h.size, Nat.le_trans (by decide) hbuf⟩
  obtain ⟨footer, hfooter, -, hbytes⟩ := @readAreaContent_inside env.dev
    (prepareRawBuffer ((createAreas (segHdrFields.desc hdr) dump).desc logFooterIndex).buffer log4kb)
    env.peb (segHdrFields.desc hdr logFooterIndex).offset.toNat
    (min (segHdrFields.desc hdr logFooterIndex).size.toNat
      (rawSize ((createAreas (segHdrFields.desc hdr) dump).desc logFooterIndex).buffer))
    (by rw [prepareRawBuffer_size]; omega) (Nat.le_trans (by omega) h.inside)
  have hsame : ∀ w off, off + w ≤ logFooterSize →
      peek footer.data w off = peek (footerBytes env hdr) w off := fun w off hoff =>
    peek_congr fun x hx => hbytes (off + x) (by omega)
  have hmagic : isSsdfsLogFooter footer.data = true := by
    have hfooter := h.magic
    unfold isSsdfsLogFooter hasMagic at hfooter ⊢
    rwa [hsame 4 0 (by decide), hsame 2 4 (by decide)]
  have hlogBytes : LogFooter.logBytes footer.data = n :=
    (hsame 4 0x410 (by decide)).trans h.logBytes
  have hread : readFooterArea env.dev env.peb
      ((createAreas (segHdrFields.desc hdr) dump).desc logFooterIndex) = .ok footer := hfooter
  unfold Ssdfs.recordedLogSize
  rw [if_pos hfull, hread]
  simp only
  rw [if_pos hmagic, hlogBytes]

theorem LogAt.foundLog {j : Nat} (h : LogAt env j n hdr) : foundLog env j = .ok (j, hdr) := by
  obtain ⟨m, hm⟩ := Nat.exists_eq_add_of_lt h.index
  have hmagic : peek hdr 4 0 = superMagic.toNat := by
    obtain ⟨hfull, -⟩ | ⟨hpart, -⟩ := h.records
    · exact (of_decide_eq_true hfull).1
    · exact isSsdfsPartialLogHeader_super hpart
  unfold Ssdfs.foundLog
  rw [hm, Nat.add_assoc, Nat.add_sub_cancel_left, List.range'_succ]
  unfold findValidLog
  rw [h.header, Checked.ok_bind, if_pos hmagic]

theorem LogAt.parsing {j : Nat} (h : LogAt env j n hdr) : ∃ fields next,
    logParsing env hdr = some (fields, next) ∧ ∀ dump, recordedLogSize env hdr dump = some n := by
  obtain ⟨hfull, hfooter⟩ | ⟨hpart, hbytes⟩ := h.records
  · exact ⟨_, _, if_pos hfull, fun _ => hfooter.recordedLogSize hfull⟩
  · have hfull := isSsdfsPartialLogHeader_full hpart
    exact ⟨_, _, (if_neg hfull).trans (if_pos hpart), fun _ =>
      (if_neg hfull).trans (congrArg some hbytes)⟩

theorem openFolder_made {files : σ}
    (hfolder : ∀ timestamp files, (env.createFolder timestamp files).1 = none) :
    ∃ files', openFolder env fields hdr files = (none, files') := by
  unfold openFolder
  split
  · exact ⟨files, rfl⟩
  · exact ⟨_, Prod.ext (hfolder _ _) rfl⟩

theorem processPebRound_consecutive (hpeb : env.peb.pebSize.toNat ≤ 2147483648)
    (hfolder : ∀ timestamp files, (env.createFolder timestamp files).1 = none)
    (hlog : LogAt env w.logIndex n hdr) (hends : RoundEnds env w r) :
    (roundWalk r).parsed = w.parsed ++ [w.logIndex] ∧
      (roundWalk r).logIndex = w.logIndex + (n + (log4kb - 1)) / log4kb := by
  obtain ⟨fields, next, hparsing, hsize⟩ := hlog.parsing
  cases hends with
  | unparsed hnone => cases hparsing.symm.trans (hnone _ _ hlog.foundLog)
  | footer hfound hnone =>
    cases hlog.foundLog.symm.trans hfound
    cases hparsing.symm.trans hnone
  | log hfound hparsing' hparsed =>
    cases hlog.foundLog.symm.trans hfound
    have hi := foundLog_le hpeb hfound
    have hinside := hlog.inside
    rw [roundWalk_goOn]
    refine ⟨rfl, ?_⟩
    obtain ⟨files, size, -, hrecorded, rfl⟩ | ⟨hno | hno, -⟩ :=
      parseLog_index hpeb hi hparsing' hparsed
    · cases (hsize _).symm.trans hrecorded
      rw [behindLog_eq hi, Word.u32_of_lt (by unfold log4kb at *; omega), Nat.add_comm]
    · obtain ⟨files, hfiles⟩ := openFolder_made hfolder
      exact absurd hfiles (hno files)
    · cases (hsize _).symm.trans hno

/-- The logs that have not been parsed lie ahead. -/
structure Remaining (env : RecoverEnvironment σ) (logs : List Nat) (w : PebWalk σ) (rest : List Nat) :
    Prop where
  consecutive : ConsecutiveLogs env w.logIndex rest
  covered : ∀ j ∈ logs, j ∈ w.parsed ∨ j ∈ rest

theorem Remaining.round {logs rest : List Nat} (hpeb : env.peb.pebSize.toNat ≤ 2147483648)
    (hfolder : ∀ timestamp files, (env.createFolder timestamp files).1 = none)
    (h : Remaining env logs w rest) (hends : RoundEnds env w r) :
    ∃ rest, Remaining env logs (roundWalk r) rest := by
  obtain ⟨hconsecutive, hcovered⟩ := h
  generalize hj : w.logIndex = j at hconsecutive
  cases hconsecutive with
  | nil =>
    refine ⟨[], .nil, fun j hj => ?_⟩
    obtain hj | hj := hcovered j hj
    · obtain hsame | ⟨i, hdr, -, hparsed⟩ := hends.parsed
      · exact .inl (hsame ▸ hj)
      · exact .inl (hparsed ▸ List.mem_append_left _ hj)
    · cases hj
  | cons hlog hrest =>
    subst hj
    obtain ⟨hparsed, hindex⟩ := processPebRound_consecutive hpeb hfolder hlog hends
    refine ⟨_, hindex ▸ hrest, fun j hj => ?_⟩
    rw [hparsed]
    obtain hj | hj := hcovered j hj
    · exact .inl (List.mem_append_left _ hj)
    · obtain rfl | hj := List.mem_cons.1 hj
      · exact .inl (List.mem_append_right _ List.mem_cons_self)
      · exact .inr hj

theorem RoundEnds.no_log {err : Option Errno} (hends : RoundEnds env w (.leave (err, w'))) :
    ¬LogAt env w'.logIndex n hdr := by
  intro hlog
  have hgo : ∀ k v, goOn env k v = .leave (err, w') → False := fun k v h => by
    have hwalk : w' = { v with logIndex := k } := (congrArg roundWalk h).symm.trans roundWalk_goOn
    unfold goOn at h
    simp only at h
    split at h
    · cases h
    · rename_i hk
      rw [hwalk] at hlog
      exact hk hlog.index
  generalize hr : Round.leave (err, w') = r at hends
  cases hends with
  | unparsed hnone =>
    cases hr
    obtain ⟨fields, next, hparsing, -⟩ := hlog.parsing
    cases hparsing.symm.trans (hnone _ _ hlog.foundLog)
  | footer => exact hgo _ _ hr.symm
  | log => exact hgo _ _ hr.symm

/-! A whole erase block. -/

theorem processPeb_all {logs : List Nat} {err : Option Errno} (hpeb : env.peb.pebSize.toNat ≤ 2147483648)
    (hfolder : ∀ timestamp files, (env.createFolder timestamp files).1 = none)
    (hlogs : ConsecutiveLogs env 0 logs) (h : processPeb env n fuel recovery = .ok (err, w)) :
    ∀ j ∈ logs, j ∈ w.parsed := by
  obtain ⟨t, ⟨rest, ht⟩, hround⟩ := Checked.loop_ind (fun t => ∃ rest, Remaining env logs t rest) h
    ⟨logs, hlogs, fun j hj => .inr hj⟩ fun s s' ⟨rest, hs⟩ hround =>
      hs.round hpeb hfolder (processPebRound_ends hround)
  have hends := processPebRound_ends hround
  obtain ⟨rest, hconsecutive, hcovered⟩ := ht.round hpeb hfolder hends
  intro j hj
  obtain hj | hj := hcovered j hj
  · exact hj
  · cases hconsecutive with
    | nil => cases hj
    | cons hlog => exact absurd hlog hends.no_log

theorem processPeb_once {err : Option Errno} (hpeb : env.peb.pebSize.toNat ≤ 2147483648)
    (hsizes : ∀ w, PebReached env ⟨0, [], recovery⟩ w → SizeSound env w)
    (h : processPeb env n fuel recovery = .ok (err, w)) : w.parsed.Pairwise (· < ·) := by
  obtain ⟨t, ⟨-, ht⟩, hround⟩ := Checked.loop_ind
    (fun t => PebReached env ⟨0, [], recovery⟩ t ∧ ParsedBehind t) h
    ⟨.start, List.Pairwise.nil, nofun⟩ fun s s' ⟨hreached, hs⟩ hround =>
      ⟨hreached.again hround, hs.again hpeb (hsizes s hreached) hround⟩
  exact ht.ordered_round (processPebRound_ends hround)

theorem processPeb_returns (hpeb : env.peb.pebSize.toNat ≤ 2147483648)
    (hreads : ∀ w, PebReached env ⟨0, [], recovery⟩ w → ReadsSucceed env w)
    (hblocks : ∀ w, PebReached env ⟨0, [], recovery⟩ w → BlocksSound env w)
    (hsizes : ∀ w, PebReached env ⟨0, [], recovery⟩ w → SizeSound env w) :
    ∃ blkDescFuel fuel ret, processPeb env blkDescFuel fuel recovery = .ok ret := by
  refine Checked.returns_of_fuels (PebReached env ⟨0, [], recovery⟩)
    (fun w => logsCount env.peb - w.logIndex) .start (fun m n s r hle => processPebRound_mono hle)
    (fun s hs => processPebRound_returns (hreads s hs) (hblocks s hs)) fun m s s' hs hround => ?_
  obtain ⟨i, hdr, hfound, hon⟩ := processPebRound_again hpeb (hsizes s hs) hround
  have hi := (foundLog_bounds hfound).1
  have hforward := hon.forward
  have hindex := hon.index
  exact ⟨hs.again hround, by omega⟩

theorem sizeSound_of_forward (hpeb : env.peb.pebSize.toNat ≤ 2147483648)
    (hreads : ReadsSucceed env w) (hblocks : BlocksSound env w)
    (hforward : ∀ fuel w' i hdr, processPebRound env fuel w = .ok (.again w') →
      foundLog env w.logIndex = .ok (i, hdr) → i < w'.logIndex) : SizeSound env w := by
  intro i hdr fields next files hnext size hsize hstalls
  have hi := foundLog_le hpeb hnext.found
  have hcount := (foundLog_bounds hnext.found).2
  obtain ⟨fuel, ⟨k, recovery⟩, hparsed⟩ := parseLog_returns hreads hblocks hnext.found hnext.parsing
  obtain ⟨files', size', -, hsize', rfl⟩ | ⟨hno | hno, -⟩ :=
    parseLog_index hpeb hi hnext.parsing hparsed
  · obtain rfl := Option.some.inj (hsize.symm.trans hsize')
    have hle : behindLog size i ≤ i := Nat.not_lt.1 fun h => (lt_behindLog_iff hi).1 h hstalls
    have hround : processPebRound env fuel w =
        .ok (.again ⟨behindLog size i, w.parsed ++ [i], recovery⟩) := by
      rw [processPebRound_log hnext.found hnext.parsing, hparsed, Checked.ok_bind]
      exact congrArg Except.ok (if_pos (Nat.lt_of_le_of_lt hle hcount))
    exact absurd (hforward _ _ _ _ hround hnext.found) (Nat.not_lt.2 hle)
  · exact absurd hnext.folder (hno files)
  · cases hsize.symm.trans hno

theorem processPeb_processes_iff (hpeb : env.peb.pebSize.toNat ≤ 2147483648)
    (hreads : ∀ w, PebReached env ⟨0, [], recovery⟩ w → ReadsSucceed env w)
    (hblocks : ∀ w, PebReached env ⟨0, [], recovery⟩ w → BlocksSound env w) :
    ProcessedAll env recovery ↔ ∀ w, PebReached env ⟨0, [], recovery⟩ w → SizeSound env w := by
  constructor
  · exact fun h w hw => sizeSound_of_forward hpeb (hreads w hw) (hblocks w hw) (h.forward w hw)
  · intro hsizes
    exact {
      forward := fun w hw fuel w' i hdr hround hfound => by
        obtain ⟨i', hdr', hfound', hon⟩ := processPebRound_again hpeb (hsizes w hw) hround
        cases hfound.symm.trans hfound'
        exact hon.forward
      returns := processPeb_returns hpeb hreads hblocks hsizes
      once := fun _ _ _ _ => processPeb_once hpeb hsizes
      all := fun hfolder _ hlogs _ _ _ _ => processPeb_all hpeb hfolder hlogs }

theorem recoverBlocks_empty {desc : AreaDescriptor} {s : Recovery σ}
    (h : (s.dump.desc blkDescAreaIndex).size = 0) : recoverBlocks env fuel desc s = .ok s :=
  if_pos (.inr h)

end

/-! An erase block that starts with the header of a partial log. -/

def partialLogDevice (logBytes : Nat) : Buf where
  size := 131072
  data := poke (poke (poke (poke (fun _ => 0) 4 reservedVbrSize superMagic.toNat) 2 (reservedVbrSize + 4)
    partialLogHdrMagic.toNat) 2 (reservedVbrSize + 0x22) sbSegTypeId) 4 (reservedVbrSize + 0x28) logBytes

def partialLogHeader (logBytes : Nat) : Bytes :=
  fun x => (partialLogDevice logBytes).data (reservedVbrSize + x)

def partialLogEnvironment (logBytes : Nat) : RecoverEnvironment Unit where
  crc32 := fun _ => 0
  decompress := fun _ _ _ _ _ _ => fail .eio
  dev := partialLogDevice logBytes
  peb := ⟨0, 131072⟩
  pageSize := 4096
  createFolder := fun _ files => (none, files)
  copyBlockState := fun _ _ files => files

def newRecovery : Recovery Unit :=
  ⟨⟨fun _ => ⟨0, 0, createContentIterator, emptyAreaBlockTable, none, none⟩, none⟩, ()⟩

section

variable {logBytes i k n fuel : Nat} {hdr : Bytes} {w w' : PebWalk Unit}

theorem partialLog_found (hmagic : peek (partialLogHeader logBytes) 4 0 = superMagic.toNat) :
    foundLog (partialLogEnvironment logBytes) 0 = .ok (0, partialLogHeader logBytes) := by
  have hcount : logsCount (partialLogEnvironment logBytes).peb = 31 + 1 :=
    (by decide : (131072 : UInt32).toNat / log4kb = 32)
  unfold foundLog
  rw [hcount, Nat.sub_zero, List.range'_succ]
  have hheader : readSegmentHeader (deviceRead (partialLogDevice logBytes)) 0 131072 (logOffset 0) =
      .ok (partialLogHeader logBytes) := by
    unfold readSegmentHeader
    simp only
    rw [if_pos trivial, if_pos (by decide : logOffset 0 = 0)]
    exact deviceRead_inside (by decide : 1024 + 2048 ≤ 131072)
  unfold findValidLog
  refine Checked.bind_eq_ok.2 ⟨_, hheader, if_pos hmagic⟩

structure BareLog (hdr : Bytes) : Prop where
  magic : isSsdfsPartialLogHeader hdr = true
  segType : plHdrFields.segType hdr = sbSegTypeId
  size : (plHdrFields.desc hdr blkDescAreaIndex).size.toNat = 0

theorem BareLog.round (h : BareLog (partialLogHeader logBytes)) (hindex : w.logIndex = 0) : ∃ recovery,
    processPebRound (partialLogEnvironment logBytes) fuel w = .ok (goOn (partialLogEnvironment logBytes)
      (behindLog (PlHdr.logBytes (partialLogHeader logBytes)) 0)
        { w with parsed := w.parsed ++ [0], recovery }) := by
  have hparsing : logParsing (partialLogEnvironment logBytes) (partialLogHeader logBytes) =
      some (plHdrFields, partialLogIndex) :=
    (if_neg (isSsdfsPartialLogHeader_full h.magic)).trans (if_pos h.magic)
  have hfound : foundLog (partialLogEnvironment logBytes) w.logIndex =
      .ok (0, partialLogHeader logBytes) := by
    rw [hindex]
    exact partialLog_found (isSsdfsPartialLogHeader_super h.magic)
  have hparsed : parseLog (partialLogEnvironment logBytes) plHdrFields partialLogIndex fuel
      (partialLogHeader logBytes) 0 w.recovery =
        .ok (behindLog (PlHdr.logBytes (partialLogHeader logBytes)) 0,
          ⟨createAreas (plHdrFields.desc (partialLogHeader logBytes)) w.recovery.dump,
            w.recovery.files⟩) := by
    unfold parseLog openFolder
    rw [if_pos (.inr h.segType)]
    exact Checked.bind_eq_ok.2 ⟨_, rfl, Checked.bind_eq_ok.2 ⟨_, recoverBlocks_empty h.size, rfl⟩⟩
  exact ⟨_, (processPebRound_log hfound hparsing).trans (Checked.bind_eq_ok.2 ⟨_, hparsed, rfl⟩)⟩

theorem bareLog_whole : BareLog (partialLogHeader 131072) := ⟨by decide, by decide, by decide⟩

theorem bareLog_empty : BareLog (partialLogHeader 0) := ⟨by decide, by decide, by decide⟩

theorem partialLog_reached (h : PebReached (partialLogEnvironment 131072) ⟨0, [], newRecovery⟩ w) :
    w = ⟨0, [], newRecovery⟩ := by
  induction h with
  | start => rfl
  | @again fuel w w' hreached hround ih =>
    subst ih
    obtain ⟨recovery, hleft⟩ := @BareLog.round 131072 fuel ⟨0, [], newRecovery⟩ bareLog_whole rfl
    have hindex : behindLog (PlHdr.logBytes (partialLogHeader 131072)) 0 = 32 := by decide
    rw [hindex] at hleft
    cases hround.symm.trans hleft

theorem BareLog.next (hbare : BareLog (partialLogHeader logBytes)) (hw : w.logIndex = 0) {fields : LogFields}
    {next : Bytes → Nat → RawDump → Mkfs (Option Nat × RawDump)} {files : Unit}
    (h : NextLog (partialLogEnvironment logBytes) w i hdr fields next files) :
    hdr = partialLogHeader logBytes ∧ fields = plHdrFields ∧ next = partialLogIndex := by
  have hmagic := hbare.magic
  have hfound := partialLog_found (isSsdfsPartialLogHeader_super hmagic)
  have hhdr := congrArg Prod.snd (Except.ok.inj ((hw ▸ h.found).symm.trans hfound))
  subst hhdr
  have hparsing : logParsing (partialLogEnvironment logBytes) (partialLogHeader logBytes) =
      some (plHdrFields, partialLogIndex) :=
    (if_neg (isSsdfsPartialLogHeader_full hmagic)).trans (if_pos hmagic)
  cases Option.some.inj (h.parsing.symm.trans hparsing)
  exact ⟨rfl, rfl, rfl⟩

theorem BareLog.reads (hbare : BareLog (partialLogHeader logBytes)) (hw : w.logIndex = 0) :
    ReadsSucceed (partialLogEnvironment logBytes) w where
  headers := by
    rw [hw, partialLog_found (isSsdfsPartialLogHeader_super hbare.magic)]
    exact Checked.returns_ok
  footer i hdr fields next files hnext hfull := by
    obtain ⟨rfl, -, -⟩ := hbare.next hw hnext
    exact absurd hfull (isSsdfsPartialLogHeader_full hbare.magic)
  table i hdr fields next files hnext n dump hindex _ hsize := by
    obtain ⟨rfl, rfl, rfl⟩ := hbare.next hw hnext
    obtain rfl : createAreas (plHdrFields.desc (partialLogHeader logBytes)) w.recovery.dump = dump :=
      congrArg Prod.snd (Except.ok.inj hindex)
    exact absurd hbare.size hsize

theorem processPeb_processes_whole : ProcessedAll (partialLogEnvironment 131072) newRecovery := by
  refine (processPeb_processes_iff (by decide : (131072 : UInt32).toNat ≤ 2147483648)
    (fun w hw => ?_) fun w hw => ?_).2 fun w hw => ?_
  · obtain rfl := partialLog_reached hw
    exact bareLog_whole.reads rfl
  · obtain rfl := partialLog_reached hw
    intro i hdr fields next files hnext n dump hindex _ hsize
    obtain ⟨rfl, rfl, rfl⟩ := bareLog_whole.next rfl hnext
    obtain rfl : createAreas (plHdrFields.desc (partialLogHeader 131072)) newRecovery.dump = dump :=
      congrArg Prod.snd (Except.ok.inj hindex)
    exact absurd bareLog_whole.size hsize
  · obtain rfl := partialLog_reached hw
    intro i hdr fields next files hnext n hn
    obtain ⟨rfl, -, -⟩ := bareLog_whole.next rfl hnext
    have hfull := isSsdfsPartialLogHeader_full bareLog_whole.magic
    obtain rfl : PlHdr.logBytes (partialLogHeader 131072) = n :=
      Option.some.inj ((if_neg hfull).symm.trans hn)
    exact (by decide : ¬LogStalls (PlHdr.logBytes (partialLogHeader 131072)))

theorem processPeb_stays (hindex : w.logIndex = 0) :
    ¬Checked.Ends (processPebRound (partialLogEnvironment 0) fuel) w :=
  Checked.not_ends_of_inv (fun w => w.logIndex = 0) hindex fun w hw => by
    obtain ⟨recovery, hround⟩ := @BareLog.round 0 fuel w bareLog_empty hw
    have hindex : behindLog (PlHdr.logBytes (partialLogHeader 0)) 0 = 0 := by decide
    rw [hindex] at hround
    exact ⟨_, hround, rfl⟩

theorem partialLog_stays (h : PebReached (partialLogEnvironment 0) ⟨0, [], newRecovery⟩ w) :
    w.logIndex = 0 := by
  induction h with
  | start => rfl
  | @again fuel w w' _ hround ih =>
    obtain ⟨recovery, hleft⟩ := @BareLog.round 0 fuel w bareLog_empty ih
    have hindex : behindLog (PlHdr.logBytes (partialLogHeader 0)) 0 = 0 := by decide
    rw [hindex] at hleft
    cases hround.symm.trans hleft
    rfl

theorem processPeb_not_processes :
    (∀ w, PebReached (partialLogEnvironment 0) ⟨0, [], newRecovery⟩ w →
      ReadsSucceed (partialLogEnvironment 0) w) ∧
    ¬ProcessedAll (partialLogEnvironment 0) newRecovery := by
  refine ⟨fun w hw => bareLog_empty.reads (partialLog_stays hw), fun h => ?_⟩
  obtain ⟨blkDescFuel, fuel, ret, hret⟩ := h.returns
  exact processPeb_stays rfl ⟨fuel, fun h0 => nomatch hret.symm.trans h0⟩

end

end Ssdfs
