import Ssdfs.Fsck.FoundLog

namespace Ssdfs

open Memory

structure SbDetection where
  baseSnapshotFound : Bool
  baseSnapshot : FoundLog
  superblockLogs : SbSegCopy → FoundLog

def FoundLog.atStart (log : FoundLog) (sb : Nat × Bytes) : FoundLog :=
  { log with pebId := sb.1, startPage := 0, header := sb.2 }

structure SbWalk where
  tries : Nat
  log : FoundLog

section

variable (read : Nat → Nat → Search Bytes) (env : FsckEnvironment)

def findFirstSuperblock (hdr : Bytes) (segCopy : SbSegCopy) : List SbSeg → Search (Nat × Bytes)
  | [] => Search.notFound
  | seg :: segs =>
    let pebId := SegHdr.sbPeb hdr seg segCopy
    match findMetadataSegment read env.eraseSize.toNat pebId sbSegTypeId 0 with
    | .error (.code .notFound) => findFirstSuperblock hdr segCopy segs
    | m => m.map fun sbHdr => (pebId, sbHdr)

def sbWalkRound (segCopy : SbSegCopy) (pebsPerVolume : Nat) (st : SbWalk) :
    Search (Round SbWalk (Report SearchResult FoundLog)) :=
  let pebId := SegHdr.sbPeb st.log.header .next segCopy
  let tries := Word.u64 (st.tries + 1)
  match findMetadataSegment read env.eraseSize.toNat pebId sbSegTypeId 0 with
  | .ok hdr =>
    let log := st.log.atStart (pebId, hdr)
    .ok (if tries ≥ pebsPerVolume then .leave (some .failure, log) else .again ⟨tries, log⟩)
  | .error (.code _) =>
    .ok (.leave (if tries ≥ pebsPerVolume then some .failure else none, st.log))
  | .error e => .error e

def isSuperblockSegmentFound (fuel : Nat) (point : SbDetection) (segCopy : SbSegCopy) :
    Search (Report SearchResult FoundLog) := do
  let log := point.superblockLogs segCopy
  let pebsPerVolume ← Search.quot env.fsSize.toNat env.eraseSize.toNat
  if ¬point.baseSnapshotFound then .ok (some .failure, log)
  else if ¬isSsdfsSegmentHeader point.baseSnapshot.header then .ok (some .failure, log)
  else
    let first := findFirstSuperblock read env point.baseSnapshot.header segCopy [.cur, .next, .reserved]
    Report.attempt first log fun sb =>
      Report.andThen (Checked.loop (sbWalkRound read env segCopy pebsPerVolume) fuel ⟨0, log.atStart sb⟩)
        (findLastFullLog read fuel env.eraseSize.toNat)

end

def readOf (dev : Nat → Nat → Option Bytes) (offset size : Nat) : Search Bytes :=
  match dev offset size with
  | some bytes => .ok bytes
  | none => Search.failure

def headerAt (dev : Nat → Nat → Option Bytes) (eraseSize pebId : Nat) : Option Bytes :=
  dev (if pebId = 0 then reservedVbrSize else Word.u64 (pebId * eraseSize)) logHeaderSize

def superblockAt (dev : Nat → Nat → Option Bytes) (eraseSize pebId : Nat) : Option Bytes :=
  (headerAt dev eraseSize pebId).filter fun hdr =>
    isSsdfsSegmentHeader hdr ∧ SegHdr.segType hdr = sbSegTypeId

def superblockBehind (dev : Nat → Nat → Option Bytes) (eraseSize : Nat) (segCopy : SbSegCopy)
    (sb : Nat × Bytes) : Option (Nat × Bytes) :=
  let pebId := SegHdr.sbPeb sb.2 .next segCopy
  (superblockAt dev eraseSize pebId).map fun hdr => (pebId, hdr)

section

variable {dev : Nat → Nat → Option Bytes} {env : FsckEnvironment} {segCopy : SbSegCopy}
  {eraseSize pebId n : Nat} {hdr : Bytes}

theorem readSegmentHeader_start : readSegmentHeader (readOf dev) pebId eraseSize 0 =
    match headerAt dev eraseSize pebId with
    | some bytes => .ok bytes
    | none => Search.failure := by
  unfold readSegmentHeader headerAt readOf
  simp only [if_true, Nat.add_zero]
  rw [Word.u64_of_lt (Word.u64_lt _)]

theorem findMetadataSegment_of_some (h : superblockAt dev eraseSize pebId = some hdr) :
    findMetadataSegment (readOf dev) eraseSize pebId sbSegTypeId 0 = .ok hdr := by
  obtain ⟨hread, hsb⟩ := Option.filter_eq_some_iff.1 h
  simp only [decide_eq_true_eq] at hsb
  unfold findMetadataSegment
  rw [readSegmentHeader_start, hread]
  simp only [Checked.ok_bind]
  rw [if_neg (by simp [hsb.1]), if_neg (by simp [hsb.2])]

theorem findMetadataSegment_of_none (h : superblockAt dev eraseSize pebId = none) :
    findMetadataSegment (readOf dev) eraseSize pebId sbSegTypeId 0 =
      if (headerAt dev eraseSize pebId).isSome then Search.notFound else Search.failure := by
  have hnot := Option.filter_eq_none_iff.1 h
  unfold findMetadataSegment
  rw [readSegmentHeader_start]
  match hread : headerAt dev eraseSize pebId with
  | none => rfl
  | some bytes =>
    have hbytes := hnot bytes hread
    simp only [decide_eq_true_eq, not_and] at hbytes
    simp only [Checked.ok_bind, Option.isSome_some, if_true]
    by_cases hhdr : isSsdfsSegmentHeader bytes = true
    · rw [if_neg (by simp [hhdr]), if_pos (hbytes hhdr)]
    · rw [if_pos hhdr]

theorem sbWalkRound_of_some (pebsPerVolume tries : Nat) {log : FoundLog} {sb : Nat × Bytes}
    (h : superblockBehind dev env.eraseSize.toNat segCopy (log.pebId, log.header) = some sb)
    (hword : tries + 1 < 18446744073709551616) :
    sbWalkRound (readOf dev) env segCopy pebsPerVolume ⟨tries, log⟩ =
      .ok (if tries + 1 ≥ pebsPerVolume then .leave (some .failure, log.atStart sb)
        else .again ⟨tries + 1, log.atStart sb⟩) := by
  obtain ⟨hdr, hhdr, rfl⟩ := Option.map_eq_some_iff.1 h
  unfold sbWalkRound
  simp only
  rw [findMetadataSegment_of_some hhdr, Word.u64_of_lt hword]

theorem sbWalkRound_of_none (pebsPerVolume tries : Nat) {log : FoundLog}
    (h : superblockBehind dev env.eraseSize.toNat segCopy (log.pebId, log.header) = none)
    (hword : tries + 1 < 18446744073709551616) :
    sbWalkRound (readOf dev) env segCopy pebsPerVolume ⟨tries, log⟩ =
      .ok (.leave (if tries + 1 ≥ pebsPerVolume then some .failure else none, log)) := by
  unfold sbWalkRound
  simp only
  rw [findMetadataSegment_of_none (Option.map_eq_none_iff.1 h), Word.u64_of_lt hword]
  cases (headerAt dev env.eraseSize.toNat (SegHdr.sbPeb log.header .next segCopy)).isSome <;> rfl

theorem sbWalk_last {log : FoundLog} {pebsPerVolume tries : Nat} {z : Nat × Bytes}
    (hlast : Follows.Last (superblockBehind dev env.eraseSize.toNat segCopy) n
      (log.pebId, log.header) z)
    (hpage : log.startPage = 0) (htries : tries + n + 1 < pebsPerVolume)
    (hmax : pebsPerVolume < 18446744073709551616) :
    ∃ fuel, Checked.loop (sbWalkRound (readOf dev) env segCopy pebsPerVolume) fuel ⟨tries, log⟩ =
      .ok (none, log.atStart z) := by
  obtain ⟨hfollows, hstop⟩ := hlast
  generalize hsb : (log.pebId, log.header) = sb at hfollows
  induction hfollows generalizing log tries with
  | refl z =>
    subst hsb
    have hround := sbWalkRound_of_none pebsPerVolume tries hstop (by omega)
    rw [if_neg (by omega)] at hround
    refine ⟨1, (Checked.loop_leave hround).trans ?_⟩
    unfold FoundLog.atStart
    rw [← hpage]
  | @step _ _ sb' _ hnext hrest ih =>
    subst hsb
    have hround := sbWalkRound_of_some pebsPerVolume tries hnext (by omega)
    rw [if_neg (by omega)] at hround
    obtain ⟨fuel, hfuel⟩ := @ih (log.atStart sb') (tries + 1) rfl (by omega) hstop rfl
    exact ⟨fuel + 1, (Checked.loop_again hround).trans hfuel⟩

theorem sbWalk_endless {log : FoundLog} {pebsPerVolume tries : Nat}
    (hends : ∀ n z, ¬Follows.Last (superblockBehind dev env.eraseSize.toNat segCopy) n
      (log.pebId, log.header) z)
    (hmax : pebsPerVolume < 18446744073709551616) (htries : tries = 0 ∨ tries < pebsPerVolume) :
    ∃ fuel z, Checked.loop (sbWalkRound (readOf dev) env segCopy pebsPerVolume) fuel ⟨tries, log⟩ =
      .ok (some .failure, log.atStart z) ∧
      Follows (superblockBehind dev env.eraseSize.toNat segCopy) (max 1 (pebsPerVolume - tries))
        (log.pebId, log.header) z := by
  induction hrest : pebsPerVolume - tries using Nat.strongRecOn generalizing log tries with
  | _ rest ih =>
    obtain ⟨sb, hsb⟩ := Option.ne_none_iff_exists'.1 fun hnone => hends 0 _ ⟨.refl _, hnone⟩
    have hround := sbWalkRound_of_some pebsPerVolume tries hsb (by omega)
    by_cases hspent : tries + 1 ≥ pebsPerVolume
    · rw [if_pos hspent] at hround
      rw [show max 1 rest = 1 by omega]
      exact ⟨1, sb, Checked.loop_leave hround, .step hsb (.refl _)⟩
    · rw [if_neg hspent] at hround
      obtain ⟨fuel, z, hfuel, hz⟩ := @ih (pebsPerVolume - (tries + 1)) (by omega) (log.atStart sb) (tries + 1)
        (fun n z hlast => hends (n + 1) z ⟨.step hsb hlast.follows, hlast.stop⟩) (.inr (by omega)) rfl
      rw [show max 1 rest = max 1 (pebsPerVolume - (tries + 1)) + 1 by omega]
      exact ⟨fuel + 1, z, (Checked.loop_again hround).trans hfuel, .step hsb hz⟩

/-- The superblock PEB that the search starts from: the first of those that an old header names,
behind PEBs that can be read. -/
def FirstSuperblock (dev : Nat → Nat → Option Bytes) (eraseSize : Nat) (hdr : Bytes)
    (segCopy : SbSegCopy) (segs : List SbSeg) (first : Nat × Bytes) : Prop :=
  ∃ before seg after, segs = before ++ seg :: after ∧ first.1 = SegHdr.sbPeb hdr seg segCopy ∧
    superblockAt dev eraseSize first.1 = some first.2 ∧
    ∀ s ∈ before, (headerAt dev eraseSize (SegHdr.sbPeb hdr s segCopy)).isSome ∧
      superblockAt dev eraseSize (SegHdr.sbPeb hdr s segCopy) = none

theorem findFirstSuperblock_of_first {segs : List SbSeg} {first : Nat × Bytes}
    (h : FirstSuperblock dev env.eraseSize.toNat hdr segCopy segs first) :
    findFirstSuperblock (readOf dev) env hdr segCopy segs = .ok first := by
  obtain ⟨before, seg, after, rfl, hpeb, hfirst, hbefore⟩ := h
  induction before with
  | nil =>
    rw [List.nil_append, findFirstSuperblock, ← hpeb, findMetadataSegment_of_some hfirst]
    rfl
  | cons s before ih =>
    obtain ⟨hread, hnone⟩ := hbefore s List.mem_cons_self
    rw [List.cons_append, findFirstSuperblock, findMetadataSegment_of_none hnone, if_pos hread]
    exact ih fun s hs => hbefore s (List.mem_cons_of_mem _ hs)

variable {point : SbDetection} {first : Nat × Bytes}

theorem isSuperblockSegmentFound_of_first (fuel : Nat) (hfound : point.baseSnapshotFound = true)
    (hhdr : isSsdfsSegmentHeader point.baseSnapshot.header = true)
    (hfirst : FirstSuperblock dev env.eraseSize.toNat point.baseSnapshot.header segCopy
      [.cur, .next, .reserved] first)
    (hsize : 0 < env.eraseSize.toNat) :
    isSuperblockSegmentFound (readOf dev) env fuel point segCopy =
      Report.andThen
        (Checked.loop (sbWalkRound (readOf dev) env segCopy (env.fsSize.toNat / env.eraseSize.toNat)) fuel
          ⟨0, (point.superblockLogs segCopy).atStart first⟩)
        (findLastFullLog (readOf dev) fuel env.eraseSize.toNat) := by
  unfold isSuperblockSegmentFound Search.quot
  rw [Checked.quot_of_ne (Nat.ne_of_gt hsize), Checked.ok_bind, if_neg (by simp [hfound]),
    if_neg (by simp [hhdr]), findFirstSuperblock_of_first hfirst]
  rfl

theorem superblockAt_of_follows {z : Nat × Bytes}
    (hfirst : superblockAt dev eraseSize first.1 = some first.2)
    (h : Follows (superblockBehind dev eraseSize segCopy) n first z) :
    superblockAt dev eraseSize z.1 = some z.2 := by
  refine h.ind (fun sb => superblockAt dev eraseSize sb.1 = some sb.2) hfirst fun x y _ hnext => ?_
  obtain ⟨hdr, hhdr, rfl⟩ := Option.map_eq_some_iff.1 hnext
  exact hhdr

theorem isSuperblockSegmentFound_cycle {m : Nat} {b : Nat × Bytes}
    (hfound : point.baseSnapshotFound = true)
    (hhdr : isSsdfsSegmentHeader point.baseSnapshot.header = true)
    (hfirst : FirstSuperblock dev env.eraseSize.toNat point.baseSnapshot.header segCopy
      [.cur, .next, .reserved] first)
    (hsize : 0 < env.eraseSize.toNat)
    (hb : Follows (superblockBehind dev env.eraseSize.toNat segCopy) n first b)
    (hcycle : Follows (superblockBehind dev env.eraseSize.toNat segCopy) (m + 1) b b) :
    ∃ fuel z, isSuperblockSegmentFound (readOf dev) env fuel point segCopy =
        .ok (some .failure, (point.superblockLogs segCopy).atStart z) ∧
      Follows (superblockBehind dev env.eraseSize.toNat segCopy)
        (max 1 (env.fsSize.toNat / env.eraseSize.toNat)) first z := by
  have hmax : env.fsSize.toNat / env.eraseSize.toNat < 18446744073709551616 :=
    Nat.lt_of_le_of_lt (Nat.div_le_self _ _) env.fsSize.toNat_lt
  obtain ⟨fuel, z, hfuel, hz⟩ := @sbWalk_endless dev env segCopy
    ((point.superblockLogs segCopy).atStart first) (env.fsSize.toNat / env.eraseSize.toNat) 0
    (fun k z => hb.not_last_of_cycle hcycle) hmax (.inl rfl)
  refine ⟨fuel, z, ?_, hz⟩
  rw [isSuperblockSegmentFound_of_first fuel hfound hhdr hfirst hsize, hfuel]
  rfl

end

/-- A superblock segment's header, on pages of 4 KiB, with the current and the next PEB of the main
copy. -/
def plainSbHeader (logPages curPeb nextPeb : Nat) : Bytes :=
  poke (poke (poke (poke (poke (poke (poke (fun _ => 0) 4 0 superMagic.toNat) 2 4 segmentHdrMagic.toNat)
    1 0x10 12) 2 0x410 logPages) 2 0x412 sbSegTypeId) 8 0x38 curPeb) 8 0x58 nextPeb

/-- The second erase block of 128 KiB holds a superblock header, the others hold nothing. -/
def plainSbDevice (hdr : Bytes) (offset _size : Nat) : Option Bytes :=
  if offset = 131072 then some hdr else some fun _ => 0

def plainSbEnvironment : FsckEnvironment := ⟨131072, 1048576, 131072, false⟩

def plainSbDetection (hdr : Bytes) : SbDetection :=
  ⟨true, ⟨0, 0, hdr, fun _ => 0⟩, fun _ => ⟨0, 0, fun _ => 0, fun _ => 0⟩⟩

theorem readOf_plainSbDevice (hdr : Bytes) (offset size : Nat) :
    ∃ bytes, readOf (plainSbDevice hdr) offset size = .ok bytes := by
  unfold readOf plainSbDevice
  by_cases h : offset = 131072
  · exact ⟨hdr, by rw [if_pos h]⟩
  · exact ⟨_, by rw [if_neg h]⟩

end Ssdfs
