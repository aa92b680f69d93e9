import Ssdfs.Device.LogHeaders
import Ssdfs.Fsck.Maptbl
import Ssdfs.Lib.Follow
import Ssdfs.Lib.Loop
import Ssdfs.Lib.Report

namespace Ssdfs

open Memory

structure FoundLog where
  pebId : Nat
  startPage : Nat
  header : Bytes
  footer : Bytes

section

variable (read : Nat → Nat → Search Bytes)

def findMetadataSegment (eraseSize pebId segType logOffset : Nat) : Search Bytes := do
  let hdr ← readSegmentHeader read pebId eraseSize logOffset
  if ¬isSsdfsSegmentHeader hdr then Search.notFound
  else if SegHdr.segType hdr ≠ segType then Search.notFound
  else .ok hdr

def fullLogRound (eraseSize pageSize pagesPerPeb fullLogPages : Nat) (st : Nat × FoundLog) :
    Search (Round (Nat × FoundLog) (Report SearchResult FoundLog)) :=
  let (curPage, log) := st
  match readSegmentHeader read log.pebId eraseSize (Word.u32 (curPage * pageSize)) with
  | .error (.code _) => .ok (.leave (some .failure, log))
  | .error e => .error e
  | .ok curHdr =>
    if ¬isSsdfsSegmentHeader curHdr then .ok (.leave (none, log))
    else
      let log := { log with startPage := curPage, header := curHdr }
      let curPage := Word.u32 (curPage + fullLogPages)
      if curPage < pagesPerPeb then .ok (.again (curPage, log)) else .ok (.leave (none, log))

def findLastFullLog (fuel eraseSize : Nat) (log : FoundLog) : Search (Report SearchResult FoundLog) := do
  if ¬isSsdfsSegmentHeader log.header then .ok (some .failure, log)
  else do
    let pageSize ← Checked.shiftOne SearchResult (SegHdr.logPagesize log.header)
    Search.bugOn (pageSize = 0)
    let pagesPerPeb := eraseSize / pageSize
    Search.bugOn (pagesPerPeb = 0)
    if log.startPage ≥ pagesPerPeb then .ok (some .failure, log)
    else do
      let fullLogPages := SegHdr.logPages log.header
      Search.bugOn (fullLogPages = 0 ∨ fullLogPages ≥ Word.u16Max)
      let curPage := Word.u32 (log.startPage + fullLogPages)
      if curPage > pagesPerPeb then .ok (some .failure, log)
      else if curPage = pagesPerPeb then .ok (none, log)
      else
        Checked.loop (fullLogRound read eraseSize pageSize pagesPerPeb fullLogPages) fuel
          (curPage, log)

end

/-- What a header says about the full logs of its erase block, as the search takes it. -/
structure FullLogs (eraseSize : Nat) (hdr : Bytes) (pageSize pagesPerPeb : Nat) : Prop where
  header : isSsdfsSegmentHeader hdr = true
  bits : SegHdr.logPagesize hdr < 32
  size : pageSize = 2 ^ SegHdr.logPagesize hdr
  pages : pagesPerPeb = eraseSize / pageSize
  pos : 0 < SegHdr.logPages hdr
  max : SegHdr.logPages hdr < Word.u16Max
  fit : SegHdr.logPages hdr ≤ pagesPerPeb
  block : eraseSize < 4294967296
  room : pagesPerPeb + SegHdr.logPages hdr < 4294967296

def fullLogBehind (read : Nat → Nat → Search Bytes) (eraseSize pageSize pagesPerPeb stride : Nat)
    (log : FoundLog) : Option FoundLog :=
  let page := log.startPage + stride
  if page < pagesPerPeb then
    match readSegmentHeader read log.pebId eraseSize (page * pageSize) with
    | .ok hdr =>
      if isSsdfsSegmentHeader hdr then some { log with startPage := page, header := hdr } else none
    | .error _ => none
  else none

/-- Every header that the walk over the full logs looks at can be read. -/
def FullLogsReadable (read : Nat → Nat → Search Bytes) (eraseSize pageSize pagesPerPeb : Nat)
    (log : FoundLog) : Prop :=
  ∀ n cur, Follows (fullLogBehind read eraseSize pageSize pagesPerPeb (SegHdr.logPages log.header)) n log cur →
    cur.startPage + SegHdr.logPages log.header < pagesPerPeb →
    ∃ hdr, readSegmentHeader read cur.pebId eraseSize
      ((cur.startPage + SegHdr.logPages log.header) * pageSize) = .ok hdr

section

variable {read : Nat → Nat → Search Bytes} {eraseSize pageSize pagesPerPeb stride : Nat}
  {log log' : FoundLog}

theorem fullLogBehind_eq_some
    (h : fullLogBehind read eraseSize pageSize pagesPerPeb stride log = some log') :
    ∃ hdr, log.startPage + stride < pagesPerPeb ∧
      readSegmentHeader read log.pebId eraseSize ((log.startPage + stride) * pageSize) = .ok hdr ∧
      isSsdfsSegmentHeader hdr = true ∧
      log' = { log with startPage := log.startPage + stride, header := hdr } := by
  unfold fullLogBehind at h
  simp only at h
  split at h
  case isFalse => cases h
  case isTrue hlt =>
    split at h
    case h_2 => cases h
    case h_1 hdr hread =>
      split at h
      case isFalse => cases h
      case isTrue hhdr => exact ⟨hdr, hlt, hread, hhdr, (Option.some.inj h).symm⟩

theorem FullLogs.page_pos (h : FullLogs eraseSize log.header pageSize pagesPerPeb) : 0 < pageSize := by
  rw [h.size]
  exact Nat.pow_pos (by decide)

theorem FullLogs.offset_lt (h : FullLogs eraseSize log.header pageSize pagesPerPeb) {page : Nat}
    (hpage : page < pagesPerPeb) : page * pageSize + pageSize ≤ eraseSize := by
  have hmul : (page + 1) * pageSize ≤ pagesPerPeb * pageSize := Nat.mul_le_mul_right _ hpage
  rw [h.pages] at hmul
  have hdiv := Nat.div_mul_le_self eraseSize pageSize
  rw [Nat.succ_mul] at hmul
  omega

structure FullLogWalk (read : Nat → Nat → Search Bytes) (eraseSize pageSize pagesPerPeb stride : Nat)
    (log : FoundLog) (st : Nat × FoundLog) : Prop where
  chain : ∃ n, Follows (fullLogBehind read eraseSize pageSize pagesPerPeb stride) n log st.2
  page : st.1 = st.2.startPage + stride
  inside : st.1 < pagesPerPeb

end

section

variable {read : Nat → Nat → Search Bytes} {eraseSize pageSize pagesPerPeb : Nat} {log : FoundLog}
  {st : Nat × FoundLog}

theorem FullLogWalk.readable (hreads : FullLogsReadable read eraseSize pageSize pagesPerPeb log)
    (hst : FullLogWalk read eraseSize pageSize pagesPerPeb (SegHdr.logPages log.header) log st) :
    ∃ hdr, readSegmentHeader read st.2.pebId eraseSize (st.1 * pageSize) = .ok hdr := by
  obtain ⟨n, hn⟩ := hst.chain
  rw [hst.page]
  exact hreads n st.2 hn (hst.page ▸ hst.inside)

theorem fullLogRound_eq (h : FullLogs eraseSize log.header pageSize pagesPerPeb) {st : Nat × FoundLog}
    (hst : FullLogWalk read eraseSize pageSize pagesPerPeb (SegHdr.logPages log.header) log st) {hdr : Bytes}
    (hread : readSegmentHeader read st.2.pebId eraseSize (st.1 * pageSize) = .ok hdr) :
    fullLogRound read eraseSize pageSize pagesPerPeb (SegHdr.logPages log.header) st =
      if ¬isSsdfsSegmentHeader hdr then .ok (.leave (none, st.2))
      else
        let log' := { st.2 with startPage := st.1, header := hdr }
        if st.1 + SegHdr.logPages log.header < pagesPerPeb then
          .ok (.again (st.1 + SegHdr.logPages log.header, log'))
        else .ok (.leave (none, log')) := by
  have hoff := h.offset_lt hst.inside
  have hpage := h.page_pos
  have hblock := h.block
  have hroom := h.room
  have hinside := hst.inside
  unfold fullLogRound
  simp only
  rw [@Word.u32_of_lt (st.1 * pageSize) (by omega), hread, Word.u32_of_lt (by omega)]

theorem FullLogWalk.behind_eq
    (hst : FullLogWalk read eraseSize pageSize pagesPerPeb (SegHdr.logPages log.header) log st) {hdr : Bytes}
    (hread : readSegmentHeader read st.2.pebId eraseSize (st.1 * pageSize) = .ok hdr) :
    fullLogBehind read eraseSize pageSize pagesPerPeb (SegHdr.logPages log.header) st.2 =
      if isSsdfsSegmentHeader hdr then some { st.2 with startPage := st.1, header := hdr } else none := by
  unfold fullLogBehind
  simp only
  rw [← hst.page, if_pos hst.inside, hread]

theorem fullLogRound_again (h : FullLogs eraseSize log.header pageSize pagesPerPeb)
    (hreads : FullLogsReadable read eraseSize pageSize pagesPerPeb log) {st' : Nat × FoundLog}
    (hst : FullLogWalk read eraseSize pageSize pagesPerPeb (SegHdr.logPages log.header) log st)
    (hround : fullLogRound read eraseSize pageSize pagesPerPeb (SegHdr.logPages log.header) st =
      .ok (.again st')) :
    FullLogWalk read eraseSize pageSize pagesPerPeb (SegHdr.logPages log.header) log st' ∧
      pagesPerPeb - st'.1 < pagesPerPeb - st.1 := by
  have hpos := h.pos
  have hinside := hst.inside
  obtain ⟨n, hn⟩ := hst.chain
  obtain ⟨hdr, hread⟩ := hst.readable hreads
  rw [fullLogRound_eq h hst hread] at hround
  have hbehind := hst.behind_eq hread
  split at hround
  case isTrue => cases hround
  case isFalse hhdr =>
    simp only at hround
    split at hround
    case isFalse => cases hround
    case isTrue hlt =>
      cases hround
      rw [if_pos (not_not.1 hhdr)] at hbehind
      refine ⟨⟨⟨n + 1, hn.trans (.step hbehind (.refl _))⟩, rfl, hlt⟩, ?_⟩
      simp only
      omega

theorem fullLogRound_leave (h : FullLogs eraseSize log.header pageSize pagesPerPeb)
    (hreads : FullLogsReadable read eraseSize pageSize pagesPerPeb log) {last : Report SearchResult FoundLog}
    (hst : FullLogWalk read eraseSize pageSize pagesPerPeb (SegHdr.logPages log.header) log st)
    (hround : fullLogRound read eraseSize pageSize pagesPerPeb (SegHdr.logPages log.header) st =
      .ok (.leave last)) :
    last.1 = none ∧ ∃ n, Follows.Last (fullLogBehind read eraseSize pageSize pagesPerPeb
      (SegHdr.logPages log.header)) n log last.2 := by
  obtain ⟨n, hn⟩ := hst.chain
  obtain ⟨hdr, hread⟩ := hst.readable hreads
  rw [fullLogRound_eq h hst hread] at hround
  have hbehind := hst.behind_eq hread
  split at hround
  case isTrue hhdr =>
    cases hround
    exact ⟨rfl, n, hn, hbehind.trans (if_neg hhdr)⟩
  case isFalse hhdr =>
    simp only at hround
    split at hround
    case isTrue => cases hround
    case isFalse hle =>
      cases hround
      exact ⟨rfl, n + 1, hn.trans (.step (hbehind.trans (if_pos (not_not.1 hhdr))) (.refl _)), if_neg hle⟩

theorem fullLogRound_ok (h : FullLogs eraseSize log.header pageSize pagesPerPeb)
    (hreads : FullLogsReadable read eraseSize pageSize pagesPerPeb log)
    (hst : FullLogWalk read eraseSize pageSize pagesPerPeb (SegHdr.logPages log.header) log st) :
    ∃ r, fullLogRound read eraseSize pageSize pagesPerPeb (SegHdr.logPages log.header) st = .ok r := by
  obtain ⟨hdr, hread⟩ := hst.readable hreads
  rw [fullLogRound_eq h hst hread]
  split
  · exact ⟨_, rfl⟩
  · simp only
    split <;> exact ⟨_, rfl⟩

theorem findLastFullLog_eq (h : FullLogs eraseSize log.header pageSize pagesPerPeb)
    (hstart : log.startPage = 0) (fuel : Nat) : findLastFullLog read fuel eraseSize log =
      if SegHdr.logPages log.header = pagesPerPeb then .ok (none, log)
      else Checked.loop
        (fullLogRound read eraseSize pageSize pagesPerPeb (SegHdr.logPages log.header)) fuel
        (SegHdr.logPages log.header, log) := by
  have hfit := h.fit
  have hpos := h.pos
  have hmax := h.max
  have hroom := h.room
  unfold findLastFullLog Search.bugOn
  simp only
  rw [if_neg (by simp [h.header]), Checked.shiftOne_of_lt h.bits, Checked.ok_bind, ← h.size,
    Checked.bugOn_of_not (Nat.ne_of_gt h.page_pos), Checked.ok_bind, ← h.pages,
    Checked.bugOn_of_not (by omega), Checked.ok_bind, hstart, if_neg (by omega),
    Checked.bugOn_of_not (by omega), Checked.ok_bind, Nat.zero_add, Word.u32_of_lt (by omega),
    if_neg (by omega)]

theorem findLastFullLog_last (h : FullLogs eraseSize log.header pageSize pagesPerPeb)
    (hstart : log.startPage = 0) (hreads : FullLogsReadable read eraseSize pageSize pagesPerPeb log) :
    ∃ fuel₀ last n, Follows.Last
        (fullLogBehind read eraseSize pageSize pagesPerPeb (SegHdr.logPages log.header)) n log last ∧
      ∀ fuel ≥ fuel₀, findLastFullLog read fuel eraseSize log = .ok (none, last) := by
  have hfit := h.fit
  by_cases hone : SegHdr.logPages log.header = pagesPerPeb
  · refine ⟨0, log, 0, ⟨.refl log, if_neg ?_⟩, fun fuel _ =>
      (findLastFullLog_eq h hstart fuel).trans (if_pos hone)⟩
    omega
  · let I := FullLogWalk read eraseSize pageSize pagesPerPeb (SegHdr.logPages log.header) log
    have h0 : I (SegHdr.logPages log.header, log) :=
      ⟨⟨0, .refl log⟩, by simp [hstart], by simp only; omega⟩
    obtain ⟨fuel, last, hlast⟩ := Checked.returns_of_measure I (fun st => pagesPerPeb - st.1) h0
      (fun st hst => fullLogRound_ok h hreads hst) fun st st' hst hround =>
        fullLogRound_again h hreads hst hround
    obtain ⟨st, hst, hleave⟩ := Checked.loop_ind I hlast h0 fun st st' hst hround =>
      (fullLogRound_again h hreads hst hround).1
    obtain ⟨err, log'⟩ := last
    obtain ⟨rfl, n, hn⟩ := fullLogRound_leave h hreads hst hleave
    refine ⟨fuel, log', n, hn, fun fuel' hle => ?_⟩
    rw [findLastFullLog_eq h hstart, if_neg hone, Checked.loop_mono (by rw [hlast]; simp) hle, hlast]

theorem findLastFullLog_mono (h : FullLogs eraseSize log.header pageSize pagesPerPeb)
    (hstart : log.startPage = 0) {m n : Nat} (hle : m ≤ n)
    (hends : findLastFullLog read m eraseSize log ≠ .error .fuel) :
    findLastFullLog read n eraseSize log = findLastFullLog read m eraseSize log := by
  rw [findLastFullLog_eq h hstart] at hends ⊢
  rw [findLastFullLog_eq h hstart]
  by_cases hone : SegHdr.logPages log.header = pagesPerPeb
  · rw [if_pos hone, if_pos hone]
  · rw [if_neg hone] at hends ⊢
    rw [if_neg hone]
    exact Checked.loop_mono hends hle

theorem findLastFullLog_refuses (fuel : Nat) (hhdr : isSsdfsSegmentHeader log.header = true)
    (hbits : SegHdr.logPagesize log.header < 32) (hstart : log.startPage = 0)
    (hpages : 0 < eraseSize / 2 ^ SegHdr.logPagesize log.header)
    (hmany : eraseSize / 2 ^ SegHdr.logPagesize log.header < SegHdr.logPages log.header)
    (hmax : SegHdr.logPages log.header < Word.u16Max) :
    findLastFullLog read fuel eraseSize log = .ok (some .failure, log) := by
  have hpos : 0 < 2 ^ SegHdr.logPagesize log.header := Nat.pow_pos (by decide)
  have hword : Word.u16Max < 4294967296 := by decide
  unfold findLastFullLog Search.bugOn
  simp only
  rw [if_neg (by simp [hhdr]), Checked.shiftOne_of_lt hbits, Checked.ok_bind,
    Checked.bugOn_of_not (Nat.ne_of_gt hpos),
    Checked.ok_bind, Checked.bugOn_of_not (Nat.ne_of_gt hpages), Checked.ok_bind, hstart,
    if_neg (by omega), Checked.bugOn_of_not (by omega), Checked.ok_bind, Nat.zero_add,
    Word.u32_of_lt (by omega), if_pos hmany]

end

end Ssdfs
