import Ssdfs.Fsck.LastLog

namespace Ssdfs

open Memory

namespace EraseBlock

variable (b : EraseBlock)

/-- `plHdr` and `footer` are what the stack holds; each search has fuel of its own. -/
def findLastLog (fullFuel partialFuel : Nat) (plHdr footer : Bytes) (log : FoundLog) :
    Search FoundLog := do
  let log ← Report.result (findLastFullLog b.read fullFuel b.size log)
  findLastPartialLog b.read partialFuel b.size plHdr footer log

/-- The record names the header that starts the erase block, whose pages are those of the header. -/
structure StartsWith (log : FoundLog) (pageSize pagesPerPeb : Nat) : Prop where
  peb : log.pebId = b.pebId
  page : log.startPage = 0
  read : readSegmentHeader b.read b.pebId b.size 0 = .ok log.header
  header : isSsdfsSegmentHeader log.header = true
  size : pageSize = 2 ^ SegHdr.logPagesize log.header
  room : (if b.pebId = 0 then reservedVbrSize else 0) + logHeaderSize ≤ pageSize
  dvd : pageSize ∣ b.size
  pages : pagesPerPeb = b.size / pageSize
  pos : 1 ≤ SegHdr.logPages log.header
  fit : SegHdr.logPages log.header ≤ pagesPerPeb

/-- The search for partial logs does not take the header of the full log. -/
def Refused (eraseSize : Nat) (hdr : Bytes) : Prop :=
  eraseSize / 2 ^ SegHdr.logPagesize hdr = 0 ∨ SegHdr.logPages hdr = 0 ∨
    SegHdr.logPages hdr ≥ Word.u16Max ∨
    ((SegHdr.segFlags hdr).testBit plhInsteadFooterBit = false ∧
      (SegHdr.segFlags hdr).testBit logHasFooterBit = false)

instance (eraseSize : Nat) (hdr : Bytes) : Decidable (Refused eraseSize hdr) :=
  inferInstanceAs (Decidable (_ ∨ _ ∨ _ ∨ _))

def fullFooter (plHdr footer hdr : Bytes) : Bytes × Nat :=
  let bytes := b.view (SegHdr.footerOffset hdr)
  let size := SegHdr.footerSize hdr
  if (SegHdr.segFlags hdr).testBit plhInsteadFooterBit then
    (blit plHdr 0 bytes 0 size, PlHdr.logBytes (blit plHdr 0 bytes 0 size))
  else (blit footer 0 bytes 0 size, LogFooter.logBytes (blit footer 0 bytes 0 size))

variable {b} {log full : FoundLog} {pageSize pagesPerPeb : Nat} {plHdr footer : Bytes}

theorem readFullLogFooter_eq (hpeb : full.pebId = b.pebId) (hnot : ¬Refused b.size full.header) :
    readFullLogFooter b.read b.size plHdr footer full =
      if SegHdr.footerOffset full.header + SegHdr.footerSize full.header ≤ b.size ∧
          SegHdr.footerSize full.header ≤ logHeaderSize then
        .ok (b.fullFooter plHdr footer full.header)
      else .error .stray := by
  have hoff : SegHdr.footerOffset full.header < 4294967296 := peek_lt _ 4 _
  unfold readFullLogFooter fullFooter
  simp only
  rw [hpeb, readLogFooter_eq hoff, readLogFooter_eq hoff]
  by_cases hplh : (SegHdr.segFlags full.header).testBit plhInsteadFooterBit = true
  · rw [if_pos hplh, if_pos hplh]
    split <;> rfl
  · rw [if_neg hplh, if_neg hplh]
    have hflag : (SegHdr.segFlags full.header).testBit logHasFooterBit = true := by
      by_contra hflag
      exact hnot (.inr (.inr (.inr ⟨Bool.eq_false_iff.2 hplh, Bool.eq_false_iff.2 hflag⟩)))
    rw [if_pos hflag]
    split <;> rfl

theorem findLastPartialLog_eq (fuel : Nat) (hpeb : full.pebId = b.pebId)
    (hhdr : isSsdfsSegmentHeader full.header = true) (hbits : SegHdr.logPagesize full.header < 32)
    (hnot : ¬Refused b.size full.header) :
    findLastPartialLog b.read fuel b.size plHdr footer full =
      if SegHdr.footerOffset full.header + SegHdr.footerSize full.header ≤ b.size ∧
          SegHdr.footerSize full.header ≤ logHeaderSize then
        let found := b.fullFooter plHdr footer full.header
        let logPages := found.2 / 2 ^ SegHdr.logPagesize full.header
        if logPages ≥ SegHdr.logPages full.header then .ok { full with footer := found.1 }
        else
          Checked.loop (partialLogRound b.read b.size (2 ^ SegHdr.logPagesize full.header)
              (Word.u32 (full.startPage + SegHdr.logPages full.header))) fuel
            (Word.u32 (full.startPage + logPages), full)
      else .error .stray := by
  have hpos : 0 < 2 ^ SegHdr.logPagesize full.header := Nat.pow_pos (by decide)
  unfold findLastPartialLog Search.bugOn
  simp only
  rw [if_neg (by simp [hhdr]), Checked.shiftOne_of_lt hbits, Checked.ok_bind,
    Checked.bugOn_of_not (Nat.ne_of_gt hpos),
    Checked.ok_bind, Checked.bugOn_of_not fun h => hnot (.inl h), Checked.ok_bind,
    Checked.bugOn_of_not fun h => hnot (.inr (h.imp_right .inl)), Checked.ok_bind,
    readFullLogFooter_eq hpeb hnot]
  split <;> rfl

theorem findLastPartialLog_refused (fuel : Nat) (hhdr : isSsdfsSegmentHeader full.header = true)
    (hbits : SegHdr.logPagesize full.header < 32) (hrefused : Refused b.size full.header) :
    findLastPartialLog b.read fuel b.size plHdr footer full = .error .abort ∨
      findLastPartialLog b.read fuel b.size plHdr footer full = Search.failure := by
  have hpos : 0 < 2 ^ SegHdr.logPagesize full.header := Nat.pow_pos (by decide)
  unfold findLastPartialLog Search.bugOn
  simp only
  rw [if_neg (by simp [hhdr]), Checked.shiftOne_of_lt hbits, Checked.ok_bind,
    Checked.bugOn_of_not (Nat.ne_of_gt hpos),
    Checked.ok_bind]
  by_cases hpages : b.size / 2 ^ SegHdr.logPagesize full.header = 0
  · rw [Checked.bugOn_of hpages]
    exact .inl rfl
  · rw [Checked.bugOn_of_not hpages, Checked.ok_bind]
    by_cases hlog : SegHdr.logPages full.header = 0 ∨ SegHdr.logPages full.header ≥ Word.u16Max
    · rw [Checked.bugOn_of hlog]
      exact .inl rfl
    · rw [Checked.bugOn_of_not hlog, Checked.ok_bind]
      rcases hrefused with h | h | h | ⟨hplh, hflag⟩
      · exact absurd h hpages
      · exact absurd (.inl h) hlog
      · exact absurd (.inr h) hlog
      · unfold readFullLogFooter
        simp only
        rw [if_neg (by simp [hplh]), if_neg (by simp [hflag])]
        exact .inr rfl

theorem partialLogRound_error {upperPage curPage : Nat} {e : Fault SearchResult}
    (hpeb : log.pebId = b.pebId)
    (h : partialLogRound b.read b.size pageSize upperPage (curPage, log) = .error e) : e = .stray := by
  rw [partialLogRound_eq hpeb curPage _ rfl] at h
  split at h
  case isFalse => exact (Except.error.inj h).symm
  case isTrue =>
    split at h
    case isFalse => cases h
    case isTrue =>
      split at h
      case isFalse => exact (Except.error.inj h).symm
      case isTrue =>
        simp only at h
        split at h <;> cases h

theorem findLastPartialLog_error {fuel : Nat} {e : Fault SearchResult} (hpeb : full.pebId = b.pebId)
    (hhdr : isSsdfsSegmentHeader full.header = true) (hbits : SegHdr.logPagesize full.header < 32)
    (hnot : ¬Refused b.size full.header)
    (h : findLastPartialLog b.read fuel b.size plHdr footer full = .error e) :
    e = .stray ∨ e = .fuel := by
  rw [findLastPartialLog_eq fuel hpeb hhdr hbits hnot] at h
  split at h
  case isFalse => exact .inl (Except.error.inj h).symm
  case isTrue =>
    simp only at h
    split at h
    case isTrue => cases h
    case isFalse =>
      by_cases hfuel : e = .fuel
      · exact .inr hfuel
      · let I : Nat × FoundLog → Prop := fun st => st.2.pebId = b.pebId
        obtain ⟨⟨curPage, log⟩, hlog, herror⟩ := Checked.loop_error_ind I h hfuel hpeb
          fun ⟨curPage, log⟩ st' hlog hagain => by
            rcases partialLogRound_inv hlog hagain with hr | ⟨hdr, hr⟩
            · cases hr
            · simp only at hr
              split at hr
              case isTrue =>
                cases hr
                exact hlog
              case isFalse => cases hr
        exact .inl (partialLogRound_error hlog herror)

def SettlesIn (b : EraseBlock) (pageSize pagesPerPeb : Nat) (full : FoundLog) :
    Search FoundLog → Prop
  | .ok log => b.DescribesLast pageSize pagesPerPeb full log
  | .error .abort => True
  | .error (.code _) => True
  | .error _ => False

structure LastFound (b : EraseBlock) (pageSize pagesPerPeb : Nat) (full : FoundLog) : Prop where
  whole : b.FullLogWhole pageSize full.header
  tail : SegHdr.logPages full.header ≤ b.recordedBytes full.header / pageSize ∨
    b.PartialsSound pageSize pagesPerPeb (full.startPage + SegHdr.logPages full.header)
      (b.firstLog pageSize full) full.footer

theorem follows_grows {upperPage k : Nat} {y z : ChainLog}
    (h : Follows (b.partialLogBehind pageSize pagesPerPeb upperPage) k y z) (hpos : 0 < y.pages) :
    y.page + k ≤ z.page ∧ (0 < k → z.page < pagesPerPeb) := by
  induction h with
  | refl y => exact ⟨Nat.le_refl _, fun h => absurd h (Nat.lt_irrefl 0)⟩
  | @step k y y' z hnext hrest ih =>
    obtain ⟨-, hin, -, rfl⟩ := partialLogBehind_eq_some hnext
    obtain ⟨hle, hlt⟩ := ih (by simp only; omega)
    simp only at hle
    refine ⟨by omega, fun _ => ?_⟩
    cases k with
    | zero =>
      cases hrest with
      | refl => exact hin
    | succ k => exact hlt (Nat.zero_lt_succ k)

theorem exists_last (upperPage : Nat) {y : ChainLog} (hpos : 0 < y.pages) :
    ∃ n z, Follows.Last (b.partialLogBehind pageSize pagesPerPeb upperPage) n y z := by
  rcases Follows.last_or_follows (b.partialLogBehind pageSize pagesPerPeb upperPage) (pagesPerPeb + 1) y
    with ⟨n, z, -, hlast⟩ | ⟨c, hc⟩
  · exact ⟨n, z, hlast⟩
  · obtain ⟨hle, hlt⟩ := follows_grows hc hpos
    have hin := hlt (Nat.zero_lt_succ _)
    omega

theorem FullLogWhole.fullFooter_eq (h : b.FullLogWhole pageSize full.header) :
    (∀ i < logHeaderSize, (b.fullFooter plHdr footer full.header).1 i =
      b.bytes (SegHdr.footerOffset full.header + i)) ∧
    (b.fullFooter plHdr footer full.header).2 = b.recordedBytes full.header := by
  have hblit : ∀ (m : Bytes), ∀ i < logHeaderSize,
      blit m 0 (b.view (SegHdr.footerOffset full.header)) 0 logHeaderSize i =
        b.view (SegHdr.footerOffset full.header) i := fun m i hi => by
    unfold blit
    rw [if_pos ⟨Nat.zero_le i, by omega⟩, Nat.sub_zero, Nat.zero_add]
  have hpeek : ∀ (m : Bytes) (off : Nat), off + 4 ≤ logHeaderSize →
      peek (blit m 0 (b.view (SegHdr.footerOffset full.header)) 0 logHeaderSize) 4 off =
        peek (b.view (SegHdr.footerOffset full.header)) 4 off := fun m off hoff =>
    peek_congr fun i hi => hblit m _ (by omega)
  unfold fullFooter recordedBytes
  simp only
  rw [h.footerSize]
  by_cases hplh : (SegHdr.segFlags full.header).testBit plhInsteadFooterBit = true
  · rw [if_pos hplh, if_pos hplh]
    exact ⟨hblit plHdr, hpeek plHdr 0x28 (by decide)⟩
  · rw [if_neg hplh, if_neg hplh]
    exact ⟨hblit footer, hpeek footer 0x410 (by decide)⟩

theorem FullLogWhole.isFooter (h : b.FullLogWhole pageSize full.header)
    (hhdr : isSsdfsSegmentHeader full.header = true) (hnot : ¬Refused b.size full.header) :
    b.IsFooter full.header (b.fullFooter plHdr footer full.header).1 := by
  refine ⟨SegHdr.footerOffset full.header, ?_, h.footerFits, h.fullFooter_eq.1⟩
  unfold footerArea
  rw [if_pos hhdr, if_pos, h.footerSize]
  by_contra hflags
  rw [not_or] at hflags
  exact hnot (.inr (.inr (.inr ⟨Bool.eq_false_iff.2 hflags.1, Bool.eq_false_iff.2 hflags.2⟩)))

theorem settlesIn_whole_iff (hpage : logHeaderSize ≤ pageSize) (hpages : pagesPerPeb = b.size / pageSize)
    (hpeb : full.pebId = b.pebId) (hhdr : isSsdfsSegmentHeader full.header = true)
    (hinside : full.startPage < pagesPerPeb) (hbits : SegHdr.logPagesize full.header < 32)
    (hnot : ¬Refused b.size full.header) (hwhole : b.FullLogWhole pageSize full.header) :
    (∃ fuel, SettlesIn b pageSize pagesPerPeb full
        (findLastPartialLog b.read fuel b.size plHdr footer full)) ↔
      (SegHdr.logPages full.header ≤ b.recordedBytes full.header / pageSize ∨
        b.PartialsSound pageSize pagesPerPeb (full.startPage + SegHdr.logPages full.header)
          (b.firstLog pageSize full) full.footer) := by
  have hread : SegHdr.footerOffset full.header + SegHdr.footerSize full.header ≤ b.size ∧
      SegHdr.footerSize full.header ≤ logHeaderSize := by
    rw [hwhole.footerSize]
    exact ⟨hwhole.footerFits, Nat.le_refl _⟩
  have heq := fun fuel => @findLastPartialLog_eq b full plHdr footer fuel hpeb hhdr hbits hnot
  simp only [if_pos hread, hwhole.page, hwhole.fullFooter_eq.2] at heq
  by_cases hfull : SegHdr.logPages full.header ≤ b.recordedBytes full.header / pageSize
  · refine iff_of_true ⟨0, ?_⟩ (.inl hfull)
    rw [heq, if_pos hfull]
    refine ⟨hwhole, 0, b.firstLog pageSize full, ⟨.refl _, if_neg fun h => ?_⟩, rfl, rfl,
      hwhole.isFooter hhdr hnot⟩
    have hlt := h.1
    unfold firstLog at hlt
    simp only at hlt
    omega
  · have hpos : 0 < b.recordedBytes full.header / pageSize :=
      Nat.div_pos hwhole.size (Nat.lt_of_lt_of_le (by decide) hpage)
    have hmax : SegHdr.logPages full.header < Word.u16Max :=
      Nat.lt_of_not_le fun h => hnot (.inr (.inr (.inl h)))
    have hword : Word.u16Max = 65535 := rfl
    have hbound := pages_le hpage hpages
    obtain ⟨n, z, hlast⟩ := @exists_last b pageSize pagesPerPeb
      (full.startPage + SegHdr.logPages full.header) (b.firstLog pageSize full) hpos
    have hloop := loop_describes_iff hpage hpages (by omega) hlast hpeb rfl rfl hinside
      (Nat.add_lt_add_left (Nat.lt_of_not_le hfull) _)
    simp only [if_neg hfull] at heq
    rw [Word.u32_of_lt (by omega), Word.u32_of_lt (by omega)] at heq
    rw [or_iff_right hfull, ← hloop]
    constructor
    · rintro ⟨fuel, hsettles⟩
      match hrun : findLastPartialLog b.read fuel b.size plHdr footer full with
      | .ok last =>
        rw [hrun] at hsettles
        obtain ⟨k, z', hlast', hdescribes⟩ := hsettles.last
        obtain ⟨-, rfl⟩ := hlast.unique hlast'
        exact ⟨fuel, last, (heq fuel).symm.trans hrun, hdescribes⟩
      | .error e =>
        rw [hrun] at hsettles
        rcases findLastPartialLog_error hpeb hhdr hbits hnot hrun with rfl | rfl <;> cases hsettles
    · rintro ⟨fuel, last, hrun, hdescribes⟩
      refine ⟨fuel, ?_⟩
      rw [heq]
      exact hrun ▸ ⟨hwhole, n, z, hlast, hdescribes⟩

theorem findLastPartialLog_undefined (fuel : Nat) (hhdr : isSsdfsSegmentHeader full.header = true)
    (hbits : ¬SegHdr.logPagesize full.header < 32) :
    findLastPartialLog b.read fuel b.size plHdr footer full = .error .trap := by
  unfold findLastPartialLog
  simp only
  rw [if_neg (by simp [hhdr]), Checked.shiftOne_of_ge hbits]
  rfl

theorem bits_lt {bits : Nat} (h : 2 ^ bits ≤ b.size) : bits < 32 := by
  have hsize := b.size_lt
  by_contra hbits
  have hpow : 2 ^ 32 ≤ 2 ^ bits := Nat.pow_le_pow_right (by decide) (Nat.le_of_not_lt hbits)
  omega

theorem settlesIn_iff (hpage : logHeaderSize ≤ pageSize) (hpages : pagesPerPeb = b.size / pageSize)
    (hpeb : full.pebId = b.pebId) (hhdr : isSsdfsSegmentHeader full.header = true)
    (hinside : full.startPage < pagesPerPeb) :
    (∃ fuel, SettlesIn b pageSize pagesPerPeb full
        (findLastPartialLog b.read fuel b.size plHdr footer full)) ↔
      SegHdr.logPagesize full.header < 32 ∧ Refused b.size full.header ∨
        LastFound b pageSize pagesPerPeb full := by
  by_cases hbits : SegHdr.logPagesize full.header < 32
  · by_cases hrefused : Refused b.size full.header
    · refine iff_of_true ⟨0, ?_⟩ (.inl ⟨hbits, hrefused⟩)
      rcases @findLastPartialLog_refused b full plHdr footer 0 hhdr hbits hrefused with h | h <;>
        rw [h] <;> trivial
    · rw [or_iff_right fun h => hrefused h.2]
      by_cases hwhole : b.FullLogWhole pageSize full.header
      · rw [settlesIn_whole_iff hpage hpages hpeb hhdr hinside hbits hrefused hwhole]
        exact ⟨fun h => ⟨hwhole, h⟩, fun h => h.tail⟩
      · refine iff_of_false ?_ fun h => hwhole h.whole
        rintro ⟨fuel, hsettles⟩
        match hrun : findLastPartialLog b.read fuel b.size plHdr footer full with
        | .ok last =>
          rw [hrun] at hsettles
          exact hwhole hsettles.whole
        | .error e =>
          rw [hrun] at hsettles
          rcases findLastPartialLog_error hpeb hhdr hbits hrefused hrun with rfl | rfl <;> cases hsettles
  · refine iff_of_false ?_ ?_
    · rintro ⟨fuel, hsettles⟩
      rw [findLastPartialLog_undefined fuel hhdr hbits] at hsettles
      exact hsettles
    · rintro (h | h)
      · exact hbits h.1
      · have hle : pageSize ≤ b.size :=
          (Nat.div_pos_iff.1 (hpages ▸ Nat.lt_of_le_of_lt (Nat.zero_le _) hinside)).2
        exact hbits (@bits_lt b _ (h.whole.page ▸ hle))

theorem StartsWith.le_size (h : b.StartsWith log pageSize pagesPerPeb) : pageSize ≤ b.size :=
  (Nat.div_pos_iff.1 (h.pages ▸ Nat.lt_of_lt_of_le h.pos h.fit)).2

theorem StartsWith.page_le (h : b.StartsWith log pageSize pagesPerPeb) : logHeaderSize ≤ pageSize :=
  Nat.le_trans (Nat.le_add_left _ _) h.room

theorem StartsWith.bits (h : b.StartsWith log pageSize pagesPerPeb) : SegHdr.logPagesize log.header < 32 :=
  bits_lt (h.size ▸ h.le_size)

theorem StartsWith.fullLogs (h : b.StartsWith log pageSize pagesPerPeb)
    (hmax : SegHdr.logPages log.header < Word.u16Max) :
    FullLogs b.size log.header pageSize pagesPerPeb := by
  have hbound := pages_le h.page_le h.pages
  have hword : Word.u16Max = 65535 := rfl
  exact ⟨h.header, h.bits, h.size, h.pages, h.pos, hmax, h.fit, b.size_lt, by omega⟩

theorem StartsWith.reads (h : b.StartsWith log pageSize pagesPerPeb) {page : Nat}
    (hpage : page < pagesPerPeb) :
    ∃ hdr, readSegmentHeader b.read log.pebId b.size (page * pageSize) = .ok hdr := by
  have hoff := page_offset_lt h.page_le h.pages hpage
  have hsize := b.size_lt
  unfold readSegmentHeader
  simp only
  rw [h.peb]
  by_cases hpeb : b.pebId = 0
  · have hroom := h.room
    have hle := h.le_size
    rw [if_pos hpeb] at hroom ⊢
    unfold EraseBlock.read
    rw [hpeb, Nat.zero_mul, Nat.zero_add]
    split
    · exact ⟨_, if_pos ⟨Nat.zero_le _, by omega⟩⟩
    · exact ⟨_, if_pos ⟨Nat.zero_le _, hoff⟩⟩
  · rw [if_neg hpeb, read_area (by omega), if_pos hoff]
    exact ⟨_, rfl⟩

def Settles (b : EraseBlock) (log : FoundLog) (pageSize pagesPerPeb : Nat) : Search FoundLog → Prop
  | .ok last => ∃ n full,
    Follows.Last (fullLogBehind b.read b.size pageSize pagesPerPeb (SegHdr.logPages log.header)) n log
      full ∧ b.DescribesLast pageSize pagesPerPeb full last
  | .error .abort => True
  | .error (.code _) => True
  | .error _ => False

/-- When the two searches settle. -/
def Findable (b : EraseBlock) (log : FoundLog) (pageSize pagesPerPeb : Nat) : Prop :=
  SegHdr.logPages log.header = Word.u16Max ∨ ∃ n full,
    Follows.Last (fullLogBehind b.read b.size pageSize pagesPerPeb (SegHdr.logPages log.header)) n log
      full ∧
    (SegHdr.logPagesize full.header < 32 ∧ Refused b.size full.header ∨
      LastFound b pageSize pagesPerPeb full)

theorem StartsWith.last_full (h : b.StartsWith log pageSize pagesPerPeb) {n : Nat}
    (hfull : Follows (fullLogBehind b.read b.size pageSize pagesPerPeb (SegHdr.logPages log.header)) n
      log full) :
    full.pebId = b.pebId ∧ isSsdfsSegmentHeader full.header = true ∧ full.startPage < pagesPerPeb := by
  have hpos := h.pos
  have hfit := h.fit
  refine hfull.ind (fun x => x.pebId = b.pebId ∧ isSsdfsSegmentHeader x.header = true ∧
    x.startPage < pagesPerPeb) ⟨h.peb, h.header, by rw [h.page]; omega⟩ fun x y hx hnext => ?_
  obtain ⟨hdr, hlt, -, hhdr, rfl⟩ := fullLogBehind_eq_some hnext
  exact ⟨hx.1, hhdr, hlt⟩

theorem StartsWith.findLastFullLog_aborts (h : b.StartsWith log pageSize pagesPerPeb) (fuel : Nat)
    (hmax : SegHdr.logPages log.header = Word.u16Max) :
    findLastFullLog b.read fuel b.size log = .error .abort := by
  have hpos : 0 < pageSize := Nat.lt_of_lt_of_le (by decide) h.page_le
  have hpages : 0 < pagesPerPeb := Nat.lt_of_lt_of_le h.pos h.fit
  unfold findLastFullLog Search.bugOn
  simp only
  rw [if_neg (by simp [h.header]), Checked.shiftOne_of_lt h.bits, Checked.ok_bind, ← h.size,
    Checked.bugOn_of_not (Nat.ne_of_gt hpos), Checked.ok_bind, ← h.pages,
    Checked.bugOn_of_not (Nat.ne_of_gt hpages), Checked.ok_bind, h.page, if_neg (Nat.not_le.2 hpages),
    Checked.bugOn_of (.inr (Nat.le_of_eq hmax.symm))]
  rfl

theorem settles_iff {n : Nat} (hfull : Follows.Last (fullLogBehind b.read b.size pageSize pagesPerPeb
    (SegHdr.logPages log.header)) n log full) (m : Search FoundLog) :
    Settles b log pageSize pagesPerPeb m ↔ SettlesIn b pageSize pagesPerPeb full m := by
  match m with
  | .ok last =>
    constructor
    · rintro ⟨k, full', hfull', hlast⟩
      obtain ⟨-, rfl⟩ := hfull.unique hfull'
      exact hlast
    · exact fun hlast => ⟨n, full, hfull, hlast⟩
  | .error .abort => exact Iff.rfl
  | .error (.code _) => exact Iff.rfl
  | .error .trap => exact Iff.rfl
  | .error .stray => exact Iff.rfl
  | .error .fuel => exact Iff.rfl

/-- The two searches settle exactly when the log that they come to is findable. -/
theorem findLastLog_settles_iff (h : b.StartsWith log pageSize pagesPerPeb) (plHdr footer : Bytes) :
    (∃ fullFuel partialFuel,
      Settles b log pageSize pagesPerPeb (b.findLastLog fullFuel partialFuel plHdr footer log)) ↔
      Findable b log pageSize pagesPerPeb := by
  unfold findLastLog Findable
  by_cases hmax : SegHdr.logPages log.header = Word.u16Max
  · refine iff_of_true ⟨0, 0, ?_⟩ (.inl hmax)
    rw [h.findLastFullLog_aborts 0 hmax]
    trivial
  · rw [or_iff_right hmax]
    have hlt : SegHdr.logPages log.header < Word.u16Max := by
      have hword : SegHdr.logPages log.header < 65536 := peek_lt _ 2 _
      have h16 : Word.u16Max = 65535 := rfl
      omega
    have hlogs := h.fullLogs hlt
    obtain ⟨fuel₀, full, n, hfull, hrun⟩ := findLastFullLog_last hlogs h.page fun k cur hcur hpage => by
      rw [(h.last_full hcur).1, ← h.peb]
      exact h.reads hpage
    obtain ⟨hpeb, hhdr, hinside⟩ := h.last_full hfull.follows
    have hsettles := @settlesIn_iff b full pageSize pagesPerPeb plHdr footer h.page_le h.pages hpeb hhdr
      hinside
    constructor
    · rintro ⟨fullFuel, partialFuel, hend⟩
      have hends : findLastFullLog b.read fullFuel b.size log ≠ .error .fuel := fun hfuel => by
        rw [hfuel] at hend
        exact hend
      have hmono := findLastFullLog_mono hlogs h.page (Nat.le_max_left fullFuel fuel₀) hends
      rw [← hmono, hrun _ (Nat.le_max_right fullFuel fuel₀), Report.result_ok, Checked.ok_bind, settles_iff hfull] at hend
      exact ⟨n, full, hfull, hsettles.1 ⟨partialFuel, hend⟩⟩
    · rintro ⟨k, full', hfull', hfound⟩
      obtain ⟨-, rfl⟩ := hfull.unique hfull'
      obtain ⟨fuel, hin⟩ := hsettles.2 hfound
      refine ⟨fuel₀, fuel, ?_⟩
      rw [hrun fuel₀ (Nat.le_refl _), Report.result_ok, Checked.ok_bind, settles_iff hfull]
      exact hin

end EraseBlock

/-- An erase block of 128 KiB with one full log, whose footer records the size of the log. -/
def plainLogBlock (logBytes : Nat) : EraseBlock where
  pebId := 1
  size := 131072
  bytes := poke (poke (poke (poke (poke (poke (poke (poke (fun _ => 0) 4 0 superMagic.toNat)
    2 4 segmentHdrMagic.toNat) 1 0x10 12) 2 0x410 32) 4 0x414 128) 4 0x498 4096) 4 0x49C 2048)
    4 0x1410 logBytes
  size_lt := by decide
  place_lt := by decide

def plainLog (logBytes : Nat) : FoundLog := ⟨1, 0, (plainLogBlock logBytes).view 0, fun _ => 0⟩

theorem plainLogBlock_startsWith (logBytes : Nat) (hlen : logBytes = 131072 ∨ logBytes = 8192) :
    (plainLogBlock logBytes).StartsWith (plainLog logBytes) 4096 32 := by
  have hread : readSegmentHeader (plainLogBlock logBytes).read 1 131072 0 =
      .ok ((plainLogBlock logBytes).view 0) :=
    (@EraseBlock.read_area (plainLogBlock logBytes) 0 logHeaderSize (by decide)).trans
      (if_pos (by decide : 0 + logHeaderSize ≤ 131072))
  rcases hlen with rfl | rfl <;>
    exact ⟨rfl, rfl, hread, by decide, by decide, by decide, by decide, by decide, by decide, by decide⟩

theorem plainLogBlock_whole (logBytes : Nat) (hlen : logBytes = 131072 ∨ logBytes = 8192) :
    (plainLogBlock logBytes).FullLogWhole 4096 (plainLog logBytes).header := by
  rcases hlen with rfl | rfl <;> exact ⟨by decide, by decide, by decide, by decide⟩

theorem plainLogBlock_last (logBytes : Nat) : Follows.Last (fullLogBehind (plainLogBlock logBytes).read
    (plainLogBlock logBytes).size 4096 32 32) 0 (plainLog logBytes) (plainLog logBytes) := by
  refine ⟨.refl _, ?_⟩
  unfold fullLogBehind
  exact if_neg (by decide : ¬0 + 32 < 32)

theorem findLastLog_settles_plain : ∃ fullFuel partialFuel,
    EraseBlock.Settles (plainLogBlock 131072) (plainLog 131072) 4096 32
      ((plainLogBlock 131072).findLastLog fullFuel partialFuel (fun _ => 0) (fun _ => 0)
        (plainLog 131072)) :=
  (EraseBlock.findLastLog_settles_iff (plainLogBlock_startsWith 131072 (.inl rfl)) _ _).2
    (.inr ⟨0, _, plainLogBlock_last 131072, .inr ⟨plainLogBlock_whole 131072 (.inl rfl), .inl (by decide)⟩⟩)

/-- A full log that ends early, with no partial log behind it: its footer is not kept. -/
theorem findLastLog_keeps_stale_footer :
    (plainLogBlock 8192).StartsWith (plainLog 8192) 4096 32 ∧
    ∀ fullFuel partialFuel, ¬EraseBlock.Settles (plainLogBlock 8192) (plainLog 8192) 4096 32
      ((plainLogBlock 8192).findLastLog fullFuel partialFuel (fun _ => 0) (fun _ => 0) (plainLog 8192)) := by
  have hstart := plainLogBlock_startsWith 8192 (.inr rfl)
  refine ⟨hstart, fun fullFuel partialFuel hsettles => ?_⟩
  have hfull : findLastFullLog (plainLogBlock 8192).read fullFuel (plainLogBlock 8192).size (plainLog 8192) =
      .ok (none, plainLog 8192) :=
    (findLastFullLog_eq (hstart.fullLogs (by decide)) rfl fullFuel).trans (if_pos (by decide))
  unfold EraseBlock.findLastLog at hsettles
  rw [hfull, Report.result_ok, Checked.ok_bind, EraseBlock.settles_iff (plainLogBlock_last 8192)] at hsettles
  have hwhole := plainLogBlock_whole 8192 (.inr rfl)
  rcases (EraseBlock.settlesIn_whole_iff (by decide) (by decide) rfl (by decide) (by decide) (by decide)
    (by decide) hwhole).1 ⟨partialFuel, hsettles⟩ with hcomplete | hsound
  · exact absurd hcomplete (by decide)
  · have hnone : (plainLogBlock 8192).partialLogBehind 4096 32
        ((plainLog 8192).startPage + SegHdr.logPages (plainLog 8192).header)
        ((plainLogBlock 8192).firstLog 4096 (plainLog 8192)) = none := by
      unfold EraseBlock.partialLogBehind
      exact if_neg (by decide)
    obtain ⟨offset, harea, -, hbytes⟩ := hsound.kept _ ⟨.refl _, hnone⟩
    have hoffset : footerArea (plainLog 8192).header = some (4096, 2048) := by decide
    cases harea.symm.trans hoffset
    exact absurd (hbytes 0x411 (by decide)) (by decide)

end Ssdfs
