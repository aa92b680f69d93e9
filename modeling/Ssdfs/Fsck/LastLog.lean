import Ssdfs.Fsck.PartialLog

namespace Ssdfs

open Memory

structure ChainLog where
  page : Nat
  header : Bytes
  pages : Nat

def footerArea (hdr : Bytes) : Option (Nat × Nat) :=
  if isSsdfsSegmentHeader hdr then
    if (SegHdr.segFlags hdr).testBit plhInsteadFooterBit ∨ (SegHdr.segFlags hdr).testBit logHasFooterBit then
      some (SegHdr.footerOffset hdr, SegHdr.footerSize hdr)
    else none
  else if (PlHdr.plFlags hdr).testBit logHasFooterBit then
    some (PlHdr.footerOffset hdr, PlHdr.footerSize hdr)
  else none

namespace EraseBlock

variable (b : EraseBlock)

def partialLogBehind (pageSize pagesPerPeb upperPage : Nat) (x : ChainLog) : Option ChainLog :=
  let page := x.page + x.pages
  let hdr := b.view (page * pageSize)
  if page < upperPage ∧ page < pagesPerPeb ∧ isSsdfsPartialLogHeader hdr then
    some ⟨page, hdr, max 1 (PlHdr.logBytes hdr / pageSize)⟩
  else none

def IsFooter (hdr footer : Bytes) : Prop :=
  ∃ offset, footerArea hdr = some (offset, logHeaderSize) ∧ offset + logHeaderSize ≤ b.size ∧
    ∀ i < logHeaderSize, footer i = b.bytes (offset + i)

def recordedBytes (hdr : Bytes) : Nat :=
  if (SegHdr.segFlags hdr).testBit plhInsteadFooterBit then
    PlHdr.logBytes (b.view (SegHdr.footerOffset hdr))
  else LogFooter.logBytes (b.view (SegHdr.footerOffset hdr))

structure FullLogWhole (pageSize : Nat) (hdr : Bytes) : Prop where
  page : 2 ^ SegHdr.logPagesize hdr = pageSize
  footerSize : SegHdr.footerSize hdr = logHeaderSize
  footerFits : SegHdr.footerOffset hdr + logHeaderSize ≤ b.size
  size : pageSize ≤ b.recordedBytes hdr

def firstLog (pageSize : Nat) (full : FoundLog) : ChainLog :=
  ⟨full.startPage, full.header, b.recordedBytes full.header / pageSize⟩

structure Describes (log : FoundLog) (z : ChainLog) : Prop where
  page : log.startPage = z.page
  header : log.header = z.header
  footer : b.IsFooter z.header log.footer

structure DescribesLast (pageSize pagesPerPeb : Nat) (full log : FoundLog) : Prop where
  whole : b.FullLogWhole pageSize full.header
  last : ∃ k z, Follows.Last (b.partialLogBehind pageSize pagesPerPeb
      (full.startPage + SegHdr.logPages full.header)) k (b.firstLog pageSize full) z ∧
    b.Describes log z

def FooterFits (hdr : Bytes) : Prop :=
  (PlHdr.plFlags hdr).testBit logHasFooterBit →
    PlHdr.footerOffset hdr + PlHdr.footerSize hdr ≤ b.size ∧ PlHdr.footerSize hdr ≤ logHeaderSize

instance (hdr : Bytes) : Decidable (b.FooterFits hdr) := inferInstanceAs (Decidable (_ → _))

def OwnFooter (hdr : Bytes) : Prop :=
  (PlHdr.plFlags hdr).testBit logHasFooterBit ∧ PlHdr.footerSize hdr = logHeaderSize

/-- A page that still counts to the full log, but lies behind the erase block, is looked for at an
offset of 32 bits. -/
def Quiet (pageSize pagesPerPeb upperPage page : Nat) : Prop :=
  page < upperPage → pagesPerPeb ≤ page →
    Word.u32 (page * pageSize) + logHeaderSize ≤ b.size ∧
      isSsdfsPartialLogHeader (b.view (Word.u32 (page * pageSize))) = false

structure PartialsSound (pageSize pagesPerPeb upperPage : Nat) (start : ChainLog) (footer : Bytes) :
    Prop where
  fits : ∀ j x, Follows (b.partialLogBehind pageSize pagesPerPeb upperPage) (j + 1) start x →
    b.FooterFits x.header
  quiet : ∀ k z, Follows.Last (b.partialLogBehind pageSize pagesPerPeb upperPage) k start z →
    b.Quiet pageSize pagesPerPeb upperPage (z.page + z.pages)
  kept : ∀ z, Follows.Last (b.partialLogBehind pageSize pagesPerPeb upperPage) 0 start z →
    b.IsFooter z.header footer
  own : ∀ k z, Follows.Last (b.partialLogBehind pageSize pagesPerPeb upperPage) (k + 1) start z →
    OwnFooter z.header

def nextFooter (hdr footer : Bytes) : Bytes :=
  if (PlHdr.plFlags hdr).testBit logHasFooterBit then
    blit footer 0 (b.view (PlHdr.footerOffset hdr)) 0 (PlHdr.footerSize hdr)
  else footer

def accept (curPage : Nat) (hdr : Bytes) (log : FoundLog) : FoundLog :=
  { log with startPage := curPage, header := hdr, footer := b.nextFooter hdr log.footer }

variable {b} {pageSize pagesPerPeb upperPage : Nat} {log : FoundLog}

theorem readPartialLogFooter_eq (hpeb : log.pebId = b.pebId) :
    readPartialLogFooter b.read b.size log =
      if b.FooterFits log.header then .ok { log with footer := b.nextFooter log.header log.footer }
      else .error .stray := by
  unfold readPartialLogFooter nextFooter
  by_cases hflag : (PlHdr.plFlags log.header).testBit logHasFooterBit = true
  · have hoff : PlHdr.footerOffset log.header < 4294967296 := peek_lt _ 4 _
    rw [if_pos hflag, if_pos hflag, hpeb, readLogFooter_eq hoff]
    by_cases hfits : b.FooterFits log.header
    · rw [if_pos hfits, if_pos (hfits hflag)]
    · rw [if_neg hfits, if_neg fun h => hfits fun _ => h]
  · have hfits : b.FooterFits log.header := fun h => absurd h hflag
    rw [if_neg hflag, if_neg hflag, if_pos hfits]

/-- The round at a page whose header is read from `offset`. -/
theorem partialLogRound_eq (hpeb : log.pebId = b.pebId) (curPage offset : Nat)
    (hoff : Word.u32 (curPage * pageSize) = offset) :
    partialLogRound b.read b.size pageSize upperPage (curPage, log) =
      if offset + logHeaderSize ≤ b.size then
        if isSsdfsPartialLogHeader (b.view offset) then
          if b.FooterFits (b.view offset) then
            let nextPage := Word.u32 (curPage + max 1 (PlHdr.logBytes (b.view offset) / pageSize))
            if nextPage < upperPage then
              .ok (.again (nextPage, b.accept curPage (b.view offset) log))
            else .ok (.leave (b.accept curPage (b.view offset) log))
          else .error .stray
        else .ok (.leave log)
      else .error .stray := by
  have hlt : offset < 4294967296 := hoff ▸ Word.u32_lt _
  unfold partialLogRound
  simp only
  rw [hoff, hpeb, readPartialLogHeader_eq hlt]
  by_cases hfit : offset + logHeaderSize ≤ b.size
  · rw [if_pos hfit, if_pos hfit, Checked.ok_bind]
    by_cases hhdr : isSsdfsPartialLogHeader (b.view offset) = true
    · have hmax : ∀ n : Nat, (if n = 0 then 1 else n) = max 1 n := fun n => by
        by_cases hn : n = 0
        · rw [if_pos hn, hn]
          rfl
        · rw [if_neg hn]
          omega
      rw [if_neg (by simp [hhdr]), if_pos hhdr, readPartialLogFooter_eq rfl]
      by_cases hfits : b.FooterFits (b.view offset)
      · unfold accept
        rw [if_pos hfits, if_pos hfits, Checked.ok_bind, hmax, hpeb]
      · rw [if_neg hfits, if_neg hfits]
        rfl
    · rw [if_pos hhdr, if_neg hhdr]
  · rw [if_neg hfit, if_neg hfit]
    rfl

theorem partialLogRound_inv (hpeb : log.pebId = b.pebId) {curPage : Nat}
    {r : Round (Nat × FoundLog) FoundLog}
    (h : partialLogRound b.read b.size pageSize upperPage (curPage, log) = .ok r) :
    r = .leave log ∨ ∃ hdr,
      let nextPage := Word.u32 (curPage + max 1 (PlHdr.logBytes hdr / pageSize))
      r = if nextPage < upperPage then .again (nextPage, b.accept curPage hdr log)
        else .leave (b.accept curPage hdr log) := by
  rw [partialLogRound_eq hpeb curPage _ rfl] at h
  split at h
  case isFalse => cases h
  case isTrue =>
    split at h
    case isFalse =>
      cases h
      exact .inl rfl
    case isTrue =>
      split at h
      case isFalse => cases h
      case isTrue =>
        refine .inr ⟨b.view (Word.u32 (curPage * pageSize)), ?_⟩
        simp only at h ⊢
        split at h
        case isTrue hlt =>
          rw [if_pos hlt]
          exact (Except.ok.inj h).symm
        case isFalse hle =>
          rw [if_neg hle]
          exact (Except.ok.inj h).symm

theorem isSegmentHeader_eq_false {hdr : Bytes} (h : isSsdfsPartialLogHeader hdr = true) :
    isSsdfsSegmentHeader hdr = false := by
  unfold isSsdfsPartialLogHeader isSsdfsSegmentHeader hasMagic at *
  simp only [decide_eq_true_eq, decide_eq_false_iff_not, not_and] at h ⊢
  rw [h.2]
  exact fun _ => by decide

theorem isFooter_next {hdr footer : Bytes} (hhdr : isSsdfsPartialLogHeader hdr = true)
    (hfits : b.FooterFits hdr) : b.IsFooter hdr (b.nextFooter hdr footer) ↔ OwnFooter hdr := by
  unfold IsFooter nextFooter OwnFooter footerArea
  rw [isSegmentHeader_eq_false hhdr]
  by_cases hflag : (PlHdr.plFlags hdr).testBit logHasFooterBit = true
  · rw [if_pos hflag, if_pos hflag, if_neg Bool.false_ne_true]
    constructor
    · rintro ⟨offset, harea, -, -⟩
      exact ⟨hflag, congrArg Prod.snd (Option.some.inj harea)⟩
    · rintro ⟨-, hsize⟩
      rw [hsize]
      refine ⟨PlHdr.footerOffset hdr, rfl, hsize ▸ (hfits hflag).1, fun i hi => ?_⟩
      unfold blit view
      rw [if_pos ⟨Nat.zero_le i, by omega⟩, Nat.sub_zero, Nat.zero_add]
  · rw [if_neg hflag, if_neg hflag, if_neg Bool.false_ne_true]
    constructor
    · rintro ⟨offset, harea, -⟩
      cases harea
    · exact fun h => absurd h.1 hflag

theorem partialLogBehind_eq_some {x y : ChainLog}
    (h : b.partialLogBehind pageSize pagesPerPeb upperPage x = some y) :
    x.page + x.pages < upperPage ∧ x.page + x.pages < pagesPerPeb ∧
      isSsdfsPartialLogHeader (b.view ((x.page + x.pages) * pageSize)) = true ∧
      y = ⟨x.page + x.pages, b.view ((x.page + x.pages) * pageSize),
        max 1 (PlHdr.logBytes (b.view ((x.page + x.pages) * pageSize)) / pageSize)⟩ := by
  unfold partialLogBehind at h
  simp only at h
  split at h
  case isFalse => cases h
  case isTrue hnext => exact ⟨hnext.1, hnext.2.1, hnext.2.2, (Option.some.inj h).symm⟩

theorem partialsSound_of_none {y : ChainLog} {footer : Bytes}
    (h : b.partialLogBehind pageSize pagesPerPeb upperPage y = none) :
    b.PartialsSound pageSize pagesPerPeb upperPage y footer ↔
      b.Quiet pageSize pagesPerPeb upperPage (y.page + y.pages) ∧ b.IsFooter y.header footer := by
  have hlast : Follows.Last (b.partialLogBehind pageSize pagesPerPeb upperPage) 0 y y := ⟨.refl y, h⟩
  constructor
  · exact fun hsound => ⟨hsound.quiet 0 y hlast, hsound.kept y hlast⟩
  · rintro ⟨hquiet, hfooter⟩
    refine ⟨fun j x hx => ?_, fun k z hz => ?_, fun z hz => ?_, fun k z hz => ?_⟩
    · exact absurd (hx.le_of_last hlast) (Nat.not_succ_le_zero j)
    · obtain ⟨-, rfl⟩ := hlast.unique hz
      exact hquiet
    · obtain ⟨-, rfl⟩ := hlast.unique hz
      exact hfooter
    · exact absurd (hlast.unique hz).1 (Nat.succ_ne_zero k).symm

theorem partialsSound_of_some {y y' : ChainLog} {footer : Bytes}
    (h : b.partialLogBehind pageSize pagesPerPeb upperPage y = some y') :
    b.PartialsSound pageSize pagesPerPeb upperPage y footer ↔
      b.FooterFits y'.header ∧
        b.PartialsSound pageSize pagesPerPeb upperPage y' (b.nextFooter y'.header footer) := by
  obtain ⟨-, -, hhdr, hy'⟩ := partialLogBehind_eq_some h
  have hheader : isSsdfsPartialLogHeader y'.header = true := by rw [hy']; exact hhdr
  constructor
  · intro hsound
    have hfits : b.FooterFits y'.header := hsound.fits 0 y' (.step h (.refl y'))
    refine ⟨hfits, fun j x hx => hsound.fits (j + 1) x (.step h hx), fun k z hz =>
      hsound.quiet (k + 1) z ⟨.step h hz.follows, hz.stop⟩, fun z hz => ?_, fun k z hz =>
      hsound.own (k + 1) z ⟨.step h hz.follows, hz.stop⟩⟩
    obtain ⟨hfollows, hstop⟩ := hz
    cases hfollows with
    | refl => exact (isFooter_next hheader hfits).2 (hsound.own 0 y' ⟨.step h (.refl y'), hstop⟩)
  · rintro ⟨hfits, hsound⟩
    have hbehind : ∀ {k z}, Follows (b.partialLogBehind pageSize pagesPerPeb upperPage) (k + 1) y z →
        Follows (b.partialLogBehind pageSize pagesPerPeb upperPage) k y' z := fun hz => by
      cases hz with
      | step hb hrest =>
        cases h.symm.trans hb
        exact hrest
    refine ⟨fun j x hx => ?_, fun k z hz => ?_, fun z hz => ?_, fun k z hz => ?_⟩
    · cases j with
      | zero =>
        cases hbehind hx with
        | refl => exact hfits
      | succ j => exact hsound.fits j x (hbehind hx)
    · obtain ⟨hfollows, hstop⟩ := hz
      cases k with
      | zero =>
        cases hfollows with
        | refl => exact absurd (hstop.symm.trans h) (by simp)
      | succ k => exact hsound.quiet k z ⟨hbehind hfollows, hstop⟩
    · obtain ⟨hfollows, hstop⟩ := hz
      cases hfollows with
      | refl => exact absurd (hstop.symm.trans h) (by simp)
    · have hrest := hbehind hz.follows
      cases k with
      | zero =>
        have hkept := hsound.kept z ⟨hrest, hz.stop⟩
        cases hrest with
        | refl => exact (isFooter_next hheader hfits).1 hkept
      | succ k => exact hsound.own k z ⟨hrest, hz.stop⟩

section

variable (hpage : logHeaderSize ≤ pageSize) (hpages : pagesPerPeb = b.size / pageSize)
  (hupper : upperPage ≤ pagesPerPeb + Word.u16Max)

include hpage hpages

theorem pages_le : pagesPerPeb ≤ 2097152 := by
  have hsize := b.size_lt
  have hdiv : b.size / pageSize ≤ b.size / logHeaderSize := Nat.div_le_div_left hpage (by decide)
  unfold logHeaderSize at hdiv
  omega

theorem page_offset_lt {page : Nat} (h : page < pagesPerPeb) :
    page * pageSize + logHeaderSize ≤ b.size := by
  have hmul : (page + 1) * pageSize ≤ b.size / pageSize * pageSize :=
    Nat.mul_le_mul_right _ (hpages ▸ h)
  have hdiv := Nat.div_mul_le_self b.size pageSize
  rw [Nat.succ_mul] at hmul
  omega

omit hpages in
theorem logPages_le (hdr : Bytes) : PlHdr.logBytes hdr / pageSize ≤ 2097152 := by
  have hlt : PlHdr.logBytes hdr < 4294967296 := peek_lt _ 4 _
  have hdiv : PlHdr.logBytes hdr / pageSize ≤ PlHdr.logBytes hdr / logHeaderSize :=
    Nat.div_le_div_left hpage (by decide)
  unfold logHeaderSize at hdiv
  omega

include hupper

theorem loop_beyond {fuel curPage : Nat} {last : FoundLog} (hpeb : log.pebId = b.pebId)
    (hcur : pagesPerPeb ≤ curPage) (hlt : curPage < upperPage) (hstart : pagesPerPeb ≤ log.startPage)
    (h : Checked.loop (partialLogRound b.read b.size pageSize upperPage) fuel (curPage, log) = .ok last) :
    pagesPerPeb ≤ last.startPage := by
  have hbound := pages_le hpage hpages
  have hmax : Word.u16Max = 65535 := rfl
  let I : Nat × FoundLog → Prop := fun st =>
    pagesPerPeb ≤ st.1 ∧ st.1 < upperPage ∧ st.2.pebId = b.pebId ∧ pagesPerPeb ≤ st.2.startPage
  have hstep : ∀ st st', I st → partialLogRound b.read b.size pageSize upperPage st = .ok (.again st') →
      I st' := by
    rintro ⟨cur, found⟩ ⟨cur', found'⟩ ⟨hcur, hlt, hpeb, hstart⟩ hagain
    simp only at hcur hlt hpeb
    rcases partialLogRound_inv hpeb hagain with hr | ⟨hdr, hr⟩
    · cases hr
    · have hle := logPages_le hpage hdr
      simp only at hr
      rw [Word.u32_of_lt (by omega)] at hr
      split at hr
      case isFalse => cases hr
      case isTrue hnext =>
        cases hr
        exact ⟨by omega, hnext, hpeb, hcur⟩
  obtain ⟨⟨cur, found⟩, ⟨hcur, hlt, hpeb, hstart⟩, hleave⟩ :=
    Checked.loop_ind I h ⟨hcur, hlt, hpeb, hstart⟩ hstep
  rcases partialLogRound_inv hpeb hleave with hr | ⟨hdr, hr⟩
  · cases hr
    exact hstart
  · simp only at hr
    split at hr
    case isTrue => cases hr
    case isFalse =>
      cases hr
      exact hcur

theorem loop_describes_last {y : ChainLog}
    (hnone : b.partialLogBehind pageSize pagesPerPeb upperPage y = none) (hpeb : log.pebId = b.pebId)
    (hstart : log.startPage = y.page) (hheader : log.header = y.header) (hinside : y.page < pagesPerPeb)
    (hlook : y.page + y.pages < upperPage) :
    (∃ fuel last, Checked.loop (partialLogRound b.read b.size pageSize upperPage) fuel
        (y.page + y.pages, log) = .ok last ∧ b.Describes last y) ↔
      b.PartialsSound pageSize pagesPerPeb upperPage y log.footer := by
  rw [partialsSound_of_none hnone]
  have hround := @partialLogRound_eq b pageSize upperPage log hpeb (y.page + y.pages) _ rfl
  have hbound := pages_le hpage hpages
  have hmax : Word.u16Max = 65535 := rfl
  have hdescribes : b.Describes log y ↔ b.IsFooter y.header log.footer :=
    ⟨fun h => h.footer, fun h => ⟨hstart, hheader, h⟩⟩
  by_cases hout : pagesPerPeb ≤ y.page + y.pages
  · -- the page lies behind the erase block: a header that is found there leads astray
    by_cases hread : Word.u32 ((y.page + y.pages) * pageSize) + logHeaderSize ≤ b.size
    · rw [if_pos hread] at hround
      by_cases hhdr : isSsdfsPartialLogHeader (b.view (Word.u32 ((y.page + y.pages) * pageSize))) = true
      · refine iff_of_false ?_ fun h => by simp [(h.1 hlook hout).2] at hhdr
        rw [if_pos hhdr] at hround
        by_cases hfits : b.FooterFits (b.view (Word.u32 ((y.page + y.pages) * pageSize)))
        · have hle := logPages_le hpage (b.view (Word.u32 ((y.page + y.pages) * pageSize)))
          rw [if_pos hfits, Word.u32_of_lt (by omega)] at hround
          simp only at hround
          split at hround
          case isTrue hnext =>
            rw [Checked.returns_again hround]
            rintro ⟨fuel, last, hlast, hdescribes⟩
            have hpeb' : (b.accept (y.page + y.pages)
                (b.view (Word.u32 ((y.page + y.pages) * pageSize))) log).pebId = b.pebId := hpeb
            have hbeyond := loop_beyond hpage hpages hupper hpeb' (by omega) hnext hout hlast
            have hpage := hdescribes.page
            omega
          case isFalse =>
            rw [Checked.returns_leave hround]
            intro hdescribes
            have hpage : y.page + y.pages = y.page := hdescribes.page
            omega
        · rw [if_neg hfits] at hround
          exact Checked.not_returns_of_error hround
      · rw [if_neg hhdr] at hround
        rw [Checked.returns_leave hround, hdescribes]
        exact (and_iff_right fun _ _ => ⟨hread, Bool.eq_false_iff.2 hhdr⟩).symm
    · rw [if_neg hread] at hround
      exact iff_of_false (Checked.not_returns_of_error hround) fun h => hread (h.1 hlook hout).1
  · have hin : y.page + y.pages < pagesPerPeb := Nat.lt_of_not_le hout
    have hoff := page_offset_lt hpage hpages hin
    have hblock := b.size_lt
    have hhdr : ¬isSsdfsPartialLogHeader (b.view ((y.page + y.pages) * pageSize)) = true := fun h => by
      unfold partialLogBehind at hnone
      simp only at hnone
      rw [if_pos ⟨hlook, hin, h⟩] at hnone
      cases hnone
    rw [Word.u32_of_lt (by omega), if_pos hoff, if_neg hhdr] at hround
    rw [Checked.returns_leave hround, hdescribes]
    exact (and_iff_right fun _ hle => absurd hle hout).symm

theorem loop_describes_iff {n : Nat} {y z : ChainLog}
    (hlast : Follows.Last (b.partialLogBehind pageSize pagesPerPeb upperPage) n y z)
    (hpeb : log.pebId = b.pebId) (hstart : log.startPage = y.page) (hheader : log.header = y.header)
    (hinside : y.page < pagesPerPeb) (hlook : y.page + y.pages < upperPage) :
    (∃ fuel last, Checked.loop (partialLogRound b.read b.size pageSize upperPage) fuel
        (y.page + y.pages, log) = .ok last ∧ b.Describes last z) ↔
      b.PartialsSound pageSize pagesPerPeb upperPage y log.footer := by
  obtain ⟨hfollows, hstop⟩ := hlast
  induction hfollows generalizing log with
  | refl z => exact loop_describes_last hpage hpages hupper hstop hpeb hstart hheader hinside hlook
  | @step _ y y' z hnext hrest ih =>
    have hbound := pages_le hpage hpages
    have hmax : Word.u16Max = 65535 := rfl
    rw [partialsSound_of_some hnext]
    obtain ⟨hlt, hin, hhdr, hy'⟩ := partialLogBehind_eq_some hnext
    have hoff := page_offset_lt hpage hpages hin
    have hblock := b.size_lt
    have hround := @partialLogRound_eq b pageSize upperPage log hpeb (y.page + y.pages) _
      (Word.u32_of_lt (by omega))
    rw [if_pos hoff, if_pos hhdr] at hround
    subst hy'
    by_cases hfits : b.FooterFits (b.view ((y.page + y.pages) * pageSize))
    · have hle := logPages_le hpage (b.view ((y.page + y.pages) * pageSize))
      rw [if_pos hfits, Word.u32_of_lt (by omega)] at hround
      simp only at hround
      rw [and_iff_right hfits]
      split at hround
      case isTrue hmore =>
        rw [Checked.returns_again hround]
        exact ih hpeb rfl rfl hin hmore hstop
      case isFalse hdone =>
        have hnone : b.partialLogBehind pageSize pagesPerPeb upperPage
            ⟨y.page + y.pages, b.view ((y.page + y.pages) * pageSize),
              max 1 (PlHdr.logBytes (b.view ((y.page + y.pages) * pageSize)) / pageSize)⟩ = none :=
          if_neg fun h => hdone h.1
        rw [Checked.returns_leave hround, partialsSound_of_none hnone]
        cases hrest with
        | refl =>
          exact ⟨fun h => ⟨fun hlt => absurd hlt hdone, h.footer⟩, fun h => ⟨rfl, rfl, h.2⟩⟩
        | step hb _ => exact absurd (hnone.symm.trans hb) (by simp)
    · rw [if_neg hfits] at hround
      exact iff_of_false (Checked.not_returns_of_error hround) fun h => hfits h.1

end

end EraseBlock

end Ssdfs
