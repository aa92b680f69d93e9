import Ssdfs.Lib.Report
import Ssdfs.Log.Pages
import Ssdfs.Volume.Header
import Ssdfs.Volume.KeyOptions

namespace Ssdfs

structure UserDataSeg where
  logPages : UInt16
  migrationThreshold : UInt16
  compression : Compression
  deriving Repr, DecidableEq

structure UserDataOptions where
  flags : UInt16
  compression : UInt8
  migrationThreshold : UInt16
  deriving Repr, DecidableEq

/-- The creation options of the user data, and what the superblock says of it. -/
structure UserDataState where
  seg : UserDataSeg
  vhLogPages : UInt16
  options : UserDataOptions
  deriving Repr, DecidableEq

def userDataMakeCompression : UInt16 := 1

def UserDataSeg.options (seg : UserDataSeg) (flags : UInt16) (compression : UInt8) : UserDataOptions :=
  ⟨flags, compression, seg.migrationThreshold⟩

def prepareUserDataOptions (seg : UserDataSeg) : Mkfs UserDataOptions :=
  match seg.compression with
  | .uncompressed => .ok (seg.options 0 0)
  | .zlib => .ok (seg.options userDataMakeCompression 1)
  | .lzo => .ok (seg.options userDataMakeCompression 2)
  | .lz4 => .ok (seg.options userDataMakeCompression 3)
  | .zstd => .ok (seg.options userDataMakeCompression 4)
  | .unknown => fail .erange

structure LogPages where
  value : Nat
  stored : UInt16
  deriving Repr, DecidableEq

def LogPages.set (value : Nat) : LogPages := ⟨value, UInt16.ofNat value⟩

/-- `1 << ilog2(n)`, which is the lowest bit of the number, and none for zero. -/
def lowestBit (n : Nat) : Mkfs Nat :=
  match firstSet 32 (Word.u32 n) with
  | 0 => .error .trap
  | place + 1 => .ok (2 ^ place)

section

variable (eraseSize pagesPerPeb : Nat)

/-- The greatest number of 16 bits asks for the default. -/
def defaultLogPages (pages : LogPages) : LogPages :=
  if pages.value ≥ Word.u16Max then
    if eraseSize < bytesPerMb then .set pagesPerPeb
    else .set (min (pagesPerPeb / logsPerPebDefault) logMaxPages)
  else pages

def limitLogPages (pages : LogPages) : LogPages :=
  if pages.value > pagesPerPeb then .set (min pagesPerPeb logMaxPages) else pages

def correctLogPages (pages : LogPages) : Mkfs LogPages := do
  let rest ← rem pagesPerPeb pages.value
  if rest ≠ 0 then do
    let correctedValue ← lowestBit pages.value
    let correctedValue := Word.u16 correctedValue
    let rest ← rem pagesPerPeb correctedValue
    bugOn (rest ≠ 0)
    .ok (.set (min correctedValue logMaxPages))
  else .ok pages

end

def userDataMkfsDefineLayout (layout : VolumeLayout) (st : UserDataState) :
    Mkfs (Report Errno UserDataState) := do
  let logPages := st.seg.logPages
  bugOn (logPages = 0)
  let erasesize := layout.env.eraseSize.toNat
  let pagesPerPeb ← quot erasesize layout.pageSize.bytes
  let pages := limitLogPages pagesPerPeb
    (defaultLogPages erasesize pagesPerPeb ⟨logPages.toNat, logPages⟩)
  let pages ← correctLogPages pagesPerPeb pages
  bugOn (pages.value ≥ Word.u16Max)
  let st := { st with
    seg := { st.seg with logPages := pages.stored }
    vhLogPages := UInt16.ofNat pages.value }
  Report.attempt (prepareUserDataOptions st.seg) st fun options => .ok (none, { st with options })

structure LogPagesFill (pagesPerPeb : Nat) (st : UserDataState) : Prop where
  same : st.seg.logPages = st.vhLogPages
  pos : 1 ≤ st.vhLogPages.toNat
  le : st.vhLogPages.toNat ≤ min pagesPerPeb logMaxPages
  dvd : st.vhLogPages.toNat ∣ pagesPerPeb

def TwosDivide (pages pagesPerPeb : Nat) : Prop := ∀ k, 2 ^ k ∣ pages → 2 ^ k ∣ pagesPerPeb

/-- What is asked for can be corrected: an erase block has a page at least and the log too; a number
that is left as it is must not exceed the greatest one, and a number that is rounded to its lowest bit
must have one that divides the pages of the erase block. -/
structure LogPagesSuit (eraseSize pagesPerPeb requested : Nat) : Prop where
  pages : pagesPerPeb ≠ 0
  asked : requested ≠ 0
  unset : requested = Word.u16Max → bytesPerMb ≤ eraseSize →
    TwosDivide (min (pagesPerPeb / logsPerPebDefault) logMaxPages) pagesPerPeb
  above : requested < Word.u16Max → pagesPerPeb < requested → logMaxPages < pagesPerPeb →
    logMaxPages ∣ pagesPerPeb
  within : requested < Word.u16Max → requested ≤ pagesPerPeb →
    TwosDivide requested pagesPerPeb ∧ (requested ∣ pagesPerPeb → requested ≤ logMaxPages)

section

variable {eraseSize n v place requested : Nat} {pages : LogPages}

theorem twosDivide_iff (hplace : firstSet 32 v = place + 1) : TwosDivide v n ↔ 2 ^ place ∣ n := by
  constructor
  · intro h
    exact h place (firstSet_dvd hplace)
  · intro hdvd k hk
    exact Nat.dvd_trans (Nat.pow_dvd_pow 2 (firstSet_greatest hplace hk)) hdvd

theorem TwosDivide.of_dvd (h : v ∣ n) : TwosDivide v n := fun _ hk => Nat.dvd_trans hk h

theorem min_two_pow_dvd {k m : Nat} (hk : 2 ^ k ∣ n) : min (2 ^ k) (2 ^ m) ∣ n := by
  rcases Nat.le_total k m with hle | hle
  · rwa [Nat.min_eq_left (Nat.pow_le_pow_right Nat.two_pos hle)]
  · rw [Nat.min_eq_right (Nat.pow_le_pow_right Nat.two_pos hle)]
    exact Nat.dvd_trans (Nat.pow_dvd_pow 2 hle) hk

theorem logPages_set_fill (hpos : 1 ≤ v) (hle : v ≤ min n logMaxPages) (hdvd : v ∣ n)
    {st : UserDataState} (hseg : st.seg.logPages = UInt16.ofNat v)
    (hvh : st.vhLogPages = UInt16.ofNat v) : LogPagesFill n st := by
  have hmax : v ≤ logMaxPages := Nat.le_trans hle (Nat.min_le_right _ _)
  have hv : st.vhLogPages.toNat = v := by
    rw [hvh]
    exact UInt16.toNat_ofNat_of_lt' (Nat.lt_of_le_of_lt hmax (by decide))
  refine ⟨hseg.trans hvh.symm, ?_, ?_, ?_⟩ <;> rwa [hv]

theorem correctLogPages_eq (hpages : pages = .set v) (hpos : 1 ≤ v) (hv : v < 65536) :
    correctLogPages n pages =
      if v ∣ n then .ok pages
      else if 2 ^ (firstSet 32 v - 1) ∣ n then
        .ok (.set (min (2 ^ (firstSet 32 v - 1)) logMaxPages))
      else .error .abort := by
  obtain ⟨place, hplace⟩ := @exists_firstSet 32 v hpos (Nat.lt_trans hv (by decide))
  have hvalue : pages.value = v := by rw [hpages]; rfl
  have hle : 2 ^ place ≤ v := Nat.le_of_dvd hpos (firstSet_dvd hplace)
  have hlowest : lowestBit v = .ok (2 ^ place) := by
    unfold lowestBit
    rw [Word.u32_of_lt (Nat.lt_trans hv (by decide)), hplace]
  unfold correctLogPages rem
  rw [hvalue, Checked.rem_of_ne (Nat.pos_iff_ne_zero.1 hpos), Checked.ok_bind, hplace,
    Nat.add_sub_cancel]
  by_cases hdvd : v ∣ n
  · rw [if_pos hdvd, if_neg (not_not.2 (Nat.mod_eq_zero_of_dvd hdvd))]
  · rw [if_neg hdvd, if_pos fun h => hdvd (Nat.dvd_of_mod_eq_zero h), hlowest, Checked.ok_bind,
      Word.u16_of_lt (Nat.lt_of_le_of_lt hle hv)]
    simp only
    rw [Checked.rem_of_ne (Nat.pos_iff_ne_zero.1 (Nat.two_pow_pos place)), Checked.ok_bind]
    by_cases hlow : 2 ^ place ∣ n
    · rw [if_pos hlow, bugOn_of_not (not_not.2 (Nat.mod_eq_zero_of_dvd hlow)), Checked.ok_bind]
    · have hrest : n % 2 ^ place ≠ 0 := fun h => hlow (Nat.dvd_of_mod_eq_zero h)
      unfold bugOn
      rw [if_neg hlow, Checked.bugOn_of hrest]
      rfl

def Corrects (n : Nat) (pages : LogPages) : Prop :=
  ∃ v, correctLogPages n pages = .ok (.set v) ∧ 1 ≤ v ∧ v ≤ min n logMaxPages ∧ v ∣ n

theorem corrects_iff (hpos : 1 ≤ v) (hv : v < 65536) (hle : v ≤ n) :
    Corrects n (.set v) ↔ TwosDivide v n ∧ (v ∣ n → v ≤ logMaxPages) := by
  obtain ⟨place, hplace⟩ := @exists_firstSet 32 v hpos (Nat.lt_trans hv (by decide))
  have hlow : 2 ^ place ≤ v := Nat.le_of_dvd hpos (firstSet_dvd hplace)
  unfold Corrects
  rw [correctLogPages_eq rfl hpos hv, twosDivide_iff hplace, hplace, Nat.add_sub_cancel]
  by_cases hdvd : v ∣ n
  · rw [if_pos hdvd]
    constructor
    · rintro ⟨w, hw, -, hmax, -⟩
      obtain rfl : v = w := (LogPages.mk.inj (Except.ok.inj hw)).1
      exact ⟨Nat.dvd_trans (firstSet_dvd hplace) hdvd, fun _ => Nat.le_trans hmax (Nat.min_le_right _ _)⟩
    · rintro ⟨-, hmax⟩
      exact ⟨v, rfl, hpos, Nat.le_min.2 ⟨hle, hmax hdvd⟩, hdvd⟩
  · rw [if_neg hdvd]
    constructor
    · rintro ⟨w, hw, -⟩
      refine ⟨?_, fun h => absurd h hdvd⟩
      split at hw
      · assumption
      · cases hw
    · rintro ⟨hlowest, -⟩
      rw [if_pos hlowest]
      refine ⟨_, rfl, Nat.le_min.2 ⟨Nat.two_pow_pos place, by decide⟩,
        Nat.le_min.2 ⟨Nat.le_trans (Nat.min_le_left _ _) (Nat.le_trans hlow hle),
          Nat.min_le_right _ _⟩, ?_⟩
      exact @min_two_pow_dvd n place 8 hlowest

theorem not_corrects_zero : ¬Corrects n (.set 0) := fun ⟨_, h, _⟩ => nomatch h

theorem correctLogPages_set {pages' : LogPages} (hv : v < 65536)
    (h : correctLogPages n (.set v) = .ok pages') : ∃ w < 65536, pages' = .set w := by
  rcases Nat.eq_zero_or_pos v with rfl | hpos
  · cases h
  · obtain ⟨place, hplace⟩ := @exists_firstSet 32 v hpos (Nat.lt_trans hv (by decide))
    rw [correctLogPages_eq rfl hpos hv] at h
    split at h
    · exact ⟨v, hv, (Except.ok.inj h).symm⟩
    · split at h
      · exact ⟨_, Nat.lt_of_le_of_lt (Nat.min_le_right _ _) (by decide), (Except.ok.inj h).symm⟩
      · cases h

/-- The definition of the layout ends, with nothing but an unknown compression to report. -/
def DefinesUserData (layout : VolumeLayout) (st : UserDataState) : Prop :=
  ∃ err st', userDataMkfsDefineLayout layout st = .ok (err, st') ∧
    (st.seg.compression ≠ .unknown → err = none) ∧
    LogPagesFill (layout.env.eraseSize.toNat / layout.pageSize.bytes) st'

theorem prepareUserDataOptions_ends (seg : UserDataSeg) :
    (∃ options, prepareUserDataOptions seg = .ok options) ∨
      seg.compression = .unknown ∧ prepareUserDataOptions seg = fail .erange := by
  unfold prepareUserDataOptions
  cases seg.compression with
  | unknown => exact .inr ⟨rfl, rfl⟩
  | uncompressed | zlib | lzo | lz4 | zstd => exact .inl ⟨_, rfl⟩

theorem definesUserData_iff {layout : VolumeLayout} {st : UserDataState} (hasked : st.seg.logPages ≠ 0)
    (hv : v < 65536)
    (hpages : limitLogPages (layout.env.eraseSize.toNat / layout.pageSize.bytes)
      (defaultLogPages layout.env.eraseSize.toNat
        (layout.env.eraseSize.toNat / layout.pageSize.bytes)
        ⟨st.seg.logPages.toNat, st.seg.logPages⟩) = .set v) :
    DefinesUserData layout st ↔
      Corrects (layout.env.eraseSize.toNat / layout.pageSize.bytes) (.set v) := by
  have hpage : layout.pageSize.bytes ≠ 0 := Nat.pos_iff_ne_zero.1 (Nat.lt_of_lt_of_le (by decide)
    layout.pageSize.bytes_ge)
  unfold DefinesUserData userDataMkfsDefineLayout quot
  simp only
  rw [bugOn_of_not hasked, Checked.ok_bind, Checked.quot_of_ne hpage, Checked.ok_bind, hpages]
  generalize layout.env.eraseSize.toNat / layout.pageSize.bytes = n
  constructor
  · rintro ⟨err, st', hrun, -, hfill⟩
    obtain ⟨pages', hcorrect, hrun⟩ := Checked.bind_eq_ok.1 hrun
    obtain ⟨w, hw, rfl⟩ := correctLogPages_set hv hcorrect
    obtain ⟨-, hrun⟩ := bugOn_bind_eq_ok.1 hrun
    have hvh : st'.vhLogPages = UInt16.ofNat w := by
      obtain ⟨options, hoptions⟩ | ⟨-, hunknown⟩ := prepareUserDataOptions_ends
        { st.seg with logPages := (LogPages.set w).stored }
      · rw [hoptions] at hrun
        cases hrun
        rfl
      · rw [hunknown] at hrun
        cases hrun
        rfl
    have hvalue : st'.vhLogPages.toNat = w := by
      rw [hvh]
      exact UInt16.toNat_ofNat_of_lt' hw
    refine ⟨w, hcorrect, ?_, ?_, ?_⟩
    · exact hvalue ▸ hfill.pos
    · exact hvalue ▸ hfill.le
    · exact hvalue ▸ hfill.dvd
  · rintro ⟨w, hcorrect, hpos, hle, hdvd⟩
    have hmax : w ≤ logMaxPages := Nat.le_trans hle (Nat.min_le_right _ _)
    have hfits : ¬(LogPages.set w).value ≥ Word.u16Max :=
      Nat.not_le.2 (Nat.lt_of_le_of_lt hmax (by decide))
    rw [hcorrect, Checked.ok_bind, bugOn_of_not hfits, Checked.ok_bind]
    obtain ⟨options, hoptions⟩ | ⟨hunknown, herange⟩ := prepareUserDataOptions_ends
      { st.seg with logPages := (LogPages.set w).stored }
    · rw [hoptions]
      exact ⟨none, _, rfl, fun _ => rfl, logPages_set_fill hpos hle hdvd rfl rfl⟩
    · rw [herange]
      exact ⟨some .erange, _, rfl, fun h => absurd hunknown h, logPages_set_fill hpos hle hdvd rfl rfl⟩

def firstLogPages (eraseSize n requested : Nat) : Nat :=
  if requested ≥ Word.u16Max then
    if eraseSize < bytesPerMb then n else min (n / logsPerPebDefault) logMaxPages
  else if requested > n then min n logMaxPages else requested

theorem firstLogPages_eq {logPages : UInt16} :
    limitLogPages n (defaultLogPages eraseSize n ⟨logPages.toNat, logPages⟩) =
      .set (firstLogPages eraseSize n logPages.toNat) := by
  have hself : (⟨logPages.toNat, logPages⟩ : LogPages) = .set logPages.toNat :=
    congrArg (LogPages.mk logPages.toNat) UInt16.ofNat_toNat.symm
  unfold defaultLogPages firstLogPages
  by_cases hopen : logPages.toNat ≥ Word.u16Max
  · rw [if_pos hopen, if_pos hopen]
    by_cases hsmall : eraseSize < bytesPerMb
    · rw [if_pos hsmall, if_pos hsmall]
      exact if_neg (Nat.lt_irrefl n)
    · rw [if_neg hsmall, if_neg hsmall]
      exact if_neg (Nat.not_lt.2 (Nat.le_trans (Nat.min_le_left _ _) (Nat.div_le_self ..)))
  · rw [if_neg hopen, if_neg hopen]
    unfold limitLogPages
    by_cases hover : logPages.toNat > n
    · rw [if_pos hover, if_pos hover]
    · rw [if_neg hover, if_neg hover]
      exact hself

theorem firstLogPages_lt (hsmall : eraseSize < bytesPerMb → n ≤ logMaxPages) (hv : requested < 65536) :
    firstLogPages eraseSize n requested < 65536 := by
  have hmax : logMaxPages < 65536 := by decide
  unfold firstLogPages
  split
  · split
    · rename_i h
      exact Nat.lt_of_le_of_lt (hsmall h) hmax
    · exact Nat.lt_of_le_of_lt (Nat.min_le_right _ _) hmax
  · split
    · exact Nat.lt_of_le_of_lt (Nat.min_le_right _ _) hmax
    · exact hv

theorem twosDivide_limit_iff : TwosDivide (min n logMaxPages) n ↔ (logMaxPages < n → logMaxPages ∣ n) := by
  rcases Nat.lt_or_ge logMaxPages n with hlt | hle
  · rw [Nat.min_eq_right (Nat.le_of_lt hlt)]
    constructor
    · intro h _
      exact h 8 (Nat.dvd_refl _)
    · intro h
      exact .of_dvd (h hlt)
  · rw [Nat.min_eq_left hle]
    exact iff_of_true (.of_dvd (Nat.dvd_refl n)) fun hlt => absurd hlt (Nat.not_lt.2 hle)

theorem corrects_firstLogPages_iff (hsmall : eraseSize < bytesPerMb → n ≤ logMaxPages)
    (hlarge : bytesPerMb ≤ eraseSize → logsPerPebDefault ≤ n) (hv : requested < 65536)
    (hasked : requested ≠ 0) :
    Corrects n (.set (firstLogPages eraseSize n requested)) ↔ LogPagesSuit eraseSize n requested := by
  have hmax : 1 ≤ logMaxPages := by decide
  unfold firstLogPages
  by_cases hopen : requested ≥ Word.u16Max
  · have hall : requested = Word.u16Max := Nat.le_antisymm (Nat.le_of_lt_succ hv) hopen
    have hover : ¬requested < Word.u16Max := Nat.not_lt.2 hopen
    rw [if_pos hopen]
    by_cases herase : eraseSize < bytesPerMb
    · rw [if_pos herase]
      rcases Nat.eq_zero_or_pos n with rfl | hn
      · exact iff_of_false not_corrects_zero fun h => h.pages rfl
      · have hle := hsmall herase
        rw [corrects_iff hn (Nat.lt_of_le_of_lt hle (by decide)) (Nat.le_refl n)]
        refine iff_of_true ⟨.of_dvd (Nat.dvd_refl n), fun _ => hle⟩ ⟨Nat.pos_iff_ne_zero.1 hn, hasked,
          fun _ h => absurd herase (Nat.not_lt.2 h), fun h => absurd h hover, fun h => absurd h hover⟩
    · have hn := hlarge (Nat.not_lt.1 herase)
      have hn0 : n ≠ 0 := Nat.pos_iff_ne_zero.1 (Nat.lt_of_lt_of_le (by decide) hn)
      rw [if_neg herase, corrects_iff (Nat.le_min.2 ⟨Nat.div_pos hn (by decide), hmax⟩)
        (Nat.lt_of_le_of_lt (Nat.min_le_right _ _) (by decide))
        (Nat.le_trans (Nat.min_le_left _ _) (Nat.div_le_self ..))]
      constructor
      · rintro ⟨htwos, -⟩
        exact ⟨hn0, hasked, fun _ _ => htwos, fun h => absurd h hover, fun h => absurd h hover⟩
      · intro h
        exact ⟨h.unset hall (Nat.not_lt.1 herase), fun _ => Nat.min_le_right _ _⟩
  · have hlt : requested < Word.u16Max := Nat.not_le.1 hopen
    have hne : requested ≠ Word.u16Max := Nat.ne_of_lt hlt
    rw [if_neg hopen]
    by_cases hmany : requested > n
    · rw [if_pos hmany]
      rcases Nat.eq_zero_or_pos n with rfl | hn
      · exact iff_of_false not_corrects_zero fun h => h.pages rfl
      · rw [corrects_iff (Nat.le_min.2 ⟨hn, hmax⟩)
          (Nat.lt_of_le_of_lt (Nat.min_le_right _ _) (by decide)) (Nat.min_le_left _ _),
          twosDivide_limit_iff]
        constructor
        · rintro ⟨hlimit, -⟩
          exact ⟨Nat.pos_iff_ne_zero.1 hn, hasked, fun h => absurd h hne, fun _ _ => hlimit,
            fun _ h => absurd hmany (Nat.not_lt.2 h)⟩
        · intro h
          exact ⟨h.above hlt hmany, fun _ => Nat.min_le_right _ _⟩
    · have hle := Nat.not_lt.1 hmany
      have hpos := Nat.pos_of_ne_zero hasked
      rw [if_neg hmany, corrects_iff hpos hv hle]
      constructor
      · intro h
        exact ⟨Nat.pos_iff_ne_zero.1 (Nat.lt_of_lt_of_le hpos hle), hasked, fun h => absurd h hne,
          fun _ h => absurd h hmany, fun _ _ => h⟩
      · intro h
        exact h.within hlt hle

end

/-- The layout and the volume header get one number of pages, which whole logs of it fill the erase
block with, if and only if what is asked for can be corrected. -/
theorem userDataMkfsDefineLayout_fills_iff (layout : VolumeLayout) (st : UserDataState) :
    DefinesUserData layout st ↔
      LogPagesSuit layout.env.eraseSize.toNat
        (layout.env.eraseSize.toNat / layout.pageSize.bytes) st.seg.logPages.toNat := by
  have hpos : 0 < layout.pageSize.bytes := Nat.lt_of_lt_of_le (by decide) layout.pageSize.bytes_ge
  have hsmall : layout.env.eraseSize.toNat < bytesPerMb →
      layout.env.eraseSize.toNat / layout.pageSize.bytes ≤ logMaxPages := fun h =>
    Nat.le_trans (Nat.div_le_div_left layout.pageSize.bytes_ge (by decide))
      (Nat.div_le_of_le_mul (Nat.le_of_lt h))
  have hlarge : bytesPerMb ≤ layout.env.eraseSize.toNat →
      logsPerPebDefault ≤ layout.env.eraseSize.toNat / layout.pageSize.bytes := fun h => by
    rw [Nat.le_div_iff_mul_le hpos]
    exact Nat.le_trans (Nat.mul_le_mul_left _ layout.pageSize.bytes_le) (Nat.le_trans (by decide) h)
  by_cases hasked : st.seg.logPages = 0
  · refine iff_of_false ?_ fun h => h.asked (by rw [hasked]; rfl)
    rintro ⟨err, st', hrun, -⟩
    obtain ⟨hnot, -⟩ := bugOn_bind_eq_ok.1 hrun
    exact hnot hasked
  · have hne : st.seg.logPages.toNat ≠ 0 := fun h => hasked (UInt16.toNat_inj.1 h)
    rw [definesUserData_iff hasked (firstLogPages_lt hsmall st.seg.logPages.toNat_lt) firstLogPages_eq]
    exact corrects_firstLogPages_iff hsmall hlarge st.seg.logPages.toNat_lt hne

/-- Erase blocks of 512 pages. -/
def wideOptions : KeyOptions :=
  let options := keyOptions 33554432 1
  { options with layout := { options.layout with segSize := 2097152, env := ⟨33554432, 2097152, .blk⟩ } }

def askedUserData (logPages : UInt16) : UserDataState := ⟨⟨logPages, 65535, .zlib⟩, 0, ⟨0, 0, 0⟩⟩

/-- As many pages as the erase block has are left as they are, above the greatest number for a log. -/
theorem userDataMkfsDefineLayout_keeps_512 : ∃ settled, settleOptions none wideOptions = .ok settled ∧
    parseLogPages (some 512) = .ok 512 ∧ ¬DefinesUserData settled.layout (askedUserData 512) := by
  obtain ⟨settled, h⟩ : ∃ settled, settleOptions none wideOptions = .ok settled := Checked.exists_ok rfl
  refine ⟨settled, h, rfl, ?_⟩
  cases h
  rintro ⟨err, st', hrun, -, hfill⟩
  cases hrun
  exact absurd hfill.le (by decide)

end Ssdfs
