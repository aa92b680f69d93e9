import Mathlib.Data.Nat.Find
import Ssdfs.Write.Check

namespace Ssdfs

def logMaxPages : Nat := 256
def logsPerPebDefault : Nat := 8

/-- What `atoi` makes of the option's text, if the option is there. -/
def parseLogPages : Option Int → Mkfs Nat
  | none => .ok Word.u16Max
  | some value => do
    failIf (value = 0 ∨ value ≥ 65535) .einval
    .ok (value % 65536).toNat

section

variable (eraseSize pageSize : Nat)

/-- `while (erase_size % (log_pages * page_size)) log_pages++;` -/
def alignLogPages : Nat → Nat → Mkfs Nat
  | 0, _ => .error .fuel
  | fuel + 1, logPages => do
    let rest ← rem eraseSize (Word.u32 (logPages * pageSize))
    if rest ≠ 0 then alignLogPages fuel (Word.u32 (logPages + 1)) else .ok logPages

/-- `steps` bounds each climb, the other bound is for the jumps back to its start. -/
def tryAlignLogPages (steps blks : Nat) : Nat → Nat → Mkfs Nat
  | 0, _ => .error .fuel
  | fuel + 1, logPages => do
    let logPages ← alignLogPages eraseSize pageSize steps logPages
    bugOn (logPages > eraseSize / pageSize)
    if logPages = eraseSize / pageSize then .ok logPages
    else if Word.sub32 logPages blks < 3 then
      tryAlignLogPages steps blks fuel (Word.u32 (logPages + 3))
    else .ok logPages

end

/-- The requested pages are a number of 16 bits, the greatest of which asks for none. -/
def initialLogPages (requested blks : Nat) : Mkfs Nat :=
  if requested = Word.u16Max then .ok blks
  else if requested < blks then .ok blks
  else do
    let _ ← rem requested blks
    .ok requested

def setLogPages (fuel : Nat) (layout : VolumeLayout) (requested blks : Nat) : Mkfs (Nat × UInt16) := do
  bugOn (blks = 0)
  bugOn (blks ≥ Word.u16Max)
  let erasesize := layout.env.eraseSize.toNat
  let pagesize := layout.pageSize.bytes
  let pagesPerPeb ← quot erasesize pagesize
  bugOn (blks / 2 > pagesPerPeb)
  let _ ← rem pagesPerPeb blks
  let blks := min blks logMaxPages
  let logPages ← initialLogPages requested blks
  let logPages ← tryAlignLogPages erasesize pagesize fuel blks fuel logPages
  let _ ← rem pagesPerPeb logPages
  let logPages := min (max logPages (pagesPerPeb / logsPerPebDefault)) logMaxPages
  bugOn (logPages ≥ Word.u16Max)
  .ok (logPages, UInt16.ofNat logPages)

def segbmapSetLogPages (fuel : Nat) (layout : VolumeLayout) (segbmapLogPages blks : Nat) :
    Mkfs (Nat × UInt16) := setLogPages fuel layout segbmapLogPages blks

def maptblSetLogPages (fuel : Nat) (layout : VolumeLayout) (maptblLogPages blks : Nat) :
    Mkfs (Nat × UInt16) := setLogPages fuel layout maptblLogPages blks

/-- The phase of the segment bitmap, which every volume goes through, has set the pages of its log. -/
def VolumeLayout.LogPagesSet (layout : VolumeLayout) : Prop :=
  ∃ (fuel : Nat) (requested : UInt16) (blks : Nat) (r : Nat × UInt16),
    segbmapSetLogPages fuel layout requested.toNat blks = .ok r

/-- The climb comes to an end with pages that the log fits in and that fill the erase block. -/
def SetsLogPages (set : Nat → VolumeLayout → Nat → Nat → Mkfs (Nat × UInt16)) (layout : VolumeLayout)
    (requested blks : Nat) : Prop :=
  ∃ fuel logPages, set fuel layout requested blks = .ok (logPages, UInt16.ofNat logPages) ∧
    min blks logMaxPages ≤ logPages ∧
    logPages ≤ layout.env.eraseSize.toNat / layout.pageSize.bytes ∧
    logPages ∣ layout.env.eraseSize.toNat / layout.pageSize.bytes

/-- The least divisor of `n` that is not below `s`. -/
structure FirstDivisor (n s d : Nat) : Prop where
  le : s ≤ d
  dvd : d ∣ n
  first : ∀ e, s ≤ e → e < d → ¬e ∣ n

namespace FirstDivisor

variable {n s t d e : Nat}

theorem unique (h : FirstDivisor n s d) (h' : FirstDivisor n s e) : d = e := by
  rcases Nat.lt_trichotomy d e with hlt | heq | hgt
  · exact absurd h.dvd (h'.first d h.le hlt)
  · exact heq
  · exact absurd h'.dvd (h.first e h'.le hgt)

theorem exists_of_le (h : s ≤ n) : ∃ d, FirstDivisor n s d := by
  classical
  have hex : ∃ d, s ≤ d ∧ d ∣ n := ⟨n, h, Nat.dvd_refl n⟩
  exact ⟨Nat.find hex, (Nat.find_spec hex).1, (Nat.find_spec hex).2, fun e hse hlt hdvd =>
    Nat.find_min hex hlt ⟨hse, hdvd⟩⟩

theorem le_of_dvd (h : FirstDivisor n s d) (hs : s ≤ e) (he : e ∣ n) : d ≤ e :=
  Nat.not_lt.1 fun hlt => h.first e hs hlt he

theorem le_self (h : FirstDivisor n s d) (hs : s ≤ n) : d ≤ n := h.le_of_dvd hs (Nat.dvd_refl n)

end FirstDivisor

section

variable {erase page n s d e b fuel steps : Nat}

theorem mul_dvd_erase (hpage : 0 < page) : d * page ∣ n * page ↔ d ∣ n :=
  Nat.mul_dvd_mul_iff_right hpage

theorem alignLogPages_reaches (hpage : 0 < page) (herase : n * page < 4294967296) (hs : 0 < s)
    (h : FirstDivisor n s d) (hd : d ≤ n) (hsteps : d - s < steps) :
    alignLogPages (n * page) page steps s = .ok d := by
  induction steps generalizing s with
  | zero => exact absurd hsteps (Nat.not_lt_zero _)
  | succ steps ih =>
    have hsn : s * page ≤ n * page := Nat.mul_le_mul_right page (Nat.le_trans h.le hd)
    have hpos : s * page ≠ 0 := Nat.mul_ne_zero (Nat.pos_iff_ne_zero.1 hs) (Nat.pos_iff_ne_zero.1 hpage)
    unfold alignLogPages
    rw [Word.u32_of_lt (Nat.lt_of_le_of_lt hsn herase)]
    simp only [rem, Checked.rem_of_ne hpos, Checked.ok_bind]
    by_cases hdvd : s ∣ n
    · have hzero : n * page % (s * page) = 0 := Nat.mod_eq_zero_of_dvd ((mul_dvd_erase hpage).2 hdvd)
      rw [if_neg (not_not.2 hzero)]
      exact congrArg _ (Nat.le_antisymm h.le (h.le_of_dvd (Nat.le_refl s) hdvd))
    · have hrest : n * page % (s * page) ≠ 0 := fun hzero =>
        hdvd ((mul_dvd_erase hpage).1 (Nat.dvd_of_mod_eq_zero hzero))
      have hlt : s < d := Nat.lt_of_le_of_ne h.le fun heq => hdvd (heq ▸ h.dvd)
      have hnp : n ≤ n * page := Nat.le_mul_of_pos_right n hpage
      rw [if_pos hrest, Word.u32_of_lt (by omega)]
      exact ih (Nat.succ_pos s) ⟨hlt, h.dvd, fun e hse => h.first e (Nat.le_of_succ_le hse)⟩ (by omega)

/-- A climb that ends has passed no divisor, and the product has not wrapped on the way. -/
theorem alignLogPages_ok {top : Nat} (htop : top * page = 4294967296) (htop' : top < 4294967296)
    (hs : 0 < s) (hle : s ≤ top) (h : alignLogPages erase page steps s = .ok d) :
    ∃ n, erase = n * page ∧ FirstDivisor n s d ∧ d < top := by
  induction steps generalizing s with
  | zero => cases h
  | succ steps ih =>
    have hpage : 0 < page := Nat.pos_of_mul_pos_left (htop ▸ (by decide : 0 < 4294967296))
    obtain ⟨hproduct, h⟩ := rem_bind_eq_ok.1 h
    have hlt : s < top := Nat.lt_of_le_of_ne hle fun heq => hproduct (by rw [heq, htop]; rfl)
    have hmul : s * page < 4294967296 := htop ▸ Nat.mul_lt_mul_of_pos_right hlt hpage
    rw [Word.u32_of_lt hmul] at h
    split at h
    case isTrue hrest =>
      rw [Word.u32_of_lt (by omega)] at h
      obtain ⟨n, rfl, hd, hdtop⟩ := ih (Nat.succ_pos s) hlt h
      refine ⟨n, rfl, ⟨Nat.le_of_succ_le hd.le, hd.dvd, fun e hse hed hdvd => ?_⟩, hdtop⟩
      rcases Nat.lt_or_eq_of_le hse with hgt | rfl
      · exact hd.first e hgt hed hdvd
      · exact hrest (Nat.mod_eq_zero_of_dvd ((mul_dvd_erase hpage).2 hdvd))
    case isFalse hrest =>
      cases h
      obtain ⟨k, rfl⟩ := Nat.dvd_of_mod_eq_zero (not_not.1 hrest)
      refine ⟨d * k, by rw [Nat.mul_right_comm], ⟨Nat.le_refl d, Nat.dvd_mul_right d k,
        fun e hse hlt => absurd hlt (Nat.not_lt.2 hse)⟩, hlt⟩

/-- Where the last climb starts: three behind a divisor of `n` that is next to `b`. -/
def restartFrom (n b s : Nat) : Nat :=
  match (List.range' s (b + 3 - s)).find? fun e => e ∣ n ∧ e ≠ n with
  | some e => e + 3
  | none => s

theorem restartFrom_jump (h : FirstDivisor n s d) (hd : d ≠ n) (hnear : d < b + 3) :
    restartFrom n b s = d + 3 := by
  have hfind : ((List.range' s (b + 3 - s)).find? fun e => e ∣ n ∧ e ≠ n) = some d := by
    rw [List.find?_range'_eq_some]
    refine ⟨decide_eq_true ⟨h.dvd, hd⟩, ?_, fun e hse hlt => ?_⟩
    · have := h.le
      rw [List.mem_range'_1]
      omega
    · rw [Bool.not_eq_true', decide_eq_false_iff_not]
      exact fun hdvd => h.first e hse hlt hdvd.1
  unfold restartFrom
  rw [hfind]

theorem restartFrom_stay (h : FirstDivisor n s d) (hd : d = n ∨ b + 3 ≤ d) (hn : 0 < n) :
    restartFrom n b s = s := by
  have hnone : ((List.range' s (b + 3 - s)).find? fun e => e ∣ n ∧ e ≠ n) = none := by
    rw [List.find?_range'_eq_none]
    intro e hse hlt
    rw [Bool.not_eq_true', decide_eq_false_iff_not]
    rintro ⟨hdvd, hne⟩
    have hde := h.le_of_dvd hse hdvd
    have hen := Nat.le_of_dvd hn hdvd
    omega
  unfold restartFrom
  rw [hnone]

theorem restartFrom_le_of_far (h : FirstDivisor n s d) (hd : d ≤ n) (hn : 0 < n) (hfar : d = n ∨ b + 3 ≤ d) :
    FirstDivisor n (restartFrom n b s) d ∧ restartFrom n b s ≤ n := by
  rw [restartFrom_stay h hfar hn]
  exact ⟨h, Nat.le_trans h.le hd⟩

theorem tryAlignLogPages_eq (hclimb : alignLogPages erase page steps s = .ok d) (hd : d ≤ erase / page)
    (hb : b ≤ d) (hlt : d < 1048577) : tryAlignLogPages erase page steps b (fuel + 1) s =
      if d = erase / page ∨ b + 3 ≤ d then .ok d
      else tryAlignLogPages erase page steps b fuel (d + 3) := by
  change (alignLogPages erase page steps s >>= _) = _
  rw [hclimb, Checked.ok_bind, bugOn_of_not (Nat.not_lt.2 hd), Checked.ok_bind,
    Word.sub32_of_le hb (by omega), Word.u32_of_lt (by omega)]
  by_cases hend : d = erase / page
  · rw [if_pos hend, if_pos (.inl hend)]
  · rw [if_neg hend]
    by_cases hnear : d - b < 3
    · rw [if_pos hnear, if_neg (by omega)]
    · rw [if_neg hnear, if_pos (.inr (by omega))]

theorem tryAlignLogPages_climb {top : Nat} (htop : top * page = 4294967296) (htop' : top ≤ 1048576)
    (hs : 0 < s) (hle : s ≤ top) (hb : b ≤ s)
    (h : tryAlignLogPages erase page steps b (fuel + 1) s = .ok e) :
    page ∣ erase ∧ ∃ d ≤ erase / page, FirstDivisor (erase / page) s d ∧
      (if d = erase / page ∨ b + 3 ≤ d then .ok d
        else tryAlignLogPages erase page steps b fuel (d + 3)) = .ok e := by
  have hpage : 0 < page := Nat.pos_of_mul_pos_left (htop ▸ (by decide : 0 < 4294967296))
  obtain ⟨d, hclimb, hrest⟩ := Checked.bind_eq_ok.1 h
  obtain ⟨hd, -⟩ := bugOn_bind_eq_ok.1 hrest
  obtain ⟨n, rfl, hfirst, hlt⟩ := alignLogPages_ok htop (by omega) hs hle hclimb
  rw [Nat.mul_div_cancel n hpage] at hd ⊢
  have hround := @tryAlignLogPages_eq (n * page) page s d b fuel steps hclimb
    (by rw [Nat.mul_div_cancel n hpage]; exact Nat.not_lt.1 hd) (Nat.le_trans hb hfirst.le) (by omega)
  rw [hround, Nat.mul_div_cancel n hpage] at h
  exact ⟨Nat.dvd_mul_left page n, d, Nat.not_lt.1 hd, hfirst, h⟩

theorem tryAlignLogPages_ok {top : Nat} (htop : top * page = 4294967296) (htop' : top ≤ 1048576)
    (hs : 0 < s) (hle : s + 6 ≤ top) (hb : b ≤ s)
    (h : tryAlignLogPages erase page steps b fuel s = .ok e) :
    page ∣ erase ∧ s ≤ erase / page ∧ restartFrom (erase / page) b s ≤ erase / page ∧
      FirstDivisor (erase / page) (restartFrom (erase / page) b s) e := by
  cases fuel with
  | zero => cases h
  | succ fuel =>
    obtain ⟨hdvd, d, hd, hfirst, h⟩ := tryAlignLogPages_climb htop htop' hs (by omega) hb h
    have hsn := Nat.le_trans hfirst.le hd
    have hn : 0 < erase / page := Nat.lt_of_lt_of_le hs hsn
    refine ⟨hdvd, hsn, ?_⟩
    by_cases hfar : d = erase / page ∨ b + 3 ≤ d
    · rw [if_pos hfar] at h
      cases h
      exact (restartFrom_le_of_far hfirst hd hn hfar).symm
    · rw [if_neg hfar] at h
      rw [restartFrom_jump hfirst (by omega) (by omega)]
      cases fuel with
      | zero => cases h
      | succ fuel =>
        -- The second climb starts three behind `b`, so there is no third one.
        obtain ⟨-, d', hd', hfirst', h⟩ := tryAlignLogPages_climb htop htop' (Nat.succ_pos _)
          (by omega) (by have := hfirst.le; omega) h
        have hfar' : b + 3 ≤ d' := by
          have := hfirst.le
          have := hfirst'.le
          omega
        rw [if_pos (.inr hfar')] at h
        cases h
        exact ⟨Nat.le_trans hfirst'.le hd', hfirst'⟩

theorem tryAlignLogPages_reaches (hpage : 0 < page) (herase : n * page < 4294967296)
    (hn : n < 1048577) (hs : 0 < s) (hsn : s ≤ n) (hb : b ≤ s) (hrestart : restartFrom n b s ≤ n)
    (h : FirstDivisor n (restartFrom n b s) e) :
    tryAlignLogPages (n * page) page (n + 2) b (n + 2) s = .ok e := by
  obtain ⟨d, hfirst⟩ := FirstDivisor.exists_of_le hsn
  have hd := hfirst.le_self hsn
  have hdiv : n * page / page = n := Nat.mul_div_cancel n hpage
  have hclimb := @alignLogPages_reaches page n s d (n + 2) hpage herase hs hfirst hd (by omega)
  have hround := @tryAlignLogPages_eq (n * page) page s d b (n + 1) (n + 2) hclimb
    (by rw [hdiv]; exact hd) (Nat.le_trans hb hfirst.le) (by omega)
  rw [hround, hdiv]
  by_cases hfar : d = n ∨ b + 3 ≤ d
  · rw [restartFrom_stay hfirst hfar (by omega)] at h
    rw [if_pos hfar, hfirst.unique h]
  · rw [restartFrom_jump hfirst (by omega) (by omega)] at h hrestart
    have he := h.le_self hrestart
    have hbd := Nat.le_trans hb hfirst.le
    have hfar' : e = n ∨ b + 3 ≤ e := .inr (Nat.le_trans (Nat.add_le_add_right hbd 3) h.le)
    have hclimb' := @alignLogPages_reaches page n (d + 3) e (n + 2) hpage herase (Nat.succ_pos _) h he
      (by omega)
    have hround' := @tryAlignLogPages_eq (n * page) page (d + 3) e b n (n + 2) hclimb'
      (by rw [hdiv]; exact he) (by omega) (by omega)
    rw [if_neg hfar, hround', hdiv, if_pos hfar']

/-- The pages that are stored for the divisor `d`. -/
def storedLogPages (n d : Nat) : Nat := min (max d (n / logsPerPebDefault)) logMaxPages

structure LogPagesDivide (n s : Nat) : Prop where
  divides : logMaxPages ∣ n ∨ n / logsPerPebDefault ≤ logMaxPages ∧
    (∃ e, e ∣ n ∧ s ≤ e ∧ e ≤ logMaxPages) ∧
      (n / logsPerPebDefault ∣ n ∨ ∀ e, e ∣ n → s ≤ e → n / logsPerPebDefault ≤ e)

theorem eighth_dvd (h : logMaxPages ∣ n) : n / logsPerPebDefault ∣ n := by
  obtain ⟨k, rfl⟩ := h
  have hdiv : logMaxPages * k / logsPerPebDefault = 32 * k := by
    unfold logMaxPages logsPerPebDefault
    omega
  rw [hdiv]
  exact Nat.mul_dvd_mul_right (by decide) k

theorem storedLogPages_dvd (h : FirstDivisor n s d) : storedLogPages n d ∣ n ↔ LogPagesDivide n s := by
  have hstored : storedLogPages n d = if d ≤ logMaxPages ∧ n / logsPerPebDefault ≤ logMaxPages then
      max d (n / logsPerPebDefault) else logMaxPages := by
    unfold storedLogPages
    split <;> omega
  have hd : d ≤ logMaxPages ↔ ∃ e, e ∣ n ∧ s ≤ e ∧ e ≤ logMaxPages :=
    ⟨fun hle => ⟨d, h.dvd, h.le, hle⟩, fun ⟨e, he, hse, hle⟩ => Nat.le_trans (h.le_of_dvd hse he) hle⟩
  have hq : n / logsPerPebDefault ≤ d ↔ ∀ e, e ∣ n → s ≤ e → n / logsPerPebDefault ≤ e :=
    ⟨fun hle e he hse => Nat.le_trans hle (h.le_of_dvd hse he), fun hall => hall d h.dvd h.le⟩
  rw [hstored]
  refine Iff.trans ?_ ⟨LogPagesDivide.mk, LogPagesDivide.divides⟩
  rw [← hd, ← hq]
  by_cases hfew : d ≤ logMaxPages ∧ n / logsPerPebDefault ≤ logMaxPages
  · rw [if_pos hfew]
    by_cases hle : n / logsPerPebDefault ≤ d
    · rw [Nat.max_eq_left hle]
      exact iff_of_true h.dvd (.inr ⟨hfew.2, hfew.1, .inr hle⟩)
    · rw [Nat.max_eq_right (Nat.le_of_not_le hle)]
      exact ⟨fun hdvd => .inr ⟨hfew.2, hfew.1, .inl hdvd⟩,
        fun hcase => hcase.elim eighth_dvd fun hrest => hrest.2.2.resolve_right hle⟩
  · rw [if_neg hfew]
    exact ⟨.inl, fun hcase => hcase.resolve_right fun hrest => hfew ⟨hrest.2.1, hrest.1⟩⟩

theorem LogPagesDivide.of_pow {k : Nat} (hs : s ≤ 2 ^ k) : LogPagesDivide (2 ^ k) s := by
  constructor
  by_cases hk : 8 ≤ k
  · exact .inl (Nat.pow_dvd_pow 2 hk)
  · refine .inr ?_
    have hle : 2 ^ k ≤ 2 ^ 7 := Nat.pow_le_pow_right (by decide) (by omega)
    refine ⟨Nat.le_trans (Nat.div_le_self _ _) (Nat.le_trans hle (by decide)),
      ⟨2 ^ k, Nat.dvd_refl _, hs, Nat.le_trans hle (by decide)⟩, ?_⟩
    by_cases hk3 : 3 ≤ k
    · left
      have hdiv : 2 ^ k / logsPerPebDefault = 2 ^ (k - 3) := Nat.pow_div hk3 (by decide)
      rw [hdiv]
      exact Nat.pow_dvd_pow 2 (Nat.sub_le k 3)
    · right
      have hlt : 2 ^ k < 2 ^ 3 := Nat.pow_lt_pow_right (by decide) (by omega)
      have hzero : 2 ^ k / logsPerPebDefault = 0 := Nat.div_eq_of_lt hlt
      rw [hzero]
      exact fun e _ _ => Nat.zero_le e

def startLogPages (requested blks : Nat) : Nat := if requested = Word.u16Max then blks else max requested blks

theorem initialLogPages_eq {requested : Nat} (hb : 0 < b) :
    initialLogPages requested b = .ok (startLogPages requested b) := by
  unfold initialLogPages startLogPages
  by_cases hnone : requested = Word.u16Max
  · rw [if_pos hnone, if_pos hnone]
  · rw [if_neg hnone, if_neg hnone]
    by_cases hless : requested < b
    · rw [if_pos hless, Nat.max_eq_right (Nat.le_of_lt hless)]
    · rw [if_neg hless, Nat.max_eq_left (Nat.not_lt.1 hless)]
      simp only [rem, Checked.rem_of_ne (Nat.pos_iff_ne_zero.1 hb), Checked.ok_bind]

theorem le_startLogPages {requested : Nat} : b ≤ startLogPages requested b := by
  unfold startLogPages
  split
  · exact Nat.le_refl b
  · exact Nat.le_max_right _ _

theorem startLogPages_lt {requested : Nat} (h : requested < 65536) (hb : b ≤ logMaxPages) :
    startLogPages requested b < 65536 := by
  unfold logMaxPages at hb
  unfold startLogPages
  split <;> omega

end

namespace VolumeLayout

variable (layout : VolumeLayout)

/-- The start and the jump of the climb stay within the erase block, whose pages an eighth of them
or the greatest log divides where it is taken instead of the divisor that the climb finds. -/
structure LogPagesAlign (requested blks : Nat) : Prop where
  page_dvd : layout.pageSize.bytes ∣ layout.env.eraseSize.toNat
  start_le : startLogPages requested (min blks logMaxPages) ≤ layout.pagesPerPeb
  restart_le : restartFrom layout.pagesPerPeb (min blks logMaxPages)
    (startLogPages requested (min blks logMaxPages)) ≤ layout.pagesPerPeb
  divide : LogPagesDivide layout.pagesPerPeb (restartFrom layout.pagesPerPeb (min blks logMaxPages)
    (startLogPages requested (min blks logMaxPages)))

end VolumeLayout

section

variable {layout : VolumeLayout} {requested blks fuel n : Nat}

theorem PageSize.exists_top (p : PageSize) : ∃ top, top * p.bytes = 4294967296 ∧ 131072 ≤ top ∧ top ≤ 1048576 := by
  cases p
  · exact ⟨1048576, rfl, by decide, by decide⟩
  · exact ⟨524288, rfl, by decide, by decide⟩
  · exact ⟨262144, rfl, by decide, by decide⟩
  · exact ⟨131072, rfl, by decide, by decide⟩

theorem le_restartFrom {b s : Nat} (hb : b ≤ s) : b ≤ restartFrom n b s := by
  unfold restartFrom
  cases hfind : (List.range' s (b + 3 - s)).find? fun e => e ∣ n ∧ e ≠ n with
  | none => exact hb
  | some e =>
    rw [List.find?_range'_eq_some, List.mem_range'_1] at hfind
    exact Nat.le_add_right_of_le (Nat.le_trans hb hfind.2.1.1)

theorem setLogPages_eq (h0 : blks ≠ 0) (hlt : blks < Word.u16Max)
    (hfit : blks / 2 ≤ layout.pagesPerPeb) : setLogPages fuel layout requested blks = (do
      let d ← tryAlignLogPages layout.env.eraseSize.toNat layout.pageSize.bytes fuel
        (min blks logMaxPages) fuel (startLogPages requested (min blks logMaxPages))
      let _ ← rem layout.pagesPerPeb d
      .ok (storedLogPages layout.pagesPerPeb d,
        UInt16.ofNat (storedLogPages layout.pagesPerPeb d))) := by
  have hpage : layout.pageSize.bytes ≠ 0 := by
    have := layout.pageSize.bytes_ge
    omega
  have hb : 0 < min blks logMaxPages := Nat.lt_min.2 ⟨Nat.pos_iff_ne_zero.2 h0, by decide⟩
  unfold setLogPages
  rw [bugOn_of_not h0, Checked.ok_bind, bugOn_of_not (Nat.not_le.2 hlt), Checked.ok_bind]
  simp only [quot, Checked.quot_of_ne hpage, Checked.ok_bind]
  change bugOn (blks / 2 > layout.pagesPerPeb) >>= _ = _
  rw [bugOn_of_not (Nat.not_lt.2 hfit), Checked.ok_bind]
  simp only [rem, Checked.rem_of_ne h0, Checked.ok_bind, initialLogPages_eq hb]
  refine congrArg (tryAlignLogPages _ _ _ _ _ _ >>= ·) (funext fun d => ?_)
  refine congrArg (Checked.rem Errno _ d >>= ·) (funext fun _ => ?_)
  have hstored : ¬storedLogPages layout.pagesPerPeb d ≥ Word.u16Max :=
    Nat.not_le.2 (Nat.lt_of_le_of_lt (Nat.min_le_right _ _) (by decide))
  exact (congrArg (· >>= _) (bugOn_of_not hstored)).trans rfl

theorem setLogPages_iff (hrequested : requested < 65536) (h0 : blks ≠ 0) (hlt : blks < Word.u16Max)
    (hfit : blks / 2 ≤ layout.pagesPerPeb) :
    SetsLogPages setLogPages layout requested blks ↔ layout.LogPagesAlign requested blks := by
  have hb : 0 < min blks logMaxPages := Nat.lt_min.2 ⟨Nat.pos_iff_ne_zero.2 h0, by decide⟩
  have hbs : min blks logMaxPages ≤ startLogPages requested (min blks logMaxPages) := le_startLogPages
  have hs := startLogPages_lt hrequested (Nat.min_le_right blks logMaxPages)
  obtain ⟨top, htop, hgreat, htop'⟩ := layout.pageSize.exists_top
  constructor
  · rintro ⟨fuel, logPages, h, -, -, hdvd⟩
    rw [setLogPages_eq h0 hlt hfit] at h
    obtain ⟨d, hrun, h⟩ := Checked.bind_eq_ok.1 h
    obtain ⟨-, h⟩ := rem_bind_eq_ok.1 h
    obtain ⟨hpage, hstart, hrestart, hfirst⟩ :=
      tryAlignLogPages_ok htop htop' (Nat.lt_of_lt_of_le hb hbs) (by omega) hbs hrun
    have hstored : storedLogPages layout.pagesPerPeb d = logPages :=
      congrArg Prod.fst (Except.ok.inj h)
    exact ⟨hpage, hstart, hrestart, (storedLogPages_dvd hfirst).1 (hstored ▸ hdvd)⟩
  · rintro ⟨⟨n, hn⟩, hstart, hrestart, hdivide⟩
    have hpage : 0 < layout.pageSize.bytes := Nat.lt_of_lt_of_le (by decide) layout.pageSize.bytes_ge
    have herase : layout.env.eraseSize.toNat = n * layout.pageSize.bytes := by rw [hn, Nat.mul_comm]
    have hpages : layout.pagesPerPeb = n := by
      unfold VolumeLayout.pagesPerPeb
      rw [herase, Nat.mul_div_cancel n hpage]
    have hsmall : n * layout.pageSize.bytes < 4294967296 := herase ▸ layout.env.eraseSize.toNat_lt
    have hntop : n < top := Nat.lt_of_mul_lt_mul_right (htop ▸ hsmall)
    rw [hpages] at hstart hrestart hdivide
    obtain ⟨d, hfirst⟩ := FirstDivisor.exists_of_le hrestart
    have hrun := tryAlignLogPages_reaches hpage hsmall (by omega) (Nat.lt_of_lt_of_le hb hbs) hstart hbs
      hrestart hfirst
    have hdn := hfirst.le_self hrestart
    have hbd : min blks logMaxPages ≤ d := Nat.le_trans (le_restartFrom hbs) hfirst.le
    refine ⟨n + 2, storedLogPages n d, ?_, Nat.le_min.2 ⟨Nat.le_trans hbd (Nat.le_max_left _ _),
      Nat.min_le_right _ _⟩, ?_, ?_⟩
    · rw [setLogPages_eq h0 hlt hfit, herase, hrun, Checked.ok_bind, hpages]
      simp only [rem, Checked.rem_of_ne (show d ≠ 0 by omega), Checked.ok_bind]
    · change _ ≤ layout.pagesPerPeb
      rw [hpages]
      exact Nat.le_trans (Nat.min_le_left _ _) (Nat.max_le.2 ⟨hdn, Nat.div_le_self _ _⟩)
    · change _ ∣ layout.pagesPerPeb
      rw [hpages]
      exact (storedLogPages_dvd hfirst).2 hdivide

theorem setLogPages_page_dvd {r : Nat × UInt16} (hrequested : requested < 65536)
    (h : setLogPages fuel layout requested blks = .ok r) :
    layout.pageSize.bytes ∣ layout.env.eraseSize.toNat := by
  have hrun := h
  obtain ⟨h0, h⟩ := bugOn_bind_eq_ok.1 h
  obtain ⟨hlt, h⟩ := bugOn_bind_eq_ok.1 h
  obtain ⟨-, h⟩ := quot_bind_eq_ok.1 h
  obtain ⟨hfit, -⟩ := bugOn_bind_eq_ok.1 h
  rw [setLogPages_eq h0 (Nat.not_le.1 hlt) (Nat.not_lt.1 hfit)] at hrun
  obtain ⟨d, hclimb, -⟩ := Checked.bind_eq_ok.1 hrun
  obtain ⟨top, htop, hgreat, htop'⟩ := layout.pageSize.exists_top
  have hb : 0 < min blks logMaxPages := Nat.lt_min.2 ⟨Nat.pos_iff_ne_zero.2 h0, by decide⟩
  have hbs : min blks logMaxPages ≤ startLogPages requested (min blks logMaxPages) := le_startLogPages
  have hs := startLogPages_lt hrequested (Nat.min_le_right blks logMaxPages)
  exact (tryAlignLogPages_ok htop htop' (Nat.lt_of_lt_of_le hb hbs) (by omega) hbs hclimb).1

theorem VolumeLayout.LogPagesSet.page_dvd (h : layout.LogPagesSet) :
    layout.pageSize.bytes ∣ layout.env.eraseSize.toNat := by
  obtain ⟨_, requested, _, _, h⟩ := h
  exact setLogPages_page_dvd requested.toNat_lt h

theorem parseLogPages_lt {option : Option Int} (h : parseLogPages option = .ok requested) :
    requested < 65536 := by
  cases option with
  | none =>
    cases h
    decide
  | some value =>
    obtain ⟨-, h⟩ := failIf_bind_eq_ok.1 h
    cases h
    omega

/-- Both tables align the pages of their logs under the same condition. -/
theorem setLogPages_aligned_iff {option : Option Int} (hoption : parseLogPages option = .ok requested)
    (h0 : blks ≠ 0) (hlt : blks < Word.u16Max) (hfit : blks / 2 ≤ layout.pagesPerPeb) :
    (SetsLogPages segbmapSetLogPages layout requested blks ↔ layout.LogPagesAlign requested blks) ∧
      (SetsLogPages maptblSetLogPages layout requested blks ↔ layout.LogPagesAlign requested blks) :=
  ⟨setLogPages_iff (parseLogPages_lt hoption) h0 hlt hfit,
    setLogPages_iff (parseLogPages_lt hoption) h0 hlt hfit⟩

end

/-- A volume of 1 GiB whose erase blocks of 128 KiB hold 32 pages. -/
def pages32 : VolumeLayout where
  needEraseDevice := false
  segSize := 131072
  pageSize := .kib4
  nandDiesCount := 1
  lebsPerPebIndex := 1
  segbmap := ⟨false, 1⟩
  maptbl := ⟨false, 1, 1, 10, 0, 0, 0, 0, 0, 0, 0, 0, 0⟩
  env := ⟨0x40000000, 131072, .blk⟩

theorem pages32_aligns : pages32.LogPagesAlign 20 5 where
  page_dvd := by decide
  start_le := by decide
  restart_le := by decide
  divide := @LogPagesDivide.of_pow 20 5 (by decide)

theorem setLogPages_aligned_20 : SetsLogPages segbmapSetLogPages pages32 20 5 ∧
    SetsLogPages maptblSetLogPages pages32 20 5 := by
  have h := @setLogPages_aligned_iff pages32 20 5 (some 20) rfl (by decide) (by decide) (by decide)
  exact ⟨h.1.2 pages32_aligns, h.2.2 pages32_aligns⟩

/-- The pages asked for exceed those of an erase block. -/
theorem setLogPages_strays_64 : validateKeyCreationOptions pages32 = .ok () ∧
    parseLogPages (some 64) = .ok 64 ∧ ¬SetsLogPages segbmapSetLogPages pages32 64 5 ∧
      ¬SetsLogPages maptblSetLogPages pages32 64 5 := by
  have hstray : ¬SetsLogPages setLogPages pages32 64 5 := fun h =>
    absurd ((setLogPages_iff (by decide) (by decide) (by decide) (by decide)).1 h).start_le (by decide)
  exact ⟨rfl, rfl, hstray, hstray⟩

end Ssdfs
