import Ssdfs.Maptbl.Coverage
import Ssdfs.Maptbl.PreEraseRun

namespace Ssdfs

section

variable (layout : VolumeLayout)

/-- The last stripe of the volume is not short of its stride. -/
def WholeStripes : Prop :=
  layout.pebsPerVolume % layout.maptbl.stripesPerPortion = 0 ∨
    layout.maptbl.stripesPerPortion ≤ 2 * (layout.pebsPerVolume % layout.maptbl.stripesPerPortion)

def portionLimit (portion : Nat) : Nat :=
  min (layout.maptbl.pebsPerPortion * (portion + 1)) layout.pebsPerVolume

/-- The LEB with which a walk comes to a page. The last page of a portion may reach into the next
portion, whose first page is then entered behind its start. -/
def pageEntry (portion page : Nat) : Nat :=
  if page = 0 ∧ 1016 < layout.maptbl.pebsPerPortion then
    layout.maptbl.pebsPerPortion * portion +
      (1016 * layout.lebtblPages - layout.maptbl.pebsPerPortion)
  else layout.pageStart portion page

/-- The stripe of a page's entry is where a walk stands that comes from the page before: the first
stripe of a new portion, and for a further page of a portion the stripe where the volume ends. -/
def EntersPage (portion page : Nat) : Prop :=
  if page = 0 then stripeOf layout (pageEntry layout portion page) = 0
  else layout.stripeStart portion (stripeOf layout (pageEntry layout portion page)) =
    layout.pebsPerVolume

instance (portion page : Nat) : Decidable (EntersPage layout portion page) :=
  inferInstanceAs (Decidable (if page = 0 then stripeOf layout (pageEntry layout portion page) = 0
    else layout.stripeStart portion (stripeOf layout (pageEntry layout portion page)) =
      layout.pebsPerVolume))

def PagesInStep (leb : Nat) : Prop :=
  ∀ q p, p < layout.lebtblPages → leb < layout.pageStart q p →
    pageEntry layout q p < layout.pebsPerVolume → EntersPage layout q p

/-- Where a walk from a LEB on ends if it gets to the end of the volume's LEBs. -/
def walkEnd (leb : Nat) : Nat :=
  if leb < layout.pebsPerVolume ∧ layout.pebsPerVolume ≤ nextPage layout leb then
    portionLimit layout (leb / layout.maptbl.pebsPerPortion)
  else layout.pebsPerVolume

/-- From a LEB and a PEB on the walk enters every page and every stripe. -/
structure WalksToEnd (leb peb : Nat) : Prop where
  enters : Enters layout (leb / layout.maptbl.pebsPerPortion) (stripeOf layout leb) peb
  pages : PagesInStep layout leb
  lastStripe : layout.stripeStart ((walkEnd layout leb - 1) / layout.maptbl.pebsPerPortion)
    (layout.maptbl.stripesPerPortion - 1) ≤ layout.pebsPerVolume

end

section Stripes

variable {layout : VolumeLayout} {q i peb : Nat}

theorem stripeCount_eq_min (hacc : layout.Accepted) (hround : WholeStripes layout)
    (hbase : layout.maptbl.pebsPerPortion * q < layout.pebsPerVolume) (i : Nat) :
    layout.stripeCount q i =
      min (layout.stripeWidth q) (layout.pebsPerVolume - layout.stripeStart q i) :=
  Geometry.stripeCount_eq hacc.stripes_pos hacc.stripes_dvd hround hbase i

theorem stripes_end_eq (hacc : layout.Accepted)
    (hbase : layout.maptbl.pebsPerPortion * q < layout.pebsPerVolume) :
    min (layout.stripeStart q layout.maptbl.stripesPerPortion) layout.pebsPerVolume =
      portionLimit layout q :=
  Geometry.stripes_end hacc.stripes_pos hacc.stripes_dvd hbase

theorem stripe_end_eq (hacc : layout.Accepted) (hround : WholeStripes layout)
    (hbase : layout.maptbl.pebsPerPortion * q < layout.pebsPerVolume)
    (hstart : layout.stripeStart q i ≤ layout.pebsPerVolume) :
    layout.stripeStart q i + layout.stripeCount q i =
      min (layout.stripeStart q (i + 1)) layout.pebsPerVolume := by
  have hcount := stripeCount_eq_min hacc hround hbase i
  have hsucc : layout.stripeStart q (i + 1) = layout.stripeStart q i + layout.stripeWidth q :=
    Geometry.stripeStart_succ q i
  omega

theorem chainEnd_iff (hacc : layout.Accepted) (hround : WholeStripes layout)
    (hbase : layout.maptbl.pebsPerPortion * q < layout.pebsPerVolume) {rest e : Nat}
    (hrest : i + (rest + 1) = layout.maptbl.stripesPerPortion) (hpeb : peb ≤ layout.pebsPerVolume) :
    chainEnd layout q peb (List.range' i (rest + 1)) = some e ↔ Enters layout q i peb ∧
      layout.stripeStart q (layout.maptbl.stripesPerPortion - 1) ≤ layout.pebsPerVolume ∧
        e = portionLimit layout q := by
  induction rest generalizing i peb with
  | zero =>
    have hend := stripes_end_eq hacc hbase
    rw [← hrest] at hend ⊢
    rw [Nat.add_sub_cancel]
    change (if Enters layout q i peb then some _ else none) = some e ↔ _
    constructor
    · intro h
      split at h
      case isFalse => cases h
      case isTrue henter =>
        have hstart := Nat.le_trans henter.1 hpeb
        cases h
        exact ⟨henter, hstart, (stripe_end_eq hacc hround hbase hstart).trans hend⟩
    · rintro ⟨henter, hstart, rfl⟩
      rw [if_pos henter, stripe_end_eq hacc hround hbase hstart, hend]
  | succ rest ih =>
    rw [List.range'_succ]
    change (if Enters layout q i peb then chainEnd layout q _ (List.range' (i + 1) (rest + 1))
      else none) = some e ↔ _
    have hmono : layout.stripeStart q (i + 1) ≤
        layout.stripeStart q (layout.maptbl.stripesPerPortion - 1) :=
      Geometry.stripeStart_mono (by omega)
    constructor
    · intro h
      split at h
      case isFalse => cases h
      case isTrue henter =>
        have hnext := stripe_end_eq hacc hround hbase (Nat.le_trans henter.1 hpeb)
        exact ⟨henter, ((ih (by omega) (hnext ▸ Nat.min_le_right _ _)).1 h).2⟩
    · rintro ⟨henter, hlast, rfl⟩
      have hnext := stripe_end_eq hacc hround hbase (Nat.le_trans henter.1 hpeb)
      rw [Nat.min_eq_left (Nat.le_trans hmono hlast)] at hnext
      rw [if_pos henter, hnext]
      refine (ih (by omega) (Nat.le_trans hmono hlast)).2 ⟨⟨Nat.le_refl _, ?_⟩, hlast, rfl⟩
      omega

theorem portionLimit_le : portionLimit layout q ≤ layout.pebsPerVolume := Nat.min_le_right _ _

theorem stripe_end_le_portionLimit (hacc : layout.Accepted) (hround : WholeStripes layout)
    (hbase : layout.maptbl.pebsPerPortion * q < layout.pebsPerVolume)
    (hi : i < layout.maptbl.stripesPerPortion)
    (hstart : layout.stripeStart q i ≤ layout.pebsPerVolume) :
    layout.stripeStart q i + layout.stripeCount q i ≤ portionLimit layout q := by
  have hend := stripes_end_eq hacc hbase
  have hmono : layout.stripeStart q (i + 1) ≤ layout.stripeStart q layout.maptbl.stripesPerPortion :=
    Geometry.stripeStart_mono hi
  rw [stripe_end_eq hacc hround hbase hstart, ← hend]
  omega

theorem enters_portionLimit_iff (hacc : layout.Accepted) (hround : WholeStripes layout)
    (hbase : layout.maptbl.pebsPerPortion * q < layout.pebsPerVolume)
    (hi : i < layout.maptbl.stripesPerPortion) :
    Enters layout q i (portionLimit layout q) ↔
      layout.stripeStart q i = layout.pebsPerVolume := by
  have hle : portionLimit layout q ≤ layout.pebsPerVolume := portionLimit_le
  constructor
  · rintro ⟨hstart, hend⟩
    have hwithin := stripe_end_le_portionLimit hacc hround hbase hi (Nat.le_trans hstart hle)
    have hzero := hend.resolve_right (by omega)
    have hsucc : layout.stripeStart q (i + 1) = layout.stripeStart q i + layout.stripeWidth q :=
      Geometry.stripeStart_succ q i
    have hnext := stripe_end_eq hacc hround hbase (Nat.le_trans hstart hle)
    have hw := hacc.stripeWidth_pos hbase
    omega
  · intro hstart
    have hwithin := stripe_end_le_portionLimit hacc hround hbase hi (Nat.le_of_eq hstart)
    exact ⟨by omega, .inl (by omega)⟩

theorem portionLimit_eq_volume (hacc : layout.Accepted) (hround : WholeStripes layout)
    (hbase : layout.maptbl.pebsPerPortion * q < layout.pebsPerVolume)
    (hi : i < layout.maptbl.stripesPerPortion)
    (hstart : layout.stripeStart q i = layout.pebsPerVolume) :
    portionLimit layout q = layout.pebsPerVolume :=
  Nat.le_antisymm portionLimit_le
    (by have := stripe_end_le_portionLimit hacc hround hbase hi (Nat.le_of_eq hstart); omega)

theorem enters_portionStart_iff (hacc : layout.Accepted) (hround : WholeStripes layout)
    (hbase : layout.maptbl.pebsPerPortion * q < layout.pebsPerVolume) :
    Enters layout q i (layout.maptbl.pebsPerPortion * q) ↔ i = 0 := by
  have hw := hacc.stripeWidth_pos hbase
  have hstart : layout.stripeStart q i =
      layout.maptbl.pebsPerPortion * q + layout.stripeWidth q * i := rfl
  constructor
  · rintro ⟨hle, -⟩
    have hmul : layout.stripeWidth q * i = 0 := by omega
    exact (Nat.mul_eq_zero.1 hmul).resolve_left (by omega)
  · rintro rfl
    rw [Nat.mul_zero, Nat.add_zero] at hstart
    have hcount := stripeCount_eq_min hacc hround hbase 0
    exact ⟨Nat.le_of_eq hstart, .inr (by omega)⟩

end Stripes

section Pages

variable {layout : VolumeLayout} {q p x : Nat}

def pageBehind (layout : VolumeLayout) (leb : Nat) : Nat × Nat :=
  if leb % layout.maptbl.pebsPerPortion / 1016 + 1 < layout.lebtblPages then
    (leb / layout.maptbl.pebsPerPortion, leb % layout.maptbl.pebsPerPortion / 1016 + 1)
  else (leb / layout.maptbl.pebsPerPortion + 1, 0)

theorem pageBehind_cases (layout : VolumeLayout) (x : Nat) :
    (x % layout.maptbl.pebsPerPortion / 1016 + 1 < layout.lebtblPages ∧ pageBehind layout x =
        (x / layout.maptbl.pebsPerPortion, x % layout.maptbl.pebsPerPortion / 1016 + 1)) ∨
      (layout.lebtblPages ≤ x % layout.maptbl.pebsPerPortion / 1016 + 1 ∧
        pageBehind layout x = (x / layout.maptbl.pebsPerPortion + 1, 0)) := by
  unfold pageBehind
  split
  case isTrue h => exact .inl ⟨h, rfl⟩
  case isFalse h => exact .inr ⟨Nat.not_lt.1 h, rfl⟩

theorem pageEntry_eq_of_pos (hp : p ≠ 0) : pageEntry layout q p = layout.pageStart q p :=
  if_neg fun h => hp h.1

theorem pageEntry_offset (hacc : layout.Accepted) (hp : p < layout.lebtblPages) :
    ∃ r, pageEntry layout q p = layout.maptbl.pebsPerPortion * q + r ∧
      r < layout.maptbl.pebsPerPortion ∧ r / 1016 = p ∧ 1016 * p ≤ r := by
  have hP := hacc.pebs_pos
  change p < (layout.maptbl.pebsPerPortion + 1015) / 1016 at hp
  unfold pageEntry
  split
  case isTrue h =>
    have hpages : layout.lebtblPages = (layout.maptbl.pebsPerPortion + 1015) / 1016 := rfl
    exact ⟨_, rfl, by omega, by omega, by omega⟩
  case isFalse h => exact ⟨1016 * p, rfl, by omega, by omega, Nat.le_refl _⟩

theorem pageEntry_div (hacc : layout.Accepted) (hp : p < layout.lebtblPages) :
    pageEntry layout q p / layout.maptbl.pebsPerPortion = q ∧
      pageEntry layout q p % layout.maptbl.pebsPerPortion / 1016 = p := by
  obtain ⟨r, heq, hr, hpage, -⟩ := pageEntry_offset (q := q) hacc hp
  rw [heq, Nat.mul_add_div hacc.pebs_pos, Nat.div_eq_of_lt hr, Nat.mul_add_mod, Nat.mod_eq_of_lt hr]
  exact ⟨Nat.add_zero q, hpage⟩

theorem pageStart_le_entry (hacc : layout.Accepted) (hp : p < layout.lebtblPages) :
    layout.pageStart q p ≤ pageEntry layout q p := by
  obtain ⟨r, heq, -, -, hle⟩ := pageEntry_offset (q := q) hacc hp
  have hstart : layout.pageStart q p = layout.maptbl.pebsPerPortion * q + 1016 * p := rfl
  omega

theorem pageBehind_lt (hacc : layout.Accepted) : (pageBehind layout x).2 < layout.lebtblPages := by
  have hP := hacc.pebs_pos
  unfold pageBehind
  split
  case isTrue h => exact h
  case isFalse =>
    change 0 < (layout.maptbl.pebsPerPortion + 1015) / 1016
    omega

theorem lt_pageBehind (hacc : layout.Accepted) :
    x < layout.pageStart (pageBehind layout x).1 (pageBehind layout x).2 := by
  have hdm := Nat.div_add_mod x layout.maptbl.pebsPerPortion
  have hmod := Nat.mod_lt x hacc.pebs_pos
  unfold VolumeLayout.pageStart Geometry.pageStart pageBehind
  split
  all_goals simp only [Nat.mul_succ]; omega

theorem nextPage_eq (hacc : layout.Accepted) (hx : x < layout.pebsPerVolume) :
    nextPage layout x = min (pageEntry layout (pageBehind layout x).1 (pageBehind layout x).2)
      layout.pebsPerVolume := by
  have hdm := Nat.div_add_mod x layout.maptbl.pebsPerPortion
  have hmod := Nat.mod_lt x hacc.pebs_pos
  have hpages : layout.lebtblPages = (layout.maptbl.pebsPerPortion + 1015) / 1016 := rfl
  have hstart : layout.pageStart (x / layout.maptbl.pebsPerPortion)
      (x % layout.maptbl.pebsPerPortion / 1016) = layout.maptbl.pebsPerPortion *
        (x / layout.maptbl.pebsPerPortion) + 1016 * (x % layout.maptbl.pebsPerPortion / 1016) := rfl
  have hnext : nextPage layout x = min (layout.pageStart (x / layout.maptbl.pebsPerPortion)
      (x % layout.maptbl.pebsPerPortion / 1016) + min layout.maptbl.pebsPerPortion 1016)
        layout.pebsPerVolume := by
    unfold nextPage VolumeLayout.pageCount Geometry.pageCount
    change _ + (if _ ≤ layout.pageStart _ _ then 0
      else min (min (_ - layout.pageStart _ _) _) 1016) = _
    rw [if_neg (by omega)]
    omega
  rw [hnext, hstart]
  unfold pageBehind pageEntry
  congr 1
  split
  case isTrue h =>
    rw [if_neg (by simp)]
    change _ = layout.maptbl.pebsPerPortion * _ + 1016 * _
    simp only
    omega
  case isFalse h =>
    simp only [Nat.mul_succ, true_and]
    split
    case isTrue => omega
    case isFalse =>
      change _ = layout.maptbl.pebsPerPortion * _ + 1016 * 0
      rw [Nat.mul_succ]
      omega

theorem eq_pageBehind_or_lt (hacc : layout.Accepted) (hp : p < layout.lebtblPages)
    (hlt : x < layout.pageStart q p) : (q, p) = pageBehind layout x ∨
      pageEntry layout (pageBehind layout x).1 (pageBehind layout x).2 < layout.pageStart q p := by
  have hdm := Nat.div_add_mod x layout.maptbl.pebsPerPortion
  have hmod := Nat.mod_lt x hacc.pebs_pos
  have hstart : layout.pageStart q p = layout.maptbl.pebsPerPortion * q + 1016 * p := rfl
  have hpages : layout.lebtblPages = (layout.maptbl.pebsPerPortion + 1015) / 1016 := rfl
  obtain ⟨r, hentry, hr, hpage, -⟩ := pageEntry_offset (q := (pageBehind layout x).1) hacc
    (pageBehind_lt (x := x) hacc)
  have hmul : ∀ {i j : Nat}, i ≤ j →
      layout.maptbl.pebsPerPortion * i ≤ layout.maptbl.pebsPerPortion * j := Nat.mul_le_mul_left _
  have hq : x / layout.maptbl.pebsPerPortion ≤ q := by
    by_contra hcon
    have := hmul (show q + 1 ≤ x / layout.maptbl.pebsPerPortion by omega)
    rw [Nat.mul_succ] at this
    omega
  rw [hentry, hstart, or_iff_not_imp_left]
  intro hne
  rcases pageBehind_cases layout x with ⟨-, heq⟩ | ⟨hlast, heq⟩
  · rw [heq] at hne hpage ⊢
    simp only at hpage ⊢
    rcases Nat.lt_or_eq_of_le hq with hlater | rfl
    · have := hmul hlater
      rw [Nat.mul_succ] at this
      omega
    · have hp' : p ≠ x % layout.maptbl.pebsPerPortion / 1016 + 1 := fun h => hne (by rw [h])
      omega
  · rw [heq] at hne hpage ⊢
    simp only at hpage ⊢
    rcases Nat.lt_or_eq_of_le hq with hlater | rfl
    · rcases Nat.lt_or_eq_of_le hlater with hlater' | hnext
      · have := hmul hlater'
        rw [Nat.mul_succ] at this
        omega
      · obtain rfl : x / layout.maptbl.pebsPerPortion + 1 = q := hnext
        have hp' : p ≠ 0 := fun h => hne (by rw [h])
        omega
    · omega

theorem pageBehind_entry (hacc : layout.Accepted) (hx : x < layout.pebsPerVolume)
    (hy : nextPage layout x < layout.pebsPerVolume) : nextPage layout x =
      pageEntry layout (pageBehind layout x).1 (pageBehind layout x).2 := by
  have h := nextPage_eq hacc hx
  omega

theorem pagesInStep_last (hacc : layout.Accepted) (hx : x < layout.pebsPerVolume)
    (hy : layout.pebsPerVolume ≤ nextPage layout x) : PagesInStep layout x := by
  intro q p hp hlt hentry
  have h := nextPage_eq hacc hx
  have hstart := pageStart_le_entry (q := q) hacc hp
  rcases eq_pageBehind_or_lt hacc hp hlt with hqp | hbehind
  · obtain ⟨rfl, rfl⟩ := Prod.ext_iff.1 hqp
    omega
  · omega

theorem pagesInStep_iff (hacc : layout.Accepted) (hx : x < layout.pebsPerVolume)
    (hy : nextPage layout x < layout.pebsPerVolume) : PagesInStep layout x ↔
      EntersPage layout (pageBehind layout x).1 (pageBehind layout x).2 ∧
        PagesInStep layout (nextPage layout x) := by
  have hnext := pageBehind_entry hacc hx hy
  have hlater : x < nextPage layout x := (pageOf_bounds hacc hx).2.1
  constructor
  · intro h
    exact ⟨h _ _ (pageBehind_lt hacc) (lt_pageBehind hacc) (hnext ▸ hy),
      fun q p hp hlt => h q p hp (by omega)⟩
  · rintro ⟨hfirst, hrest⟩ q p hp hlt hentry
    rcases eq_pageBehind_or_lt hacc hp hlt with hqp | hbehind
    · obtain ⟨rfl, rfl⟩ := Prod.ext_iff.1 hqp
      exact hfirst
    · exact hrest q p hp (hnext ▸ hbehind) hentry

end Pages

section Walk

variable {layout : VolumeLayout} {leb peb last q x : Nat}

theorem inStep_page_iff (hacc : layout.Accepted) (hround : WholeStripes layout)
    (hcov : layout.pebsPerVolume ≤ layout.maptbl.portionsCount * layout.maptbl.pebsPerPortion)
    (hleb : leb < layout.pebsPerVolume) (hpeb : peb ≤ layout.pebsPerVolume) :
    InStep layout leb peb last ↔
      Enters layout (leb / layout.maptbl.pebsPerPortion) (stripeOf layout leb) peb ∧
        layout.stripeStart (leb / layout.maptbl.pebsPerPortion)
          (layout.maptbl.stripesPerPortion - 1) ≤ layout.pebsPerVolume ∧
        InStep layout (nextPage layout leb)
          (portionLimit layout (leb / layout.maptbl.pebsPerPortion)) last := by
  have hlt := stripeOf_lt hacc leb
  obtain ⟨rest, hrest⟩ := Nat.exists_eq_add_of_lt hlt
  have hcount : layout.maptbl.stripesPerPortion - stripeOf layout leb = rest + 1 := by omega
  have hsum : stripeOf layout leb + (rest + 1) = layout.maptbl.stripesPerPortion := hrest.symm
  have hchain := fun e => chainEnd_iff (e := e) hacc hround (portion_base layout hleb) hsum hpeb
  rw [← hcount] at hchain
  constructor
  · intro h
    cases h with
    | stop hge => omega
    | page _ _ hsome hstep =>
      obtain ⟨henter, hlast, rfl⟩ := (hchain _).1 hsome
      exact ⟨henter, hlast, hstep⟩
  · rintro ⟨henter, hlast, hstep⟩
    exact .page hleb ((Nat.div_lt_iff_lt_mul hacc.pebs_pos).2 (by omega))
      ((hchain _).2 ⟨henter, hlast, rfl⟩) hstep

theorem lastStripe_le (hacc : layout.Accepted)
    (hbase : layout.maptbl.pebsPerPortion * q < layout.pebsPerVolume)
    (hlast : layout.stripeStart ((layout.pebsPerVolume - 1) / layout.maptbl.pebsPerPortion)
      (layout.maptbl.stripesPerPortion - 1) ≤ layout.pebsPerVolume) :
    layout.stripeStart q (layout.maptbl.stripesPerPortion - 1) ≤ layout.pebsPerVolume := by
  have hq : q ≤ (layout.pebsPerVolume - 1) / layout.maptbl.pebsPerPortion :=
    (Nat.le_div_iff_mul_le hacc.pebs_pos).2 (by rw [Nat.mul_comm]; omega)
  rcases Nat.lt_or_eq_of_le hq with hlt | rfl
  · have hmul := Nat.mul_le_mul_left layout.maptbl.pebsPerPortion (Nat.succ_le_of_lt hlt)
    have hdiv := Nat.mul_div_le (layout.pebsPerVolume - 1) layout.maptbl.pebsPerPortion
    have hend := stripes_end_eq hacc hbase
    have hmono : layout.stripeStart q (layout.maptbl.stripesPerPortion - 1) ≤
        layout.stripeStart q layout.maptbl.stripesPerPortion := Geometry.stripeStart_mono (by omega)
    change layout.maptbl.pebsPerPortion * (q + 1) ≤ _ at hmul
    unfold portionLimit at hend
    omega
  · exact hlast

theorem enters_nextPage_iff (hacc : layout.Accepted) (hround : WholeStripes layout)
    (hx : x < layout.pebsPerVolume) (hy : nextPage layout x < layout.pebsPerVolume) :
    Enters layout (nextPage layout x / layout.maptbl.pebsPerPortion)
        (stripeOf layout (nextPage layout x))
        (portionLimit layout (x / layout.maptbl.pebsPerPortion)) ↔
      EntersPage layout (pageBehind layout x).1 (pageBehind layout x).2 := by
  have hnext := pageBehind_entry hacc hx hy
  have hdiv := (pageEntry_div (q := (pageBehind layout x).1) hacc (pageBehind_lt (x := x) hacc)).1
  have hstart := pageStart_le_entry (q := (pageBehind layout x).1) hacc (pageBehind_lt (x := x) hacc)
  have hbase := portion_base layout hy
  have hstripe := stripeOf_lt hacc (nextPage layout x)
  rw [hnext] at hbase hstripe hy ⊢
  rw [hdiv] at hbase ⊢
  unfold EntersPage
  rcases pageBehind_cases layout x with ⟨-, heq⟩ | ⟨-, heq⟩
  · rw [heq] at hbase hstripe ⊢
    exact enters_portionLimit_iff hacc hround hbase hstripe
  · rw [heq] at hbase hstart hy ⊢
    have hend : portionLimit layout (x / layout.maptbl.pebsPerPortion) =
        layout.maptbl.pebsPerPortion * (x / layout.maptbl.pebsPerPortion + 1) :=
      Nat.min_eq_left (Nat.le_of_lt hbase)
    rw [hend]
    exact enters_portionStart_iff hacc hround hbase

theorem portionLimit_of_entersPage (hacc : layout.Accepted) (hround : WholeStripes layout)
    (hx : x < layout.pebsPerVolume) (hy : nextPage layout x < layout.pebsPerVolume)
    (henter : EntersPage layout (pageBehind layout x).1 (pageBehind layout x).2)
    (hlast : layout.pebsPerVolume ≤ nextPage layout (nextPage layout x)) :
    portionLimit layout (nextPage layout x / layout.maptbl.pebsPerPortion) = layout.pebsPerVolume := by
  have hnext := pageBehind_entry hacc hx hy
  obtain ⟨hdiv, hpage⟩ := pageEntry_div (q := (pageBehind layout x).1) hacc
    (pageBehind_lt (x := x) hacc)
  have hbase := portion_base layout hy
  have hstripe := stripeOf_lt hacc (nextPage layout x)
  rcases pageBehind_cases layout x with ⟨-, heq⟩ | ⟨-, heq⟩
  · rw [← hnext, heq] at hdiv
    rw [hdiv] at hbase ⊢
    unfold EntersPage at henter
    rw [← hnext, heq] at henter
    exact portionLimit_eq_volume hacc hround hbase hstripe henter
  · refine Nat.min_eq_right ?_
    rw [← hnext, heq] at hdiv hpage
    simp only at hdiv hpage
    have hentry := nextPage_eq hacc hy
    have hP := hacc.pebs_pos
    have hpages : layout.lebtblPages = (layout.maptbl.pebsPerPortion + 1015) / 1016 := rfl
    rcases pageBehind_cases layout (nextPage layout x) with ⟨hmore, heq'⟩ | ⟨hone, heq'⟩
    · rw [heq', hdiv, hpage, pageEntry_eq_of_pos (Nat.succ_ne_zero _)] at hentry
      rw [hpage] at hmore
      rw [hdiv, Nat.mul_succ]
      change _ = min (layout.maptbl.pebsPerPortion *
        (x / layout.maptbl.pebsPerPortion + 1) + 1016 * 1) _ at hentry
      omega
    · rw [heq', hdiv] at hentry
      rw [hpage] at hone
      unfold pageEntry at hentry
      rw [if_neg (by omega)] at hentry
      change _ = min (layout.maptbl.pebsPerPortion * _ + 1016 * 0) _ at hentry
      rw [hdiv]
      simp only at hentry
      omega

theorem portion_of_portionLimit (hacc : layout.Accepted)
    (hbase : layout.maptbl.pebsPerPortion * q < layout.pebsPerVolume) :
    (portionLimit layout q - 1) / layout.maptbl.pebsPerPortion = q := by
  have hP := hacc.pebs_pos
  have hend : portionLimit layout q =
      min (layout.maptbl.pebsPerPortion * q + layout.maptbl.pebsPerPortion) layout.pebsPerVolume := rfl
  refine Nat.div_eq_of_lt_le ?_ ?_
  · rw [Nat.mul_comm]
    omega
  · rw [Nat.mul_comm, Nat.mul_succ]
    omega

theorem inStep_nextPage_iff (hacc : layout.Accepted) (hround : WholeStripes layout)
    (hcov : layout.pebsPerVolume ≤ layout.maptbl.portionsCount * layout.maptbl.pebsPerPortion)
    (hx : x < layout.pebsPerVolume) :
    InStep layout (nextPage layout x) (portionLimit layout (x / layout.maptbl.pebsPerPortion)) last ↔
      PagesInStep layout x ∧ (nextPage layout x < layout.pebsPerVolume →
        layout.stripeStart ((layout.pebsPerVolume - 1) / layout.maptbl.pebsPerPortion)
          (layout.maptbl.stripesPerPortion - 1) ≤ layout.pebsPerVolume) ∧
      last = walkEnd layout x := by
  induction hm : layout.pebsPerVolume - x using Nat.strong_induction_on generalizing x with
  | _ m ih =>
    have hlater := (pageOf_bounds hacc hx).2.1
    rcases Nat.lt_or_ge (nextPage layout x) layout.pebsPerVolume with hy | hy
    · have hwalk : walkEnd layout x = layout.pebsPerVolume := if_neg fun h => by omega
      rw [inStep_page_iff hacc hround hcov hy portionLimit_le, enters_nextPage_iff hacc hround hx hy,
        ih _ (by omega) hy rfl, pagesInStep_iff hacc hx hy, hwalk]
      have hend : EntersPage layout (pageBehind layout x).1 (pageBehind layout x).2 →
          layout.pebsPerVolume ≤ nextPage layout (nextPage layout x) →
            portionLimit layout (nextPage layout x / layout.maptbl.pebsPerPortion) =
              layout.pebsPerVolume := portionLimit_of_entersPage hacc hround hx hy
      have hwalk' : EntersPage layout (pageBehind layout x).1 (pageBehind layout x).2 →
          walkEnd layout (nextPage layout x) = layout.pebsPerVolume := fun henter => by
        unfold walkEnd
        split
        case isTrue h => exact hend henter h.2
        case isFalse => rfl
      constructor
      · rintro ⟨henter, hfirst, hpages, hlast, rfl⟩
        refine ⟨⟨henter, hpages⟩, fun _ => ?_, hwalk' henter⟩
        rcases Nat.lt_or_ge (nextPage layout (nextPage layout x)) layout.pebsPerVolume with hz | hz
        · exact hlast hz
        · have hportion := portion_of_portionLimit hacc (portion_base layout hy)
          rw [hend henter hz] at hportion
          rwa [hportion]
      · rintro ⟨⟨henter, hpages⟩, hlast, rfl⟩
        refine ⟨henter, lastStripe_le hacc (portion_base layout hy) (hlast hy), hpages,
          fun _ => hlast hy, (hwalk' henter).symm⟩
    · have hwalk : walkEnd layout x = portionLimit layout (x / layout.maptbl.pebsPerPortion) :=
        if_pos ⟨hx, hy⟩
      rw [hwalk]
      constructor
      · intro h
        cases h with
        | stop => exact ⟨pagesInStep_last hacc hx hy, fun hlt => by omega, rfl⟩
        | page hlt => omega
      · rintro ⟨-, -, rfl⟩
        exact .stop hy

theorem inStep_iff (hacc : layout.Accepted) (hround : WholeStripes layout)
    (hcov : layout.pebsPerVolume ≤ layout.maptbl.portionsCount * layout.maptbl.pebsPerPortion)
    (hleb : leb < layout.pebsPerVolume) (hpeb : peb ≤ layout.pebsPerVolume) :
    InStep layout leb peb last ↔ WalksToEnd layout leb peb ∧ last = walkEnd layout leb := by
  have hbase := portion_base layout hleb
  rw [inStep_page_iff hacc hround hcov hleb hpeb, inStep_nextPage_iff hacc hround hcov hleb]
  rcases Nat.lt_or_ge (nextPage layout leb) layout.pebsPerVolume with hy | hy
  · have hwalk : walkEnd layout leb = layout.pebsPerVolume := if_neg fun h => by omega
    constructor
    · rintro ⟨henter, -, hpages, hlast, rfl⟩
      exact ⟨⟨henter, hpages, hwalk ▸ hlast hy⟩, rfl⟩
    · rintro ⟨⟨henter, hpages, hlast⟩, rfl⟩
      rw [hwalk] at hlast
      exact ⟨henter, lastStripe_le hacc hbase hlast, hpages, fun _ => hlast, rfl⟩
  · have hwalk : walkEnd layout leb = portionLimit layout (leb / layout.maptbl.pebsPerPortion) :=
      if_pos ⟨hleb, hy⟩
    have hportion := portion_of_portionLimit hacc hbase
    constructor
    · rintro ⟨henter, hlast, hpages, -, rfl⟩
      refine ⟨⟨henter, hpages, ?_⟩, rfl⟩
      rwa [hwalk, hportion]
    · rintro ⟨⟨henter, hpages, hlast⟩, rfl⟩
      rw [hwalk, hportion] at hlast
      exact ⟨henter, hlast, hpages, fun hlt => by omega, rfl⟩

end Walk

end Ssdfs
