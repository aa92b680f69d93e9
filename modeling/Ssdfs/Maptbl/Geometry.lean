import Ssdfs.Lib.Tiling

namespace Ssdfs.Geometry

section Stripes

variable (volume pebs stripes : Nat)

def restPebs (portion : Nat) : Nat :=
  if volume < pebs * portion then pebs else min (volume - pebs * portion) pebs

def stripeWidth (portion : Nat) : Nat :=
  restPebs volume pebs portion / stripes +
    if restPebs volume pebs portion % stripes = 0 then 0 else 1

def stripeStart (portion stripe : Nat) : Nat :=
  pebs * portion + stripeWidth volume pebs stripes portion * stripe

def stripeCount (portion stripe : Nat) : Nat :=
  if volume ≤ stripeStart volume pebs stripes portion stripe then 0
  else min ((restPebs volume pebs portion + restPebs volume pebs portion % stripes) / stripes)
    (volume - stripeStart volume pebs stripes portion stripe)

def stripeRange (k : Nat × Nat) : Set Nat :=
  Set.Ico (stripeStart volume pebs stripes k.1 k.2)
    (stripeStart volume pebs stripes k.1 k.2 + stripeCount volume pebs stripes k.1 k.2)

end Stripes

section Pages

variable (volume pebs : Nat)

def pageStart (portion page : Nat) : Nat := pebs * portion + 1016 * page

def pageCount (portion page : Nat) : Nat :=
  if volume ≤ pageStart pebs portion page then 0
  else min (min (volume - pageStart pebs portion page) pebs) 1016

def pageRange (k : Nat × Nat) : Set Nat :=
  Set.Ico (pageStart pebs k.1 k.2) (pageStart pebs k.1 k.2 + pageCount volume pebs k.1 k.2)

def pages : Nat := (pebs + 1015) / 1016

end Pages

variable {volume pebs stripes : Nat}

theorem restPebs_le (portion : Nat) : restPebs volume pebs portion ≤ pebs := by
  unfold restPebs
  split <;> omega

theorem stripeWidth_le (hdvd : stripes ∣ pebs) (portion : Nat) :
    stripeWidth volume pebs stripes portion ≤ pebs / stripes := by
  have hle : restPebs volume pebs portion ≤ pebs := restPebs_le portion
  have hmono := Nat.div_le_div_right (c := stripes) hle
  unfold stripeWidth
  split
  case isTrue h => exact hmono
  case isFalse h =>
    have hdm := Nat.div_add_mod (restPebs volume pebs portion) stripes
    have hpebs := Nat.mul_div_cancel' hdvd
    by_contra hcon
    have heq : restPebs volume pebs portion / stripes = pebs / stripes := by omega
    rw [heq] at hdm
    omega

theorem restPebs_le_width (hs : 0 < stripes) (portion : Nat) :
    restPebs volume pebs portion ≤ stripes * stripeWidth volume pebs stripes portion := by
  unfold stripeWidth
  have hdiv := Nat.div_add_mod (restPebs volume pebs portion) stripes
  have hmod := Nat.mod_lt (restPebs volume pebs portion) hs
  split
  · rw [Nat.add_zero]
    omega
  · rw [Nat.mul_add, Nat.mul_one]
    omega

theorem stripe_round (hs : 0 < stripes) (rest : Nat) :
    (rest + rest % stripes) / stripes =
      rest / stripes + if stripes ≤ 2 * (rest % stripes) then 1 else 0 := by
  have hdiv := Nat.div_add_mod rest stripes
  have hmod := Nat.mod_lt rest hs
  have hsum : rest + rest % stripes = 2 * (rest % stripes) + stripes * (rest / stripes) := by
    omega
  rw [hsum, Nat.add_mul_div_left _ _ hs, Nat.add_comm]
  congr 1
  split
  case isTrue h =>
    exact Nat.div_eq_of_lt_le (by omega) (by omega)
  case isFalse h =>
    exact Nat.div_eq_of_lt (by omega)

theorem stripeCount_le_width (hs : 0 < stripes) (portion stripe : Nat) :
    stripeCount volume pebs stripes portion stripe ≤
      stripeWidth volume pebs stripes portion := by
  unfold stripeCount
  split
  · omega
  · refine Nat.le_trans (Nat.min_le_left _ _) ?_
    rw [stripe_round hs]
    unfold stripeWidth
    split <;> split <;> omega

theorem stripe_end_le_volume (portion stripe : Nat)
    (h : 0 < stripeCount volume pebs stripes portion stripe) :
    stripeStart volume pebs stripes portion stripe +
      stripeCount volume pebs stripes portion stripe ≤ volume := by
  unfold stripeCount at h ⊢
  split at h
  · omega
  · rw [if_neg ‹_›]
    omega

/-- A non-empty stripe begins inside the volume, where the subtraction cannot wrap. -/
theorem restPebs_of_count (portion stripe : Nat)
    (h : 0 < stripeCount volume pebs stripes portion stripe) :
    pebs * portion < volume ∧ restPebs volume pebs portion = min (volume - pebs * portion) pebs := by
  have hlt : pebs * portion < volume := by
    unfold stripeCount at h
    split at h
    · omega
    · have : pebs * portion ≤ stripeStart volume pebs stripes portion stripe :=
        Nat.le_add_right _ _
      omega
  refine ⟨hlt, ?_⟩
  unfold restPebs
  rw [if_neg (by omega)]

theorem stripe_end_le_portion (hs : 0 < stripes) (hdvd : stripes ∣ pebs) {portion stripe : Nat}
    (hj : stripe < stripes) (h : 0 < stripeCount volume pebs stripes portion stripe) :
    stripeStart volume pebs stripes portion stripe +
      stripeCount volume pebs stripes portion stripe ≤ pebs * portion + pebs := by
  obtain ⟨hlt, hrest⟩ := restPebs_of_count portion stripe h
  have hend := stripe_end_le_volume portion stripe h
  rcases Nat.lt_or_ge (volume - pebs * portion) pebs with hpart | hfull
  · omega
  · have hfull' : restPebs volume pebs portion = pebs := by omega
    have hw : stripeWidth volume pebs stripes portion = pebs / stripes := by
      unfold stripeWidth
      rw [hfull', if_pos (Nat.mod_eq_zero_of_dvd hdvd), Nat.add_zero]
    have hc : stripeCount volume pebs stripes portion stripe ≤
        stripeWidth volume pebs stripes portion := stripeCount_le_width hs portion stripe
    have hmul : pebs / stripes * (stripe + 1) ≤ pebs := by
      refine Nat.le_trans (Nat.mul_le_mul_left _ hj) ?_
      exact Nat.div_mul_le_self _ _
    unfold stripeStart
    rw [hw] at hc ⊢
    rw [Nat.mul_add, Nat.mul_one] at hmul
    omega

theorem mem_stripeRange {portion stripe x : Nat} :
    x ∈ stripeRange volume pebs stripes (portion, stripe) ↔
      stripeStart volume pebs stripes portion stripe ≤ x ∧
        x < stripeStart volume pebs stripes portion stripe +
          stripeCount volume pebs stripes portion stripe := by
  simp [stripeRange]

theorem stripe_owner (hs : 0 < stripes) (hdvd : stripes ∣ pebs) {portion stripe x : Nat}
    (hj : stripe < stripes) (hx : x ∈ stripeRange volume pebs stripes (portion, stripe)) :
    portion = x / pebs ∧
      stripe = (x - pebs * (x / pebs)) / stripeWidth volume pebs stripes (x / pebs) := by
  obtain ⟨hlo, hhi⟩ := mem_stripeRange.1 hx
  have hpos : 0 < stripeCount volume pebs stripes portion stripe := by omega
  have hend := stripe_end_le_portion hs hdvd hj hpos
  have hbase : pebs * portion ≤ stripeStart volume pebs stripes portion stripe :=
    Nat.le_add_right _ _
  have hpe : x / pebs = portion :=
    Nat.div_eq_of_lt_le (by rw [Nat.mul_comm]; omega)
      (by rw [Nat.add_mul, Nat.one_mul, Nat.mul_comm portion]; omega)
  refine ⟨hpe.symm, ?_⟩
  rw [hpe]
  have hc : stripeCount volume pebs stripes portion stripe ≤
      stripeWidth volume pebs stripes portion := stripeCount_le_width hs portion stripe
  unfold stripeStart at hlo hhi
  symm
  refine Nat.div_eq_of_lt_le ?_ ?_
  · rw [Nat.mul_comm stripe]
    omega
  · rw [Nat.add_mul, Nat.one_mul, Nat.mul_comm stripe]
    omega

theorem stripe_disjoint (hs : 0 < stripes) (hdvd : stripes ∣ pebs) {k l : Nat × Nat} {x : Nat}
    (hk : k.2 < stripes) (hl : l.2 < stripes) (hx : x ∈ stripeRange volume pebs stripes k)
    (hx' : x ∈ stripeRange volume pebs stripes l) : k = l := by
  have h₁ := stripe_owner hs hdvd hk hx
  have h₂ := stripe_owner hs hdvd hl hx'
  exact Prod.ext (h₁.1.trans h₂.1.symm) (h₁.2.trans h₂.2.symm)

theorem restPebs_mod (hdvd : stripes ∣ pebs) {portion : Nat} (h : pebs * portion < volume) :
    restPebs volume pebs portion % stripes = 0 ∨
      restPebs volume pebs portion = volume - pebs * portion ∧
        restPebs volume pebs portion % stripes = volume % stripes := by
  unfold restPebs
  rw [if_neg (by omega)]
  rcases Nat.lt_or_ge (volume - pebs * portion) pebs with hpart | hfull
  · right
    rw [Nat.min_eq_left (by omega)]
    refine ⟨rfl, ?_⟩
    obtain ⟨c, hc⟩ := Nat.dvd_mul_right_of_dvd hdvd portion
    rw [hc] at h ⊢
    exact Nat.sub_mul_mod (by omega)
  · left
    rw [Nat.min_eq_right hfull]
    exact Nat.mod_eq_zero_of_dvd hdvd

theorem stripeWidth_eq (hs : 0 < stripes) (hdvd : stripes ∣ pebs)
    (hround : volume % stripes = 0 ∨ stripes ≤ 2 * (volume % stripes)) {portion : Nat}
    (hbase : pebs * portion < volume) : stripeWidth volume pebs stripes portion =
      (restPebs volume pebs portion + restPebs volume pebs portion % stripes) / stripes := by
  rw [stripe_round hs]
  unfold stripeWidth
  rcases restPebs_mod hdvd hbase with h0 | ⟨-, hm⟩
  · rw [h0, if_pos rfl, if_neg (by omega)]
  · rw [hm]
    rcases hround with h0 | h2
    · rw [h0, if_pos rfl, if_neg (by omega)]
    · rw [if_pos h2, if_neg (by omega)]

theorem stripeWidth_pos (hs : 0 < stripes) (hP : 0 < pebs) {portion : Nat}
    (hbase : pebs * portion < volume) : 0 < stripeWidth volume pebs stripes portion := by
  have hle : restPebs volume pebs portion ≤ stripes * stripeWidth volume pebs stripes portion :=
    restPebs_le_width hs portion
  have hrest : 0 < restPebs volume pebs portion := by
    unfold restPebs
    rw [if_neg (by omega)]
    omega
  by_contra h
  rw [Nat.eq_zero_of_not_pos h, Nat.mul_zero] at hle
  omega

theorem stripeCount_eq (hs : 0 < stripes) (hdvd : stripes ∣ pebs)
    (hround : volume % stripes = 0 ∨ stripes ≤ 2 * (volume % stripes)) {portion : Nat}
    (hbase : pebs * portion < volume) (stripe : Nat) :
    stripeCount volume pebs stripes portion stripe = min (stripeWidth volume pebs stripes portion)
      (volume - stripeStart volume pebs stripes portion stripe) := by
  unfold stripeCount
  rw [stripeWidth_eq hs hdvd hround hbase]
  split
  case isTrue hle => rw [Nat.sub_eq_zero_of_le hle, Nat.min_zero]
  case isFalse => rfl

theorem stripeStart_succ (portion stripe : Nat) : stripeStart volume pebs stripes portion (stripe + 1) =
    stripeStart volume pebs stripes portion stripe + stripeWidth volume pebs stripes portion := by
  unfold stripeStart
  rw [Nat.mul_succ, Nat.add_assoc]

theorem stripeStart_mono {portion i j : Nat} (h : i ≤ j) :
    stripeStart volume pebs stripes portion i ≤ stripeStart volume pebs stripes portion j :=
  Nat.add_le_add_left (Nat.mul_le_mul_left _ h) _

theorem stripes_end (hs : 0 < stripes) (hdvd : stripes ∣ pebs) {portion : Nat}
    (hbase : pebs * portion < volume) : min (stripeStart volume pebs stripes portion stripes) volume =
      min (pebs * (portion + 1)) volume := by
  have hdef : stripeStart volume pebs stripes portion stripes =
      pebs * portion + stripeWidth volume pebs stripes portion * stripes := rfl
  rw [Nat.mul_succ]
  rcases Nat.lt_or_ge (volume - pebs * portion) pebs with hpart | hfull
  · have hle : restPebs volume pebs portion ≤ stripes * stripeWidth volume pebs stripes portion :=
      restPebs_le_width hs portion
    have hrest : restPebs volume pebs portion = volume - pebs * portion := by
      unfold restPebs
      rw [if_neg (by omega)]
      omega
    rw [Nat.mul_comm] at hle
    omega
  · have hrest : restPebs volume pebs portion = pebs := by
      unfold restPebs
      rw [if_neg (by omega)]
      omega
    have hw : stripeWidth volume pebs stripes portion = pebs / stripes := by
      unfold stripeWidth
      rw [hrest, if_pos (Nat.mod_eq_zero_of_dvd hdvd), Nat.add_zero]
    rw [hdef, hw, Nat.div_mul_cancel hdvd]

theorem mem_stripe_of_lt (hs : 0 < stripes) (hdvd : stripes ∣ pebs) (hP : 0 < pebs)
    (hround : volume % stripes = 0 ∨ stripes ≤ 2 * (volume % stripes)) {x : Nat}
    (hx : x < volume) :
    ∃ stripe < stripes, x ∈ stripeRange volume pebs stripes (x / pebs, stripe) := by
  have hlow : pebs * (x / pebs) ≤ x := Nat.mul_div_le _ _
  have hup : x < pebs * (x / pebs) + pebs := by
    have := Nat.lt_mul_div_succ x hP
    rwa [Nat.mul_add, Nat.mul_one] at this
  have hlt : pebs * (x / pebs) < volume := by omega
  have hrest : x - pebs * (x / pebs) < restPebs volume pebs (x / pebs) := by
    unfold restPebs
    rw [if_neg (by omega)]
    omega
  have hcover : restPebs volume pebs (x / pebs) ≤
      stripes * stripeWidth volume pebs stripes (x / pebs) := restPebs_le_width hs (x / pebs)
  have hwpos : 0 < stripeWidth volume pebs stripes (x / pebs) := stripeWidth_pos hs hP hlt
  have hwidth := stripeWidth_eq hs hdvd hround hlt
  generalize hw : stripeWidth volume pebs stripes (x / pebs) = w at *
  refine ⟨(x - pebs * (x / pebs)) / w, Nat.div_lt_of_lt_mul ?_, ?_⟩
  · rw [Nat.mul_comm] at hcover
    omega
  · have hstart : stripeStart volume pebs stripes (x / pebs) ((x - pebs * (x / pebs)) / w) ≤ x := by
      unfold stripeStart
      rw [hw]
      have := Nat.mul_div_le (x - pebs * (x / pebs)) w
      omega
    have hnext : x < stripeStart volume pebs stripes (x / pebs)
        ((x - pebs * (x / pebs)) / w) + w := by
      unfold stripeStart
      rw [hw]
      have := Nat.lt_mul_div_succ (x - pebs * (x / pebs)) hwpos
      rw [Nat.mul_add, Nat.mul_one] at this
      omega
    rw [mem_stripeRange]
    refine ⟨hstart, ?_⟩
    unfold stripeCount
    rw [if_neg (by omega), ← hwidth]
    omega

theorem stripe_gap (hs : 0 < stripes) (hdvd : stripes ∣ pebs) (hP : 0 < pebs)
    (h0 : volume % stripes ≠ 0) (h2 : 2 * (volume % stripes) < stripes) :
    ∃ x < volume, ∀ i j, j < stripes → x ∉ stripeRange volume pebs stripes (i, j) := by
  have hvol := Nat.div_add_mod volume pebs
  have hmod : volume % pebs % stripes = volume % stripes := Nat.mod_mod_of_dvd _ hdvd
  have hlt : pebs * (volume / pebs) < volume := by
    rcases Nat.eq_zero_or_pos (volume % pebs) with hz | hpos
    · rw [hz, Nat.zero_mod] at hmod
      omega
    · omega
  have hrest : restPebs volume pebs (volume / pebs) = volume % pebs := by
    unfold restPebs
    rw [if_neg (by omega)]
    have := Nat.mod_lt volume hP
    omega
  have hdm := Nat.div_add_mod (volume % pebs) stripes
  have hq : volume % pebs / stripes ≤ stripes * (volume % pebs / stripes) :=
    Nat.le_mul_of_pos_left _ hs
  refine ⟨pebs * (volume / pebs) + volume % pebs / stripes, by omega, fun i j hk hx => ?_⟩
  obtain ⟨hp, hj⟩ := stripe_owner hs hdvd hk hx
  have hsmall : volume % pebs / stripes < pebs :=
    Nat.lt_of_le_of_lt (Nat.div_le_self _ _) (Nat.mod_lt volume hP)
  have hpe : (pebs * (volume / pebs) + volume % pebs / stripes) / pebs = volume / pebs := by
    rw [Nat.mul_add_div hP, Nat.div_eq_of_lt hsmall, Nat.add_zero]
  have hw : stripeWidth volume pebs stripes (volume / pebs) = volume % pebs / stripes + 1 := by
    unfold stripeWidth
    rw [hrest, hmod, if_neg h0]
  rw [hpe] at hp hj
  rw [hw, Nat.add_sub_cancel_left, Nat.div_eq_of_lt (by omega)] at hj
  obtain ⟨-, hhi⟩ := mem_stripeRange.1 hx
  have hstart : stripeStart volume pebs stripes (volume / pebs) 0 = pebs * (volume / pebs) := by
    unfold stripeStart
    rw [Nat.mul_zero, Nat.add_zero]
  have hcount : stripeCount volume pebs stripes (volume / pebs) 0 ≤ volume % pebs / stripes := by
    unfold stripeCount
    rw [hstart, if_neg (by omega), hrest, stripe_round hs, hmod, if_neg (by omega), Nat.add_zero]
    exact Nat.min_le_left _ _
  rw [hp, hj, hstart] at hhi
  omega

theorem stripes_cover_iff (hs : 0 < stripes) (hdvd : stripes ∣ pebs) (hP : 0 < pebs)
    (hv : 0 < volume) (portions : Nat) :
    (∀ x < volume, ∃ i j, i < portions ∧ j < stripes ∧ x ∈ stripeRange volume pebs stripes (i, j)) ↔
      volume ≤ portions * pebs ∧
        (volume % stripes = 0 ∨ stripes ≤ 2 * (volume % stripes)) := by
  constructor
  · intro h
    constructor
    · obtain ⟨i, j, hi, hj, hx⟩ := h (volume - 1) (by omega)
      have hp := (stripe_owner hs hdvd hj hx).1
      have hlt : (volume - 1) / pebs < portions := hp ▸ hi
      have := (Nat.div_lt_iff_lt_mul hP).1 hlt
      omega
    · by_contra hcon
      push Not at hcon
      obtain ⟨x, hx, hnot⟩ := stripe_gap hs hdvd hP hcon.1 hcon.2
      obtain ⟨i, j, -, hj, hmem⟩ := h x hx
      exact hnot i j hj hmem
  · rintro ⟨hcov, hround⟩ x hx
    obtain ⟨j, hj, hmem⟩ := mem_stripe_of_lt hs hdvd hP hround hx
    exact ⟨x / pebs, j, (Nat.div_lt_iff_lt_mul hP).2 (by omega), hj, hmem⟩

theorem stripes_tile_iff (hs : 0 < stripes) (hdvd : stripes ∣ pebs) (hP : 0 < pebs)
    (hv : 0 < volume) (portions : Nat) :
    Tiles {k : Nat × Nat | k.1 < portions ∧ k.2 < stripes} (stripeRange volume pebs stripes)
        (Set.Iio volume) ↔
      volume ≤ portions * pebs ∧
        (volume % stripes = 0 ∨ stripes ≤ 2 * (volume % stripes)) := by
  rw [← stripes_cover_iff hs hdvd hP hv]
  constructor
  · intro h x hx
    obtain ⟨k, hk, hmem⟩ := h.mem_iff.1 hx
    exact ⟨k.1, k.2, hk.1, hk.2, hmem⟩
  · intro hcov
    constructor
    · intro k hk l hl hkl
      exact Set.disjoint_left.2 fun x hx hx' =>
        hkl (stripe_disjoint hs hdvd hk.2 hl.2 hx hx')
    · ext x
      simp only [Set.mem_iUnion, exists_prop, Set.mem_Iio]
      constructor
      · rintro ⟨⟨i, j⟩, hk, hx⟩
        obtain ⟨hlo, hhi⟩ := mem_stripeRange.1 hx
        have hpos : 0 < stripeCount volume pebs stripes i j := by omega
        have := stripe_end_le_volume i j hpos
        omega
      · intro hx
        obtain ⟨i, j, hi, hj, hmem⟩ := hcov x hx
        exact ⟨(i, j), ⟨hi, hj⟩, hmem⟩

@[simp] theorem mem_pageRange {portion page x : Nat} :
    x ∈ pageRange volume pebs (portion, page) ↔
      pageStart pebs portion page ≤ x ∧
        x < pageStart pebs portion page + pageCount volume pebs portion page := by
  simp [pageRange]

theorem pageCount_le (portion page : Nat) : pageCount volume pebs portion page ≤ 1016 := by
  unfold pageCount
  split
  · omega
  · exact Nat.min_le_right _ _

theorem page_end_le_volume (portion page : Nat)
    (h : 0 < pageCount volume pebs portion page) :
    pageStart pebs portion page + pageCount volume pebs portion page ≤ volume := by
  unfold pageCount at h ⊢
  split at h
  · omega
  · rw [if_neg ‹_›]
    omega

theorem mem_page_of_lt (hP : 0 < pebs) {x : Nat} (hx : x < volume) :
    x ∈ pageRange volume pebs (x / pebs, x % pebs / 1016) ∧ x % pebs / 1016 < pages pebs ∧
      x - pageStart pebs (x / pebs) (x % pebs / 1016) = x % pebs % 1016 := by
  have hdm := Nat.div_add_mod x pebs
  have hmod := Nat.mod_lt x hP
  have hstart : pageStart pebs (x / pebs) (x % pebs / 1016) + x % pebs % 1016 = x := by
    unfold pageStart
    omega
  refine ⟨mem_pageRange.2 ⟨by omega, ?_⟩, by unfold pages; omega, by omega⟩
  unfold pageCount
  rw [if_neg (by omega)]
  omega

theorem page_end_le_portion (hfit : pebs ≤ 1016 ∨ 1016 ∣ pebs ∨ volume ≤ pebs)
    {portion page : Nat} (hm : page < pages pebs) (h : 0 < pageCount volume pebs portion page) :
    pageStart pebs portion page + pageCount volume pebs portion page ≤ pebs * portion + pebs := by
  have hend := page_end_le_volume portion page h
  have hcount : pageCount volume pebs portion page ≤ 1016 := pageCount_le portion page
  unfold pages at hm
  rcases hfit with hone | ⟨c, hc⟩ | hall
  · have hp : pageCount volume pebs portion page ≤ pebs := by
      unfold pageCount
      split <;> omega
    unfold pageStart
    omega
  · unfold pageStart
    omega
  · have : pebs * portion < pebs := by
      unfold pageStart at hend
      omega
    omega

theorem page_owner (hfit : pebs ≤ 1016 ∨ 1016 ∣ pebs ∨ volume ≤ pebs) {portion page x : Nat}
    (hm : page < pages pebs) (hx : x ∈ pageRange volume pebs (portion, page)) :
    portion = x / pebs ∧ page = x % pebs / 1016 := by
  obtain ⟨hlo, hhi⟩ := mem_pageRange.1 hx
  have hend := page_end_le_portion hfit hm (show 0 < pageCount volume pebs portion page by omega)
  have hcount : pageCount volume pebs portion page ≤ 1016 := pageCount_le portion page
  have hbase : pageStart pebs portion page = pebs * portion + 1016 * page := rfl
  have hdiv : x / pebs = portion :=
    Nat.div_eq_of_lt_le (by rw [Nat.mul_comm]; omega)
      (by rw [Nat.add_mul, Nat.one_mul, Nat.mul_comm portion]; omega)
  have hdm := Nat.div_add_mod x pebs
  rw [hdiv] at hdm
  exact ⟨hdiv.symm, by omega⟩

theorem page_overlap (h1 : 1016 < pebs) (h2 : ¬1016 ∣ pebs) (h3 : pebs < volume) :
    pebs ∈ pageRange volume pebs (0, pages pebs - 1) ∧ pebs ∈ pageRange volume pebs (1, 0) := by
  have hbound : 1016 * (pages pebs - 1) < pebs ∧ pebs < 1016 * (pages pebs - 1) + 1016 ∧
      0 < pages pebs - 1 := by
    unfold pages
    omega
  have h0 : pageStart pebs 0 (pages pebs - 1) = 1016 * (pages pebs - 1) := by
    simp [pageStart]
  have h1' : pageStart pebs 1 0 = pebs := by
    simp [pageStart]
  constructor
  · rw [mem_pageRange, h0]
    refine ⟨by omega, ?_⟩
    unfold pageCount
    rw [h0, if_neg (by omega)]
    omega
  · rw [mem_pageRange, h1']
    refine ⟨by omega, ?_⟩
    unfold pageCount
    rw [h1', if_neg (by omega)]
    omega

theorem pages_tile_iff (hP : 0 < pebs) {portions : Nat} (hcov : volume ≤ portions * pebs) :
    Tiles {k : Nat × Nat | k.1 < portions ∧ k.2 < pages pebs} (pageRange volume pebs)
        (Set.Iio volume) ↔ pebs ≤ 1016 ∨ 1016 ∣ pebs ∨ volume ≤ pebs := by
  constructor
  · intro h
    by_contra hcon
    push Not at hcon
    obtain ⟨h1, h2, h3⟩ := hcon
    obtain ⟨hx, hx'⟩ := page_overlap h1 h2 h3
    have hportions : 1 < portions := by
      by_contra hle
      have := Nat.mul_le_mul_right pebs (show portions ≤ 1 by omega)
      omega
    have hpages : 0 < pages pebs := by
      unfold pages
      omega
    have := h.owner_unique (i := (0, pages pebs - 1)) (j := (1, 0))
      ⟨by simp; omega, by simp; omega⟩ ⟨hportions, hpages⟩ hx hx'
    simp at this
  · intro hfit
    refine Tiles.of_owner (fun x => (x / pebs, x % pebs / 1016)) ?_ ?_ ?_
    · rintro ⟨i, m⟩ hk x hx
      obtain ⟨hlo, hhi⟩ := mem_pageRange.1 hx
      have hpos : 0 < pageCount volume pebs i m := by omega
      have := page_end_le_volume i m hpos
      simp only [Set.mem_Iio]
      omega
    · intro x hx
      simp only [Set.mem_Iio] at hx
      obtain ⟨hmem, hpage, -⟩ := mem_page_of_lt hP hx
      exact ⟨⟨(Nat.div_lt_iff_lt_mul hP).2 (by omega), hpage⟩, hmem⟩
    · rintro ⟨i, m⟩ hk x hx
      have := page_owner hfit hk.2 hx
      exact Prod.ext this.1 this.2

end Ssdfs.Geometry
