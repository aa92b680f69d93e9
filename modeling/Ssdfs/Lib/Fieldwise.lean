import Mathlib.Data.List.Forall2
import Mathlib.Data.List.Lex
import Mathlib.Tactic.Common

/-! Limits put on the fields of a record one by one, and the lexicographic order of the records. -/

/-- A field with its values and the largest one that is let through. -/
structure Bound where
  lo : Nat
  hi : Nat
  limit : Nat

namespace Bound

def Values (bs : List Bound) (xs : List Nat) : Prop :=
  List.Forall₂ (fun b x => b.lo ≤ x ∧ x ≤ b.hi) bs xs

def Inside (bs : List Bound) (xs : List Nat) : Prop := List.Forall₂ (fun b x => x ≤ b.limit) bs xs

/-- With a record, the limits let everything before it through. -/
def Closed (bs : List Bound) : Prop :=
  ∀ xs ys, Values bs xs → Values bs ys → xs ≤ ys → Inside bs ys → Inside bs xs

/-- A limit lets nothing through, or behind a field with values below its limit no limit matters. -/
def Settled (bs : List Bound) : Prop :=
  (∃ b ∈ bs, b.limit < b.lo) ∨ bs.Pairwise fun a b => a.limit ≤ a.lo ∨ b.hi ≤ b.limit

instance (bs : List Bound) : Decidable (Settled bs) :=
  inferInstanceAs (Decidable ((∃ b ∈ bs, b.limit < b.lo) ∨ _))

variable {b : Bound} {bs : List Bound} {xs ys : List Nat}

theorem record_le_iff {x y : Nat} : x :: xs ≤ y :: ys ↔ x < y ∨ x = y ∧ xs ≤ ys := by
  rw [← not_lt, List.cons_lt_cons_iff, not_or, Nat.not_lt, not_and, not_lt, le_iff_lt_or_eq]
  constructor
  · rintro ⟨hlt | rfl, hrest⟩
    · exact .inl hlt
    · exact .inr ⟨rfl, hrest rfl⟩
  · rintro (hlt | ⟨rfl, hrest⟩)
    · exact ⟨.inl hlt, fun heq => absurd heq.symm (Nat.ne_of_lt hlt)⟩
    · exact ⟨.inr rfl, fun _ => hrest⟩

theorem not_inside_of_low (hb : b ∈ bs) (hlow : b.limit < b.lo) (hxs : Values bs xs) :
    ¬Inside bs xs := by
  intro hin
  induction hxs with
  | nil => cases hb
  | cons hx _ ih =>
    cases hin with
    | cons hx' hin' =>
      rcases List.mem_cons.1 hb with rfl | hb'
      · omega
      · exact ih hb' hin'

theorem inside_of_unlimited (h : ∀ b ∈ bs, b.hi ≤ b.limit) (hxs : Values bs xs) : Inside bs xs := by
  induction hxs with
  | nil => exact .nil
  | cons hx _ ih =>
    exact .cons (Nat.le_trans hx.2 (h _ (List.mem_cons_self ..)))
      (ih fun b hb => h b (List.mem_cons_of_mem _ hb))

theorem closed_of_pairwise (h : bs.Pairwise fun a b => a.limit ≤ a.lo ∨ b.hi ≤ b.limit) :
    Closed bs := by
  intro xs ys hxs hys hle hin
  induction hxs generalizing ys with
  | nil => exact .nil
  | @cons b x bs xs hx hxs ih =>
    cases hys with
    | @cons _ y _ ys hy hys =>
      obtain ⟨hlimit, hpairs⟩ := List.pairwise_cons.1 h
      cases hin with
      | cons hyin hysin =>
        rcases record_le_iff.1 hle with hlt | ⟨rfl, hrest⟩
        · -- the first fields decide, and the later ones are not limited
          refine .cons (by omega) (inside_of_unlimited (fun c hc => ?_) hxs)
          exact (hlimit c hc).resolve_left (by omega)
        · exact .cons hyin (ih hpairs ys hys hrest hysin)

theorem closed_of_settled (h : Settled bs) : Closed bs := by
  rcases h with ⟨b, hb, hlow⟩ | hpairs
  · exact fun xs ys _ hys _ hin => absurd hin (not_inside_of_low hb hlow hys)
  · exact closed_of_pairwise hpairs

theorem values_lo (h : ∀ b ∈ bs, b.lo ≤ b.hi) : Values bs (bs.map Bound.lo) := by
  induction bs with
  | nil => exact .nil
  | cons b bs ih =>
    exact .cons ⟨Nat.le_refl _, h b (List.mem_cons_self ..)⟩
      (ih fun c hc => h c (List.mem_cons_of_mem _ hc))

theorem inside_lo (h : ∀ b ∈ bs, b.lo ≤ b.limit) : Inside bs (bs.map Bound.lo) := by
  induction bs with
  | nil => exact .nil
  | cons b bs ih =>
    exact .cons (h b (List.mem_cons_self ..)) (ih fun c hc => h c (List.mem_cons_of_mem _ hc))

theorem exists_outside (h : ∀ b ∈ bs, b.lo ≤ b.hi) (hb : b ∈ bs) (hlimit : b.limit < b.hi) :
    ∃ xs, Values bs xs ∧ ¬Inside bs xs := by
  induction bs with
  | nil => cases hb
  | cons c bs ih =>
    have hrest : ∀ d ∈ bs, d.lo ≤ d.hi := fun d hd => h d (List.mem_cons_of_mem _ hd)
    have hc := h c (List.mem_cons_self ..)
    rcases List.mem_cons.1 hb with rfl | hb'
    · refine ⟨b.hi :: bs.map Bound.lo, .cons ⟨hc, Nat.le_refl _⟩ (values_lo hrest), fun hin => ?_⟩
      cases hin with
      | cons hx _ => omega
    · obtain ⟨xs, hxs, hout⟩ := ih hrest hb'
      refine ⟨c.lo :: xs, .cons ⟨Nat.le_refl _, hc⟩ hxs, fun hin => ?_⟩
      cases hin with
      | cons _ hin' => exact hout hin'

theorem not_closed_of_not_pairwise (hvalues : ∀ b ∈ bs, b.lo < b.hi)
    (hlow : ∀ b ∈ bs, b.lo ≤ b.limit)
    (h : ¬bs.Pairwise fun a b => a.limit ≤ a.lo ∨ b.hi ≤ b.limit) :
    ∃ xs ys, Values bs xs ∧ Values bs ys ∧ xs ≤ ys ∧ Inside bs ys ∧ ¬Inside bs xs := by
  induction bs with
  | nil => exact absurd .nil h
  | cons b bs ih =>
    have hb := hvalues b (List.mem_cons_self ..)
    have hrest : ∀ c ∈ bs, c.lo < c.hi := fun c hc => hvalues c (List.mem_cons_of_mem _ hc)
    have hlow' : ∀ c ∈ bs, c.lo ≤ c.limit := fun c hc => hlow c (List.mem_cons_of_mem _ hc)
    by_cases hhead : ∀ c ∈ bs, b.limit ≤ b.lo ∨ c.hi ≤ c.limit
    · obtain ⟨xs, ys, hxs, hys, hle, hin, hout⟩ :=
        ih hrest hlow' fun hpairs => h (List.pairwise_cons.2 ⟨hhead, hpairs⟩)
      refine ⟨b.lo :: xs, b.lo :: ys, .cons ⟨Nat.le_refl _, Nat.le_of_lt hb⟩ hxs,
        .cons ⟨Nat.le_refl _, Nat.le_of_lt hb⟩ hys, record_le_iff.2 (.inr ⟨rfl, hle⟩),
        .cons (hlow b (List.mem_cons_self ..)) hin, fun hin' => ?_⟩
      cases hin' with
      | cons _ hin' => exact hout hin'
    · -- a smaller first value admits any later ones
      push Not at hhead
      obtain ⟨c, hc, hroom, hlimit⟩ := hhead
      obtain ⟨xs, hxs, hout⟩ := exists_outside (fun d hd => Nat.le_of_lt (hrest d hd)) hc hlimit
      refine ⟨b.lo :: xs, (b.lo + 1) :: bs.map Bound.lo, .cons ⟨Nat.le_refl _, Nat.le_of_lt hb⟩ hxs,
        .cons ⟨Nat.le_succ _, hb⟩ (values_lo fun d hd => Nat.le_of_lt (hrest d hd)),
        record_le_iff.2 (.inl (Nat.lt_succ_self _)), .cons hroom (inside_lo hlow'),
        fun hin => ?_⟩
      cases hin with
      | cons _ hin' => exact hout hin'

theorem exists_of_not_settled (hvalues : ∀ b ∈ bs, b.lo < b.hi) (h : ¬Settled bs) :
    ∃ xs ys, Values bs xs ∧ Values bs ys ∧ xs ≤ ys ∧ Inside bs ys ∧ ¬Inside bs xs := by
  obtain ⟨hlow, hpairs⟩ := not_or.1 h
  refine not_closed_of_not_pairwise hvalues (fun b hb => ?_) hpairs
  exact Nat.not_lt.1 fun hlt => hlow ⟨b, hb, hlt⟩

end Bound
