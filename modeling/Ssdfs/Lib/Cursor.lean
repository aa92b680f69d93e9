import Ssdfs.Lib.Checked

/-! Sources that are asked for one value after another until they report their end. -/

namespace Checked

variable {E α σ : Type}

/-- `next` returns these values and leaves the source in this state. -/
def Yields (next : σ → Checked E (α × σ)) : σ → List α → σ → Prop
  | s, [], t => s = t
  | s, a :: as, t => ∃ s', next s = .ok (a, s') ∧ Yields next s' as t

/-- `next` returns these values and only then reports the end. -/
def Drains (next : σ → Checked E (α × σ)) (stop : E) (s : σ) (as : List α) : Prop :=
  ∃ t, Yields next s as t ∧ next t = .error (.code stop)

variable {next : σ → Checked E (α × σ)} {stop : E} {s t : σ} {a : α} {as bs : List α}

theorem yields_append {bs : List α} :
    Yields next s (as ++ bs) t ↔ ∃ u, Yields next s as u ∧ Yields next u bs t := by
  induction as generalizing s with
  | nil => simp [Yields]
  | cons a as ih =>
    simp only [List.cons_append, Yields, ih]
    constructor
    · rintro ⟨s', hs, u, hu, ht⟩
      exact ⟨u, ⟨s', hs, hu⟩, ht⟩
    · rintro ⟨u, ⟨s', hs, hu⟩, ht⟩
      exact ⟨s', hs, u, hu, ht⟩

theorem yields_range {f : Nat → α} (I : Nat → σ → Prop) {n : Nat} (h0 : I 0 s)
    (hstep : ∀ k < n, ∀ t, I k t → ∃ t', next t = .ok (f k, t') ∧ I (k + 1) t') :
    ∃ t, Yields next s ((List.range n).map f) t ∧ I n t := by
  induction n with
  | zero => exact ⟨s, rfl, h0⟩
  | succ n ih =>
    obtain ⟨u, hu, hI⟩ := ih fun k hk => hstep k (Nat.lt_succ_of_lt hk)
    obtain ⟨t, ht, hI'⟩ := hstep n (Nat.lt_succ_self n) u hI
    refine ⟨t, ?_, hI'⟩
    rw [List.range_succ, List.map_append, yields_append]
    exact ⟨u, hu, t, ht, rfl⟩

theorem drains_of_yields (h : Yields next s as t) (hd : Drains next stop s bs) :
    ∃ cs, Drains next stop t cs := by
  induction as generalizing s bs with
  | nil =>
    cases h
    exact ⟨bs, hd⟩
  | cons a as ih =>
    obtain ⟨s', hs, hrest⟩ := h
    obtain ⟨u, hu, hend⟩ := hd
    cases bs with
    | nil =>
      cases hu
      rw [hs] at hend
      cases hend
    | cons b bs =>
      obtain ⟨s'', hs'', hu⟩ := hu
      rw [hs] at hs''
      obtain ⟨rfl, rfl⟩ := Prod.mk.inj (Except.ok.inj hs'')
      exact ih hrest ⟨u, hu, hend⟩

theorem drains_of_stop (h : next s = .error (.code stop)) (hd : Drains next stop s as) :
    as = [] := by
  obtain ⟨t, ht, -⟩ := hd
  cases as with
  | nil => rfl
  | cons a as =>
    obtain ⟨s', hs, -⟩ := ht
    rw [h] at hs
    cases hs

theorem not_drains_of_error {e : Fault E} (h : next s = .error e) (he : e ≠ .code stop) :
    ¬Drains next stop s as := by
  rintro ⟨t, ht, hend⟩
  cases as with
  | nil =>
    cases ht
    rw [h] at hend
    exact he (Except.error.inj hend)
  | cons a as =>
    obtain ⟨s', hs, -⟩ := ht
    rw [h] at hs
    cases hs

theorem not_drains_of_fixed (h : next s = .ok (a, s)) : ¬Drains next stop s as := by
  induction as with
  | nil =>
    rintro ⟨t, ht, hend⟩
    cases ht
    rw [h] at hend
    cases hend
  | cons b as ih =>
    rintro ⟨t, ⟨s', hs, ht⟩, hend⟩
    rw [h] at hs
    obtain ⟨rfl, rfl⟩ := Prod.mk.inj (Except.ok.inj hs)
    exact ih ⟨t, ht, hend⟩

end Checked
