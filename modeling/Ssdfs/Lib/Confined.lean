import Ssdfs.Lib.Loop
import Ssdfs.Lib.Report
import Ssdfs.Lib.Wire

/-! Computations over memory of which it is known when they stay inside it, and when they then succeed;
and the loops of such computations. -/

namespace Checked

variable {E α β σ : Type}

/-- `m` ends with a result or with a code if and only if `R` holds, and then succeeds, with a result that
satisfies `Q`, if and only if `A` holds. -/
structure Confined (m : Checked E α) (R A : Prop) (Q : α → Prop) : Prop where
  returns : Returns m ↔ R
  succeeds : R → A → ∃ a, m = .ok a ∧ Q a
  refuses : R → ¬A → ∃ e, m = .error (.code e)

namespace Confined

variable {m : Checked E α} {f : α → Checked E β} {R R' A A' : Prop} {Q Q' : α → Prop} {T : β → Prop}
  {a : α} {e : E}

theorem congr (h : Confined m R A Q) (hR : R' ↔ R) (hA : R → (A' ↔ A)) (hQ : ∀ a, Q a → Q' a) :
    Confined m R' A' Q' where
  returns := h.returns.trans hR.symm
  succeeds hr ha := by
    obtain ⟨a, hm, hq⟩ := h.succeeds (hR.1 hr) ((hA (hR.1 hr)).1 ha)
    exact ⟨a, hm, hQ a hq⟩
  refuses hr ha := h.refuses (hR.1 hr) fun hnot => ha ((hA (hR.1 hr)).2 hnot)

theorem ok (h : Q a) : Confined (.ok a : Checked E α) True True Q where
  returns := iff_of_true returns_ok trivial
  succeeds _ _ := ⟨a, rfl, h⟩
  refuses _ h := absurd trivial h

theorem code : Confined (.error (.code e) : Checked E α) True False Q where
  returns := iff_of_true returns_code trivial
  succeeds _ h := h.elim
  refuses _ _ := ⟨e, rfl⟩

theorem strays (hm : ¬Returns m) (hR : ¬R) : Confined m R A Q where
  returns := iff_of_false hm hR
  succeeds h := absurd h hR
  refuses h := absurd h hR

/-- An access that strays where `R` does not hold. -/
theorem access [Decidable R] (h : Q a) :
    Confined (if R then .ok a else .error .stray : Checked E α) R True Q where
  returns := returns_access
  succeeds hr _ := ⟨a, if_pos hr, h⟩
  refuses _ hnot := absurd trivial hnot

theorem bind (h : Confined m R A Q) (hf : ∀ a, R → A → Q a → Confined (f a) R' A' T) :
    Confined (m >>= f) (R ∧ (A → R')) (A ∧ A') T where
  returns := by
    rw [returns_bind, h.returns]
    refine and_congr_right fun hr => ?_
    constructor
    · intro hrest ha
      obtain ⟨a, hm, hq⟩ := h.succeeds hr ha
      exact (hf a hr ha hq).returns.1 (hrest a hm)
    · intro hrest a hm
      by_cases ha : A
      · obtain ⟨b, hb, hq⟩ := h.succeeds hr ha
        cases hm.symm.trans hb
        exact (hf a hr ha hq).returns.2 (hrest ha)
      · obtain ⟨e, he⟩ := h.refuses hr ha
        cases hm.symm.trans he
  succeeds := by
    rintro ⟨hr, hrest⟩ ⟨ha, ha'⟩
    obtain ⟨a, rfl, hq⟩ := h.succeeds hr ha
    exact (hf a hr ha hq).succeeds (hrest ha) ha'
  refuses := by
    rintro ⟨hr, hrest⟩ hnot
    by_cases ha : A
    · obtain ⟨a, rfl, hq⟩ := h.succeeds hr ha
      exact (hf a hr ha hq).refuses (hrest ha) fun ha' => hnot ⟨ha, ha'⟩
    · obtain ⟨e, rfl⟩ := h.refuses hr ha
      exact ⟨e, rfl⟩

theorem bind_access (h : Confined m R True Q) (hf : ∀ a, R → Q a → Confined (f a) R' A' T) :
    Confined (m >>= f) (R ∧ R') A' T :=
  (h.bind fun a hr _ hq => hf a hr hq).congr (and_congr_right fun _ => true_imp_iff.symm)
    (fun _ => (true_and _).symm.to_iff) fun _ h => h

theorem forRange {f : Nat → σ → Checked E σ} {R A : Nat → Prop} (I : Nat → σ → Prop) {n : Nat} {s : σ}
    (h0 : I 0 s) (hstep : ∀ i < n, ∀ t, I i t → Confined (f i t) (R i) (A i) (I (i + 1))) :
    Confined (Checked.forRange n f s) (∀ i < n, (∀ j < i, A j) → R i) (∀ i < n, A i) (I n) := by
  induction n with
  | zero => exact (ok h0).congr (iff_of_true nofun trivial) (fun _ => iff_of_true nofun trivial) fun _ h => h
  | succ n ih =>
    have hn := ih fun i hi => hstep i (Nat.lt_succ_of_lt hi)
    refine (hn.bind fun t _ _ ht => hstep n (Nat.lt_succ_self n) t ht).congr ?_ (fun _ => ?_) fun _ h => h
    · exact Nat.forall_lt_succ_right
    · exact Nat.forall_lt_succ_right

end Confined

/-- `m` does not end with a code. -/
def Unrefused (m : Checked E α) : Prop := ∀ e, m ≠ .error (.code e)

namespace Unrefused

variable {m : Checked E α} {f : α → Checked E β} {a : α}

theorem ok : Unrefused (.ok a : Checked E α) := fun _ => nofun

theorem access {c : Prop} [Decidable c] : Unrefused (if c then .ok a else .error .stray : Checked E α) :=
  fun e h => by
    by_cases hc : c
    · rw [if_pos hc] at h
      cases h
    · rw [if_neg hc] at h
      cases h

theorem bind (h : Unrefused m) (hf : ∀ a, m = .ok a → Unrefused (f a)) : Unrefused (m >>= f) :=
  fun e he => by
    cases m with
    | ok a => exact hf a rfl e he
    | error g => exact h e (congrArg Except.error (Except.error.inj he))

theorem forRange {f : Nat → σ → Checked E σ} (I : Nat → σ → Prop) {n : Nat} {s : σ} (h0 : I 0 s)
    (hstep : ∀ i < n, ∀ t, I i t → Unrefused (f i t) ∧ ∀ t', f i t = .ok t' → I (i + 1) t') :
    Unrefused (Checked.forRange n f s) := by
  induction n with
  | zero => exact ok
  | succ n ih =>
    have hrest := fun i hi => hstep i (Nat.lt_succ_of_lt hi)
    refine (ih hrest).bind fun t ht => (hstep n (Nat.lt_succ_self n) t ?_).1
    exact forRange_ind I ht h0 fun i hi t t' hI => (hrest i hi t hI).2 t'

end Unrefused

/-- The rounds from `s₀` come to `s`. -/
inductive Reaches (body : σ → Checked E (Round σ α)) (s₀ : σ) : σ → Prop
  | start : Reaches body s₀ s₀
  | again {s s' : σ} : Reaches body s₀ s → body s = .ok (.again s') → Reaches body s₀ s'

variable {body : σ → Checked E (Round σ α)} {s s₀ : σ} {fuel : Nat}

theorem Reaches.head {s' : σ} (h : body s₀ = .ok (.again s')) (hrest : Reaches body s' s) :
    Reaches body s₀ s := by
  induction hrest with
  | start => exact .again .start h
  | again _ hs ih => exact .again ih hs

theorem Reaches.eq_start {a : α} (h : Reaches body s₀ s) (hleave : body s₀ = .ok (.leave a)) : s = s₀ := by
  induction h with
  | start => rfl
  | again _ hagain ih =>
    subst ih
    cases hleave.symm.trans hagain

theorem Reaches.returns (h : Reaches body s₀ s) (hloop : ∃ fuel, Returns (loop body fuel s₀)) :
    Returns (body s) := by
  have hrest : ∃ fuel, Returns (loop body fuel s) := by
    induction h with
    | start => exact hloop
    | again _ hs ih =>
      obtain ⟨fuel, hfuel⟩ := ih
      cases fuel with
      | zero => exact absurd hfuel (not_returns_of_ne nofun)
      | succ fuel => exact ⟨fuel, loop_again hs ▸ hfuel⟩
  obtain ⟨fuel, hfuel⟩ := hrest
  cases fuel with
  | zero => exact absurd hfuel (not_returns_of_ne nofun)
  | succ fuel => exact (returns_bind.1 hfuel).1

theorem loop_returns_of (μ : σ → Nat) (hround : ∀ s, Reaches body s₀ s → Returns (body s))
    (hstep : ∀ s s', Reaches body s₀ s → body s = .ok (.again s') → μ s' < μ s) :
    ∃ fuel, Returns (loop body fuel s₀) := by
  induction hμ : μ s₀ using Nat.strongRecOn generalizing s₀ with
  | _ n ih =>
    match hs : body s₀ with
    | .error e =>
      have hreturns := hround s₀ .start
      rw [hs] at hreturns
      refine ⟨1, ?_⟩
      rw [loop_error hs]
      exact fun f hf => hreturns f (congrArg Except.error (Except.error.inj hf))
    | .ok (.leave a) =>
      refine ⟨1, ?_⟩
      rw [loop_leave hs]
      exact returns_ok
    | .ok (.again s') =>
      obtain ⟨fuel, hfuel⟩ := ih (μ s') (hμ ▸ hstep s₀ s' .start hs) (fun s h => hround s (h.head hs))
        (fun s t h => hstep s t (h.head hs)) rfl
      refine ⟨fuel + 1, ?_⟩
      rw [loop_again hs]
      exact hfuel

end Checked

namespace Buf

variable {E α β : Type} {b : Buf} {w : Wire α} {off n : Nat}

theorem get_bind_confined {f : α → Checked E β} {R A : Prop} {Q : β → Prop}
    (hf : off + w.size ≤ b.size → Checked.Confined (f (w.read b.data off)) R A Q) :
    Checked.Confined (b.get E w off >>= f) (off + w.size ≤ b.size ∧ R) A Q := by
  by_cases hfit : off + w.size ≤ b.size
  · rw [get_ok hfit, Checked.ok_bind]
    exact (hf hfit).congr (and_iff_right hfit) (fun _ => Iff.rfl) fun _ h => h
  · have hget : b.get E w off = .error .stray := if_neg hfit
    rw [hget, Checked.error_bind]
    exact .strays Checked.not_returns_stray fun h => hfit h.1

theorem get_confined : Checked.Confined (b.get E w off) (off + w.size ≤ b.size) True
    (· = w.read b.data off) :=
  Checked.Confined.access rfl

theorem getArray_confined : Checked.Confined (b.getArray E w off n) (off + n * w.size ≤ b.size) True
    fun _ => True :=
  Checked.Confined.access trivial

end Buf

namespace Report

variable {E ι σ : Type}

/-- A procedure ends with a report if and only if `R` holds, and then it settles. -/
structure Contained (r : Checked E (Report E σ)) (R C : Prop) (Q : σ → Prop) : Prop where
  returns : Checked.Returns r ↔ R
  settles : R → Settles r C Q

theorem each_singleton {f : ι → σ → Checked E (Report E σ)} {i : ι} {s : σ} : each f [i] s = f i s := by
  change andThen (f i s) (each f []) = f i s
  match f i s with
  | .error f => rfl
  | .ok (none, t) => rfl
  | .ok (some e, t) => rfl

namespace Contained

variable {r : Checked E (Report E σ)} {g : σ → Checked E (Report E σ)} {s : σ} {R R' C C' : Prop}
  {Q Q' T : σ → Prop}

theorem congr (h : Contained r R C Q) (hR : R' ↔ R) (hC : R → (C' ↔ C)) (hQ : ∀ s, Q s → Q' s) :
    Contained r R' C' Q' where
  returns := h.returns.trans hR.symm
  settles hr := (h.settles (hR.1 hr)).congr (hC (hR.1 hr)) hQ

theorem of_settles (h : Settles r C Q) : Contained r True C Q where
  returns := by
    refine iff_of_true ?_ trivial
    by_cases hc : C
    · obtain ⟨s, rfl, -⟩ := h.done hc
      exact Checked.returns_ok
    · obtain ⟨e, s, rfl⟩ := h.code hc
      exact Checked.returns_ok
  settles _ := h

theorem of_done (h : Contained r R C Q) (hr : r = .ok (none, s)) : R ∧ C ∧ Q s := by
  subst hr
  have hR := h.returns.1 Checked.returns_ok
  by_cases hc : C
  · obtain ⟨t, ht, hq⟩ := (h.settles hR).done hc
    cases ht
    exact ⟨hR, hc, hq⟩
  · obtain ⟨e, t, ht⟩ := (h.settles hR).code hc
    cases ht

theorem strays (hr : ¬Checked.Returns r) (hR : ¬R) : Contained r R C Q where
  returns := iff_of_false hr hR
  settles h := absurd h hR

theorem andThen (h : Contained r R C Q) (hg : ∀ s, Q s → Contained (g s) R' C' T) :
    Contained (Report.andThen r g) (R ∧ (C → R')) (C ∧ C') T where
  returns := by
    by_cases hr : R
    · rw [and_iff_right hr]
      by_cases hc : C
      · obtain ⟨s, rfl, hq⟩ := (h.settles hr).done hc
        exact (hg s hq).returns.trans ⟨fun h _ => h, fun h => h hc⟩
      · obtain ⟨e, s, rfl⟩ := (h.settles hr).code hc
        exact iff_of_true Checked.returns_ok fun h => absurd h hc
    · refine iff_of_false (fun hreturns => hr (h.returns.1 fun f hf => ?_)) fun h => hr h.1
      subst hf
      exact hreturns f rfl
  settles := by
    rintro ⟨hr, hrest⟩
    constructor
    · rintro ⟨hc, hc'⟩
      obtain ⟨s, rfl, hq⟩ := (h.settles hr).done hc
      exact ((hg s hq).settles (hrest hc)).done hc'
    · intro hnot
      by_cases hc : C
      · obtain ⟨s, rfl, hq⟩ := (h.settles hr).done hc
        exact ((hg s hq).settles (hrest hc)).code fun hc' => hnot ⟨hc, hc'⟩
      · obtain ⟨e, s, rfl⟩ := (h.settles hr).code hc
        exact ⟨e, s, rfl⟩

theorem range {f : Nat → σ → Checked E (Report E σ)} {A G : Nat → Prop} (I : Nat → σ → Prop)
    {n : Nat} (h0 : I 0 s)
    (hstep : ∀ i < n, ∀ t, I i t → Contained (f i t) (A i) (G i) (I (i + 1))) :
    Contained (each f (List.range n) s) (∀ i < n, (∀ j < i, G j) → A i) (∀ i < n, G i) (I n) := by
  induction n with
  | zero =>
    exact (of_settles (.ok h0)).congr (iff_of_true nofun trivial) (fun _ => iff_of_true nofun trivial)
      fun _ h => h
  | succ n ih =>
    rw [List.range_succ, each_append]
    refine ((ih fun i hi => hstep i (Nat.lt_succ_of_lt hi)).andThen fun t ht => ?_).congr
      (R := (∀ i < n, (∀ j < i, G j) → A i) ∧ ((∀ i < n, G i) → A n))
      (C := (∀ i < n, G i) ∧ G n) Nat.forall_lt_succ_right (fun _ => Nat.forall_lt_succ_right)
      fun _ h => h
    rw [each_singleton]
    exact hstep n (Nat.lt_succ_self n) t ht

end Contained

end Report
