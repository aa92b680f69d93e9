import Ssdfs.Lib.Checked

/-! Computations that are known to succeed under an exact condition. -/

namespace Checked

variable {E α β σ : Type}

/-- `m` succeeds if and only if `C` holds, and its result then satisfies `Q`. -/
structure Exact (m : Checked E α) (C : Prop) (Q : α → Prop) : Prop where
  succeeds : C → ∃ a, m = .ok a ∧ Q a
  only : ∀ a, m = .ok a → C

namespace Exact

variable {m : Checked E α} {f : α → Checked E β} {C C' D : Prop} {Q Q' : α → Prop} {R : β → Prop}

theorem result (h : Exact m C Q) {a : α} (hm : m = .ok a) : Q a := by
  obtain ⟨b, hb, hQ⟩ := h.succeeds (h.only a hm)
  cases hm.symm.trans hb
  exact hQ

theorem congr (h : Exact m C Q) (hC : C' ↔ C) (hQ : ∀ a, Q a → Q' a) : Exact m C' Q' where
  succeeds hc := by
    obtain ⟨a, ha, hq⟩ := h.succeeds (hC.1 hc)
    exact ⟨a, ha, hQ a hq⟩
  only a ha := hC.2 (h.only a ha)

theorem weaken (h : Exact m C Q) (hQ : ∀ a, Q a → Q' a) : Exact m C Q' := h.congr Iff.rfl hQ

theorem known (h : Exact m C Q) : Exact m C fun a => C ∧ Q a where
  succeeds hc := by
    obtain ⟨a, ha, hq⟩ := h.succeeds hc
    exact ⟨a, ha, hc, hq⟩
  only := h.only

theorem ok {a : α} (h : Q a) : Exact (.ok a : Checked E α) True Q where
  succeeds _ := ⟨a, rfl, h⟩
  only _ _ := trivial

theorem of_eq_ok {a : α} (h : m = .ok a) (hQ : Q a) : Exact m True Q where
  succeeds _ := ⟨a, h, hQ⟩
  only _ _ := trivial

theorem error {e : Fault E} : Exact (.error e : Checked E α) False Q where
  succeeds h := h.elim
  only _ ha := nomatch ha

theorem bind (h : Exact m C Q) (hf : ∀ a, Q a → Exact (f a) D R) :
    Exact (m >>= f) (C ∧ D) R where
  succeeds := by
    rintro ⟨hc, hd⟩
    obtain ⟨a, ha, hQ⟩ := h.succeeds hc
    obtain ⟨b, hb, hR⟩ := (hf a hQ).succeeds hd
    exact ⟨b, bind_eq_ok.2 ⟨a, ha, hb⟩, hR⟩
  only b hb := by
    obtain ⟨a, ha, hab⟩ := bind_eq_ok.1 hb
    exact ⟨h.only a ha, (hf a (h.result ha)).only b hab⟩

theorem bind_ok (h : Exact m True Q) (hf : ∀ a, Q a → Exact (f a) D R) : Exact (m >>= f) D R :=
  (h.bind hf).congr (by simp) fun _ hR => hR

theorem bugOn {c : Prop} [Decidable c] : Exact (bugOn E c) (¬c) fun _ => True where
  succeeds hc := ⟨(), bugOn_of_not hc, trivial⟩
  only _ h := bugOn_eq_ok.1 h

theorem forRange {f : Nat → σ → Checked E σ} {C : Nat → Prop} {I : Nat → σ → Prop} {n : Nat} {s : σ}
    (h0 : I 0 s) (hstep : ∀ i < n, ∀ t, I i t → Exact (f i t) (C i) (I (i + 1))) :
    Exact (forRange n f s) (∀ i < n, C i) (I n) := by
  induction n with
  | zero => exact (ok h0).congr (by simp) fun _ h => h
  | succ n ih =>
    have hrest := ih fun i hi => hstep i (Nat.lt_succ_of_lt hi)
    refine (hrest.bind fun t ht => hstep n (Nat.lt_succ_self n) t ht).congr ?_ fun _ h => h
    constructor
    · exact fun h => ⟨fun i hi => h i (Nat.lt_succ_of_lt hi), h n (Nat.lt_succ_self n)⟩
    · rintro ⟨h, hn⟩ i hi
      rcases Nat.lt_succ_iff_lt_or_eq.1 hi with hlt | rfl
      · exact h i hlt
      · exact hn

theorem forRange_once {g : σ → Checked E σ} {I : σ → Prop} {n : Nat} {s : σ} (h : Exact (g s) C I)
    (hfix : ∀ t, I t → g t = .ok t) : Exact (Checked.forRange (n + 1) (fun _ => g) s) C I := by
  induction n with
  | zero => exact h
  | succ n ih =>
    refine (ih.bind (D := True) fun t ht => of_eq_ok (hfix t ht) ht).congr ?_ fun _ h => h
    rw [and_true]

end Exact

end Checked
