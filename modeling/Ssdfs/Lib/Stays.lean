import Ssdfs.Lib.Exact

/-! Computations whose accesses all stay inside their buffers, whatever else may stop them. -/

namespace Checked

variable {E α β σ : Type}

/-- No access of `m` strays, and a result that there is satisfies `Q`. -/
structure Stays (m : Checked E α) (Q : α → Prop) : Prop where
  inside : m ≠ .error .stray
  result : ∀ a, m = .ok a → Q a

namespace Stays

variable {m : Checked E α} {f : α → Checked E β} {Q : α → Prop} {R : β → Prop}

theorem ok {a : α} (h : Q a) : Stays (.ok a : Checked E α) Q where
  inside := nofun
  result _ ha := by
    cases ha
    exact h

theorem error {e : Fault E} (h : e ≠ .stray) : Stays (.error e : Checked E α) Q where
  inside he := h (Except.error.inj he)
  result := nofun

theorem of_exact {C : Prop} (h : Exact m C Q) (hc : C) : Stays m Q := by
  obtain ⟨a, ha, hQ⟩ := h.succeeds hc
  rw [ha]
  exact ok hQ

theorem bind (h : Stays m Q) (hf : ∀ a, Q a → Stays (f a) R) : Stays (m >>= f) R := by
  cases hm : m with
  | error e => exact error fun he => h.inside (hm.trans (congrArg Except.error he))
  | ok a => exact hf a (h.result a hm)

theorem bugOn {c : Prop} [Decidable c] : Stays (bugOn E c) fun _ => ¬c := by
  by_cases hc : c
  · rw [bugOn_of hc]
    exact error nofun
  · rw [bugOn_of_not hc]
    exact ok hc

theorem forRange {f : Nat → σ → Checked E σ} {I : Nat → σ → Prop} {n : Nat} {s : σ} (h0 : I 0 s)
    (hstep : ∀ i < n, ∀ t, I i t → Stays (f i t) (I (i + 1))) : Stays (forRange n f s) (I n) := by
  induction n with
  | zero => exact ok h0
  | succ n ih =>
    exact (ih fun i hi => hstep i (Nat.lt_succ_of_lt hi)).bind (hstep n (Nat.lt_succ_self n))

end Stays

/-- Nothing but an access outside of its buffer stops `m`. -/
def OnlyStrays (m : Checked E α) : Prop := ∀ e, m = .error e → e = .stray

namespace OnlyStrays

variable {m : Checked E α} {f : α → Checked E β}

theorem ok {a : α} : OnlyStrays (.ok a : Checked E α) := nofun

theorem bind (h : OnlyStrays m) (hf : ∀ a, OnlyStrays (f a)) : OnlyStrays (m >>= f) := by
  intro e he
  cases hm : m with
  | error e' =>
    rw [hm] at he
    cases he
    exact h _ hm
  | ok a =>
    rw [hm] at he
    exact hf a e he

theorem holds_of_stays {C : Prop} {Q : β → Prop} {g : β → Checked E α} {P : α → Prop}
    {m : Checked E β} (h : OnlyStrays m) (hexact : Exact m C Q) (hstays : Stays (m >>= g) P) : C := by
  cases hm : m with
  | error e =>
    rw [hm, h e hm] at hstays
    exact absurd rfl hstays.inside
  | ok b => exact hexact.only b hm

end OnlyStrays

end Checked
