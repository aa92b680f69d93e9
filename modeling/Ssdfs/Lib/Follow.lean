import Ssdfs.Lib.Checked

/-! Chains of a partial step function: what is reached in a number of steps, and the last link. -/

/-- `c` is `n` steps behind `a`. -/
inductive Follows {α : Type} (next : α → Option α) : Nat → α → α → Prop
  | refl (a : α) : Follows next 0 a a
  | step {n : Nat} {a b c : α} (h : next a = some b) (rest : Follows next n b c) :
      Follows next (n + 1) a c

namespace Follows

variable {α : Type} {next : α → Option α} {n m : Nat} {a b c z : α}

/-- The chain from `a` ends in `z`, behind `n` steps. -/
structure Last (next : α → Option α) (n : Nat) (a z : α) : Prop where
  follows : Follows next n a z
  stop : next z = none

theorem trans (h : Follows next n a b) (h' : Follows next m b c) : Follows next (n + m) a c := by
  induction h with
  | refl a => rwa [Nat.zero_add]
  | step hb _ ih =>
    rw [Nat.succ_add]
    exact step hb (ih h')

theorem le_of_last (h : Follows next m a b) (hlast : Last next n a z) : m ≤ n := by
  obtain ⟨hfollows, hstop⟩ := hlast
  induction hfollows generalizing m with
  | refl z =>
    cases h with
    | refl => exact Nat.le_refl 0
    | step hb _ => exact absurd (hstop.symm.trans hb) (by simp)
  | step hb _ ih =>
    cases h with
    | refl => exact Nat.zero_le _
    | step hb' rest =>
      cases hb.symm.trans hb'
      exact Nat.succ_le_succ (ih rest hstop)

theorem Last.unique (h : Last next n a b) (h' : Last next m a z) : n = m ∧ b = z := by
  obtain ⟨hfollows, hstop⟩ := h
  induction hfollows generalizing m with
  | refl b =>
    obtain ⟨hfollows', -⟩ := h'
    cases hfollows' with
    | refl => exact ⟨rfl, rfl⟩
    | step hb _ => exact absurd (hstop.symm.trans hb) (by simp)
  | step hb _ ih =>
    obtain ⟨hfollows', hstop'⟩ := h'
    cases hfollows' with
    | refl => exact absurd (hstop'.symm.trans hb) (by simp)
    | step hb' rest =>
      cases hb.symm.trans hb'
      obtain ⟨rfl, hz⟩ := ih ⟨rest, hstop'⟩ hstop
      exact ⟨rfl, hz⟩

theorem last_or_follows (next : α → Option α) (n : Nat) (a : α) :
    (∃ m z, m < n ∧ Last next m a z) ∨ ∃ c, Follows next n a c := by
  induction n generalizing a with
  | zero => exact .inr ⟨a, refl a⟩
  | succ n ih =>
    match hb : next a with
    | none => exact .inl ⟨0, a, Nat.zero_lt_succ n, refl a, hb⟩
    | some b =>
      rcases ih b with ⟨m, z, hlt, hfollows, hstop⟩ | ⟨c, hc⟩
      · exact .inl ⟨m + 1, z, Nat.succ_lt_succ hlt, step hb hfollows, hstop⟩
      · exact .inr ⟨c, step hb hc⟩

theorem not_last_of_cycle (hb : Follows next n a b) (hcycle : Follows next (m + 1) b b) {k : Nat} :
    ¬Last next k a z := by
  have hround : ∀ j, Follows next (n + j * (m + 1)) a b := fun j => by
    induction j with
    | zero => rwa [Nat.zero_mul, Nat.add_zero]
    | succ j ih =>
      rw [Nat.succ_mul, ← Nat.add_assoc]
      exact ih.trans hcycle
  intro hlast
  have hle := (hround (k + 1)).le_of_last hlast
  have hmul : k + 1 ≤ (k + 1) * (m + 1) := Nat.le_mul_of_pos_right _ (Nat.zero_lt_succ m)
  omega

theorem ind (I : α → Prop) (h : Follows next n a c) (h0 : I a)
    (hstep : ∀ x y, I x → next x = some y → I y) : I c := by
  induction h with
  | refl a => exact h0
  | step hb _ ih => exact ih (hstep _ _ h0 hb)

end Follows
