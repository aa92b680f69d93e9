import Mathlib.Data.Set.BooleanAlgebra
import Mathlib.Data.Set.Pairwise.Basic
import Mathlib.Order.CompletePartialOrder
import Mathlib.Order.SetNotation

/-! Users that take their cells of a shared map one after another. -/

variable {ι β : Type}

/-- The users `done` have got their cells and no cell twice. -/
structure Shares (cells : ι → Set β) (done : Set ι) (taken : β → Bool) : Prop where
  taken : ∀ i ∈ done, ∀ b ∈ cells i, taken b = true
  disjoint : done.PairwiseDisjoint cells

namespace Shares

variable {cells : ι → Set β} {done : Set ι} {taken taken' : β → Bool} {i j : ι}

theorem empty : Shares cells ∅ taken :=
  ⟨fun _ h => h.elim, Set.pairwiseDisjoint_empty⟩

theorem insert (h : Shares cells done taken) (hfree : ∀ b ∈ cells i, taken b = false)
    (hkeep : ∀ b, taken b = true → taken' b = true) (hown : ∀ b ∈ cells i, taken' b = true) :
    Shares cells (Insert.insert i done) taken' := by
  constructor
  · rintro k (rfl | hk) b hb
    · exact hown b hb
    · exact hkeep b (h.taken k hk b hb)
  · refine h.disjoint.insert fun k hk _ => ?_
    rw [Set.disjoint_left]
    intro b hb hb'
    have hused := h.taken k hk b hb'
    rw [hfree b hb] at hused
    cases hused

theorem eq_of_mem (h : Shares cells done taken) (hi : i ∈ done) (hj : j ∈ done) {b : β}
    (hb : b ∈ cells i) (hb' : b ∈ cells j) : i = j := by
  by_contra hne
  exact Set.disjoint_left.1 (h.disjoint hi hj hne) hb hb'

end Shares
