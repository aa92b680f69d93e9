import Mathlib.Data.Nat.Count
import Mathlib.Tactic.Common

/-! Searching a bitmap for its first clear bit, word by word and then bit by bit, and setting the
bits found one after the other. -/

namespace Bitmap

/-- The first of `i`, ..., `i + rest - 1` with the property, else `i + rest`. -/
def scan (p : Nat → Bool) : Nat → Nat → Nat
  | 0, i => i
  | rest + 1, i => if p i then i else scan p rest (i + 1)

theorem scan_spec (p : Nat → Bool) (rest i : Nat) :
    i ≤ scan p rest i ∧ scan p rest i ≤ i + rest ∧
      (∀ j, i ≤ j → j < scan p rest i → p j = false) ∧
      (scan p rest i < i + rest → p (scan p rest i) = true) := by
  induction rest generalizing i with
  | zero => exact ⟨Nat.le_refl i, Nat.le_refl i, by unfold scan; omega, by unfold scan; omega⟩
  | succ rest ih =>
    unfold scan
    split
    case isTrue h => exact ⟨Nat.le_refl i, by omega, by omega, fun _ => h⟩
    case isFalse h =>
      obtain ⟨hlo, hhi, hskip, hstop⟩ := ih (i + 1)
      refine ⟨by omega, by omega, fun j hij hj => ?_, fun hlt => hstop (by omega)⟩
      rcases Nat.eq_or_lt_of_le hij with rfl | hlt
      · exact Bool.eq_false_iff.2 h
      · exact hskip j hlt hj

variable (word : Nat) (bmap : Nat → Bool)

/-- Not every bit of the word is set. -/
def hasClear (i : Nat) : Bool := !(List.range word).all fun b => bmap (word * i + b)

/-- The first clear bit among the first `n`, else a bit from `n` on: full words are passed
over without looking at their bits. -/
def firstClear (n : Nat) : Nat :=
  let start := word * scan (hasClear word bmap) ((n + word - 1) / word) 0
  scan (fun i => !bmap i) (n - start) start

variable {word : Nat} {bmap : Nat → Bool}

theorem hasClear_eq_false {i : Nat} :
    hasClear word bmap i = false ↔ ∀ b < word, bmap (word * i + b) = true := by
  simp [hasClear]

theorem firstClear_spec (hw : 0 < word) {n : Nat} :
    (∀ j < min n (firstClear word bmap n), bmap j = true) ∧
      (firstClear word bmap n < n → bmap (firstClear word bmap n) = false) := by
  obtain ⟨-, -, hskip, -⟩ := scan_spec (hasClear word bmap) ((n + word - 1) / word) 0
  unfold firstClear
  simp only
  generalize scan (hasClear word bmap) ((n + word - 1) / word) 0 = w at *
  obtain ⟨hlo, hhi, hset, hclear⟩ := scan_spec (fun i => !bmap i) (n - word * w) (word * w)
  generalize scan (fun i => !bmap i) (n - word * w) (word * w) = k at *
  constructor
  · intro j hj
    rcases Nat.lt_or_ge j (word * w) with hlt | hge
    · have hdm := Nat.div_add_mod j word
      have hjw : j / word < w := (Nat.div_lt_iff_lt_mul hw).2 (by rwa [Nat.mul_comm])
      have := hasClear_eq_false.1 (hskip (j / word) (Nat.zero_le _) hjw) _ (Nat.mod_lt j hw)
      rwa [hdm] at this
    · simpa using hset j hge (by omega)
  · intro hk
    simpa using hclear (by omega)

/-- The clear bits of `old` before a bit. -/
def clearBefore (old : Nat → Bool) (i : Nat) : Nat := Nat.count (fun k => old k = false) i

/-- The first `r` clear bits of `old` have been set. -/
def FirstTaken (old : Nat → Bool) (r : Nat) (cur : Nat → Bool) : Prop :=
  ∀ k, cur k = true ↔ old k = true ∨ clearBefore old k < r

variable {old cur : Nat → Bool} {r j : Nat}

theorem firstTaken_zero : FirstTaken old 0 old := fun k => by simp

theorem clearBefore_inj {i : Nat} (hi : old i = false) (hj : old j = false)
    (h : clearBefore old i = clearBefore old j) : i = j :=
  Nat.count_injective hi hj h

theorem clearBefore_lt_iff {n : Nat} (hj : old j = false) :
    clearBefore old j < clearBefore old n ↔ j < n :=
  ⟨Nat.lt_of_count_lt_count, Nat.count_strict_mono hj⟩

theorem exists_clearBefore_eq {n : Nat} (h : r < clearBefore old n) :
    ∃ i < n, old i = false ∧ clearBefore old i = r := by
  unfold clearBefore at h ⊢
  induction n with
  | zero => exact absurd h (Nat.not_lt_zero r)
  | succ n ih =>
    rw [Nat.count_succ] at h
    rcases Nat.lt_or_ge r (Nat.count (fun k => old k = false) n) with hr | hr
    · obtain ⟨i, hi, hclear⟩ := ih hr
      exact ⟨i, Nat.lt_succ_of_lt hi, hclear⟩
    · split at h
      case isTrue hn => exact ⟨n, Nat.lt_succ_self n, hn, Nat.le_antisymm hr (Nat.le_of_lt_succ h)⟩
      case isFalse => exact absurd h (Nat.not_lt.2 hr)

/-- Of the first `n` bits exactly those from `m` on have stayed clear if as many clear bits have been
set as there are before `m`, and no bit was set from there on. -/
theorem FirstTaken.clear_iff {m n : Nat} (h : FirstTaken old r cur) (hm : m ≤ n)
    (hr : r ≤ clearBefore old n) : (∀ j < n, cur j = false ↔ m ≤ j) ↔
      r = clearBefore old m ∧ ∀ j, m ≤ j → j < n → old j = false := by
  have hcur : ∀ j, cur j = false ↔ old j = false ∧ r ≤ clearBefore old j := fun j => by
    rw [← Bool.not_eq_true, h j, not_or, Bool.not_eq_true, Nat.not_lt]
  constructor
  · intro hclear
    have hold : ∀ j, m ≤ j → j < n → old j = false := fun j hj hn =>
      ((hcur j).1 ((hclear j hn).2 hj)).1
    refine ⟨Nat.le_antisymm ?_ (Nat.not_lt.1 fun hlt => ?_), hold⟩
    · rcases Nat.eq_or_lt_of_le hm with rfl | hlt
      · exact hr
      · exact ((hcur m).1 ((hclear m hlt).2 (Nat.le_refl m))).2
    · obtain ⟨j, hj, hclr, hrank⟩ := exists_clearBefore_eq hlt
      have hstill := (hcur j).2 ⟨hclr, Nat.le_of_eq hrank.symm⟩
      exact absurd ((hclear j (Nat.lt_of_lt_of_le hj hm)).1 hstill) (Nat.not_le.2 hj)
  · rintro ⟨rfl, hold⟩ j hj
    rw [hcur]
    constructor
    · rintro ⟨hclr, hle⟩
      exact Nat.not_lt.1 fun hlt => Nat.not_lt.2 hle ((clearBefore_lt_iff hclr).2 hlt)
    · exact fun hle => ⟨hold j hle hj, Nat.count_monotone _ hle⟩

theorem FirstTaken.next (h : FirstTaken old r cur) (hclear : cur j = false)
    (hfirst : ∀ k < j, cur k = true) : old j = false ∧ clearBefore old j = r := by
  have hj : ¬(old j = true ∨ clearBefore old j < r) := by
    rw [← h j, hclear]
    decide
  obtain ⟨hold, hge⟩ := not_or.1 hj
  refine ⟨Bool.eq_false_iff.2 hold, Nat.le_antisymm (Nat.not_lt.1 fun hlt => ?_) (Nat.not_lt.1 hge)⟩
  -- Otherwise a clear bit before `j` would be the one to take.
  obtain ⟨i, hi, hri⟩ := exists_clearBefore_eq hlt
  rcases (h i).1 (hfirst i hi) with hset | hlt'
  · rw [hri.1] at hset
    cases hset
  · exact Nat.lt_irrefl r (hri.2 ▸ hlt')

theorem FirstTaken.set (h : FirstTaken old r cur) (hold : old j = false)
    (hcount : clearBefore old j = r) : FirstTaken old (r + 1) (Function.update cur j true) := by
  intro k
  by_cases hk : k = j
  · subst hk
    rw [Function.update_self, hcount]
    simp
  · rw [Function.update_of_ne hk, h k]
    refine or_congr_right' fun hset => ⟨fun hlt => by omega, fun hlt => ?_⟩
    have hne : clearBefore old k ≠ r := fun heq =>
      hk (clearBefore_inj (Bool.eq_false_iff.2 hset) hold (heq.trans hcount.symm))
    omega

end Bitmap
