import Mathlib

/-! Numbers that the C library prints in decimal and converts back. -/

namespace Decimal

def isSpace (c : Char) : Bool := c.toNat = 32 || (9 ≤ c.toNat && c.toNat ≤ 13)

def digits (s : List Char) : Nat := Nat.ofDigitChars 10 (s.takeWhile Char.isDigit) 0

/-- The conversion `atoll` stays at the ends of the signed 64-bit numbers. -/
def atoll (s : List Char) : Int :=
  match s.dropWhile isSpace with
  | '-' :: ds => max (-9223372036854775808) (-(digits ds : Int))
  | '+' :: ds => min 9223372036854775807 (digits ds : Int)
  | ds => min 9223372036854775807 (digits ds : Int)

/-- A signed number stored in an unsigned word. -/
def toU64 (v : Int) : Nat := (v % 18446744073709551616).toNat

/-- What `strchr` finds. -/
def strchr (s : List Char) (c : Char) : Option Nat := s.idxOf? c

variable {n : Nat} {c : Char}

theorem isDigit_of_mem_toDigits (h : c ∈ Nat.toDigits 10 n) : c.isDigit = true :=
  Nat.isDigit_of_mem_toDigits (by decide) (by decide) h

theorem digits_toDigits (n : Nat) : digits (Nat.toDigits 10 n) = n := by
  unfold digits
  rw [List.takeWhile_eq_self_iff.2 fun c hc => isDigit_of_mem_toDigits hc]
  simp

theorem atoll_toDigits (n : Nat) :
    atoll (Nat.toDigits 10 n) = min 9223372036854775807 (n : Int) := by
  obtain ⟨c, cs, hcs⟩ := List.exists_cons_of_ne_nil (Nat.toDigits_ne_nil (n := n) (b := 10))
  have hc : 48 ≤ c.toNat ∧ c.toNat ≤ 57 :=
    Char.isDigit_iff_toNat.1 (isDigit_of_mem_toDigits (n := n) (hcs ▸ List.mem_cons_self ..))
  have hdrop : (Nat.toDigits 10 n).dropWhile isSpace = Nat.toDigits 10 n := by
    rw [hcs, List.dropWhile_cons_of_neg]
    simp only [isSpace, Bool.or_eq_true, Bool.and_eq_true, decide_eq_true_eq]
    omega
  unfold atoll
  rw [hdrop]
  -- the first character is a digit and no sign
  split
  case h_1 h =>
    obtain ⟨rfl, -⟩ := List.cons.inj (hcs.symm.trans h)
    exact absurd hc.1 (by decide)
  case h_2 h =>
    obtain ⟨rfl, -⟩ := List.cons.inj (hcs.symm.trans h)
    exact absurd hc.1 (by decide)
  case h_3 => rw [digits_toDigits]

theorem strchr_append {s t : List Char} (h : c ∉ s) : strchr (s ++ c :: t) c = some s.length := by
  induction s with
  | nil => simp [strchr, List.idxOf?_cons]
  | cons d s ih =>
    have hd : d ≠ c := fun heq => h (heq ▸ List.mem_cons_self ..)
    have hs := ih fun hmem => h (List.mem_cons_of_mem _ hmem)
    unfold strchr at hs ⊢
    rw [List.cons_append, List.idxOf?_cons, if_neg (by simpa using hd), hs]
    rfl

theorem ofDigitChars_cons (c : Char) (s : List Char) :
    Nat.ofDigitChars 10 (c :: s) 0 = 10 ^ s.length * (c.toNat - 48) + Nat.ofDigitChars 10 s 0 := by
  rw [Nat.ofDigitChars_cons, Nat.ofDigitChars_eq_ofDigitChars_zero, Nat.mul_zero, Nat.zero_add]
  rfl

theorem toDigits_inj {m : Nat} (h : Nat.toDigits 10 m = Nat.toDigits 10 n) : m = n := by
  simpa only [Nat.ofDigitChars_ten_toDigits] using congrArg (Nat.ofDigitChars 10 · 0) h

theorem ofDigitChars_lt_pow {s : List Char} (h : ∀ c ∈ s, c.isDigit = true) :
    Nat.ofDigitChars 10 s 0 < 10 ^ s.length := by
  induction s with
  | nil => decide
  | cons c s ih =>
    have hc : 48 ≤ c.toNat ∧ c.toNat ≤ 57 := Char.isDigit_iff_toNat.1 (h c (List.mem_cons_self ..))
    have hs := ih fun d hd => h d (List.mem_cons_of_mem _ hd)
    have hle : 10 ^ s.length * (c.toNat - 48) ≤ 10 ^ s.length * 9 := Nat.mul_le_mul_left _ (by omega)
    rw [ofDigitChars_cons, List.length_cons, Nat.pow_succ]
    omega

theorem ofDigitChars_lt {s t : List Char} (hs : ∀ c ∈ s, c.isDigit = true) (ht : ∀ c ∈ t, c.isDigit = true)
    (hlen : s.length = t.length) (h : s < t) : Nat.ofDigitChars 10 s 0 < Nat.ofDigitChars 10 t 0 := by
  induction s generalizing t with
  | nil =>
    rw [List.eq_nil_of_length_eq_zero hlen.symm] at h
    exact absurd h (List.lt_irrefl _)
  | cons c s ih =>
    obtain ⟨d, t, rfl⟩ := List.exists_cons_of_length_eq_add_one hlen.symm
    have hc : 48 ≤ c.toNat ∧ c.toNat ≤ 57 := Char.isDigit_iff_toNat.1 (hs c (List.mem_cons_self ..))
    have hd : 48 ≤ d.toNat ∧ d.toNat ≤ 57 := Char.isDigit_iff_toNat.1 (ht d (List.mem_cons_self ..))
    have hlen' : s.length = t.length := Nat.succ.inj hlen
    have hs' : ∀ c ∈ s, c.isDigit = true := fun c hc => hs c (List.mem_cons_of_mem _ hc)
    have ht' : ∀ c ∈ t, c.isDigit = true := fun c hc => ht c (List.mem_cons_of_mem _ hc)
    rw [ofDigitChars_cons, ofDigitChars_cons, ← hlen']
    rcases List.cons_lt_cons_iff.1 h with hlt | ⟨rfl, hlt⟩
    · have hpow := ofDigitChars_lt_pow hs'
      have hchar : c.toNat < d.toNat := hlt
      have hle : 10 ^ s.length * (c.toNat - 48 + 1) ≤ 10 ^ s.length * (d.toNat - 48) :=
        Nat.mul_le_mul_left _ (by omega)
      rw [Nat.mul_succ] at hle
      omega
    · exact Nat.add_lt_add_left (ih hs' ht' hlen' hlt) _

theorem toDigits_lt_iff {m : Nat} (hlen : (Nat.toDigits 10 m).length = (Nat.toDigits 10 n).length) :
    Nat.toDigits 10 m < Nat.toDigits 10 n ↔ m < n := by
  have hlt : ∀ {a b : Nat}, (Nat.toDigits 10 a).length = (Nat.toDigits 10 b).length →
      Nat.toDigits 10 a < Nat.toDigits 10 b → a < b := fun hlen h => by
    have h' := ofDigitChars_lt (fun _ hc => isDigit_of_mem_toDigits hc)
      (fun _ hc => isDigit_of_mem_toDigits hc) hlen h
    rwa [Nat.ofDigitChars_ten_toDigits, Nat.ofDigitChars_ten_toDigits] at h'
  refine ⟨hlt hlen, fun h => ?_⟩
  by_contra hnot
  rcases List.le_iff_lt_or_eq.1 (List.not_lt.1 hnot) with hgt | heq
  · exact absurd (hlt hlen.symm hgt) (by omega)
  · exact absurd (toDigits_inj heq) (by omega)

end Decimal
