import Mathlib.Algebra.GroupWithZero.Nat
import Mathlib.Tactic.Common

/-! Computations that stop at an assertion, a division by zero, a memory access
outside its buffer, or an error code, and the rules for sequencing them. -/

inductive Fault (E : Type) where
  | abort
  | trap
  | stray
  | fuel
  | code (e : E)
  deriving Repr, DecidableEq

abbrev Checked (E : Type) (α : Type) := Except (Fault E) α

namespace Checked

variable {E α β σ : Type}

def bugOn (E : Type) (c : Prop) [Decidable c] : Checked E Unit :=
  if c then .error .abort else .ok ()

def quot (E : Type) (a b : Nat) : Checked E Nat :=
  if b = 0 then .error .trap else .ok (a / b)

def rem (E : Type) (a b : Nat) : Checked E Nat :=
  if b = 0 then .error .trap else .ok (a % b)

/-- The value of `1 << bits`; from 32 bits on C leaves it undefined. -/
def shiftOne (E : Type) (bits : Nat) : Checked E Nat :=
  if bits < 32 then .ok (2 ^ bits) else .error .trap

/-- Runs `f 0`, `f 1`, ..., `f (n - 1)` in this order. -/
def forRange : Nat → (Nat → σ → Checked E σ) → σ → Checked E σ
  | 0, _, s => .ok s
  | n + 1, f, s => forRange n f s >>= f n

/-- Runs `f` on the elements of a list from left to right. -/
def forEach (f : α → σ → Checked E σ) : List α → σ → Checked E σ
  | [], s => .ok s
  | a :: as, s => f a s >>= forEach f as

/-- Runs `f i` on the `i`-th cell of an array for `i = 0`, ..., `n - 1`. -/
def fill (n : Nat) (f : Nat → α → Checked E α) (g : Nat → α) : Checked E (Nat → α) :=
  forRange n (fun i g => f i (g i) >>= fun x => .ok (Function.update g i x)) g

theorem bind_eq_ok {m : Checked E α} {f : α → Checked E β} {b : β} :
    m >>= f = .ok b ↔ ∃ a, m = .ok a ∧ f a = .ok b := by
  cases m with
  | error e => simp [bind, Except.bind]
  | ok a => simp [bind, Except.bind]

theorem exists_of_map {m : Checked E α} {f : α → β} {b : β} (h : m.map f = .ok b) :
    ∃ a, m = .ok a ∧ f a = b := by
  cases m with
  | error e => cases h
  | ok a => exact ⟨a, rfl, Except.ok.inj h⟩

/-- Whether a computation stops at an access outside its buffer. -/
def isStray : Checked E α → Bool
  | .error .stray => true
  | _ => false

theorem eq_stray {m : Checked E α} (h : isStray m = true) : m = .error .stray := by
  unfold isStray at h
  split at h
  · rfl
  · cases h

theorem exists_ok {m : Checked E α} (h : m.toOption.isSome = true) : ∃ a, m = .ok a := by
  cases m with
  | error e => cases h
  | ok a => exact ⟨a, rfl⟩

@[simp] theorem ok_bind (a : α) (f : α → Checked E β) :
    (Except.ok a : Checked E α) >>= f = f a := rfl

@[simp] theorem error_bind (e : Fault E) (f : α → Checked E β) :
    (Except.error e : Checked E α) >>= f = .error e := rfl

@[simp] theorem pure_eq_ok (a : α) : (pure a : Checked E α) = .ok a := rfl

theorem bugOn_eq_ok {c : Prop} [Decidable c] {x : Unit} :
    bugOn E c = .ok x ↔ ¬c := by
  by_cases h : c <;> simp [bugOn, h]

theorem bugOn_bind_eq_ok {c : Prop} [Decidable c] {f : Unit → Checked E β} {b : β} :
    bugOn E c >>= f = .ok b ↔ ¬c ∧ f () = .ok b := by
  by_cases h : c <;> simp [bugOn, h]

@[simp] theorem bugOn_of_not {c : Prop} [Decidable c] (h : ¬c) :
    bugOn E c = .ok () := by
  simp [bugOn, h]

@[simp] theorem bugOn_of {c : Prop} [Decidable c] (h : c) :
    bugOn E c = .error .abort := by
  simp [bugOn, h]

theorem quot_eq_ok {a b q : Nat} : quot E a b = .ok q ↔ b ≠ 0 ∧ q = a / b := by
  by_cases h : b = 0 <;> simp [quot, h, eq_comm]

theorem quot_of_ne {a b : Nat} (h : b ≠ 0) : quot E a b = .ok (a / b) := by
  simp [quot, h]

theorem rem_of_ne {a b : Nat} (h : b ≠ 0) : rem E a b = .ok (a % b) := by
  simp [rem, h]

theorem shiftOne_of_lt {bits : Nat} (h : bits < 32) : shiftOne E bits = .ok (2 ^ bits) := if_pos h

theorem shiftOne_of_ge {bits : Nat} (h : ¬bits < 32) : shiftOne E bits = .error .trap := if_neg h

/-- The invariant rule of a counted loop. -/
theorem forRange_ind {f : Nat → σ → Checked E σ} (I : Nat → σ → Prop) {n : Nat} {s s' : σ}
    (h : forRange n f s = .ok s') (h0 : I 0 s)
    (hstep : ∀ i < n, ∀ t t', I i t → f i t = .ok t' → I (i + 1) t') :
    I n s' := by
  induction n generalizing s' with
  | zero => cases h; exact h0
  | succ n ih =>
    obtain ⟨t, ht, hn⟩ := bind_eq_ok.1 h
    exact hstep n (by omega) t s' (ih ht fun i hi => hstep i (by omega)) hn

theorem forRange_ok {f : Nat → σ → Checked E σ} (I : Nat → σ → Prop) {n : Nat} {s : σ}
    (h0 : I 0 s)
    (hstep : ∀ i < n, ∀ t, I i t → ∃ t', f i t = .ok t' ∧ I (i + 1) t') :
    ∃ s', forRange n f s = .ok s' ∧ I n s' := by
  induction n with
  | zero => exact ⟨s, rfl, h0⟩
  | succ n ih =>
    obtain ⟨t, ht, hi⟩ := ih fun i hi => hstep i (by omega)
    obtain ⟨s', hs, hI⟩ := hstep n (by omega) t hi
    exact ⟨s', by simp [forRange, ht, hs], hI⟩

theorem fill_exists {n : Nat} {f : Nat → α → Checked E α} {g : Nat → α}
    (h : ∀ i < n, ∀ x, ∃ y, f i x = .ok y) : ∃ g', fill n f g = .ok g' := by
  have hstep : ∀ i < n, ∀ t : Nat → α, True → ∃ t',
      (f i (t i) >>= fun x => .ok (Function.update t i x)) = .ok t' ∧ True := fun i hi t _ => by
    obtain ⟨y, hy⟩ := h i hi (t i)
    exact ⟨_, by rw [hy, ok_bind], trivial⟩
  obtain ⟨g', hg', -⟩ := forRange_ok (fun _ _ => True) (s := g) trivial hstep
  exact ⟨g', hg'⟩

theorem forRange_step {f : Nat → σ → Checked E σ} {n i : Nat} {s s' : σ}
    (h : forRange n f s = .ok s') (hi : i < n) :
    ∃ t t', forRange i f s = .ok t ∧ f i t = .ok t' := by
  induction n generalizing s' with
  | zero => omega
  | succ n ih =>
    obtain ⟨t, ht, hn⟩ := bind_eq_ok.1 h
    rcases Nat.lt_succ_iff_lt_or_eq.1 hi with hlt | rfl
    · exact ih ht hlt
    · exact ⟨t, s', ht, hn⟩

theorem fill_ok {n : Nat} {f : Nat → α → Checked E α} {g g' : Nat → α}
    (h : fill n f g = .ok g') :
    (∀ i < n, f i (g i) = .ok (g' i)) ∧ ∀ i, n ≤ i → g' i = g i := by
  refine forRange_ind (fun k t => (∀ i < k, f i (g i) = .ok (t i)) ∧ ∀ i, k ≤ i → t i = g i)
    h ⟨fun i hi => by omega, fun _ _ => rfl⟩ ?_
  rintro k - t t' ⟨hdone, hrest⟩ hstep
  obtain ⟨x, hx, hupd⟩ := bind_eq_ok.1 hstep
  cases hupd
  constructor
  · intro i hi
    rcases Nat.lt_succ_iff_lt_or_eq.1 hi with hlt | rfl
    · rw [Function.update_of_ne (Nat.ne_of_lt hlt)]
      exact hdone i hlt
    · rw [Function.update_self, ← hrest i (Nat.le_refl i)]
      exact hx
  · intro i hi
    rw [Function.update_of_ne (by omega)]
    exact hrest i (by omega)

theorem forRange_map {f : Nat → σ → Checked E σ} {g : Nat → α → Checked E α} {π : σ → α}
    (I : σ → Prop) {n : Nat} {s : σ} (h0 : I s) (hmap : ∀ i t, I t → (f i t).map π = g i (π t))
    (hpres : ∀ i t t', I t → f i t = .ok t' → I t') : (forRange n f s).map π = forRange n g (π s) := by
  induction n with
  | zero => rfl
  | succ n ih =>
    unfold forRange
    rw [← ih]
    cases h : forRange n f s with
    | error e => rfl
    | ok t => exact hmap n t (forRange_ind (fun _ => I) h h0 fun i _ t t' => hpres i t t')

theorem forRange_simulates {τ : Type} {f : Nat → σ → Checked E σ} {g : Nat → τ → Checked E τ}
    (R : τ → σ → Prop) {n : Nat} {s s' : σ} {t : τ} (h : forRange n f s = .ok s') (h0 : R t s)
    (hstep : ∀ i < n, ∀ t s s', R t s → f i s = .ok s' → ∃ t', g i t = .ok t' ∧ R t' s') :
    ∃ t', forRange n g t = .ok t' ∧ R t' s' :=
  forRange_ind (fun i s => ∃ t', forRange i g t = .ok t' ∧ R t' s) h ⟨t, rfl, h0⟩
    fun i hi s s' ⟨t, ht, hR⟩ hs => by
      obtain ⟨t', ht', hR'⟩ := hstep i hi t s s' hR hs
      exact ⟨t', by rw [forRange, ht, ok_bind, ht'], hR'⟩

/-- The invariant rule of a loop over a list, with the elements already done. -/
theorem forEach_ind {f : α → σ → Checked E σ} (I : List α → σ → Prop)
    {as bs : List α} {s s' : σ} (h : forEach f bs s = .ok s') (h0 : I as s)
    (hstep : ∀ ds a t t', I ds t → f a t = .ok t' → I (ds ++ [a]) t') :
    I (as ++ bs) s' := by
  induction bs generalizing as s with
  | nil => cases h; simpa using h0
  | cons b bs ih =>
    obtain ⟨t, ht, hbs⟩ := bind_eq_ok.1 h
    simpa using ih hbs (hstep as b s t h0 ht)

theorem forEach_ok {f : α → σ → Checked E σ} (I : List α → σ → Prop) {ds as : List α} {s : σ}
    (h0 : I ds s) (hstep : ∀ es a bs t, ds ++ as = es ++ a :: bs → I es t →
      ∃ t', f a t = .ok t' ∧ I (es ++ [a]) t') :
    ∃ s', forEach f as s = .ok s' ∧ I (ds ++ as) s' := by
  induction as generalizing ds s with
  | nil => exact ⟨s, rfl, by simpa using h0⟩
  | cons a as ih =>
    obtain ⟨t, ht, hI⟩ := hstep ds a as s rfl h0
    obtain ⟨s', hs, hI⟩ := ih hI fun es b bs u heq => hstep es b bs u (by simpa using heq)
    exact ⟨s', by simp [forEach, ht, hs], by simpa using hI⟩

theorem forEach_append {f : α → σ → Checked E σ} {as bs : List α} {s : σ} :
    forEach f (as ++ bs) s = forEach f as s >>= forEach f bs := by
  induction as generalizing s with
  | nil => rfl
  | cons a as ih =>
    cases h : f a s with
    | error e => simp [forEach, h]
    | ok t => simpa [forEach, h] using ih

theorem forEach_singleton {f : α → σ → Checked E σ} (a : α) (s : σ) :
    forEach f [a] s = f a s := by
  cases h : f a s <;> simp [forEach, h]

theorem forEach_flatMap {f : α → σ → Checked E σ} {g : β → List α} {bs : List β} {s : σ} :
    forEach f (bs.flatMap g) s = forEach (fun b => forEach f (g b)) bs s := by
  induction bs generalizing s with
  | nil => rfl
  | cons b bs ih =>
    rw [List.flatMap_cons, forEach_append]
    change _ = forEach f (g b) s >>= forEach (fun b => forEach f (g b)) bs
    congr 1
    funext t
    exact ih

theorem forEach_map {f : α → σ → Checked E σ} {g : β → α} {bs : List β} {s : σ} :
    forEach f (bs.map g) s = forEach (fun b => f (g b)) bs s := by
  induction bs generalizing s with
  | nil => rfl
  | cons b bs ih =>
    change f (g b) s >>= forEach f (bs.map g) = f (g b) s >>= forEach (fun b => f (g b)) bs
    congr 1
    funext t
    exact ih

theorem forEach_range {f : Nat → σ → Checked E σ} {n : Nat} {s : σ} :
    forEach f (List.range n) s = forRange n f s := by
  induction n with
  | zero => rfl
  | succ n ih =>
    rw [List.range_succ, forEach_append, ih]
    change _ = forRange n f s >>= f n
    congr 1
    funext t
    exact forEach_singleton n t

/-- Two loops agree when their bodies do on the states that an invariant admits. -/
theorem forEach_congr {f g : α → σ → Checked E σ} (I : σ → Prop) {as : List α} {s : σ} (h0 : I s)
    (heq : ∀ a ∈ as, ∀ t, I t → f a t = g a t)
    (hpres : ∀ a t t', I t → g a t = .ok t' → I t') : forEach f as s = forEach g as s := by
  induction as generalizing s with
  | nil => rfl
  | cons a as ih =>
    unfold forEach
    rw [heq a List.mem_cons_self s h0]
    cases h : g a s with
    | error e => rfl
    | ok t =>
      exact ih (hpres a s t h0 h) fun b hb => heq b (List.mem_cons_of_mem a hb)

theorem forEach_inv {f : α → σ → Checked E σ} (I : σ → Prop) {as : List α} {s s' : σ}
    (h : forEach f as s = .ok s') (h0 : I s)
    (hpres : ∀ a t t', I t → f a t = .ok t' → I t') : I s' :=
  @forEach_ind E α σ f (fun _ => I) [] as s s' h h0 fun _ a t t' => hpres a t t'

end Checked
