import Mathlib

/-! Threads that share a state. Where no thread touches the part of another one, the order of
their steps does not matter. -/

/-- A computation with fuel has the result from some amount on. -/
def Settles {α : Type} (f : Nat → Option α) (a : α) : Prop :=
  ∃ n, ∀ fuel ≥ n, f fuel = some a

namespace Settles

variable {α β : Type} {f : Nat → Option α} {a a' : α}

theorem of_some (h : ∀ fuel, f fuel = some a) : Settles f a := ⟨0, fun fuel _ => h fuel⟩

theorem bind {g : α → Nat → Option β} {b : β} (hf : Settles f a) (hg : Settles (g a) b) :
    Settles (fun fuel => (f fuel).bind fun a => g a fuel) b := by
  obtain ⟨n, hn⟩ := hf
  obtain ⟨m, hm⟩ := hg
  refine ⟨max n m, fun fuel hfuel => ?_⟩
  simp only [hn fuel (by omega), Option.bind_some, hm fuel (by omega)]

theorem map (g : α → β) (h : Settles f a) : Settles (fun fuel => (f fuel).map g) (g a) :=
  h.imp fun _ hn fuel hfuel => congrArg (Option.map g) (hn fuel hfuel)

theorem succ {g : Nat → Option α} (hg : Settles g a) (h : ∀ fuel, f (fuel + 1) = g fuel) : Settles f a := by
  obtain ⟨n, hn⟩ := hg
  refine ⟨n + 1, fun fuel hfuel => ?_⟩
  cases fuel with
  | zero => omega
  | succ fuel => exact (h fuel).trans (hn fuel (by omega))

theorem foldl {σ ι : Type} {g : ι → σ → Nat → Option σ} (I : List ι → σ → Prop)
    (hstep : ∀ i is s, I (i :: is) s → ∃ s', Settles (g i s) s' ∧ I is s') (is : List ι) {s : σ}
    (h : I is s) :
    ∃ s', Settles (fun fuel => is.foldlM (fun s i => g i s fuel) s) s' ∧ I [] s' := by
  induction is generalizing s with
  | nil => exact ⟨s, of_some fun _ => rfl, h⟩
  | cons i is ih =>
    obtain ⟨s₁, hs₁, h₁⟩ := hstep i is s h
    obtain ⟨s', hs', h'⟩ := ih h₁
    exact ⟨s', bind (g := fun s fuel => is.foldlM (fun s i => g i s fuel) s) hs₁ hs', h'⟩

end Settles

namespace Threads

variable {ι τ σ ν : Type} (step : ι → τ → σ → Option (τ × σ))

/-- What can happen next: one step of each thread that has not finished. -/
def moves (threads : List ι) (locals : ι → τ) (s : σ) : List (ι × τ × σ) :=
  threads.filterMap fun i => (step i (locals i) s).map (i, ·)

/-- Runs the threads until all have finished. The scheduler `pick` says at each tick which of the
next steps is made. -/
def run [DecidableEq ι] (pick : Nat → Nat) (threads : List ι) (tick : Nat) (locals : ι → τ) (s : σ) :
    Nat → Option (Nat × σ)
  | 0 => none
  | fuel + 1 =>
    let next := moves step threads locals s
    match next[pick tick % next.length]? with
    | none => some (tick, s)
    | some (i, t, s') => run pick threads (tick + 1) (Function.update locals i t) s' fuel

/-- A thread sees its own view of the state and changes no other one, and each of its steps leads it
nearer to its goal. `will i n t v` says that the thread gets there within `n` steps. -/
structure Apart (I : σ → Prop) (view : ι → σ → ν) (will : ι → Nat → τ → ν → Prop)
    (goal : ι → ν → Prop) : Prop where
  done : ∀ i n t s, I s → will i n t (view i s) → step i t s = none → goal i (view i s)
  next : ∀ i n t s t' s', I s → will i n t (view i s) → step i t s = some (t', s') →
    I s' ∧ (∃ m < n, will i m t' (view i s')) ∧ ∀ j ≠ i, view j s' = view j s

variable {step} {threads : List ι} {locals : ι → τ} {s : σ}

@[simp] theorem mem_moves {i : ι} {t : τ} {s' : σ} :
    (i, t, s') ∈ moves step threads locals s ↔ i ∈ threads ∧ step i (locals i) s = some (t, s') := by
  simp only [moves, List.mem_filterMap, Option.map_eq_some_iff, Prod.mk.injEq, Prod.exists]
  constructor
  · rintro ⟨_, hmem, _, _, hstep, rfl, rfl, rfl⟩
    exact ⟨hmem, hstep⟩
  · exact fun ⟨hmem, hstep⟩ => ⟨i, hmem, t, s', hstep, rfl, rfl, rfl⟩

theorem moves_eq_nil (h : moves step threads locals s = []) {i : ι} (hi : i ∈ threads) :
    step i (locals i) s = none := by
  match hstep : step i (locals i) s with
  | none => rfl
  | some (t, s') => exact absurd (mem_moves.2 ⟨hi, hstep⟩) (h ▸ List.not_mem_nil)

variable [DecidableEq ι]

theorem pick_cases (pick : Nat → Nat) (tick : Nat) :
    (moves step threads locals s = [] ∧ ∀ fuel, run step pick threads tick locals s (fuel + 1) = some (tick, s)) ∨
    ∃ i ∈ threads, ∃ t s', step i (locals i) s = some (t, s') ∧
      ∀ fuel, run step pick threads tick locals s (fuel + 1) =
        run step pick threads (tick + 1) (Function.update locals i t) s' fuel := by
  match hnext : (moves step threads locals s)[pick tick % (moves step threads locals s).length]? with
  | none =>
    refine .inl ⟨?_, fun fuel => by simp only [run, hnext]⟩
    have hle := List.getElem?_eq_none_iff.1 hnext
    by_contra hne
    exact absurd (Nat.mod_lt (pick tick) (List.length_pos_iff.2 hne)) (by omega)
  | some (i, t, s') =>
    obtain ⟨hi, hstep⟩ := mem_moves.1 (List.mem_of_getElem? hnext)
    exact .inr ⟨i, hi, t, s', hstep, fun fuel => by simp only [run, hnext]⟩

theorem update_le {n : ι → Nat} {i : ι} {m : Nat} (hm : m < n i) (j : ι) : Function.update n i m j ≤ n j := by
  by_cases hj : j = i
  · rw [hj, Function.update_self]
    exact Nat.le_of_lt hm
  · exact Nat.le_of_eq (Function.update_of_ne hj m n)

theorem sum_update_lt {n : ι → Nat} {i : ι} {m : Nat} (hi : i ∈ threads) (hm : m < n i) :
    (threads.map (Function.update n i m)).sum < (threads.map n).sum := by
  have hle : ∀ js : List ι, (js.map (Function.update n i m)).sum ≤ (js.map n).sum := by
    intro js
    induction js with
    | nil => exact Nat.le_refl _
    | cons j js ih => exact Nat.add_le_add (update_le hm j) ih
  induction threads with
  | nil => cases hi
  | cons j js ih =>
    simp only [List.map_cons, List.sum_cons]
    rcases List.mem_cons.1 hi with rfl | hmem
    · rw [Function.update_self]
      exact Nat.add_lt_add_of_lt_of_le hm (hle js)
    · exact Nat.add_lt_add_of_le_of_lt (update_le hm j) (ih hmem)

theorem run_settles {I : σ → Prop} {view : ι → σ → ν} {will : ι → Nat → τ → ν → Prop}
    {goal : ι → ν → Prop} (h : Apart step I view will goal) (pick : Nat → Nat) {n : ι → Nat}
    (hwill : ∀ i ∈ threads, will i (n i) (locals i) (view i s)) (hI : I s) (tick : Nat) :
    ∃ tick' s', Settles (run step pick threads tick locals s) (tick', s') ∧ I s' ∧
      (∀ i ∈ threads, goal i (view i s')) ∧ ∀ j, j ∉ threads → view j s' = view j s := by
  -- on the steps that are left to all threads together
  induction hsum : (threads.map n).sum using Nat.strongRecOn generalizing n locals s tick with
  | _ total ih =>
    rcases @pick_cases _ _ _ step threads locals s _ pick tick with ⟨hnil, hrun⟩ | ⟨i, hi, t, s₁, hstep, hrun⟩
    · refine ⟨tick, s, Settles.succ (Settles.of_some fun _ => rfl) hrun, hI, fun i hi => ?_, fun _ _ => rfl⟩
      exact h.done i _ _ _ hI (hwill i hi) (moves_eq_nil hnil hi)
    · obtain ⟨hI₁, ⟨m, hm, hwill₁⟩, hframe⟩ := h.next i _ _ _ _ _ hI (hwill i hi) hstep
      have hlt : (threads.map (Function.update n i m)).sum < total := hsum ▸ sum_update_lt hi hm
      have hwill' : ∀ j ∈ threads,
          will j (Function.update n i m j) (Function.update locals i t j) (view j s₁) := fun j hj => by
        by_cases hji : j = i
        · rw [hji, Function.update_self, Function.update_self]
          exact hwill₁
        · rw [Function.update_of_ne hji, Function.update_of_ne hji, hframe j hji]
          exact hwill j hj
      obtain ⟨tick', s', hset, hI', hgoal, hrest⟩ :=
        ih _ hlt hwill' hI₁ (tick + 1) rfl
      refine ⟨tick', s', Settles.succ hset hrun, hI', hgoal, fun j hj => ?_⟩
      exact (hrest j hj).trans (hframe j fun hji => hj (hji ▸ hi))

end Threads
