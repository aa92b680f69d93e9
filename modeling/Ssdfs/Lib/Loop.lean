import Ssdfs.Lib.Checked

/-! Loops without a counter: a round goes on with a next state or leaves with a result. -/

inductive Round (σ α : Type) where
  | again (s : σ)
  | leave (a : α)
  deriving Repr, DecidableEq

namespace Checked

variable {E σ α : Type}

def loop (body : σ → Checked E (Round σ α)) : Nat → σ → Checked E α
  | 0, _ => .error .fuel
  | fuel + 1, s => body s >>= fun
    | .again s' => loop body fuel s'
    | .leave a => .ok a

/-- Enough fuel brings the loop to its end, which may be an error. -/
def Ends (body : σ → Checked E (Round σ α)) (s : σ) : Prop :=
  ∃ fuel, loop body fuel s ≠ .error .fuel

/-- The rounds of a loop that goes on forever. -/
structure Endless (body : σ → Checked E (Round σ α)) (f : Nat → σ) : Prop where
  again : ∀ k, body (f k) = .ok (.again (f (k + 1)))

variable {body : σ → Checked E (Round σ α)} {s s' : σ} {a : α} {e : Fault E} {fuel : Nat}

theorem loop_again (h : body s = .ok (.again s')) : loop body (fuel + 1) s = loop body fuel s' := by
  simp [loop, h]

theorem loop_leave (h : body s = .ok (.leave a)) : loop body (fuel + 1) s = .ok a := by
  simp [loop, h]

theorem loop_error (h : body s = .error e) : loop body (fuel + 1) s = .error e := by
  simp [loop, h]

/-! What a loop returns, from what its first round does. -/

theorem returns_leave {p : α → Prop} (h : body s = .ok (.leave a)) :
    (∃ fuel r, loop body fuel s = .ok r ∧ p r) ↔ p a := by
  constructor
  · rintro ⟨fuel, r, hr, hp⟩
    cases fuel with
    | zero => cases hr
    | succ fuel =>
      rw [loop_leave h] at hr
      cases hr
      exact hp
  · exact fun hp => ⟨1, a, loop_leave h, hp⟩

theorem returns_again {p : α → Prop} (h : body s = .ok (.again s')) :
    (∃ fuel r, loop body fuel s = .ok r ∧ p r) ↔ ∃ fuel r, loop body fuel s' = .ok r ∧ p r := by
  constructor
  · rintro ⟨fuel, r, hr, hp⟩
    cases fuel with
    | zero => cases hr
    | succ fuel => exact ⟨fuel, r, (loop_again h).symm.trans hr, hp⟩
  · exact fun ⟨fuel, r, hr, hp⟩ => ⟨fuel + 1, r, (loop_again h).trans hr, hp⟩

theorem not_returns_of_error {p : α → Prop} (h : body s = .error e) :
    ¬∃ fuel r, loop body fuel s = .ok r ∧ p r := by
  rintro ⟨fuel, r, hr, -⟩
  cases fuel with
  | zero => cases hr
  | succ fuel =>
    rw [loop_error h] at hr
    cases hr

theorem ends_again (h : body s = .ok (.again s')) : Ends body s ↔ Ends body s' := by
  constructor
  · rintro ⟨fuel, hfuel⟩
    cases fuel with
    | zero => exact absurd rfl hfuel
    | succ fuel => exact ⟨fuel, fun h0 => hfuel ((loop_again h).trans h0)⟩
  · rintro ⟨fuel, hfuel⟩
    exact ⟨fuel + 1, fun h0 => hfuel ((loop_again h).symm.trans h0)⟩

theorem ends_leave (h : body s = .ok (.leave a)) : Ends body s :=
  ⟨1, by rw [loop_leave h]; exact fun h0 => nomatch h0⟩

theorem ends_error (h : body s = .error e) (he : e ≠ .fuel) : Ends body s :=
  ⟨1, by rw [loop_error h]; exact fun h0 => he (Except.error.inj h0)⟩

/-- An invariant under which every round goes on. -/
theorem not_ends_of_inv (I : σ → Prop) (h0 : I s)
    (hstep : ∀ s, I s → ∃ s', body s = .ok (.again s') ∧ I s') : ¬Ends body s := by
  rintro ⟨fuel, hfuel⟩
  induction fuel generalizing s with
  | zero => exact hfuel rfl
  | succ fuel ih =>
    obtain ⟨s', hs, hI⟩ := hstep s h0
    exact ih hI (loop_again hs ▸ hfuel)

theorem not_ends_step (hbody : ∀ s, body s ≠ .error .fuel) (h : ¬Ends body s) :
    ∃ s', body s = .ok (.again s') ∧ ¬Ends body s' := by
  match hs : body s with
  | .error e => exact absurd (ends_error hs fun he => hbody s (he ▸ hs)) h
  | .ok (.leave a) => exact absurd (ends_leave hs) h
  | .ok (.again s') => exact ⟨s', rfl, fun hend => h ((ends_again hs).2 hend)⟩

theorem not_ends_iff (hbody : ∀ s, body s ≠ .error .fuel) :
    ¬Ends body s ↔ ∃ f, f 0 = s ∧ Endless body f := by
  constructor
  · intro h
    choose next hnext hrest using fun t : { s // ¬Ends body s } => not_ends_step hbody t.2
    let f : Nat → { s // ¬Ends body s } := Nat.rec ⟨s, h⟩ fun _ t => ⟨next t, hrest t⟩
    exact ⟨fun k => (f k).1, rfl, ⟨fun k => hnext (f k)⟩⟩
  · rintro ⟨f, rfl, hf⟩
    exact not_ends_of_inv (fun t => ∃ k, t = f k) ⟨0, rfl⟩ fun t ⟨k, hk⟩ =>
      ⟨f (k + 1), hk ▸ hf.again k, k + 1, rfl⟩

theorem returns_of_measure (I : σ → Prop) (μ : σ → Nat) (h0 : I s)
    (hround : ∀ s, I s → ∃ r, body s = .ok r)
    (hstep : ∀ s s', I s → body s = .ok (.again s') → I s' ∧ μ s' < μ s) :
    ∃ fuel a, loop body fuel s = .ok a := by
  induction hμ : μ s using Nat.strongRecOn generalizing s with
  | _ n ih =>
    obtain ⟨r, hr⟩ := hround s h0
    cases r with
    | leave a => exact ⟨1, a, loop_leave hr⟩
    | again s' =>
      obtain ⟨hI, hlt⟩ := hstep s s' h0 hr
      obtain ⟨fuel, a, ha⟩ := ih (μ s') (hμ ▸ hlt) hI rfl
      exact ⟨fuel + 1, a, (loop_again hr).trans ha⟩

theorem loop_mono_body {body' : σ → Checked E (Round σ α)} (hbody : ∀ s r, body s = .ok r → body' s = .ok r)
    (h : loop body fuel s = .ok a) : loop body' fuel s = .ok a := by
  induction fuel generalizing s with
  | zero => cases h
  | succ fuel ih =>
    obtain ⟨r, hr, hrest⟩ := bind_eq_ok.1 h
    cases r with
    | again s' =>
      rw [loop_again (hbody s _ hr)]
      exact ih hrest
    | leave b =>
      cases hrest
      exact loop_leave (hbody s _ hr)

theorem returns_of_fuels {body : Nat → σ → Checked E (Round σ α)} (I : σ → Prop) (μ : σ → Nat) (h0 : I s)
    (hmono : ∀ m n s r, m ≤ n → body m s = .ok r → body n s = .ok r)
    (hround : ∀ s, I s → ∃ m r, body m s = .ok r)
    (hstep : ∀ m s s', I s → body m s = .ok (.again s') → I s' ∧ μ s' < μ s) :
    ∃ m fuel a, loop (body m) fuel s = .ok a := by
  induction hμ : μ s using Nat.strongRecOn generalizing s with
  | _ n ih =>
    obtain ⟨m, r, hr⟩ := hround s h0
    cases r with
    | leave a => exact ⟨m, 1, a, loop_leave hr⟩
    | again s' =>
      obtain ⟨hI, hlt⟩ := hstep m s s' h0 hr
      obtain ⟨m', fuel, a, ha⟩ := ih (μ s') (hμ ▸ hlt) hI rfl
      refine ⟨max m m', fuel + 1, a, ?_⟩
      rw [loop_again (hmono m _ s _ (Nat.le_max_left m m') hr)]
      exact loop_mono_body (fun s r => hmono m' _ s r (Nat.le_max_right m m')) ha

/-- The rounds from `s₀` to `s` have gone on, and these are their notes. -/
inductive Traced {β : Type} (body : σ → Checked E (Round σ α)) (note : σ → List β) (s₀ : σ) :
    List β → σ → Prop
  | start : Traced body note s₀ [] s₀
  | again {notes : List β} {s s' : σ} : Traced body note s₀ notes s → body s = .ok (.again s') →
      Traced body note s₀ (notes ++ note s) s'

theorem returns_of_traced {β : Type} {note : σ → List β} {s₀ : σ} (μ : List β → σ → Nat)
    (hround : ∀ notes s, Traced body note s₀ notes s → ∃ r, body s = .ok r)
    (hstep : ∀ notes s s', Traced body note s₀ notes s → body s = .ok (.again s') →
      μ (notes ++ note s) s' < μ notes s) : ∃ fuel a, loop body fuel s₀ = .ok a := by
  have hrest : ∀ n notes s, Traced body note s₀ notes s → μ notes s = n →
      ∃ fuel a, loop body fuel s = .ok a := fun n => by
    induction n using Nat.strongRecOn with
    | _ n ih =>
      intro notes s hs hμ
      obtain ⟨r, hr⟩ := hround notes s hs
      cases r with
      | leave a => exact ⟨1, a, loop_leave hr⟩
      | again s' =>
        obtain ⟨fuel, a, ha⟩ := ih _ (hμ ▸ hstep notes s s' hs hr) _ s' (hs.again hr) rfl
        exact ⟨fuel + 1, a, (loop_again hr).trans ha⟩
  exact hrest _ [] s₀ .start rfl

theorem loop_enough (I : σ → Prop) (μ : σ → Nat) (h0 : I s)
    (hbody : ∀ s, I s → body s ≠ .error .fuel)
    (hstep : ∀ s s', I s → body s = .ok (.again s') → I s' ∧ μ s' < μ s) (hfuel : μ s < fuel) :
    loop body fuel s ≠ .error .fuel := by
  induction fuel generalizing s with
  | zero => exact absurd hfuel (Nat.not_lt_zero _)
  | succ fuel ih =>
    match hs : body s with
    | .error e =>
      rw [loop_error hs]
      exact fun heq => hbody s h0 (hs.trans (congrArg _ (Except.error.inj heq)))
    | .ok (.leave a) =>
      rw [loop_leave hs]
      exact fun heq => nomatch heq
    | .ok (.again s') =>
      obtain ⟨hI, hlt⟩ := hstep s s' h0 hs
      rw [loop_again hs]
      exact ih hI (by omega)

/-- The invariant rule. -/
theorem loop_ind (I : σ → Prop) (h : loop body fuel s = .ok a) (h0 : I s)
    (hstep : ∀ s s', I s → body s = .ok (.again s') → I s') :
    ∃ t, I t ∧ body t = .ok (.leave a) := by
  induction fuel generalizing s with
  | zero => cases h
  | succ fuel ih =>
    obtain ⟨r, hr, hrest⟩ := bind_eq_ok.1 h
    cases r with
    | again s' => exact ih hrest (hstep s s' h0 hr)
    | leave b =>
      cases hrest
      exact ⟨s, h0, hr⟩

/-- With fuel beyond a measure the loop returns what satisfies `P`. -/
theorem loop_returns (I : σ → Prop) (μ : σ → Nat) (P : α → Prop) (h0 : I s)
    (hround : ∀ s, I s → (∃ s', body s = .ok (.again s') ∧ I s' ∧ μ s' < μ s) ∨
      ∃ a, body s = .ok (.leave a) ∧ P a) (hfuel : μ s < fuel) :
    ∃ a, loop body fuel s = .ok a ∧ P a := by
  induction fuel generalizing s with
  | zero => exact absurd hfuel (Nat.not_lt_zero _)
  | succ fuel ih =>
    rcases hround s h0 with ⟨s', hs, hI, hlt⟩ | ⟨a, hs, hP⟩
    · obtain ⟨a, ha, hP⟩ := ih hI (Nat.lt_of_lt_of_le hlt (Nat.le_of_lt_succ hfuel))
      exact ⟨a, (loop_again hs).trans ha, hP⟩
    · exact ⟨a, loop_leave hs, hP⟩

theorem loop_error_ind (I : σ → Prop) (h : loop body fuel s = .error e) (he : e ≠ .fuel) (h0 : I s)
    (hstep : ∀ s s', I s → body s = .ok (.again s') → I s') : ∃ t, I t ∧ body t = .error e := by
  induction fuel generalizing s with
  | zero => exact absurd (Except.error.inj h).symm he
  | succ fuel ih =>
    match hs : body s with
    | .error e' =>
      rw [loop_error hs] at h
      obtain rfl := Except.error.inj h
      exact ⟨s, h0, hs⟩
    | .ok (.leave a) =>
      rw [loop_leave hs] at h
      cases h
    | .ok (.again s') =>
      rw [loop_again hs] at h
      exact ih h (hstep s s' h0 hs)

theorem ends_iff_returns (hbody : ∀ s, ∃ r, body s = .ok r) :
    Ends body s ↔ ∃ fuel a, loop body fuel s = .ok a := by
  constructor
  · rintro ⟨fuel, hfuel⟩
    refine ⟨fuel, ?_⟩
    induction fuel generalizing s with
    | zero => exact absurd rfl hfuel
    | succ fuel ih =>
      obtain ⟨r, hr⟩ := hbody s
      cases r with
      | again s' =>
        rw [loop_again hr] at hfuel ⊢
        exact ih hfuel
      | leave a => exact ⟨a, loop_leave hr⟩
  · rintro ⟨fuel, a, h⟩
    exact ⟨fuel, fun h0 => nomatch h.symm.trans h0⟩

theorem loop_mono {m n : Nat} (h : loop body m s ≠ .error .fuel) (hle : m ≤ n) :
    loop body n s = loop body m s := by
  induction m generalizing s n with
  | zero => exact absurd rfl h
  | succ m ih =>
    obtain ⟨n, rfl⟩ := Nat.exists_eq_add_of_le' (Nat.lt_of_lt_of_le (Nat.zero_lt_succ m) hle)
    match hs : body s with
    | .error e => rw [loop_error hs, loop_error hs]
    | .ok (.leave a) => rw [loop_leave hs, loop_leave hs]
    | .ok (.again s') =>
      rw [loop_again hs] at h
      rw [loop_again hs, loop_again hs]
      exact ih h (Nat.le_of_succ_le_succ hle)

end Checked
