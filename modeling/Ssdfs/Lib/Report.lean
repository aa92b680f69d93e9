import Ssdfs.Lib.Checked

/-! Procedures that report a code and keep what they have done until then. -/

/-- The code that is reported, if any, and the state that is left. -/
abbrev Report (E σ : Type) := Option E × σ

namespace Report

variable {E α ι σ : Type}

/-- A part that fails with a code leaves the procedure in the state `s`. -/
def attempt (m : Checked E α) (s : σ) (k : α → Checked E (Report E σ)) :
    Checked E (Report E σ) :=
  match m with
  | .ok a => k a
  | .error (.code e) => .ok (some e, s)
  | .error f => .error f

/-- Goes on unless a code has been reported. -/
def andThen (r : Checked E (Report E σ)) (k : σ → Checked E (Report E σ)) :
    Checked E (Report E σ) :=
  match r with
  | .ok (none, s) => k s
  | .ok (some e, s) => .ok (some e, s)
  | .error f => .error f

/-- The state that is left where no code is reported. -/
def result (r : Checked E (Report E σ)) : Checked E σ :=
  match r with
  | .ok (none, s) => .ok s
  | .ok (some e, _) => .error (.code e)
  | .error f => .error f

/-- Runs `f` on the elements of a list until a code is reported. -/
def each (f : ι → σ → Checked E (Report E σ)) : List ι → σ → Checked E (Report E σ)
  | [], s => .ok (none, s)
  | i :: is, s => andThen (f i s) (each f is)

variable {m : Checked E α} {a : α} {e : E} {s s' : σ} {k : α → Checked E (Report E σ)}
  {r : Checked E (Report E σ)} {g : σ → Checked E (Report E σ)} {f : ι → σ → Checked E (Report E σ)}
  {is : List ι}

@[simp] theorem attempt_ok : attempt (.ok a) s k = k a := rfl

@[simp] theorem attempt_code : attempt (.error (.code e)) s k = .ok (some e, s) := rfl

@[simp] theorem result_ok : result (.ok (none, s) : Checked E (Report E σ)) = .ok s := rfl

@[simp] theorem andThen_ok : andThen (.ok (none, s)) g = g s := rfl

@[simp] theorem andThen_code :
    andThen (.ok (some e, s)) g = .ok (some e, s) := rfl

theorem attempt_eq_done {s' : σ} :
    attempt m s k = .ok (none, s') ↔ ∃ a, m = .ok a ∧ k a = .ok (none, s') := by
  cases m with
  | ok a => simp
  | error f => cases f <;> simp [attempt]

end Report

namespace Checked

variable {E α β : Type}

/-- `m` succeeds if `C` holds, with a result that satisfies `Q`, and ends with a code if not. -/
structure Guarded (m : Checked E α) (C : Prop) (Q : α → Prop) : Prop where
  succeeds : C → ∃ a, m = .ok a ∧ Q a
  refuses : ¬C → ∃ e, m = .error (.code e)

namespace Guarded

variable {m : Checked E α} {f : α → Checked E β} {C C' D : Prop} {Q Q' : α → Prop} {R : β → Prop}
  {a : α} {e : E}

theorem congr (h : Guarded m C Q) (hC : C' ↔ C) (hQ : ∀ a, Q a → Q' a) : Guarded m C' Q' where
  succeeds hc := by
    obtain ⟨a, ha, hq⟩ := h.succeeds (hC.1 hc)
    exact ⟨a, ha, hQ a hq⟩
  refuses hc := h.refuses fun h => hc (hC.2 h)

theorem ok (h : Q a) : Guarded (.ok a : Checked E α) True Q where
  succeeds _ := ⟨a, rfl, h⟩
  refuses h := absurd trivial h

theorem code : Guarded (.error (.code e) : Checked E α) False Q where
  succeeds := False.elim
  refuses _ := ⟨e, rfl⟩

theorem bind (h : Guarded m C Q) (hf : ∀ a, C → Q a → Guarded (f a) D R) :
    Guarded (m >>= f) (C ∧ D) R where
  succeeds := by
    rintro ⟨hc, hd⟩
    obtain ⟨a, rfl, hQ⟩ := h.succeeds hc
    exact (hf a hc hQ).succeeds hd
  refuses hnot := by
    by_cases hc : C
    · obtain ⟨a, rfl, hQ⟩ := h.succeeds hc
      exact (hf a hc hQ).refuses fun hd => hnot ⟨hc, hd⟩
    · obtain ⟨e, rfl⟩ := h.refuses hc
      exact ⟨e, rfl⟩

theorem forRange {σ : Type} {f : Nat → σ → Checked E σ} {C : Nat → Prop} (I : Nat → σ → Prop) {n : Nat}
    {s : σ} (h0 : I 0 s) (hstep : ∀ i < n, ∀ t, I i t → Guarded (f i t) (C i) (I (i + 1))) :
    Guarded (Checked.forRange n f s) (∀ i < n, C i) (I n) := by
  induction n with
  | zero => exact (ok h0).congr (iff_of_true nofun trivial) fun _ h => h
  | succ n ih =>
    have hn := ih fun i hi => hstep i (Nat.lt_succ_of_lt hi)
    refine (hn.bind fun t _ ht => hstep n (Nat.lt_succ_self n) t ht).congr ?_ fun _ h => h
    exact Nat.forall_lt_succ_right

end Guarded

/-- `m` ends with a result or with a code. -/
def Returns (m : Checked E α) : Prop := ∀ f, m = .error f → ∃ e, f = .code e

variable {m : Checked E α} {f : α → Checked E β} {a : α} {e : E} {C : Prop} {Q : α → Prop}

theorem returns_ok : Returns (.ok a : Checked E α) := nofun

theorem returns_code : Returns (.error (.code e) : Checked E α) := fun _ h =>
  ⟨e, (Except.error.inj h).symm⟩

theorem not_returns_of_ne {f : Fault E} (hf : ∀ e, f ≠ .code e) :
    ¬Returns (.error f : Checked E α) := fun h => by
  obtain ⟨e, he⟩ := h f rfl
  exact hf e he

theorem not_returns_stray : ¬Returns (.error .stray : Checked E α) := not_returns_of_ne nofun

theorem Guarded.returns (h : Guarded m C Q) : Returns m := by
  by_cases hc : C
  · obtain ⟨a, rfl, -⟩ := h.succeeds hc
    exact returns_ok
  · obtain ⟨e, rfl⟩ := h.refuses hc
    exact returns_code

theorem returns_bind : Returns (m >>= f) ↔ Returns m ∧ ∀ a, m = .ok a → Returns (f a) := by
  cases m with
  | ok a => exact ⟨fun h => ⟨returns_ok, fun b hb => Except.ok.inj hb ▸ h⟩, fun h => h.2 a rfl⟩
  | error e =>
    exact ⟨fun h => ⟨fun g hg => h g (congrArg Except.error (Except.error.inj hg)), nofun⟩,
      fun h g hg => h.1 g (congrArg Except.error (Except.error.inj hg))⟩

theorem returns_access [Decidable C] : Returns (if C then .ok a else .error .stray : Checked E α) ↔ C := by
  by_cases hc : C
  · rw [if_pos hc]
    exact iff_of_true returns_ok hc
  · rw [if_neg hc]
    exact iff_of_false not_returns_stray hc

end Checked

namespace Report

variable {E α ι σ : Type}

theorem returns_attempt {m : Checked E α} {s : σ} {k : α → Checked E (Report E σ)} :
    Checked.Returns (attempt m s k) ↔
      Checked.Returns m ∧ ∀ a, m = .ok a → Checked.Returns (k a) := by
  cases m with
  | ok a => exact ⟨fun h => ⟨Checked.returns_ok, fun b hb => Except.ok.inj hb ▸ h⟩, fun h => h.2 a rfl⟩
  | error f =>
    cases f with
    | code e => exact iff_of_true Checked.returns_ok ⟨Checked.returns_code, nofun⟩
    | abort | trap | stray | fuel =>
      exact iff_of_false (Checked.not_returns_of_ne nofun) fun h =>
        Checked.not_returns_of_ne nofun h.1

theorem each_cons_eq_done {i : ι} {is : List ι} {f : ι → σ → Checked E (Report E σ)} {s s' : σ} :
    each f (i :: is) s = .ok (none, s') ↔ ∃ t, f i s = .ok (none, t) ∧ each f is t = .ok (none, s') := by
  change andThen (f i s) (each f is) = .ok (none, s') ↔ _
  match f i s with
  | .error e => exact iff_of_false nofun fun ⟨_, h, _⟩ => nomatch h
  | .ok (some e, t) => exact iff_of_false nofun fun ⟨_, h, _⟩ => nomatch h
  | .ok (none, t) =>
    exact ⟨fun h => ⟨t, rfl, h⟩, fun ⟨_, ht, h⟩ => by
      cases ht
      exact h⟩

theorem each_append {is js : List ι} {f : ι → σ → Checked E (Report E σ)} {s : σ} :
    each f (is ++ js) s = andThen (each f is s) (each f js) := by
  induction is generalizing s with
  | nil => rfl
  | cons i is ih =>
    show andThen (f i s) (each f (is ++ js)) = andThen (andThen (f i s) (each f is)) (each f js)
    match f i s with
    | .error e => rfl
    | .ok (some e, t) => rfl
    | .ok (none, t) => exact ih

/-- Whatever is reported, the state that is left satisfies `I`. -/
def Leaves (r : Checked E (Report E σ)) (I : σ → Prop) : Prop := ∀ e s, r = .ok (e, s) → I s

namespace Leaves

variable {m : Checked E α} {r : Checked E (Report E σ)} {k : α → Checked E (Report E σ)}
  {g : σ → Checked E (Report E σ)} {s : σ} {e : Option E} {I J : σ → Prop}

theorem ok (h : I s) : Leaves (.ok (e, s) : Checked E (Report E σ)) I := fun _ _ heq => by
  cases heq
  exact h

theorem error {f : Fault E} : Leaves (.error f : Checked E (Report E σ)) I := nofun

theorem mono (h : Leaves r I) (hIJ : ∀ s, I s → J s) : Leaves r J := fun e s hs => hIJ s (h e s hs)

theorem bind {m : Checked E α} (hk : ∀ a, m = .ok a → Leaves (k a) I) : Leaves (m >>= k) I :=
  fun e s heq => by
    obtain ⟨a, ha, hs⟩ := Checked.bind_eq_ok.1 heq
    exact hk a ha e s hs

theorem attempt (h : I s) (hk : ∀ a, m = .ok a → Leaves (k a) I) : Leaves (Report.attempt m s k) I := by
  cases m with
  | ok a => exact hk a rfl
  | error f =>
    cases f with
    | code e => exact ok h
    | abort | trap | stray | fuel => exact error

theorem andThen (h : Leaves r I) (hIJ : ∀ s, I s → J s) (hg : ∀ s, I s → Leaves (g s) J) :
    Leaves (Report.andThen r g) J := by
  match r with
  | .error f => exact error
  | .ok (none, s) => exact hg s (h none s rfl)
  | .ok (some e, s) => exact ok (hIJ s (h (some e) s rfl))

theorem each {f : ι → σ → Checked E (Report E σ)} {is : List ι} (h0 : I s)
    (hstep : ∀ i ∈ is, ∀ t, I t → Leaves (f i t) I) : Leaves (Report.each f is s) I := by
  induction is generalizing s with
  | nil => exact ok h0
  | cons i is ih =>
    exact (hstep i List.mem_cons_self s h0).andThen (fun _ h => h) fun t ht =>
      ih ht fun j hj => hstep j (List.mem_cons_of_mem i hj)

end Leaves

/-- No code is reported if `C` holds, and the state that is left satisfies `Q`. -/
structure Settles (r : Checked E (Report E σ)) (C : Prop) (Q : σ → Prop) : Prop where
  done : C → ∃ s, r = .ok (none, s) ∧ Q s
  code : ¬C → ∃ e s, r = .ok (some e, s)

namespace Settles

variable {m : Checked E α} {r : Checked E (Report E σ)} {k : α → Checked E (Report E σ)}
  {g : σ → Checked E (Report E σ)} {s : σ} {C C' D : Prop} {P : α → Prop} {Q R : σ → Prop}

theorem congr (h : Settles r C Q) (hC : C' ↔ C) (hQ : ∀ s, Q s → R s) : Settles r C' R where
  done hc := by
    obtain ⟨s, hs, hq⟩ := h.done (hC.1 hc)
    exact ⟨s, hs, hQ s hq⟩
  code hc := h.code fun h => hc (hC.2 h)

theorem iff_iff (h : Settles r C Q) : Settles r D Q ↔ (D ↔ C) := by
  constructor
  · intro h'
    by_cases hc : C
    · obtain ⟨s, hs, -⟩ := h.done hc
      refine iff_of_true (by_contra fun hd => ?_) hc
      obtain ⟨e, s', hs'⟩ := h'.code hd
      cases hs.symm.trans hs'
    · obtain ⟨e, s, hs⟩ := h.code hc
      refine iff_of_false (fun hd => ?_) hc
      obtain ⟨s', hs', -⟩ := h'.done hd
      cases hs.symm.trans hs'
  · exact fun hiff => h.congr hiff fun s hs => hs

theorem ok (h : Q s) : Settles (.ok (none, s) : Checked E (Report E σ)) True Q where
  done _ := ⟨s, rfl, h⟩
  code h := absurd trivial h

theorem attempt (h : Checked.Guarded m C P) (hk : ∀ a, C → P a → Settles (k a) D Q) :
    Settles (Report.attempt m s k) (C ∧ D) Q where
  done := by
    rintro ⟨hc, hd⟩
    obtain ⟨a, rfl, hP⟩ := h.succeeds hc
    exact (hk a hc hP).done hd
  code hnot := by
    by_cases hc : C
    · obtain ⟨a, rfl, hP⟩ := h.succeeds hc
      exact (hk a hc hP).code fun hd => hnot ⟨hc, hd⟩
    · obtain ⟨e, rfl⟩ := h.refuses hc
      exact ⟨e, s, rfl⟩

theorem andThen (h : Settles r C Q) (hg : ∀ s, Q s → Settles (g s) D R) :
    Settles (Report.andThen r g) (C ∧ D) R where
  done := by
    rintro ⟨hc, hd⟩
    obtain ⟨s, rfl, hQ⟩ := h.done hc
    exact (hg s hQ).done hd
  code hnot := by
    by_cases hc : C
    · obtain ⟨s, rfl, hQ⟩ := h.done hc
      exact (hg s hQ).code fun hd => hnot ⟨hc, hd⟩
    · obtain ⟨e, s, rfl⟩ := h.code hc
      exact ⟨e, s, rfl⟩

/-- The invariant rule of a sequence: it reports a code if one of its steps does. -/
theorem each {f : ι → σ → Checked E (Report E σ)} {good : ι → Prop} {I : List ι → σ → Prop}
    {ds is : List ι} (h0 : I ds s)
    (hstep : ∀ es i rest t, ds ++ is = es ++ i :: rest → I es t →
      Settles (f i t) (good i) (I (es ++ [i]))) :
    Settles (Report.each f is s) (∀ i ∈ is, good i) (I (ds ++ is)) := by
  induction is generalizing ds s with
  | nil => exact (ok (Q := I (ds ++ [])) (by rwa [List.append_nil])).congr (by simp) fun _ h => h
  | cons i is ih =>
    refine ((hstep ds i is s rfl h0).andThen (D := ∀ i ∈ is, good i) fun t ht => ?_).congr
      List.forall_mem_cons fun t ht => ht
    have hrest := ih ht fun es j rest u heq => hstep es j rest u (by simpa using heq)
    rw [List.append_assoc] at hrest
    exact hrest

end Settles

end Report
