import Ssdfs.Lib.Loop
import Ssdfs.Lib.Memory
import Ssdfs.Lib.Word

/-! The loops that `ssdfs_pread` and `ssdfs_pwrite` put around the system calls. -/

namespace Ssdfs

def eintr : Nat := 4

/-- What a call of `pread` or `pwrite` comes back with. -/
inductive IoResult where
  | moved (bytes : Nat)
  | failed (errno : Nat)
  deriving Repr, DecidableEq

def IoResult.bytes : IoResult → Nat
  | moved bytes => bytes
  | failed _ => 0

structure Move where
  offset : Nat
  buf : Nat
  bytes : Nat
  deriving Repr, DecidableEq

def Move.cells (m : Move) : List (Nat × Nat) :=
  (List.range m.bytes).map fun i => (m.offset + i, m.buf + i)

structure Media where
  device : Memory.Bytes
  buffer : Memory.Bytes

def Media.read (media : Media) (m : Move) : Media :=
  { media with buffer := Memory.blit media.buffer m.buf media.device m.offset m.bytes }

def Media.write (media : Media) (m : Move) : Media :=
  { media with device := Memory.blit media.device m.offset media.buffer m.buf m.bytes }

structure Transfer where
  calls : Nat
  rest : Nat
  offset : Nat
  buf : Nat
  media : Media
  moves : List Move

def Transfer.init (offset size : Nat) (media : Media) : Transfer := ⟨0, size, offset, 0, media, []⟩

def transferRound (results : Nat → IoResult) (effect : Media → Move → Media) (t : Transfer) :
    Checked Empty (Round Transfer (Nat × Transfer)) :=
  if t.rest = 0 then .ok (.leave (0, t))
  else match results t.calls with
    | .failed errno =>
      if errno = eintr then .ok (.again { t with calls := t.calls + 1 })
      else .ok (.leave (errno, t))
    | .moved ret =>
      .ok (.again {
        calls := t.calls + 1
        rest := Word.sub64 t.rest ret
        offset := Word.u64 (t.offset + ret)
        buf := t.buf + ret
        media := effect t.media ⟨t.offset, t.buf, ret⟩
        moves := t.moves ++ [⟨t.offset, t.buf, ret⟩] })

def pwrite (results : Nat → IoResult) (fuel offset size : Nat) (media : Media) :
    Checked Empty (Nat × Transfer) :=
  Checked.loop (transferRound results Media.write) fuel (.init offset size media)

def pread (results : Nat → IoResult) (fuel offset size : Nat) (media : Media) :
    Checked Empty (Nat × Transfer) :=
  Checked.loop (transferRound results Media.read) fuel (.init offset size media)

def movedBy (results : Nat → IoResult) : Nat → Nat
  | 0 => 0
  | k + 1 => movedBy results k + (results k).bytes

/-- What the system promises about the calls for `size` bytes at `offset`: it moves no more than
it is asked for and nothing behind the largest file offset, an error has a number, and interruptions
come to an end. -/
structure IoResults (results : Nat → IoResult) (offset size : Nat) : Prop where
  asked : ∀ k, movedBy results k < size → movedBy results k + (results k).bytes ≤ size
  limit : ∀ k, 0 < (results k).bytes →
    offset + movedBy results k + (results k).bytes ≤ 9223372036854775808
  errno : ∀ k, results k ≠ .failed 0
  resumed : ∀ k, ∃ j, k ≤ j ∧ results j ≠ .failed eintr

/-- After some calls without an error, which leave bytes to move, no call moves any. -/
def Stalls (results : Nat → IoResult) (size : Nat) : Prop :=
  ∃ k, movedBy results k < size ∧ (∀ i < k, ∀ errno, results i = .failed errno → errno = eintr) ∧
    ∀ i, k ≤ i → results i = .failed eintr ∨ results i = .moved 0

/-- The function returns, and it returns 0 only after every byte has been moved once, in order and
to its place. -/
structure TransfersAll (run : Nat → Checked Empty (Nat × Transfer)) (offset size : Nat)
    (whole : Media) : Prop where
  returns : ∃ fuel r, run fuel = .ok r
  complete : ∀ fuel t, run fuel = .ok (0, t) →
    t.moves.flatMap Move.cells = (List.range size).map (fun i => (offset + i, i)) ∧ t.media = whole

structure Joins (effect : Media → Move → Media) : Prop where
  nil : ∀ media offset buf, effect media ⟨offset, buf, 0⟩ = media
  join : ∀ media offset buf m n, effect (effect media ⟨offset, buf, m⟩) ⟨offset + m, buf + m, n⟩ =
    effect media ⟨offset, buf, m + n⟩

theorem joins_read : Joins Media.read where
  nil := fun media offset buf => by simp [Media.read, Memory.blit_zero]
  join := fun media offset buf m n => by simp [Media.read, Memory.blit_blit]

theorem joins_write : Joins Media.write where
  nil := fun media offset buf => by simp [Media.write, Memory.blit_zero]
  join := fun media offset buf m n => by simp [Media.write, Memory.blit_blit]

section

variable {results : Nat → IoResult} {effect : Media → Move → Media} {offset size k : Nat}
  {media : Media} {t t' : Transfer} {r : Nat × Transfer}

/-- The loop after its first `k` calls. -/
structure TransferAt (results : Nat → IoResult) (effect : Media → Move → Media) (offset size : Nat)
    (media : Media) (t : Transfer) : Prop where
  within : movedBy results t.calls ≤ size
  below : offset + movedBy results t.calls < 18446744073709551616
  rest : t.rest = size - movedBy results t.calls
  place : t.offset = offset + movedBy results t.calls
  buf : t.buf = movedBy results t.calls
  media : t.media = effect media ⟨offset, 0, movedBy results t.calls⟩
  moves : t.moves.flatMap Move.cells =
    (List.range (movedBy results t.calls)).map fun i => (offset + i, i)
  interrupted : ∀ i < t.calls, ∀ errno, results i = .failed errno → errno = eintr

theorem transferAt_init (h : Joins effect) (hoffset : offset < 18446744073709551616) :
    TransferAt results effect offset size media (.init offset size media) where
  within := Nat.zero_le size
  below := hoffset
  rest := rfl
  place := rfl
  buf := rfl
  media := (h.nil media offset 0).symm
  moves := rfl
  interrupted := fun i hi => absurd hi (Nat.not_lt_zero i)

theorem transferRound_cases {s : Round Transfer (Nat × Transfer)}
    (h : transferRound results effect t = .ok s) :
    (t.rest = 0 ∧ s = .leave (0, t)) ∨
    (∃ errno, t.rest ≠ 0 ∧ results t.calls = .failed errno ∧ errno ≠ eintr ∧ s = .leave (errno, t)) ∨
    (t.rest ≠ 0 ∧ results t.calls = .failed eintr ∧ s = .again { t with calls := t.calls + 1 }) ∨
    (∃ ret, t.rest ≠ 0 ∧ results t.calls = .moved ret ∧ s = .again {
      calls := t.calls + 1
      rest := Word.sub64 t.rest ret
      offset := Word.u64 (t.offset + ret)
      buf := t.buf + ret
      media := effect t.media ⟨t.offset, t.buf, ret⟩
      moves := t.moves ++ [⟨t.offset, t.buf, ret⟩] }) := by
  unfold transferRound at h
  by_cases hrest : t.rest = 0
  · rw [if_pos hrest] at h
    exact .inl ⟨hrest, (Except.ok.inj h).symm⟩
  · rw [if_neg hrest] at h
    match hres : results t.calls with
    | .failed errno =>
      simp only [hres] at h
      by_cases herr : errno = eintr
      · rw [if_pos herr] at h
        exact .inr (.inr (.inl ⟨hrest, herr ▸ rfl, (Except.ok.inj h).symm⟩))
      · rw [if_neg herr] at h
        exact .inr (.inl ⟨errno, hrest, rfl, herr, (Except.ok.inj h).symm⟩)
    | .moved ret =>
      simp only [hres] at h
      exact .inr (.inr (.inr ⟨ret, hrest, rfl, (Except.ok.inj h).symm⟩))

theorem transferAt_step (hjoin : Joins effect) (hdoc : IoResults results offset size)
    (hsize : size < 18446744073709551616) (h : TransferAt results effect offset size media t)
    (hround : transferRound results effect t = .ok (.again t')) :
    TransferAt results effect offset size media t' ∧ t'.calls = t.calls + 1 := by
  obtain ⟨-, hs⟩ | ⟨errno, -, -, -, hs⟩ | ⟨-, hres, hs⟩ | ⟨ret, hrest, hres, hs⟩ :=
    transferRound_cases hround
  · cases hs
  · cases hs
  · -- an interrupted call moves nothing
    cases hs
    have hsame : movedBy results (t.calls + 1) = movedBy results t.calls := by
      simp [movedBy, hres, IoResult.bytes]
    refine ⟨⟨hsame ▸ h.within, hsame ▸ h.below, hsame ▸ h.rest, hsame ▸ h.place, hsame ▸ h.buf, hsame ▸ h.media,
      hsame ▸ h.moves, fun i hi errno he => ?_⟩, rfl⟩
    rcases Nat.lt_succ_iff_lt_or_eq.1 hi with hlt | rfl
    · exact h.interrupted i hlt errno he
    · exact (IoResult.failed.inj (hres.symm.trans he)).symm
  · cases hs
    have hbytes : (results t.calls).bytes = ret := by rw [hres]; rfl
    have hnext : movedBy results (t.calls + 1) = movedBy results t.calls + ret := by
      rw [← hbytes]; rfl
    have hleft := h.rest
    have hin := hdoc.asked t.calls (by omega)
    rw [hbytes] at hin
    have hplace : offset + movedBy results t.calls + ret < 18446744073709551616 := by
      have hbelow := h.below
      have hlimit := hdoc.limit t.calls
      rw [hbytes] at hlimit
      omega
    refine ⟨⟨?_, ?_, ?_, ?_, ?_, ?_, ?_, fun i hi errno he => ?_⟩, rfl⟩
    · rw [hnext]
      exact hin
    · rw [hnext, ← Nat.add_assoc]
      exact hplace
    · rw [hnext, Word.sub64_of_le (by omega) (by omega), hleft, Nat.sub_sub]
    · rw [hnext, h.place, Word.u64_of_lt hplace, Nat.add_assoc]
    · rw [hnext, h.buf]
    · rw [hnext, h.media, h.place, h.buf]
      simpa using hjoin.join media offset 0 (movedBy results t.calls) ret
    · rw [hnext, List.flatMap_append, h.moves, List.range_add, List.map_append, h.place, h.buf]
      simp [Move.cells, Nat.add_assoc]
    · rcases Nat.lt_succ_iff_lt_or_eq.1 hi with hlt | rfl
      · exact h.interrupted i hlt errno he
      · cases hres.symm.trans he

theorem movedBy_mono {m n : Nat} (h : m ≤ n) : movedBy results m ≤ movedBy results n := by
  induction h with
  | refl => exact Nat.le_refl _
  | step _ ih => exact Nat.le_trans ih (Nat.le_add_right _ _)

variable (results effect) in
theorem transferRound_ok (t : Transfer) : ∃ s, transferRound results effect t = .ok s := by
  unfold transferRound
  split
  · exact ⟨_, rfl⟩
  · split
    · split
      · exact ⟨_, rfl⟩
      · exact ⟨_, rfl⟩
    · exact ⟨_, rfl⟩

theorem transferRound_again (hrest : t.rest ≠ 0)
    (hres : ∀ errno, results t.calls = .failed errno → errno = eintr) :
    ∃ t', transferRound results effect t = .ok (.again t') := by
  obtain ⟨s, hs⟩ := transferRound_ok results effect t
  obtain ⟨h0, -⟩ | ⟨errno, -, he, hne, -⟩ | ⟨-, -, rfl⟩ | ⟨ret, -, -, rfl⟩ := transferRound_cases hs
  · exact absurd h0 hrest
  · exact absurd (hres errno he) hne
  · exact ⟨_, hs⟩
  · exact ⟨_, hs⟩

theorem transferRound_rest (h : transferRound results effect t = .ok (.again t')) :
    t.rest ≠ 0 ∧ ∀ errno, results t.calls = .failed errno → errno = eintr := by
  obtain ⟨-, hs⟩ | ⟨errno, -, -, -, hs⟩ | ⟨hrest, hres, -⟩ | ⟨ret, hrest, hres, -⟩ := transferRound_cases h
  · cases hs
  · cases hs
  · exact ⟨hrest, fun errno he => (IoResult.failed.inj (hres.symm.trans he)).symm⟩
  · exact ⟨hrest, fun errno he => nomatch hres.symm.trans he⟩

theorem not_ends_of_stalls (hjoin : Joins effect) (hdoc : IoResults results offset size)
    (hsize : size < 18446744073709551616) (hoffset : offset < 18446744073709551616)
    (h : Stalls results size) :
    ¬Checked.Ends (transferRound results effect) (.init offset size media) := by
  obtain ⟨k, hk, hbefore, hidle⟩ := h
  refine Checked.not_ends_of_inv
    (fun t => TransferAt results effect offset size media t ∧ movedBy results t.calls < size)
    ⟨transferAt_init hjoin hoffset, Nat.lt_of_le_of_lt (Nat.zero_le _) hk⟩ fun t ⟨hat, hlt⟩ => ?_
  have hcontinues : ∀ errno, results t.calls = .failed errno → errno = eintr := by
    intro errno he
    rcases Nat.lt_or_ge t.calls k with hcalls | hcalls
    · exact hbefore t.calls hcalls errno he
    · rcases hidle t.calls hcalls with hint | hzero
      · exact (IoResult.failed.inj (hint.symm.trans he)).symm
      · cases hzero.symm.trans he
  have hrest : t.rest ≠ 0 := by
    rw [hat.rest]
    omega
  obtain ⟨t', ht'⟩ := transferRound_again hrest hcontinues
  obtain ⟨hat', hcalls'⟩ := transferAt_step hjoin hdoc hsize hat ht'
  refine ⟨t', ht', hat', ?_⟩
  rw [hcalls']
  rcases Nat.lt_or_ge t.calls k with hcalls | hcalls
  · exact Nat.lt_of_le_of_lt (movedBy_mono hcalls) hk
  · have hnone : (results t.calls).bytes = 0 := by
      rcases hidle t.calls hcalls with hint | hzero
      · rw [hint]; rfl
      · rw [hzero]; rfl
    rw [movedBy, hnone]
    exact hlt

theorem ends_of_not_stalls (hjoin : Joins effect) (hdoc : IoResults results offset size)
    (hsize : size < 18446744073709551616) (hoffset : offset < 18446744073709551616)
    (h : ¬Stalls results size) :
    Checked.Ends (transferRound results effect) (.init offset size media) := by
  by_contra hnot
  obtain ⟨f, h0, hf⟩ := (Checked.not_ends_iff fun t herr => by
    obtain ⟨s, hs⟩ := transferRound_ok results effect t
    cases hs.symm.trans herr).1 hnot
  have hat : ∀ k, TransferAt results effect offset size media (f k) ∧ (f k).calls = k := by
    intro k
    induction k with
    | zero => exact h0 ▸ ⟨transferAt_init hjoin hoffset, rfl⟩
    | succ k ih =>
      obtain ⟨hnext, hcalls⟩ := transferAt_step hjoin hdoc hsize ih.1 (hf.again k)
      exact ⟨hnext, hcalls.trans (congrArg (· + 1) ih.2)⟩
  have hcontinues : ∀ k errno, results k = .failed errno → errno = eintr := by
    intro k
    have hround := (transferRound_rest (hf.again k)).2
    rwa [(hat k).2] at hround
  have hshort : ∀ k, movedBy results k < size := by
    intro k
    have hround := (transferRound_rest (hf.again k)).1
    rw [(hat k).1.rest, (hat k).2] at hround
    omega
  -- the calls that move bytes never stop, so that they move any number of bytes
  have hany : ∀ m, ∃ k, m ≤ movedBy results k := by
    intro m
    induction m with
    | zero => exact ⟨0, Nat.zero_le _⟩
    | succ m ih =>
      obtain ⟨k, hk⟩ := ih
      by_contra hnone
      refine h ⟨k, hshort k, fun i _ => hcontinues i, fun i hi => ?_⟩
      match hres : results i with
      | .failed errno => exact .inl (congrArg _ (hcontinues i errno hres))
      | .moved 0 => exact .inr rfl
      | .moved (n + 1) =>
        refine absurd ⟨i + 1, ?_⟩ hnone
        have hmono : movedBy results k ≤ movedBy results i := movedBy_mono hi
        have hnext : movedBy results (i + 1) = movedBy results i + (n + 1) := by
          rw [movedBy, hres]; rfl
        omega
  obtain ⟨k, hk⟩ := hany size
  exact Nat.not_lt.2 hk (hshort k)

theorem loop_complete {fuel : Nat} (hjoin : Joins effect) (hdoc : IoResults results offset size)
    (hsize : size < 18446744073709551616) (hoffset : offset < 18446744073709551616)
    (h : Checked.loop (transferRound results effect) fuel (.init offset size media) = .ok (0, t)) :
    t.moves.flatMap Move.cells = (List.range size).map (fun i => (offset + i, i)) ∧
      t.media = effect media ⟨offset, 0, size⟩ := by
  obtain ⟨u, hu, hleave⟩ := Checked.loop_ind (TransferAt results effect offset size media) h
    (transferAt_init hjoin hoffset) fun t t' hat ht => (transferAt_step hjoin hdoc hsize hat ht).1
  obtain ⟨hrest, hs⟩ | ⟨errno, -, herr, -, hs⟩ | ⟨-, -, hs⟩ | ⟨ret, -, -, hs⟩ :=
    transferRound_cases hleave
  · cases hs
    have hall : movedBy results t.calls = size := by
      have hleft := hu.rest
      have hwithin := hu.within
      omega
    exact ⟨hall ▸ hu.moves, hall ▸ hu.media⟩
  · cases hs
    exact absurd herr (hdoc.errno _)
  · cases hs
  · cases hs

theorem transfersAll_iff (hjoin : Joins effect) (hdoc : IoResults results offset size)
    (hsize : size < 18446744073709551616) (hoffset : offset < 18446744073709551616) :
    TransfersAll (fun fuel =>
        Checked.loop (transferRound results effect) fuel (.init offset size media)) offset size
      (effect media ⟨offset, 0, size⟩) ↔ ¬Stalls results size := by
  have hreturns : Checked.Ends (transferRound results effect) (.init offset size media) ↔ _ :=
    Checked.ends_iff_returns (transferRound_ok results effect)
  constructor
  · intro h hstalls
    exact not_ends_of_stalls hjoin hdoc hsize hoffset hstalls (hreturns.2 h.returns)
  · intro h
    exact ⟨hreturns.1 (ends_of_not_stalls hjoin hdoc hsize hoffset h),
      fun fuel t => loop_complete hjoin hdoc hsize hoffset⟩

end

/-- Both functions return, with 0 for complete transfers only, unless no call moves any more bytes. -/
theorem preadPwrite_transfer_iff {results : Nat → IoResult} {offset size : UInt64} (media : Media)
    (hdoc : IoResults results offset.toNat size.toNat) :
    (TransfersAll (fun fuel => pread results fuel offset.toNat size.toNat media) offset.toNat
          size.toNat (media.read ⟨offset.toNat, 0, size.toNat⟩) ↔ ¬Stalls results size.toNat) ∧
      (TransfersAll (fun fuel => pwrite results fuel offset.toNat size.toNat media) offset.toNat
          size.toNat (media.write ⟨offset.toNat, 0, size.toNat⟩) ↔ ¬Stalls results size.toNat) :=
  ⟨transfersAll_iff joins_read hdoc size.toNat_lt offset.toNat_lt,
    transfersAll_iff joins_write hdoc size.toNat_lt offset.toNat_lt⟩

def shortResults : Nat → IoResult
  | 0 => .moved 3
  | 1 => .failed eintr
  | 2 => .moved 1
  | _ => .moved 0

theorem preadPwrite_transfer_short : TransfersAll
    (fun fuel => pread shortResults fuel (4096 : UInt64).toNat (4 : UInt64).toNat
      ⟨fun i => i.toUInt8, fun _ => 0⟩)
    4096 4 (Media.read ⟨fun i => i.toUInt8, fun _ => 0⟩ ⟨4096, 0, 4⟩) := by
  have hdone : ∀ k, movedBy shortResults (k + 3) = 4 := fun k => by
    induction k with
    | zero => rfl
    | succ k ih => rw [movedBy, ih]; rfl
  have hdoc : IoResults shortResults (4096 : UInt64).toNat (4 : UInt64).toNat := by
    refine ⟨fun k hk => ?_, fun k hk => ?_, fun k => ?_, fun k => ⟨k + 3, by omega, ?_⟩⟩
    · match k with
      | 0 | 1 | 2 => decide
      | k + 3 => exact absurd (hdone k ▸ hk) (by decide)
    · match k with
      | 0 | 1 | 2 => decide
      | k + 3 => exact absurd hk (by simp [shortResults, IoResult.bytes])
    · match k with
      | 0 | 1 | 2 => decide
      | k + 3 => simp [shortResults]
    · simp [shortResults]
  refine (preadPwrite_transfer_iff ⟨fun i => i.toUInt8, fun _ => 0⟩ hdoc).1.2 ?_
  rintro ⟨k, hk, -, hidle⟩
  match k with
  | 0 | 1 | 2 =>
    rcases hidle 2 (by decide) with h | h
    · cases h
    · cases h
  | k + 3 => exact absurd (hdone k ▸ hk) (by decide)

/-- A read behind the end of the device never returns. -/
theorem pread_hangs_behind_end : IoResults (fun _ => .moved 0) 4096 1 ∧
    ∀ fuel, pread (fun _ => .moved 0) fuel 4096 1 ⟨fun _ => 0, fun _ => 0⟩ = .error .fuel := by
  have hnone : ∀ k, movedBy (fun _ => .moved 0) k = 0 := fun k => by
    induction k with
    | zero => rfl
    | succ k ih => rw [movedBy, ih]; rfl
  have hdoc : IoResults (fun _ => .moved 0) 4096 1 := by
    refine ⟨fun k _ => ?_, fun k hk => absurd hk (Nat.lt_irrefl 0), fun k => by simp,
      fun k => ⟨k, Nat.le_refl k, by simp⟩⟩
    rw [hnone]
    decide
  refine ⟨hdoc, fun fuel => by_contra fun hend => ?_⟩
  exact not_ends_of_stalls joins_read hdoc (by decide) (by decide)
    ⟨0, by decide, fun i hi => absurd hi (Nat.not_lt_zero i), fun i _ => .inr rfl⟩ ⟨fuel, hend⟩

end Ssdfs
