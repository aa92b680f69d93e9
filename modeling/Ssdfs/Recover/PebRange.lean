import Ssdfs.Lib.Tiling
import Ssdfs.Lib.Word

namespace Ssdfs

structure PebPortion where
  id : Nat
  pebsCount : Nat

def pebsPerThread (pebsCount threadsCapacity : Nat) : Nat :=
  Word.sub64 (Word.u64 (pebsCount + threadsCapacity)) 1 / threadsCapacity

/-- The thread's number comes as an `int`; the difference is unsigned. -/
def initPebEnvironment (threadId pebsPerThread pebsCount : Nat) : PebPortion :=
  let id := Word.u64 (Word.sext32 threadId * pebsPerThread)
  ⟨id, min (Word.sub64 pebsCount id) pebsPerThread⟩

/-- The PEBs that a worker processes, one after another: an error of one does not stop it. -/
def processPebRange (peb : PebPortion) : List Nat :=
  (List.range peb.pebsCount).map fun i => Word.u64 (peb.id + i)

def threadPebs (pebsCount threadsCapacity threadId : Nat) : Set Nat :=
  { p | p ∈ processPebRange
    (initPebEnvironment threadId (pebsPerThread pebsCount threadsCapacity) pebsCount) }

section

variable {n c i t p : Nat}

theorem pebsPerThread_eq (hc : 1 ≤ c) (hsum : n + c ≤ 18446744073709551616) :
    pebsPerThread n c = (n + c - 1) / c := by
  have hsub : Word.sub64 (Word.u64 (n + c)) 1 = n + c - 1 := by
    unfold Word.u64 Word.sub64
    omega
  unfold pebsPerThread
  rw [hsub]

theorem pebsPerThread_wrapped (hn : n < 18446744073709551616) (hc : c < 4294967296)
    (hsum : 18446744073709551616 < n + c) : pebsPerThread n c = 0 := by
  have hsub : Word.sub64 (Word.u64 (n + c)) 1 = n + c - 1 - 18446744073709551616 := by
    unfold Word.u64 Word.sub64
    omega
  unfold pebsPerThread
  rw [hsub]
  exact Nat.div_eq_of_lt (by omega)

/-- A number that an `int` holds, or a portion that makes up for the sign, leaves the start right. -/
theorem threadStart_eq (h : i < 2147483648 ∨ 4294967296 ∣ t) (hlt : i * t < 18446744073709551616) :
    Word.u64 (Word.sext32 i * t) = i * t := by
  unfold Word.sext32
  split
  case isTrue => exact Word.u64_of_lt hlt
  case isFalse hge =>
    obtain ⟨k, rfl⟩ := h.resolve_left hge
    have hsum : (i + (18446744073709551616 - 4294967296)) * (4294967296 * k) =
        i * (4294967296 * k) + 18446744073709551616 * (4294967295 * k) := by
      rw [Nat.add_mul]
      omega
    rw [hsum]
    unfold Word.u64
    rw [Nat.add_mul_mod_self_left, Nat.mod_eq_of_lt hlt]

theorem threadStart_negative (hi : 2147483648 ≤ i) (hi' : i < 4294967296) (ht : 0 < t)
    (hlt : (4294967296 - i) * t < 18446744073709551616) :
    Word.u64 (Word.sext32 i * t) = 18446744073709551616 - (4294967296 - i) * t := by
  have hpos : 0 < (4294967296 - i) * t := Nat.mul_pos (by omega) ht
  have hsext : Word.sext32 i = 18446744073709551616 - (4294967296 - i) := by
    unfold Word.sext32
    rw [if_neg (Nat.not_lt.2 hi)]
    omega
  obtain ⟨k, rfl⟩ : ∃ k, t = k + 1 := ⟨t - 1, by omega⟩
  have hsum : (18446744073709551616 - (4294967296 - i)) * (k + 1) =
      18446744073709551616 - (4294967296 - i) * (k + 1) + 18446744073709551616 * k := by
    rw [Nat.sub_mul, Nat.mul_succ 18446744073709551616 k]
    omega
  rw [hsext, hsum]
  unfold Word.u64
  rw [Nat.add_mul_mod_self_left, Nat.mod_eq_of_lt (by omega)]

theorem mem_threadPebs_of_start {s : Nat} (ht : pebsPerThread n c = t)
    (hs : Word.u64 (Word.sext32 i * t) = s) (hn : n < 18446744073709551616)
    (hend : s + t ≤ 18446744073709551616) :
    p ∈ threadPebs n c i ↔ s ≤ p ∧ p < s + t ∧ (p < n ∨ n < s) := by
  have hlt : s < 18446744073709551616 := hs ▸ Word.u64_lt _
  unfold threadPebs processPebRange initPebEnvironment
  simp only [Set.mem_ofPred_eq, List.mem_map, List.mem_range, ht, hs]
  rcases Nat.lt_or_ge n s with hless | hge
  · rw [Word.sub64_of_lt hless hlt, Nat.min_eq_right (by omega)]
    constructor
    · rintro ⟨k, hk, rfl⟩
      rw [Word.u64_of_lt (by omega)]
      exact ⟨by omega, by omega, .inr hless⟩
    · rintro ⟨hle, hp, -⟩
      exact ⟨p - s, by omega, by rw [Word.u64_of_lt (by omega)]; omega⟩
  · rw [Word.sub64_of_le hge hn]
    constructor
    · rintro ⟨k, hk, rfl⟩
      rw [Word.u64_of_lt (by omega)]
      exact ⟨by omega, by omega, .inl (by omega)⟩
    · rintro ⟨hle, hp, hin⟩
      exact ⟨p - s, by omega, by rw [Word.u64_of_lt (by omega)]; omega⟩

theorem mem_threadPebs (ht : pebsPerThread n c = t) (hn : n < 18446744073709551616)
    (hend : i * t + t < 18446744073709551616) (hi : i < 2147483648 ∨ 4294967296 ∣ t) :
    p ∈ threadPebs n c i ↔ i * t ≤ p ∧ p < i * t + t ∧ (p < n ∨ n < i * t) :=
  mem_threadPebs_of_start ht (threadStart_eq hi (by omega)) hn (Nat.le_of_lt hend)

theorem portion_owner (hi : i * t ≤ p) (hp : p < i * t + t) : i = p / t := by
  refine (Nat.div_eq_of_lt_le hi ?_).symm
  rwa [Nat.succ_mul]

theorem le_threads_portions (hc : 1 ≤ c) : n ≤ c * ((n + c - 1) / c) ∧
    c * ((n + c - 1) / c) ≤ n + c - 1 := by
  have hdiv := Nat.div_add_mod (n + c - 1) c
  have hmod := Nat.mod_lt (n + c - 1) hc
  omega

theorem portion_end (hc : 1 ≤ c) (hi : i < c) (ht : t = (n + c - 1) / c) : i * t + t ≤ n + c - 1 := by
  have hle := (le_threads_portions (n := n) hc).2
  rw [← ht] at hle
  have hmul := Nat.mul_le_mul_right t (Nat.succ_le_of_lt hi)
  rw [Nat.succ_mul] at hmul
  omega

/-- The numbers of the threads are all non-negative, or no start depends on their sign. -/
def SignHarmless (c t : Nat) : Prop := c ≤ 2147483648 ∨ 4294967296 ∣ t

theorem SignHarmless.thread (h : SignHarmless c t) (hi : i < c) : i < 2147483648 ∨ 4294967296 ∣ t :=
  h.imp_left fun hle => Nat.lt_of_lt_of_le hi hle

theorem portion_pos {c t n : Nat} (hc : 1 ≤ c) (hn : 0 < n) (ht : (n + c - 1) / c = t) : 0 < t := by
  rw [← ht]
  exact Nat.div_pos (by omega) hc

theorem threadPebs_tile (hc : 1 ≤ c) (hn : n < 18446744073709551616)
    (hsum : n + c ≤ 18446744073709551616) (ht : (n + c - 1) / c = t) (hlast : (c - 1) * t ≤ n)
    (hsign : SignHarmless c t) : Tiles (Set.Iio c) (threadPebs n c) (Set.Iio n) := by
  have hmem : ∀ i < c, ∀ p, p ∈ threadPebs n c i ↔ i * t ≤ p ∧ p < i * t + t ∧ (p < n ∨ n < i * t) :=
    fun i hi p => mem_threadPebs (by rw [pebsPerThread_eq hc hsum, ht]) hn
      (by have hend := portion_end hc hi ht.symm; omega) (hsign.thread hi)
  have hstart : ∀ i < c, i * t ≤ n := fun i hi =>
    Nat.le_trans (Nat.mul_le_mul_right t (Nat.le_sub_one_of_lt hi)) hlast
  have hreach := (le_threads_portions (n := n) hc).1
  rw [ht] at hreach
  refine Tiles.of_owner (fun p => p / t) (fun i hi p hp => ?_) (fun p hp => ?_) fun i hi p hp => ?_
  · obtain ⟨-, -, hin | hout⟩ := (hmem i hi p).1 hp
    · exact hin
    · exact absurd (hstart i hi) (Nat.not_le.2 hout)
  · have hlt : p < c * t := Nat.lt_of_lt_of_le hp hreach
    have hpos : 0 < t := portion_pos hc (Nat.lt_of_le_of_lt (Nat.zero_le p) hp) ht
    have howner : p / t < c := (Nat.div_lt_iff_lt_mul hpos).2 hlt
    refine ⟨howner, (hmem _ howner p).2 ⟨Nat.div_mul_le_self p t, ?_, .inl hp⟩⟩
    have hmod := Nat.mod_lt p hpos
    have hdiv := Nat.div_add_mod' p t
    omega
  · obtain ⟨hle, hlt, -⟩ := (hmem i hi p).1 hp
    exact portion_owner hle hlt

theorem not_threadPebs_tile (hc : 1 ≤ c) (hn : n < 18446744073709551616)
    (hsum : n + c ≤ 18446744073709551616) (ht : (n + c - 1) / c = t) (hlast : n < (c - 1) * t)
    (hsign : SignHarmless c t) : ¬Tiles (Set.Iio c) (threadPebs n c) (Set.Iio n) := fun h => by
  have hpos : 0 < t := Nat.pos_of_ne_zero fun h0 => by
    rw [h0, Nat.mul_zero] at hlast
    exact absurd hlast (Nat.not_lt_zero _)
  have hlt := Nat.sub_lt hc Nat.one_pos
  have hend := portion_end hc hlt ht.symm
  have hmem : (c - 1) * t ∈ threadPebs n c (c - 1) :=
    (mem_threadPebs (by rw [pebsPerThread_eq hc hsum, ht]) hn (by omega) (hsign.thread hlt)).2
      ⟨Nat.le_refl _, by omega, .inr hlast⟩
  have hin : (c - 1) * t < n := h.subset hlt hmem
  omega

/-- The portion of a sum that wraps is empty. -/
theorem not_threadPebs_tile_wrapped (hc : c < 4294967296) (hn : n < 18446744073709551616)
    (hsum : 18446744073709551616 < n + c) : ¬Tiles (Set.Iio c) (threadPebs n c) (Set.Iio n) := fun h => by
  obtain ⟨i, -, hi⟩ := h.mem_iff.1 (show 0 ∈ Set.Iio n from show 0 < n by omega)
  obtain ⟨-, hlt, -⟩ := (mem_threadPebs (pebsPerThread_wrapped hn hc hsum) hn (by omega)
    (.inr (Nat.dvd_zero _))).1 hi
  omega

theorem negative_start (hc : 2147483648 < c) (hc' : c < 4294967296) (hsum : n + c ≤ 18446744073709551616)
    (ht : (n + c - 1) / c = t) (hpos : 0 < t) (hi : 2147483648 ≤ i) (hi' : i < c) :
    Word.u64 (Word.sext32 i * t) = 18446744073709551616 - (4294967296 - i) * t ∧
      (4294967296 - i) * t ≤ 2147483648 * t ∧ 2147483648 * t < 18446744073709551616 ∧
        t ≤ (4294967296 - i) * t := by
  have hmul : c * t ≤ n + c - 1 := by
    rw [← ht]
    exact Nat.mul_div_le _ _
  have hlt : 2147483648 * t < 18446744073709551616 :=
    Nat.lt_of_le_of_lt (Nat.le_trans (Nat.mul_le_mul_right t (Nat.le_of_lt hc)) hmul) (by omega)
  have hle : (4294967296 - i) * t ≤ 2147483648 * t := Nat.mul_le_mul_right t (by omega)
  exact ⟨threadStart_negative hi (by omega) hpos (Nat.lt_of_le_of_lt hle hlt), hle, hlt,
    Nat.le_mul_of_pos_left t (by omega)⟩

theorem threadStart_end (hc : 1 ≤ c) (hc' : c < 4294967296) (hsum : n + c ≤ 18446744073709551616)
    (ht : (n + c - 1) / c = t) (hi : i < c) :
    Word.u64 (Word.sext32 i * t) + t ≤ 18446744073709551616 := by
  rcases Nat.lt_or_ge i 2147483648 with hlt | hge
  · have hend := portion_end hc hi ht.symm
    rw [threadStart_eq (.inl hlt) (by omega)]
    omega
  · rcases Nat.eq_zero_or_pos t with rfl | hpos
    · exact Nat.le_of_lt (Word.u64_lt _)
    · obtain ⟨hs, hle, hlt, hone⟩ := negative_start (by omega) hc' hsum ht hpos hge hi
      rw [hs]
      omega

theorem not_tile_of_sign {f : Nat → Set Nat} (hc : 2147483648 < c) (hc' : c < 4294967296)
    (hsum : n + c ≤ 18446744073709551616) (ht : (n + c - 1) / c = t) (hpos : 0 < t)
    (hmany : 2147483648 * t < n) (hdvd : ¬4294967296 ∣ t)
    (hf : ∀ i < c, ∀ p < n, p ∈ f i ↔
      Word.u64 (Word.sext32 i * t) ≤ p ∧ p < Word.u64 (Word.sext32 i * t) + t) :
    ¬Tiles (Set.Iio c) f (Set.Iio n) := fun h => by
  obtain ⟨i, hi, hmem⟩ := h.mem_iff.1 (show 2147483648 * t ∈ Set.Iio n from hmany)
  obtain ⟨hle, hlt⟩ := (hf i hi _ hmany).1 hmem
  have hge : 2147483648 ≤ i := by
    by_contra hsmall
    have hend := portion_end (by omega) hi ht.symm
    have hmul := Nat.mul_le_mul_right t (Nat.succ_le_of_lt (Nat.not_le.1 hsmall))
    rw [Nat.succ_mul] at hmul
    rw [threadStart_eq (.inl (Nat.not_le.1 hsmall)) (by omega)] at hlt
    omega
  obtain ⟨hs, hmul, hword, -⟩ := negative_start hc hc' hsum ht hpos hge hi
  rw [hs] at hle
  have hbig : 4294967296 < t := by
    rcases Nat.lt_trichotomy t 4294967296 with hless | rfl | hgt
    · omega
    · exact absurd (Nat.dvd_refl _) hdvd
    · exact hgt
  -- The first thread with a negative number starts within the portion of one before it.
  obtain ⟨hs', -, -, hone⟩ := negative_start hc hc' hsum ht hpos (Nat.le_refl _) hc
  have hstart : Word.u64 (Word.sext32 2147483648 * t) = 18446744073709551616 - 2147483648 * t := hs'
  have hin : 18446744073709551616 - 2147483648 * t < n := by omega
  have howner : (18446744073709551616 - 2147483648 * t) / t < 2147483648 :=
    (Nat.div_lt_iff_lt_mul hpos).2 (by omega)
  have hdiv := Nat.div_add_mod' (18446744073709551616 - 2147483648 * t) t
  have hmod := Nat.mod_lt (18446744073709551616 - 2147483648 * t) hpos
  have hfirst : 18446744073709551616 - 2147483648 * t ∈ f 2147483648 :=
    (hf _ hc _ hin).2 ⟨Nat.le_of_eq hstart, by rw [hstart]; omega⟩
  have hsecond : 18446744073709551616 - 2147483648 * t ∈
      f ((18446744073709551616 - 2147483648 * t) / t) := by
    refine (hf _ (Nat.lt_trans howner hc) _ hin).2 ?_
    rw [threadStart_eq (.inl howner) (by omega)]
    omega
  exact absurd (h.owner_unique hc (Nat.lt_trans howner hc) hfirst hsecond)
    (Nat.ne_of_gt howner)

theorem negative_behind (hc : 2147483648 < c) (ht : (n + c - 1) / c = t) (hfew : n ≤ 2147483648 * t) :
    n < 18446744073709551616 - 2147483648 * t := by
  have hreach := (le_threads_portions (n := n) (show 1 ≤ c by omega)).2
  rw [ht] at hreach
  have hmul : 2147483649 * (t - 1) ≤ c * (t - 1) := Nat.mul_le_mul_right _ hc
  have hsub : c * (t - 1) = c * t - c := by rw [Nat.mul_sub, Nat.mul_one]
  omega

theorem not_threadPebs_tile_signed (hc : 2147483648 < c) (hc' : c < 4294967296)
    (hn : n < 18446744073709551616) (hsum : n + c ≤ 18446744073709551616)
    (ht : (n + c - 1) / c = t) (hdvd : ¬4294967296 ∣ t) :
    ¬Tiles (Set.Iio c) (threadPebs n c) (Set.Iio n) := by
  have hpos : 0 < t := Nat.pos_of_ne_zero fun h0 => hdvd (h0 ▸ Nat.dvd_zero _)
  have hmem : ∀ i < c, ∀ p, p ∈ threadPebs n c i ↔ Word.u64 (Word.sext32 i * t) ≤ p ∧
      p < Word.u64 (Word.sext32 i * t) + t ∧ (p < n ∨ n < Word.u64 (Word.sext32 i * t)) :=
    fun i hi p => mem_threadPebs_of_start (by rw [pebsPerThread_eq (by omega) hsum, ht]) rfl hn
      (threadStart_end (by omega) hc' hsum ht hi)
  rcases Nat.lt_or_ge (2147483648 * t) n with hmany | hfew
  · refine not_tile_of_sign hc hc' hsum ht hpos hmany hdvd fun i hi p hp => ?_
    rw [hmem i hi]
    exact ⟨fun h => ⟨h.1, h.2.1⟩, fun h => ⟨h.1, h.2, .inl hp⟩⟩
  · intro h
    obtain ⟨hs, hle, hlt, hone⟩ := negative_start hc hc' hsum ht hpos (Nat.le_refl _) hc
    have hstart : Word.u64 (Word.sext32 2147483648 * t) = 18446744073709551616 - 2147483648 * t := hs
    have hbehind := negative_behind hc ht hfew
    have hin := h.subset hc ((hmem _ hc (18446744073709551616 - 2147483648 * t)).2
      ⟨Nat.le_of_eq hstart, by rw [hstart]; omega, .inr (by rw [hstart]; exact hbehind)⟩)
    exact absurd hin (Nat.not_lt.2 (Nat.le_of_lt hbehind))

end

/-- The last portion begins within the volume, and no start depends on a sign. -/
theorem threadPebs_tile_iff {pebsCount : UInt64} {threadsCapacity : UInt32}
    (hcapacity : 1 ≤ threadsCapacity.toNat) :
    Tiles (Set.Iio threadsCapacity.toNat) (threadPebs pebsCount.toNat threadsCapacity.toNat)
        (Set.Iio pebsCount.toNat) ↔
      pebsCount.toNat + threadsCapacity.toNat ≤ 18446744073709551616 ∧
        (threadsCapacity.toNat - 1) *
          ((pebsCount.toNat + threadsCapacity.toNat - 1) / threadsCapacity.toNat) ≤ pebsCount.toNat ∧
        SignHarmless threadsCapacity.toNat
          ((pebsCount.toNat + threadsCapacity.toNat - 1) / threadsCapacity.toNat) := by
  have hn : pebsCount.toNat < 18446744073709551616 := pebsCount.toNat_lt
  have hc : threadsCapacity.toNat < 4294967296 := threadsCapacity.toNat_lt
  constructor
  · intro h
    have hsum : pebsCount.toNat + threadsCapacity.toNat ≤ 18446744073709551616 := Nat.le_of_not_lt fun hwrap =>
      not_threadPebs_tile_wrapped hc hn hwrap h
    have hsign : SignHarmless threadsCapacity.toNat
        ((pebsCount.toNat + threadsCapacity.toNat - 1) / threadsCapacity.toNat) := by
      by_contra hsign
      obtain ⟨hmany, hdvd⟩ := not_or.1 hsign
      exact not_threadPebs_tile_signed (Nat.not_le.1 hmany) hc hn hsum rfl hdvd h
    exact ⟨hsum, Nat.le_of_not_lt fun hlast =>
      not_threadPebs_tile hcapacity hn hsum rfl hlast hsign h, hsign⟩
  · rintro ⟨hsum, hlast, hsign⟩
    exact threadPebs_tile hcapacity hn hsum rfl hlast hsign

theorem threadPebs_tile_100 : Tiles (Set.Iio 8) (threadPebs 100 8) (Set.Iio 100) :=
  (@threadPebs_tile_iff 100 8 (by decide)).2 ⟨by decide, by decide, .inl (by decide)⟩

/-- Four threads for five PEBs: the last one starts with PEB 6. -/
theorem threadPebs_leaves_5 : ¬Tiles (Set.Iio 4) (threadPebs 5 4) (Set.Iio 5) := fun h => by
  have hmem : 6 ∈ threadPebs 5 4 3 := (by decide : 6 ∈ processPebRange (initPebEnvironment 3 2 5))
  have hin : 6 < 5 := h.subset (show 3 < 4 by decide) hmem
  omega

end Ssdfs
