import Ssdfs.Recover.PebRange

namespace Ssdfs

/-- The thread's PEBs up to the first one that is not on the volume. -/
def eraseDevicePebRange (peb : PebPortion) (pebsPerVolume : Nat) : List Nat :=
  (processPebRange peb).takeWhile (· < pebsPerVolume)

def erasedPebs (pebsCount threadsCapacity threadId : Nat) : Set Nat :=
  { p | p ∈ eraseDevicePebRange
    (initPebEnvironment threadId (pebsPerThread pebsCount threadsCapacity) pebsCount) pebsCount }

section

variable {n c i t p s : Nat}

theorem processPebRange_eq {count : Nat} (h : s + count ≤ 18446744073709551616) :
    processPebRange ⟨s, count⟩ = List.range' s count := by
  rw [List.range'_eq_map_range]
  refine List.map_congr_left fun k hk => Word.u64_of_lt (Nat.lt_of_lt_of_le ?_ h)
  exact Nat.add_lt_add_left (List.mem_range.1 hk) s

theorem takeWhile_range' (s k n : Nat) :
    (List.range' s k).takeWhile (· < n) = List.range' s (min k (n - s)) := by
  induction k generalizing s with
  | zero => rw [Nat.zero_min]; rfl
  | succ k ih =>
    rw [List.range'_succ]
    by_cases hs : s < n
    · have hmin : min (k + 1) (n - s) = min k (n - (s + 1)) + 1 := by omega
      rw [List.takeWhile_cons, if_pos (decide_eq_true hs), ih, hmin, List.range'_succ]
    · have hnone : min (k + 1) (n - s) = 0 := by omega
      rw [List.takeWhile_cons, if_neg (by rw [decide_eq_true_eq]; exact hs), hnone]
      rfl

/-- The second guard makes up for the difference that wraps. -/
theorem mem_erasedPebs (ht : pebsPerThread n c = t) (hs : Word.u64 (Word.sext32 i * t) = s)
    (hn : n < 18446744073709551616) (hend : s + t ≤ 18446744073709551616) :
    p ∈ erasedPebs n c i ↔ s ≤ p ∧ p < s + t ∧ p < n := by
  have hlt : s < 18446744073709551616 := hs ▸ Word.u64_lt _
  have hcount : min (min (Word.sub64 n s) t) (n - s) = min t (n - s) := by
    rcases Nat.lt_or_ge n s with hless | hge
    · rw [Nat.sub_eq_zero_of_le (Nat.le_of_lt hless), Nat.min_zero, Nat.min_zero]
    · rw [Word.sub64_of_le hge hn]
      omega
  unfold erasedPebs eraseDevicePebRange initPebEnvironment
  simp only [ht, hs]
  rw [processPebRange_eq (Nat.le_trans (Nat.add_le_add_left (Nat.min_le_right _ _) s) hend),
    takeWhile_range', hcount, Set.mem_ofPred_eq, List.mem_range'_1]
  omega

theorem erasedPebs_tile (hc : 1 ≤ c) (hn : n < 18446744073709551616) (hc' : c < 4294967296)
    (hsum : n + c ≤ 18446744073709551616) (ht : (n + c - 1) / c = t)
    (hsign : n ≤ 2147483648 * t ∨ 4294967296 ∣ t) :
    Tiles (Set.Iio c) (erasedPebs n c) (Set.Iio n) := by
  have hmem : ∀ i < c, ∀ p, p ∈ erasedPebs n c i ↔ i * t ≤ p ∧ p < i * t + t ∧ p < n := by
    intro i hi p
    refine (mem_erasedPebs (by rw [pebsPerThread_eq hc hsum, ht]) rfl hn
      (threadStart_end hc hc' hsum ht hi)).trans ?_
    have hend := portion_end hc hi ht.symm
    by_cases hplain : i < 2147483648 ∨ 4294967296 ∣ t
    · rw [threadStart_eq hplain (by omega)]
    · obtain ⟨hlarge, hdvd⟩ := not_or.1 hplain
      have hge := Nat.not_lt.1 hlarge
      have hfew := hsign.resolve_right hdvd
      have hpos : 0 < t := Nat.pos_of_ne_zero fun h0 => hdvd (h0 ▸ Nat.dvd_zero _)
      obtain ⟨hs, hle, hlt, -⟩ := negative_start (by omega) hc' hsum ht hpos hge hi
      have hbehind := negative_behind (by omega) ht hfew
      have hmul := Nat.mul_le_mul_right t hge
      rw [hs]
      omega
  have hreach := (le_threads_portions (n := n) hc).1
  rw [ht] at hreach
  refine Tiles.of_owner (fun p => p / t) (fun i hi p hp => ((hmem i hi p).1 hp).2.2) (fun p hp => ?_)
    fun i hi p hp => ?_
  · have hlt : p < c * t := Nat.lt_of_lt_of_le hp hreach
    have hpos : 0 < t := portion_pos hc (Nat.lt_of_le_of_lt (Nat.zero_le p) hp) ht
    have howner : p / t < c := (Nat.div_lt_iff_lt_mul hpos).2 hlt
    refine ⟨howner, (hmem _ howner p).2 ⟨Nat.div_mul_le_self p t, ?_, hp⟩⟩
    have hmod := Nat.mod_lt p hpos
    have hdiv := Nat.div_add_mod' p t
    omega
  · obtain ⟨hle, hlt, -⟩ := (hmem i hi p).1 hp
    exact portion_owner hle hlt

theorem not_erasedPebs_tile_wrapped (hc : c < 4294967296) (hn : n < 18446744073709551616)
    (hsum : 18446744073709551616 < n + c) : ¬Tiles (Set.Iio c) (erasedPebs n c) (Set.Iio n) := fun h => by
  obtain ⟨i, -, hi⟩ := h.mem_iff.1 (show 0 ∈ Set.Iio n from show 0 < n by omega)
  obtain ⟨hle, hlt, -⟩ := (mem_erasedPebs (pebsPerThread_wrapped hn hc hsum) rfl hn
    (Nat.le_of_lt (Word.u64_lt _))).1 hi
  omega

theorem not_erasedPebs_tile (hc : 1 ≤ c) (hn : n < 18446744073709551616) (hc' : c < 4294967296)
    (hsum : n + c ≤ 18446744073709551616) (ht : (n + c - 1) / c = t) (hmany : 2147483648 * t < n)
    (hdvd : ¬4294967296 ∣ t) : ¬Tiles (Set.Iio c) (erasedPebs n c) (Set.Iio n) := by
  have hpos : 0 < t := Nat.pos_of_ne_zero fun h0 => hdvd (h0 ▸ Nat.dvd_zero _)
  have hthreads : 2147483648 < c := by
    by_contra hle
    have hreach := (le_threads_portions (n := n) hc).1
    rw [ht] at hreach
    have hmul := Nat.mul_le_mul_right t (Nat.not_lt.1 hle)
    omega
  refine not_tile_of_sign hthreads hc' hsum ht hpos hmany hdvd fun i hi p hp => ?_
  rw [mem_erasedPebs (by rw [pebsPerThread_eq hc hsum, ht]) rfl hn (threadStart_end hc hc' hsum ht hi)]
  exact ⟨fun h => ⟨h.1, h.2.1⟩, fun h => ⟨h.1, h.2, hp⟩⟩

end

/-- Every PEB is erased by one thread, also where threads start behind the end, as long as the threads
whose numbers an `int` holds are enough for the volume. -/
theorem erasedPebs_tile_iff {pebsCount : UInt64} {threadsCapacity : UInt32}
    (hcapacity : 1 ≤ threadsCapacity.toNat) :
    Tiles (Set.Iio threadsCapacity.toNat) (erasedPebs pebsCount.toNat threadsCapacity.toNat)
        (Set.Iio pebsCount.toNat) ↔
      pebsCount.toNat + threadsCapacity.toNat ≤ 18446744073709551616 ∧
        (pebsCount.toNat ≤ 2147483648 *
            ((pebsCount.toNat + threadsCapacity.toNat - 1) / threadsCapacity.toNat) ∨
          4294967296 ∣ (pebsCount.toNat + threadsCapacity.toNat - 1) / threadsCapacity.toNat) := by
  have hn : pebsCount.toNat < 18446744073709551616 := pebsCount.toNat_lt
  have hc : threadsCapacity.toNat < 4294967296 := threadsCapacity.toNat_lt
  constructor
  · intro h
    have hsum : pebsCount.toNat + threadsCapacity.toNat ≤ 18446744073709551616 := Nat.le_of_not_lt fun hwrap =>
      not_erasedPebs_tile_wrapped hc hn hwrap h
    refine ⟨hsum, ?_⟩
    by_contra hsign
    obtain ⟨hmany, hdvd⟩ := not_or.1 hsign
    exact not_erasedPebs_tile hcapacity hn hc hsum rfl (Nat.not_le.1 hmany) hdvd h
  · rintro ⟨hsum, hsign⟩
    exact erasedPebs_tile hcapacity hn hc hsum rfl hsign

/-- Four threads for five PEBs: the last one starts with PEB 6 and stops there. -/
theorem erasedPebs_tile_5 : Tiles (Set.Iio 4) (erasedPebs 5 4) (Set.Iio 5) :=
  (@erasedPebs_tile_iff 5 4 (by decide)).2 ⟨by decide, .inl (by decide)⟩

/-- The thread for the last of 2147483649 PEBs has a negative number. -/
theorem erasedPebs_misses_2147483648 :
    ¬Tiles (Set.Iio 2147483649) (erasedPebs 2147483649 2147483649) (Set.Iio 2147483649) :=
  not_erasedPebs_tile (t := 1) (by decide) (by decide) (by decide) (by decide) (by decide) (by decide)
    (by decide)

end Ssdfs
