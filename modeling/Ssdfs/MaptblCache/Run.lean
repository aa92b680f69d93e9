import Ssdfs.MaptblCache.Order

namespace Ssdfs

open scoped List

namespace MaptblCache

/-- The pairs fill the fragments one after the other. -/
structure Filled (page : PageSize) (c : MaptblCache) (L : Nat → List CacheItem)
    (xs : List (Nat × Nat)) : Prop where
  sound : c.Sound page L
  perm : ∀ i < c.fragmentsCount,
    (L i).Perm (Chunks.chunk (leb2pebPairPerFragment page.bytes) i (xs.map cacheItem))

structure Disordered (page : PageSize) (c : MaptblCache) (L : Nat → List CacheItem)
    (xs : List (Nat × Nat)) : Prop where
  sound : c.Sound page L
  lebs : ∀ i < c.fragmentsCount, ∀ x ∈ L i, x.pair.lebId ∈ xs.map Prod.fst
  inverted : ∃ i j, i < j ∧ j < c.fragmentsCount ∧
    ∃ a ∈ L i, ∃ b ∈ L j, b.pair.lebId < a.pair.lebId

def Broken (page : PageSize) (c : MaptblCache) (xs : List (Nat × Nat)) : Prop :=
  c.Overfull page ∨ ∃ L, c.Disordered page L xs

end MaptblCache

theorem firstLeb_mem {items : List CacheItem} (h : items ≠ []) :
    ∃ x ∈ items, firstLeb items = x.pair.lebId := by
  have hpos := List.length_pos_iff.2 h
  exact ⟨items[0], List.getElem_mem _, firstLeb_eq items hpos⟩

theorem lastLeb_mem {items : List CacheItem} (h : items ≠ []) :
    ∃ x ∈ items, lastLeb items = x.pair.lebId := by
  have hpos := List.length_pos_iff.2 h
  exact ⟨items[items.length - 1], List.getElem_mem _, lastLeb_eq items hpos⟩

theorem firstLeb_le {items : List CacheItem}
    (hs : items.Pairwise (·.pair.lebId < ·.pair.lebId)) {x : CacheItem} (hx : x ∈ items) :
    firstLeb items ≤ x.pair.lebId := by
  cases items with
  | nil => cases hx
  | cons y ys =>
    rcases List.mem_cons.1 hx with rfl | hx
    · exact Nat.le_refl _
    · exact Nat.le_of_lt (List.rel_of_pairwise_cons hs hx)

section Order

variable {page : PageSize} {c : MaptblCache} {L : Nat → List CacheItem} {xs ys : List (Nat × Nat)}

theorem MaptblCache.Filled.mem_iff (h : c.Filled page L xs) {i : Nat}
    (hi : i < c.fragmentsCount) {a : CacheItem} :
    a ∈ L i ↔ ∃ u, ∃ hu : u < xs.length,
      u / leb2pebPairPerFragment page.bytes = i ∧ cacheItem xs[u] = a := by
  rw [(h.perm i hi).mem_iff, Chunks.mem_chunk (leb2pebPairPerFragment_bound page).2.1]
  simp

theorem MaptblCache.Filled.length_eq (h : c.Filled page L xs) {i : Nat}
    (hi : i < c.fragmentsCount) :
    (L i).length = min (leb2pebPairPerFragment page.bytes)
      (xs.length - leb2pebPairPerFragment page.bytes * i) := by
  rw [(h.perm i hi).length_eq, Chunks.length_chunk, List.length_map]

theorem MaptblCache.Filled.full (h : c.Filled page L xs) {i : Nat}
    (hi : i < xs.length / leb2pebPairPerFragment page.bytes) (hn : i < c.fragmentsCount) :
    (L i).length = leb2pebPairPerFragment page.bytes := by
  have hmul := Nat.mul_le_mul_left (leb2pebPairPerFragment page.bytes) hi
  have hle := Nat.mul_div_le xs.length (leb2pebPairPerFragment page.bytes)
  rw [h.length_eq hn]
  rw [Nat.mul_succ] at hmul
  omega

theorem MaptblCache.Filled.room (h : c.Filled page L xs)
    (hn : xs.length / leb2pebPairPerFragment page.bytes < c.fragmentsCount) :
    (L (xs.length / leb2pebPairPerFragment page.bytes)).length <
      leb2pebPairPerFragment page.bytes := by
  have hcap := (leb2pebPairPerFragment_bound page).2.1
  have hmod := Nat.mod_lt xs.length hcap
  have hdm := Nat.div_add_mod xs.length (leb2pebPairPerFragment page.bytes)
  rw [h.length_eq hn]
  omega

theorem MaptblCache.Filled.fresh (h : c.Filled page L xs) {x : Nat × Nat}
    (hx : x.1 ∉ xs.map Prod.fst) :
    ∀ i < c.fragmentsCount, ∀ y ∈ L i, y.pair.lebId ≠ x.1 := by
  intro i hi y hy heq
  obtain ⟨u, hu, -, rfl⟩ := (h.mem_iff hi).1 hy
  exact hx (List.mem_map.2 ⟨xs[u], List.getElem_mem hu, heq⟩)

theorem MaptblCache.Filled.correct (h : c.Filled page L xs)
    (hlen : xs.length ≤ c.fragmentsCount * leb2pebPairPerFragment page.bytes)
    (hasc : Chunks.Ascend (leb2pebPairPerFragment page.bytes) Prod.fst xs) :
    c.Correct page xs := by
  have hitems : c.items = (List.range c.fragmentsCount).flatMap L := by
    refine List.flatMap_congr fun i hi => ?_
    exact (h.sound.holds i (List.mem_range.1 hi)).items_eq
  constructor
  · rw [hitems]
    have hperm := List.Perm.flatMap_left (List.range c.fragmentsCount)
      fun i hi => h.perm i (List.mem_range.1 hi)
    rwa [Chunks.flatMap_chunk, List.take_of_length_le] at hperm
    rwa [List.length_map, Nat.mul_comm]
  · rw [hitems, List.pairwise_flatMap]
    refine ⟨fun i hi => (h.sound.holds i (List.mem_range.1 hi)).sorted, ?_⟩
    refine List.pairwise_lt_range.imp_of_mem fun {i j} hi hj hij a ha b hb => ?_
    obtain ⟨u, hu, hui, rfl⟩ := (h.mem_iff (List.mem_range.1 hi)).1 ha
    obtain ⟨v, hv, hvj, rfl⟩ := (h.mem_iff (List.mem_range.1 hj)).1 hb
    have huv : u < v := by
      by_contra hle
      have := Nat.div_le_div_right (c := leb2pebPairPerFragment page.bytes) (Nat.not_lt.1 hle)
      omega
    exact hasc u v hu hv huv (.inr (by omega))
  · intro i hi hpos
    have hh := h.sound.holds i hi
    rw [hh.items_eq, hh.start, hh.finish, hh.count, hh.bytes]
    exact ⟨rfl, rfl, hh.fits, by simp [maptblCacheHdrSize, pebStateSize, leb2pebPairSize]; omega⟩
  · rw [h.sound.bytes]
    refine Finset.sum_congr rfl fun i hi => ?_
    have hh := h.sound.holds i (Finset.mem_range.1 hi)
    rw [hh.count, hh.bytes]
    rfl

theorem MaptblCache.Disordered.not_correct (h : c.Disordered page L xs) :
    ¬c.Correct page ys := by
  intro hc
  have hitems : c.items = (List.range c.fragmentsCount).flatMap L := by
    refine List.flatMap_congr fun i hi => ?_
    exact (h.sound.holds i (List.mem_range.1 hi)).items_eq
  have hsorted := hc.sorted
  rw [hitems, List.pairwise_flatMap] at hsorted
  obtain ⟨i, j, hij, hj, a, ha, b, hb, hlt⟩ := h.inverted
  have := List.pairwise_iff_getElem.1 hsorted.2 i j (by simp; omega) (by simpa using hj) hij a
    (by simpa using ha) b (by simpa using hb)
  omega

theorem MaptblCache.Broken.not_correct (h : c.Broken page xs) : ¬c.Correct page ys := by
  rcases h with ⟨i, hi, hover⟩ | ⟨L, hd⟩
  · intro hc
    have := (hc.headers i hi (by omega)).2.2.1
    omega
  · exact hd.not_correct

end Order

section Step

variable {page : PageSize} {c : MaptblCache} {L : Nat → List CacheItem} {xs : List (Nat × Nat)}
  {x : Nat × Nat}

theorem MaptblCache.Filled.not_stopsAt (h : c.Filled page L xs)
    (hasc : Chunks.Ascend (leb2pebPairPerFragment page.bytes) Prod.fst (xs ++ [x])) {i : Nat}
    (hi : i < xs.length / leb2pebPairPerFragment page.bytes) (hn : i < c.fragmentsCount) :
    ¬StopsAt (leb2pebPairPerFragment page.bytes) x.1 (L i) := by
  have hcap := (leb2pebPairPerFragment_bound page).2.1
  have hfull := h.full hi hn
  have hne : L i ≠ [] := List.length_pos_iff.1 (by omega)
  rintro (he | ⟨-, hin⟩ | ⟨-, hroom⟩)
  · exact hne he
  · obtain ⟨a, ha, hlast⟩ := lastLeb_mem hne
    obtain ⟨u, hu, hui, rfl⟩ := (h.mem_iff hn).1 ha
    have hlt : xs[u].1 < x.1 := hasc.lt_last hu (.inr (by omega))
    have hleb : (cacheItem xs[u]).pair.lebId = xs[u].1 := rfl
    omega
  · omega

theorem MaptblCache.Filled.first_mem (h : c.Filled page L xs)
    (hn : xs.length / leb2pebPairPerFragment page.bytes < c.fragmentsCount)
    (hne : L (xs.length / leb2pebPairPerFragment page.bytes) ≠ []) :
    ∃ u, ∃ hu : u < xs.length, u % leb2pebPairPerFragment page.bytes = 0 ∧
      u / leb2pebPairPerFragment page.bytes = xs.length / leb2pebPairPerFragment page.bytes ∧
      cacheItem xs[u] ∈ L (xs.length / leb2pebPairPerFragment page.bytes) := by
  have hcap := (leb2pebPairPerFragment_bound page).2.1
  have hpos := List.length_pos_iff.2 hne
  rw [h.length_eq hn] at hpos
  have hu : leb2pebPairPerFragment page.bytes *
      (xs.length / leb2pebPairPerFragment page.bytes) < xs.length := by omega
  have hdiv := Nat.mul_div_cancel_left (xs.length / leb2pebPairPerFragment page.bytes) hcap
  exact ⟨_, hu, Nat.mul_mod_right _ _, hdiv, (h.mem_iff hn).2 ⟨_, hu, hdiv, rfl⟩⟩

theorem MaptblCache.Filled.stopsAt (h : c.Filled page L xs)
    (hasc : Chunks.Ascend (leb2pebPairPerFragment page.bytes) Prod.fst (xs ++ [x]))
    (hn : xs.length / leb2pebPairPerFragment page.bytes < c.fragmentsCount) :
    StopsAt (leb2pebPairPerFragment page.bytes) x.1
      (L (xs.length / leb2pebPairPerFragment page.bytes)) := by
  by_cases hne : L (xs.length / leb2pebPairPerFragment page.bytes) = []
  · exact .inl hne
  obtain ⟨u, hu, hmod, -, hmem⟩ := h.first_mem hn hne
  have hlt : xs[u].1 < x.1 := hasc.lt_last hu (.inl hmod)
  have hle : firstLeb (L (xs.length / leb2pebPairPerFragment page.bytes)) ≤ xs[u].1 :=
    firstLeb_le (h.sound.holds _ hn).sorted hmem
  rcases Nat.lt_or_ge (lastLeb (L (xs.length / leb2pebPairPerFragment page.bytes))) x.1 with
    hlast | hlast
  · exact .inr (.inr ⟨hlast, h.room hn⟩)
  · exact .inr (.inl ⟨by omega, hlast⟩)

theorem MaptblCache.Filled.insert {c' : MaptblCache} {p : Nat} (h : c.Filled page L xs)
    (hn : xs.length / leb2pebPairPerFragment page.bytes < c.fragmentsCount)
    (hcount : c'.fragmentsCount = c.fragmentsCount)
    (hp : p ≤ (L (xs.length / leb2pebPairPerFragment page.bytes)).length)
    (hsound : c'.Sound page (Function.update L (xs.length / leb2pebPairPerFragment page.bytes)
      ((L (xs.length / leb2pebPairPerFragment page.bytes)).insertIdx p (cacheItem x)))) :
    c'.Filled page (Function.update L (xs.length / leb2pebPairPerFragment page.bytes)
      ((L (xs.length / leb2pebPairPerFragment page.bytes)).insertIdx p (cacheItem x)))
      (xs ++ [x]) := by
  have hcap := (leb2pebPairPerFragment_bound page).2.1
  refine ⟨hsound, fun i hi => ?_⟩
  rw [hcount] at hi
  rw [List.map_append, List.map_singleton]
  have hlen : (xs.map cacheItem).length = xs.length := List.length_map _
  by_cases hif : i = xs.length / leb2pebPairPerFragment page.bytes
  · subst hif
    have happ := Chunks.chunk_append_self (l := xs.map cacheItem) hcap (cacheItem x)
    rw [hlen] at happ
    rw [Function.update_self, happ]
    calc (L (xs.length / leb2pebPairPerFragment page.bytes)).insertIdx p (cacheItem x)
      _ ~ cacheItem x :: L (xs.length / leb2pebPairPerFragment page.bytes) :=
          List.perm_insertIdx _ _ hp
      _ ~ cacheItem x :: Chunks.chunk (leb2pebPairPerFragment page.bytes)
            (xs.length / leb2pebPairPerFragment page.bytes) (xs.map cacheItem) :=
          (h.perm _ hn).cons _
      _ ~ _ := (List.perm_append_singleton _ _).symm
  · rw [Function.update_of_ne hif, Chunks.chunk_append_of_ne hcap (by rwa [hlen])]
    exact h.perm i hi

theorem MaptblCache.Filled.step (h : c.Filled page L xs) (hx : x.1 ∉ xs.map Prod.fst)
    (hvalid : x.1 < Word.u64Max ∧ x.2 < Word.u64Max)
    (hasc : Chunks.Ascend (leb2pebPairPerFragment page.bytes) Prod.fst (xs ++ [x]))
    (hn : xs.length / leb2pebPairPerFragment page.bytes < c.fragmentsCount) :
    ∃ c' L', cacheLeb2pebPair page c x.1 x.2 = .ok c' ∧
      c'.fragmentsCount = c.fragmentsCount ∧ c'.Filled page L' (xs ++ [x]) := by
  obtain ⟨k, hskip, hcases⟩ := h.sound.step hvalid.1 hvalid.2 (h.fresh hx)
  have hk : k ≤ xs.length / leb2pebPairPerFragment page.bytes := by
    by_contra hlt
    exact hskip _ (Nat.not_le.1 hlt) (h.stopsAt hasc hn)
  rcases hcases with ⟨rfl, -⟩ | ⟨hkn, hstop, hcases⟩
  · omega
  obtain rfl : k = xs.length / leb2pebPairPerFragment page.bytes := by
    by_contra hne
    exact h.not_stopsAt hasc (by omega) hkn hstop
  rcases hcases with ⟨hfull, -⟩ | ⟨-, c', p, hp, hok, hcount, hsound⟩
  · have := h.room hn
    omega
  · exact ⟨c', _, hok, hcount, h.insert hn hcount hp hsound⟩

theorem mem_update_insertIdx {k p i : Nat} {a y : CacheItem} (hp : p ≤ (L k).length) :
    y ∈ Function.update L k ((L k).insertIdx p a) i ↔ (i = k ∧ y = a) ∨ y ∈ L i := by
  by_cases hik : i = k
  · subst hik
    rw [Function.update_self, List.mem_insertIdx hp]
    simp
  · rw [Function.update_of_ne hik]
    simp [hik]

theorem MaptblCache.Filled.step_broken {c' : MaptblCache} (h : c.Filled page L xs)
    (hx : x.1 ∉ xs.map Prod.fst) (hvalid : x.1 < Word.u64Max ∧ x.2 < Word.u64Max)
    (hasc : Chunks.Ascend (leb2pebPairPerFragment page.bytes) Prod.fst xs)
    (hnot : ¬Chunks.Ascend (leb2pebPairPerFragment page.bytes) Prod.fst (xs ++ [x]))
    (hn : xs.length / leb2pebPairPerFragment page.bytes < c.fragmentsCount)
    (hok : cacheLeb2pebPair page c x.1 x.2 = .ok c') : c'.Broken page (xs ++ [x]) := by
  have hcap := (leb2pebPairPerFragment_bound page).2.1
  obtain ⟨k, hskip, ⟨-, habort⟩ | ⟨hkn, hstop, ⟨-, hover⟩ | ⟨hroom, c'', p, hp, hok', hcount, hsound⟩⟩⟩ :=
    h.sound.step hvalid.1 hvalid.2 (h.fresh hx)
  · rw [habort] at hok
    cases hok
  · exact .inl (hover c' hok)
  rw [hok'] at hok
  cases hok
  refine .inr ⟨_, hsound, fun i hi y hy => ?_, ?_⟩
  · rw [List.map_append, List.mem_append]
    rcases (mem_update_insertIdx hp).1 hy with ⟨-, rfl⟩ | hy
    · exact .inr (List.mem_singleton.2 rfl)
    · obtain ⟨u, hu, -, rfl⟩ := (h.mem_iff (by omega)).1 hy
      exact .inl (List.mem_map.2 ⟨xs[u], List.getElem_mem hu, rfl⟩)
  have hfk : xs.length / leb2pebPairPerFragment page.bytes ≤ k := by
    by_contra hlt
    have := h.full (Nat.not_le.1 hlt) hkn
    omega
  have hself : cacheItem x ∈ Function.update L k ((L k).insertIdx p (cacheItem x)) k :=
    (mem_update_insertIdx hp).2 (.inl ⟨rfl, rfl⟩)
  rcases Nat.eq_or_lt_of_le hfk with rfl | hlt
  · obtain ⟨i, hi, hc, hle⟩ := Chunks.not_ascend_append hasc hnot
    have hne : xs[i].1 ≠ x.1 := fun heq =>
      hx (List.mem_map.2 ⟨xs[i], List.getElem_mem hi, heq⟩)
    have hdiv := Nat.div_le_div_right (c := leb2pebPairPerFragment page.bytes) (Nat.le_of_lt hi)
    by_cases hsame : i / leb2pebPairPerFragment page.bytes =
        xs.length / leb2pebPairPerFragment page.bytes
    · exfalso
      have hlow : ∀ y ∈ L (xs.length / leb2pebPairPerFragment page.bytes),
          xs[i].1 ≤ y.pair.lebId := by
        intro y hy
        obtain ⟨u, hu, hui, rfl⟩ := (h.mem_iff hkn).1 hy
        change xs[i].1 ≤ xs[u].1
        have hdm := Nat.div_add_mod i (leb2pebPairPerFragment page.bytes)
        have hdm' := Nat.div_add_mod u (leb2pebPairPerFragment page.bytes)
        rw [hsame, ← hui] at hdm
        rcases Nat.lt_trichotomy i u with hiu | rfl | hui'
        · exact Nat.le_of_lt (hasc i u hi hu hiu (.inl (by omega)))
        · exact Nat.le_refl _
        · omega
      have hmem : cacheItem xs[i] ∈ L (xs.length / leb2pebPairPerFragment page.bytes) :=
        (h.mem_iff hkn).2 ⟨i, hi, hsame, rfl⟩
      have hne' : L (xs.length / leb2pebPairPerFragment page.bytes) ≠ [] :=
        List.ne_nil_of_mem hmem
      obtain ⟨a, ha, hfirst⟩ := firstLeb_mem hne'
      obtain ⟨b, hb, hlast⟩ := lastLeb_mem hne'
      have := hlow a ha
      have := hlow b hb
      rcases hstop with he | ⟨hlo, -⟩ | ⟨hhi, -⟩
      · exact hne' he
      · omega
      · omega
    · refine ⟨i / leb2pebPairPerFragment page.bytes, _, by omega, by omega, cacheItem xs[i],
        ?_, cacheItem x, hself, ?_⟩
      · exact (mem_update_insertIdx hp).2 (.inr ((h.mem_iff (by omega)).2 ⟨i, hi, rfl, rfl⟩))
      · change x.1 < xs[i].1
        omega
  · have hstop' := hskip _ hlt
    have hroom' := h.room hn
    have hne' : L (xs.length / leb2pebPairPerFragment page.bytes) ≠ [] :=
      fun he => hstop' (.inl he)
    obtain ⟨a, ha, hfirst⟩ := firstLeb_mem hne'
    refine ⟨_, k, hlt, by omega, a, (mem_update_insertIdx hp).2 (.inr ha), cacheItem x, hself, ?_⟩
    change x.1 < a.pair.lebId
    rw [← hfirst]
    by_contra hle
    exact hstop' (by unfold StopsAt; omega)

theorem MaptblCache.Broken.step {c' : MaptblCache} (h : c.Broken page xs)
    (hx : x.1 ∉ xs.map Prod.fst) (hvalid : x.1 < Word.u64Max ∧ x.2 < Word.u64Max)
    (hok : cacheLeb2pebPair page c x.1 x.2 = .ok c') : c'.Broken page (xs ++ [x]) := by
  rcases h with hover | ⟨L, hd⟩
  · exact .inl (cacheLeb2pebPair_overfull hover hok)
  have hfresh : ∀ i < c.fragmentsCount, ∀ y ∈ L i, y.pair.lebId ≠ x.1 := by
    intro i hi y hy heq
    exact hx (heq ▸ hd.lebs i hi y hy)
  obtain ⟨k, -, ⟨-, habort⟩ | ⟨hkn, -, ⟨-, hover⟩ | ⟨-, c'', p, hp, hok', hcount, hsound⟩⟩⟩ :=
    hd.sound.step hvalid.1 hvalid.2 hfresh
  · rw [habort] at hok
    cases hok
  · exact .inl (hover c' hok)
  rw [hok'] at hok
  cases hok
  refine .inr ⟨_, hsound, fun i hi y hy => ?_, ?_⟩
  · rw [List.map_append, List.mem_append]
    rcases (mem_update_insertIdx hp).1 hy with ⟨-, rfl⟩ | hy
    · exact .inr (List.mem_singleton.2 rfl)
    · exact .inl (hd.lebs i (by omega) y hy)
  · obtain ⟨i, j, hij, hj, a, ha, b, hb, hlt⟩ := hd.inverted
    exact ⟨i, j, hij, by omega, a, (mem_update_insertIdx hp).2 (.inr ha), b,
      (mem_update_insertIdx hp).2 (.inr hb), hlt⟩

end Step

section Run

variable {page : PageSize} {a : SegsArray} {c c₀ : MaptblCache} {pairs : List (Nat × Nat)}

theorem maptblCachePrepareFragment_holds {i : Nat} {fragment : MaptblCacheFragment}
    (h : maptblCachePrepareFragment page i = .ok fragment) : fragment.Holds page [] := by
  obtain ⟨area, harea, h⟩ := Checked.bind_eq_ok.1 h
  obtain ⟨hsize, rfl⟩ := Buf.store_eq_ok.1 harea
  cases h
  constructor <;> try simp [maptblCacheHdrSize, firstLeb, lastLeb, Buf.zero]
  · rfl
  · exact Memory.peek_poke_of_lt (by decide)

theorem maptblCacheMkfsPrepare_filled (h : maptblCacheMkfsPrepare page a = .ok c₀) :
    c₀.Filled page (fun _ => []) [] := by
  unfold maptblCacheMkfsPrepare at h
  obtain ⟨hcount, h⟩ := bugOn_bind_eq_ok.1 h
  obtain ⟨fragments, hfill, h⟩ := Checked.bind_eq_ok.1 h
  cases h
  refine ⟨⟨Nat.not_le.1 hcount, fun i hi => ?_, by simp [bytesOf]⟩, fun i hi => ?_⟩
  · exact maptblCachePrepareFragment_holds ((Checked.fill_ok hfill).1 i hi)
  · simp [Chunks.chunk]

theorem cachePairs_append (xs : List (Nat × Nat)) (x : Nat × Nat) :
    cachePairs page (xs ++ [x]) c₀ =
      cachePairs page xs c₀ >>= fun c => cacheLeb2pebPair page c x.1 x.2 := by
  unfold cachePairs
  rw [Checked.forEach_append]
  congr 1
  funext c
  cases h : cacheLeb2pebPair page c x.1 x.2 <;> simp [Checked.forEach, h]

theorem cachePairs_filled (h₀ : c₀.Filled page (fun _ => []) [])
    (hnodup : (pairs.map Prod.fst).Nodup)
    (hvalid : ∀ p ∈ pairs, p.1 < Word.u64Max ∧ p.2 < Word.u64Max)
    (hlen : pairs.length ≤ c₀.fragmentsCount * leb2pebPairPerFragment page.bytes)
    (hasc : Chunks.Ascend (leb2pebPairPerFragment page.bytes) Prod.fst pairs) :
    ∃ c L, cachePairs page pairs c₀ = .ok c ∧ c.fragmentsCount = c₀.fragmentsCount ∧
      c.Filled page L pairs := by
  have hcap := (leb2pebPairPerFragment_bound page).2.1
  induction pairs using List.reverseRecOn with
  | nil => exact ⟨c₀, _, rfl, rfl, h₀⟩
  | append_singleton xs x ih =>
    rw [List.map_append, List.nodup_append] at hnodup
    rw [List.length_append, List.length_singleton] at hlen
    obtain ⟨c, L, hok, hcount, hf⟩ := ih hnodup.1
      (fun p hp => hvalid p (List.mem_append_left _ hp)) (by omega) hasc.of_append
    obtain ⟨c', L', hok', hcount', hf'⟩ := hf.step
      (fun hmem => hnodup.2.2 _ hmem x.1 (by simp) rfl)
      (hvalid x (by simp)) hasc
      ((Nat.div_lt_iff_lt_mul hcap).2 (by rw [hcount]; omega))
    refine ⟨c', L', ?_, hcount'.trans hcount, hf'⟩
    rw [cachePairs_append, hok]
    exact hok'

theorem cachePairs_broken (h₀ : c₀.Filled page (fun _ => []) [])
    (hnodup : (pairs.map Prod.fst).Nodup)
    (hvalid : ∀ p ∈ pairs, p.1 < Word.u64Max ∧ p.2 < Word.u64Max)
    (hlen : pairs.length ≤ c₀.fragmentsCount * leb2pebPairPerFragment page.bytes)
    (hnot : ¬Chunks.Ascend (leb2pebPairPerFragment page.bytes) Prod.fst pairs)
    (hok : cachePairs page pairs c₀ = .ok c) : c.Broken page pairs := by
  have hcap := (leb2pebPairPerFragment_bound page).2.1
  induction pairs using List.reverseRecOn generalizing c with
  | nil => exact absurd (fun i _ hi => absurd hi (Nat.not_lt_zero i)) hnot
  | append_singleton xs x ih =>
    rw [List.map_append, List.nodup_append] at hnodup
    rw [List.length_append, List.length_singleton] at hlen
    have hx : x.1 ∉ xs.map Prod.fst := fun hmem => hnodup.2.2 _ hmem x.1 (by simp) rfl
    have hvalid' : ∀ p ∈ xs, p.1 < Word.u64Max ∧ p.2 < Word.u64Max :=
      fun p hp => hvalid p (List.mem_append_left _ hp)
    rw [cachePairs_append] at hok
    obtain ⟨c₁, hok₁, hok⟩ := Checked.bind_eq_ok.1 hok
    by_cases hasc : Chunks.Ascend (leb2pebPairPerFragment page.bytes) Prod.fst xs
    · obtain ⟨c₂, L, hok₂, hcount, hf⟩ := cachePairs_filled h₀ hnodup.1 hvalid' (by omega) hasc
      rw [hok₁] at hok₂
      cases hok₂
      exact hf.step_broken hx (hvalid x (by simp)) hasc hnot
        ((Nat.div_lt_iff_lt_mul hcap).2 (by rw [hcount]; omega)) hok
    · exact (ih hnodup.1 hvalid' (by omega) hasc hok₁).step hx (hvalid x (by simp)) hok

/-- The cache comes out right exactly when, fragment by fragment, the first LEB inserted is
the lowest one and no later fragment gets a lower LEB. -/
theorem cachePairs_correct_iff (hprepare : maptblCacheMkfsPrepare page a = .ok c₀)
    (hnodup : (pairs.map Prod.fst).Nodup)
    (hvalid : ∀ p ∈ pairs, p.1 < Word.u64Max ∧ p.2 < Word.u64Max)
    (hlen : pairs.length ≤ c₀.fragmentsCount * leb2pebPairPerFragment page.bytes) :
    (∃ c, cachePairs page pairs c₀ = .ok c ∧ c.Correct page pairs) ↔
      Chunks.Ascend (leb2pebPairPerFragment page.bytes) Prod.fst pairs := by
  have h₀ := maptblCacheMkfsPrepare_filled hprepare
  constructor
  · rintro ⟨c, hok, hc⟩
    by_contra hnot
    exact (cachePairs_broken h₀ hnodup hvalid hlen hnot hok).not_correct hc
  · intro hasc
    obtain ⟨c, L, hok, hcount, hf⟩ := cachePairs_filled h₀ hnodup hvalid hlen hasc
    exact ⟨c, hok, hf.correct (by rwa [hcount]) hasc⟩

end Run

def twoLebs : SegsArray where
  metaArray _ := ⟨0, 0, .dedicated⟩
  segs i := ⟨none, .max, i, fun _ => ⟨i, Word.u64Max, fun _ => ⟨none, 0, 0⟩⟩, 1, 1⟩
  segsCapacity := 2
  segsCount := 0
  lastAllocatedSegIndex := 1

theorem cachePairs_correct_ascending :
    ∃ c₀ c, maptblCacheMkfsPrepare .kib4 twoLebs = .ok c₀ ∧
      cachePairs .kib4 [(1, 11), (2, 10)] c₀ = .ok c ∧ c.Correct .kib4 [(1, 11), (2, 10)] := by
  obtain ⟨c₀, hprepare, hcount⟩ : ∃ c₀, maptblCacheMkfsPrepare .kib4 twoLebs = .ok c₀ ∧
    c₀.fragmentsCount = 1 := ⟨_, rfl, rfl⟩
  have hasc : Chunks.Ascend (leb2pebPairPerFragment PageSize.kib4.bytes) Prod.fst
      [(1, 11), (2, 10)] := by
    rintro i j hi hj hij -
    obtain ⟨rfl, rfl⟩ : i = 0 ∧ j = 1 := by simp at hi hj; omega
    exact Nat.lt_succ_self 1
  obtain ⟨c, hok, hc⟩ := (cachePairs_correct_iff hprepare (by decide) (by decide)
    (by rw [hcount]; decide)).2 hasc
  exact ⟨c₀, c, hprepare, hok, hc⟩

/-- A LEB below the first one of the only fragment finds no fragment, though there is room. -/
theorem cachePairs_aborts_descending :
    ∃ c₀, maptblCacheMkfsPrepare .kib4 twoLebs = .ok c₀ ∧
      2 ≤ c₀.fragmentsCount * leb2pebPairPerFragment PageSize.kib4.bytes ∧
      cachePairs .kib4 [(2, 10), (1, 11)] c₀ = .error .abort :=
  ⟨_, rfl, by decide, rfl⟩

/-- Nothing is written behind the states of `n` items, and these lie in the page. -/
structure WrittenInside (page : PageSize) (n : Nat) (fragment fragment' : MaptblCacheFragment) : Prop where
  inside : maptblCacheHdrSize + (leb2pebPairSize * n + pebStateSize + pebStateSize * n) ≤ page.bytes
  size : fragment'.area.size = fragment.area.size
  frame : ∀ x, leb2pebPairSize * n + pebStateSize + pebStateSize * n ≤ x →
    fragment'.area.data x = fragment.area.data x

section

variable {page : PageSize} {fragment : MaptblCacheFragment} {items : List CacheItem} {item : CacheItem}

theorem MaptblCacheFragment.inserted_inside {p : Nat} (hp : p ≤ items.length)
    (hroom : items.length < leb2pebPairPerFragment page.bytes) :
    WrittenInside page (items.length + 1) fragment (fragment.inserted items.length p item) where
  inside := by
    have hcap := leb2pebPairPerFragment_bound page
    unfold maptblCacheHdrSize leb2pebPairSize pebStateSize
    omega
  size := rfl
  frame x hx := by
    apply insertBytes_frame hp
    unfold leb2pebPairSize pebStateSize at hx
    omega

/-- An insertion with room succeeds. The fragment then holds the items that it held, each with its own
state, and the new one at its sorted place; the record of the states stands behind the pairs. -/
theorem addLeb2pebPair_inserts (h : fragment.Holds page items)
    (hroom : items.length < leb2pebPairPerFragment page.bytes)
    (hleb : item.pair.lebId < Word.u64Max) (hpeb : item.pair.pebId < Word.u64Max)
    (hnew : ∀ x ∈ items, x.pair.lebId ≠ item.pair.lebId) (cacheBytes : Nat) :
    ∃ fragment' p, p ≤ items.length ∧
      addLeb2pebPair (leb2pebPairPerFragment page.bytes) fragment cacheBytes item =
        .ok (fragment', cacheBytesAfter cacheBytes items.length, none) ∧
      fragment'.Holds page (items.insertIdx p item) ∧
      pebStateArea fragment' = .ok (leb2pebPairSize * (items.length + 1)) ∧
      WrittenInside page (items.length + 1) fragment fragment' := by
  obtain ⟨p, hp, hrun, hsorted⟩ := addLeb2pebPair_eq h hroom hnew cacheBytes
  have hholds := h.insert hroom hp hleb hpeb hsorted
  refine ⟨fragment.inserted items.length p item, p, hp, hrun, hholds, ?_, ?_⟩
  · rw [hholds.stateArea, List.length_insertIdx_of_le_length hp]
    rfl
  · exact MaptblCacheFragment.inserted_inside hp hroom

end

/-- A LEB in front of the one that the fragment holds. -/
theorem addLeb2pebPair_inserts_3 : ∃ fragment fragment' : MaptblCacheFragment,
    fragment.Holds .kib4 [cacheItem (7, 9)] ∧
    addLeb2pebPair (leb2pebPairPerFragment PageSize.kib4.bytes) fragment 56 (cacheItem (3, 4)) =
      .ok (fragment', 76, none) ∧
    fragment'.Holds .kib4 [cacheItem (3, 4), cacheItem (7, 9)] := by
  obtain ⟨blank, hblank⟩ := Checked.exists_ok (m := maptblCachePrepareFragment .kib4 0) rfl
  obtain ⟨fragment, p, hp, -, hfirst⟩ := @addLeb2pebPair_ok .kib4 blank [] (cacheItem (7, 9))
    (maptblCachePrepareFragment_holds hblank) (by decide) (by decide) (by decide) nofun 0
  obtain rfl : p = 0 := Nat.le_zero.1 hp
  obtain ⟨fragment', q, hq, hrun, hholds, -⟩ := @addLeb2pebPair_inserts .kib4 fragment
    [cacheItem (7, 9)] (cacheItem (3, 4)) hfirst (by decide) (by decide) (by decide) (by decide) 56
  refine ⟨fragment, fragment', hfirst, hrun, ?_⟩
  have hsorted := hholds.sorted
  match q, hq with
  | 0, _ => exact hholds
  | 1, _ => exact absurd hsorted (by decide)

end Ssdfs
