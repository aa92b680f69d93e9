import Ssdfs.MaptblCache.Committed
import Ssdfs.MaptblCache.Counted

namespace Ssdfs

namespace MaptblCache

def Spills (page : PageSize) (c : MaptblCache) : Prop :=
  ∀ j < c.fragmentsCount, leb2pebPairPerFragment page.bytes < (c.fragments j).hdr.itemsCount →
    j + 1 < c.fragmentsCount ∧ 0 < (c.fragments (j + 1)).hdr.itemsCount

def OnlyFirst (c : MaptblCache) : Prop :=
  ∀ i < c.fragmentsCount, 0 < i → (c.fragments i).hdr.itemsCount = 0

end MaptblCache

section

variable {page : PageSize} {c c' c₀ : MaptblCache} {cap : Nat} {item : CacheItem} {a : SegsArray}
  {pairs : List (Nat × Nat)} {leb peb : Nat}

theorem addFrom_counts {rest index : Nat} (hcap : cap < 65535)
    (h : addFrom cap rest index item c = .ok c') :
    0 < rest ∧ (c'.fragments index).hdr.itemsCount = (c.fragments index).hdr.itemsCount + 1 ∧
      (∀ j < index, c'.fragments j = c.fragments j) ∧
      (∀ j, (c.fragments j).hdr.itemsCount ≤ (c'.fragments j).hdr.itemsCount) ∧
      ∀ j, cap < (c'.fragments j).hdr.itemsCount → cap < (c.fragments j).hdr.itemsCount ∨
        j + 1 < index + rest ∧ 0 < (c'.fragments (j + 1)).hdr.itemsCount := by
  induction rest generalizing index item c with
  | zero => cases h
  | succ rest ih =>
    obtain ⟨⟨fragment, bytes, moving⟩, hadd, h⟩ := Checked.bind_eq_ok.1 h
    obtain ⟨hle, hitems, -, -, hroom⟩ := addLeb2pebPair_header hadd
    rw [Word.u16_of_lt (by omega)] at hitems
    have hself : (c.set index fragment bytes).fragments index = fragment := Function.update_self ..
    have hother : ∀ j, j ≠ index → (c.set index fragment bytes).fragments j = c.fragments j :=
      fun j hj => Function.update_of_ne hj ..
    have hmono : ∀ j, (c.fragments j).hdr.itemsCount ≤
        ((c.set index fragment bytes).fragments j).hdr.itemsCount := by
      intro j
      by_cases hj : j = index
      · subst hj
        rw [hself]
        omega
      · rw [hother j hj]
    cases moving with
    | none =>
      cases h
      refine ⟨Nat.succ_pos _, by rw [hself, hitems], fun j hj => hother j (Nat.ne_of_lt hj), hmono,
        fun j hj => ?_⟩
      by_cases hji : j = index
      · subst hji
        rw [hself] at hj
        have := hroom.1 rfl
        omega
      · rw [hother j hji] at hj
        exact .inl hj
    | some item' =>
      obtain ⟨hrest, hnext, hfront, hmono', hfull⟩ := ih h
      refine ⟨Nat.succ_pos _, ?_, fun j hj => ?_, fun j => Nat.le_trans (hmono j) (hmono' j),
        fun j hj => ?_⟩
      · rw [hfront index (Nat.lt_succ_self _), hself, hitems]
      · rw [hfront j (Nat.lt_succ_of_lt hj), hother j (Nat.ne_of_lt hj)]
      · rcases hfull j hj with hover | ⟨hlt, hpos⟩
        · by_cases hji : j = index
          · subst hji
            exact .inr ⟨by omega, by omega⟩
          · rw [hother j hji] at hover
            exact .inl hover
        · exact .inr ⟨by omega, hpos⟩

theorem cacheLeb2pebPair_counts (h : cacheLeb2pebPair page c leb peb = .ok c') :
    0 < c.fragmentsCount ∧ c'.fragmentsCount = c.fragmentsCount ∧
      (c.Spills page → c'.Spills page) ∧ (c'.OnlyFirst → c.OnlyFirst) := by
  have hcap := leb2pebPairPerFragment_bound page
  unfold cacheLeb2pebPair at h
  obtain ⟨-, h⟩ := bugOn_bind_eq_ok.1 h
  obtain ⟨-, h⟩ := bugOn_bind_eq_ok.1 h
  obtain ⟨index, hfind, h⟩ := Checked.bind_eq_ok.1 h
  obtain ⟨-, hfind⟩ := bugOn_bind_eq_ok.1 hfind
  have hle := findFragmentFrom_le hfind
  have hcount := addFrom_fragmentsCount h
  obtain ⟨hrest, -, -, hmono, hfull⟩ := addFrom_counts (by omega) h
  refine ⟨by omega, hcount, fun hspills j hlt hj => ?_, fun honly i hi hpos => ?_⟩
  · rw [hcount]
    rcases hfull j hj with hover | ⟨hlt, hpos⟩
    · obtain ⟨hlt, hpos⟩ := hspills j (by omega) hover
      exact ⟨hlt, Nat.lt_of_lt_of_le hpos (hmono _)⟩
    · exact ⟨by omega, hpos⟩
  · have hzero := honly i (by omega) hpos
    have := hmono i
    omega

theorem addLeb2pebPair_flags {fragment fragment' : MaptblCacheFragment} {cacheBytes cacheBytes' : Nat}
    {moving : Option CacheItem}
    (h : addLeb2pebPair cap fragment cacheBytes item = .ok (fragment', cacheBytes', moving)) :
    fragment'.hdr.flags = fragment.hdr.flags := by
  obtain ⟨-, h⟩ := bugOn_bind_eq_ok.1 h
  obtain ⟨_, -, h⟩ := Checked.bind_eq_ok.1 h
  obtain ⟨_, -, h⟩ := Checked.bind_eq_ok.1 h
  obtain ⟨_, -, h⟩ := Checked.bind_eq_ok.1 h
  obtain ⟨_, -, h⟩ := Checked.bind_eq_ok.1 h
  obtain ⟨_, -, h⟩ := Checked.bind_eq_ok.1 h
  obtain ⟨_, -, h⟩ := Checked.bind_eq_ok.1 h
  obtain ⟨_, -, h⟩ := Checked.bind_eq_ok.1 h
  cases h
  rfl

theorem addFrom_flags {rest index : Nat} (h : addFrom cap rest index item c = .ok c') (j : Nat) :
    (c'.fragments j).hdr.flags = (c.fragments j).hdr.flags := by
  induction rest generalizing index item c with
  | zero => cases h
  | succ rest ih =>
    obtain ⟨⟨fragment, bytes, moving⟩, hadd, h⟩ := Checked.bind_eq_ok.1 h
    have hset : ((c.set index fragment bytes).fragments j).hdr.flags = (c.fragments j).hdr.flags := by
      unfold MaptblCache.set
      by_cases hj : j = index
      · subst hj
        simp only [Function.update_self]
        exact addLeb2pebPair_flags hadd
      · simp only [Function.update_of_ne hj]
    cases moving with
    | none =>
      cases h
      exact hset
    | some item' => exact (ih h).trans hset

theorem cachePairs_flags (hprepare : maptblCacheMkfsPrepare page a = .ok c₀)
    (hrun : cachePairs page pairs c₀ = .ok c) {i : Nat} (hi : i < c₀.fragmentsCount) :
    (c.fragments i).hdr.flags = 0 := by
  refine Checked.forEach_inv (fun t => (t.fragments i).hdr.flags = 0) hrun ?_ fun p t t' ht hstep => ?_
  · obtain ⟨-, hprepare⟩ := bugOn_bind_eq_ok.1 hprepare
    obtain ⟨fragments, hfill, hprepare⟩ := Checked.bind_eq_ok.1 hprepare
    cases hprepare
    obtain ⟨area, -, hfragment⟩ := Checked.bind_eq_ok.1 ((Checked.fill_ok hfill).1 i hi)
    have hflags : (fragments i).hdr.flags = 0 := by
      rw [← Except.ok.inj hfragment]
    exact hflags
  · obtain ⟨-, hstep⟩ := bugOn_bind_eq_ok.1 hstep
    obtain ⟨-, hstep⟩ := bugOn_bind_eq_ok.1 hstep
    obtain ⟨_, -, hstep⟩ := Checked.bind_eq_ok.1 hstep
    exact (addFrom_flags hstep i).trans ht

theorem cachePairs_spills (h₀ : c₀.Filled page (fun _ => []) [])
    (hrun : cachePairs page pairs c₀ = .ok c) : c.Spills page := by
  refine Checked.forEach_inv (·.Spills page) hrun (fun j hj hover => ?_) fun p t t' ht hstep =>
    (cacheLeb2pebPair_counts hstep).2.2.1 ht
  rw [(h₀.sound.holds j hj).count] at hover
  exact absurd hover (Nat.not_lt_zero _)

end

section

variable {page : PageSize} {c c' c₀ : MaptblCache} {L : Nat → List CacheItem} {a : SegsArray}
  {xs pairs : List (Nat × Nat)} {x : Nat × Nat}

theorem MaptblCache.Filled.first_le (h : c.Filled page L xs)
    (hasc : Chunks.Ascend (leb2pebPairPerFragment page.bytes) Prod.fst xs)
    (hcount : 0 < c.fragmentsCount) (hpos : 0 < xs.length) {b : CacheItem} (hb : b ∈ L 0) :
    xs[0].1 ≤ b.pair.lebId := by
  obtain ⟨u, hu, -, rfl⟩ := (h.mem_iff hcount).1 hb
  rcases Nat.eq_zero_or_pos u with rfl | hlt
  · exact Nat.le_refl _
  · exact Nat.le_of_lt (hasc 0 u hpos hu hlt (.inl (Nat.zero_mod _)))

theorem MaptblCache.Filled.step_onlyFirst (h : c.Filled page L xs) (hx : x.1 ∉ xs.map Prod.fst)
    (hvalid : x.1 < Word.u64Max ∧ x.2 < Word.u64Max)
    (hasc : Chunks.Ascend (leb2pebPairPerFragment page.bytes) Prod.fst xs) (hspills : c.Spills page)
    (hok : cacheLeb2pebPair page c x.1 x.2 = .ok c') (honly : c'.OnlyFirst) :
    xs.length + 1 ≤ leb2pebPairPerFragment page.bytes ∧
      Chunks.Ascend (leb2pebPairPerFragment page.bytes) Prod.fst (xs ++ [x]) := by
  have hcap := (leb2pebPairPerFragment_bound page).2.1
  obtain ⟨-, hcount, hspills', -⟩ := cacheLeb2pebPair_counts hok
  obtain ⟨k, -, ⟨-, habort⟩ | ⟨hk, hstop, ⟨-, hover⟩ | ⟨hroom, c'', p, hp, hok', -, hsound⟩⟩⟩ :=
    h.sound.step hvalid.1 hvalid.2 (h.fresh hx)
  · rw [habort] at hok
    cases hok
  · obtain ⟨i, hi, hover⟩ := hover c' hok
    obtain ⟨hlt, hpos⟩ := hspills' hspills i hi hover
    have := honly (i + 1) hlt (Nat.succ_pos i)
    omega
  rw [hok'] at hok
  cases hok
  obtain rfl : k = 0 := by
    by_contra hne
    have hholds := hsound.holds k (by omega)
    rw [Function.update_self] at hholds
    have hitems := hholds.count
    rw [List.length_insertIdx_of_le_length hp] at hitems
    have := honly k (by omega) (Nat.pos_of_ne_zero hne)
    omega
  have hlength := h.length_eq hk
  have hlen : xs.length < leb2pebPairPerFragment page.bytes := by omega
  refine ⟨hlen, ?_⟩
  by_contra hnot
  obtain ⟨i, hi, hchunk, hle⟩ := Chunks.not_ascend_append hasc hnot
  obtain rfl : i = 0 := by
    rw [Nat.div_eq_of_lt (by omega), Nat.div_eq_of_lt hlen, Nat.mod_eq_of_lt (by omega)] at hchunk
    omega
  have hne : xs[0].1 ≠ x.1 := fun heq => hx (List.mem_map.2 ⟨xs[0], List.getElem_mem hi, heq⟩)
  have hL : L 0 ≠ [] := List.length_pos_iff.1 (by omega)
  obtain ⟨b, hb, hfirst⟩ := firstLeb_mem hL
  obtain ⟨b', hb', hlast⟩ := lastLeb_mem hL
  have hb := h.first_le hasc hk hi hb
  have hb' := h.first_le hasc hk hi hb'
  rcases hstop with hnil | ⟨hlo, -⟩ | ⟨hhi, -⟩
  · exact hL hnil
  · omega
  · omega

theorem cachePairs_pos (hrun : cachePairs page pairs c₀ = .ok c) (hpairs : pairs ≠ []) :
    0 < c₀.fragmentsCount := by
  cases pairs with
  | nil => exact absurd rfl hpairs
  | cons p pairs =>
    obtain ⟨c₁, hok, -⟩ := Checked.bind_eq_ok.1 hrun
    exact (cacheLeb2pebPair_counts hok).1

theorem cachePairs_filled_first (h₀ : c₀.Filled page (fun _ => []) [])
    (hnodup : (pairs.map Prod.fst).Nodup)
    (hvalid : ∀ p ∈ pairs, p.1 < Word.u64Max ∧ p.2 < Word.u64Max)
    (hlen : pairs.length ≤ leb2pebPairPerFragment page.bytes)
    (hasc : Chunks.Ascend (leb2pebPairPerFragment page.bytes) Prod.fst pairs)
    (hrun : cachePairs page pairs c₀ = .ok c) : (∃ L, c.Filled page L pairs) ∧ c.OnlyFirst := by
  have hroom : pairs.length ≤ c₀.fragmentsCount * leb2pebPairPerFragment page.bytes := by
    by_cases hpairs : pairs = []
    · subst hpairs
      exact Nat.zero_le _
    · exact Nat.le_trans hlen (Nat.le_mul_of_pos_left _ (cachePairs_pos hrun hpairs))
  obtain ⟨c', L, hok, -, hfilled⟩ := cachePairs_filled h₀ hnodup hvalid hroom hasc
  rw [hrun] at hok
  cases hok
  refine ⟨⟨L, hfilled⟩, fun i hi hpos => ?_⟩
  have hle := Nat.mul_le_mul_left (leb2pebPairPerFragment page.bytes) (Nat.succ_le_of_lt hpos)
  rw [(hfilled.sound.holds i hi).count, hfilled.length_eq hi]
  omega

theorem cachePairs_onlyFirst_iff (h₀ : c₀.Filled page (fun _ => []) [])
    (hnodup : (pairs.map Prod.fst).Nodup)
    (hvalid : ∀ p ∈ pairs, p.1 < Word.u64Max ∧ p.2 < Word.u64Max)
    (hrun : cachePairs page pairs c₀ = .ok c) :
    c.OnlyFirst ↔ pairs.length ≤ leb2pebPairPerFragment page.bytes ∧
      Chunks.Ascend (leb2pebPairPerFragment page.bytes) Prod.fst pairs := by
  constructor
  · intro honly
    induction pairs using List.reverseRecOn generalizing c with
    | nil => exact ⟨Nat.zero_le _, fun i _ hi => absurd hi (Nat.not_lt_zero i)⟩
    | append_singleton xs x ih =>
      rw [List.map_append, List.nodup_append] at hnodup
      rw [cachePairs_append] at hrun
      obtain ⟨c₁, hrun₁, hok⟩ := Checked.bind_eq_ok.1 hrun
      have hvalid' : ∀ p ∈ xs, p.1 < Word.u64Max ∧ p.2 < Word.u64Max :=
        fun p hp => hvalid p (List.mem_append_left _ hp)
      have honly₁ := (cacheLeb2pebPair_counts hok).2.2.2 honly
      obtain ⟨hlen, hasc⟩ := ih hnodup.1 hvalid' hrun₁ honly₁
      obtain ⟨⟨L, hfilled⟩, -⟩ := cachePairs_filled_first h₀ hnodup.1 hvalid' hlen hasc hrun₁
      have hx : x.1 ∉ xs.map Prod.fst := fun hmem => hnodup.2.2 _ hmem x.1 (by simp) rfl
      rw [List.length_append, List.length_singleton]
      exact hfilled.step_onlyFirst hx (hvalid x (by simp)) hasc (cachePairs_spills h₀ hrun₁) hok honly
  · rintro ⟨hlen, hasc⟩
    exact (cachePairs_filled_first h₀ hnodup hvalid hlen hasc hrun).2

theorem MaptblCache.Counted.bytes_ge (h : c.Counted page) (hpos : 0 < c.bytesCount) :
    36 ≤ c.bytesCount ∧ 0 < c.fragmentsCount := by
  have hsum := h.bytes
  obtain ⟨i, hi, hne⟩ := Finset.exists_ne_zero_of_sum_ne_zero (hsum ▸ Nat.pos_iff_ne_zero.1 hpos)
  have hsingle := Finset.single_le_sum
    (f := fun i => countedBytes (c.fragments i).hdr.itemsCount) (fun _ _ => Nat.zero_le _) hi
  rw [← hsum] at hsingle
  have hlt := Finset.mem_range.1 hi
  unfold countedBytes at hne hsingle
  split at hne
  · exact absurd rfl hne
  · rename_i hitems
    rw [if_neg hitems] at hsingle
    exact ⟨by omega, by omega⟩

theorem MaptblCache.Counted.sum_first (h : c.Counted page) (hpos : 0 < c.fragmentsCount) :
    c.bytesCount = countedBytes (c.fragments 0).hdr.itemsCount +
      ∑ i ∈ (Finset.range c.fragmentsCount).erase 0, countedBytes (c.fragments i).hdr.itemsCount := by
  rw [h.bytes]
  exact (Finset.add_sum_erase _ (fun i => countedBytes (c.fragments i).hdr.itemsCount)
    (Finset.mem_range.2 hpos)).symm

theorem MaptblCache.Counted.bytes_first (h : c.Counted page) (hpos : 0 < c.fragmentsCount)
    (honly : c.OnlyFirst) : c.bytesCount = countedBytes (c.fragments 0).hdr.itemsCount := by
  rw [h.sum_first hpos, Finset.sum_eq_zero, Nat.add_zero]
  intro i hi
  obtain ⟨hne, hi⟩ := Finset.mem_erase.1 hi
  rw [honly i (Finset.mem_range.1 hi) (Nat.pos_of_ne_zero hne)]
  rfl

theorem MaptblCache.Counted.onlyFirst_iff (h : c.Counted page) (hpos : 0 < c.fragmentsCount) :
    (0 < c.bytesCount ∧ c.bytesCount ≤ (c.fragments 0).hdr.bytesCount) ↔
      c.OnlyFirst ∧ 0 < (c.fragments 0).hdr.itemsCount := by
  have hused := h.used 0 hpos
  constructor
  · rintro ⟨hbytes, hle⟩
    have honly : c.OnlyFirst := by
      intro i hi hi0
      by_contra hne
      have hmem : i ∈ (Finset.range c.fragmentsCount).erase 0 :=
        Finset.mem_erase.2 ⟨by omega, Finset.mem_range.2 hi⟩
      have hsingle := Finset.single_le_sum
        (f := fun i => countedBytes (c.fragments i).hdr.itemsCount) (fun _ _ => Nat.zero_le _) hmem
      have hsum := h.sum_first hpos
      have hcounted : countedBytes (c.fragments i).hdr.itemsCount =
          36 + 20 * (c.fragments i).hdr.itemsCount := if_neg hne
      simp only [hcounted] at hsingle
      have hfirst : countedBytes (c.fragments 0).hdr.itemsCount + 36 ≥
          36 + 20 * (c.fragments 0).hdr.itemsCount := by
        unfold countedBytes
        split <;> omega
      omega
    refine ⟨honly, ?_⟩
    rw [h.bytes_first hpos honly] at hbytes
    unfold countedBytes at hbytes
    split at hbytes <;> omega
  · rintro ⟨honly, hitems⟩
    have hfirst : countedBytes (c.fragments 0).hdr.itemsCount =
        36 + 20 * (c.fragments 0).hdr.itemsCount := if_neg (by omega)
    rw [h.bytes_first hpos honly]
    omega

end

end Ssdfs
