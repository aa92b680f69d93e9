import Mathlib.Algebra.BigOperators.Ring.Finset
import Ssdfs.MaptblCache.Run

namespace Ssdfs

/-- The bytes that an insertion counts for a fragment of `n` items. -/
def countedBytes (n : Nat) : Nat := if n = 0 then 0 else 36 + 20 * n

structure MaptblCache.Counted (page : PageSize) (c : MaptblCache) : Prop where
  count : c.fragmentsCount < 65535
  items : ∀ i < c.fragmentsCount,
    (c.fragments i).hdr.itemsCount ≤ leb2pebPairPerFragment page.bytes + 1
  last : ∀ i, i + 1 = c.fragmentsCount →
    (c.fragments i).hdr.itemsCount ≤ leb2pebPairPerFragment page.bytes
  used : ∀ i < c.fragmentsCount,
    (c.fragments i).hdr.bytesCount = 36 + 20 * (c.fragments i).hdr.itemsCount
  bytes : c.bytesCount = ∑ i ∈ Finset.range c.fragmentsCount,
    countedBytes (c.fragments i).hdr.itemsCount

section

variable {page : PageSize} {c c' c₀ : MaptblCache} {cap cacheBytes : Nat}
  {fragment : MaptblCacheFragment} {item : CacheItem} {moving : Option CacheItem}
  {pairs : List (Nat × Nat)} {a : SegsArray} {i : Nat}

namespace MaptblCache.Counted

theorem used_le (h : c.Counted page) (hi : i < c.fragmentsCount) :
    36 ≤ (c.fragments i).hdr.bytesCount ∧ (c.fragments i).hdr.bytesCount ≤ 32788 := by
  have hcap := leb2pebPairPerFragment_bound page
  have hitems := h.items i hi
  have hused := h.used i hi
  omega

theorem counted_le (h : c.Counted page) (hi : i < c.fragmentsCount) :
    countedBytes (c.fragments i).hdr.itemsCount ≤ (c.fragments i).hdr.bytesCount := by
  have hused := h.used i hi
  unfold countedBytes
  split <;> omega

theorem bytes_le (h : c.Counted page) : c.bytesCount ≤ 65535 * 32788 := by
  rw [h.bytes]
  calc ∑ i ∈ Finset.range c.fragmentsCount, countedBytes (c.fragments i).hdr.itemsCount
      ≤ ∑ _i ∈ Finset.range c.fragmentsCount, 32788 := by
        refine Finset.sum_le_sum fun i hi => ?_
        have hi := Finset.mem_range.1 hi
        exact Nat.le_trans (h.counted_le hi) (h.used_le hi).2
    _ = c.fragmentsCount * 32788 := by simp
    _ ≤ 65535 * 32788 := Nat.mul_le_mul_right _ (Nat.le_of_lt h.count)

theorem set (h : c.Counted page) {index : Nat} (hindex : index < c.fragmentsCount)
    (hadd : addLeb2pebPair (leb2pebPairPerFragment page.bytes) (c.fragments index) c.bytesCount item =
      .ok (fragment, cacheBytes, moving))
    (hlast : moving = none ∨ index + 1 < c.fragmentsCount) :
    (c.set index fragment cacheBytes).Counted page := by
  have hcap := leb2pebPairPerFragment_bound page
  have htotal := h.bytes_le
  obtain ⟨hle, hitems, hbytes, rfl, hroom⟩ := addLeb2pebPair_header hadd
  rw [Word.u16_of_lt (by omega)] at hitems
  rw [hitems, Word.u16_of_lt (by omega)] at hbytes
  have hfragment : ∀ i, (c.set index fragment
      (cacheBytesAfter c.bytesCount (c.fragments index).hdr.itemsCount)).fragments i =
      Function.update c.fragments index fragment i := fun _ => rfl
  refine ⟨h.count, fun i hi => ?_, fun i hi => ?_, fun i hi => ?_, ?_⟩
  · rw [hfragment]
    by_cases heq : i = index
    · subst heq
      rw [Function.update_self]
      omega
    · rw [Function.update_of_ne heq]
      exact h.items i hi
  · rw [hfragment]
    have hi : i + 1 = c.fragmentsCount := hi
    by_cases heq : i = index
    · subst heq
      rw [Function.update_self]
      rcases hlast with hnone | hlt
      · have := hroom.1 hnone
        omega
      · omega
    · rw [Function.update_of_ne heq]
      exact h.last i hi
  · rw [hfragment]
    by_cases heq : i = index
    · subst heq
      rw [Function.update_self]
      omega
    · rw [Function.update_of_ne heq]
      exact h.used i hi
  · have hsum := sum_range_update (fun f : MaptblCacheFragment => countedBytes f.hdr.itemsCount)
      c.fragments hindex fragment
    have hnew : countedBytes fragment.hdr.itemsCount = 36 + 20 * fragment.hdr.itemsCount :=
      if_neg (by omega)
    rw [hnew, ← h.bytes] at hsum
    change cacheBytesAfter c.bytesCount _ = ∑ i ∈ Finset.range c.fragmentsCount,
      countedBytes (Function.update c.fragments index fragment i).hdr.itemsCount
    unfold cacheBytesAfter
    unfold countedBytes at hsum ⊢
    split at hsum
    case isTrue hzero =>
      rw [if_pos hzero, Word.u32_of_lt (n := c.bytesCount + 36) (by omega), Word.u32_of_lt (by omega)]
      omega
    case isFalse hpos =>
      rw [if_neg hpos, Word.u32_of_lt (by omega)]
      omega

end MaptblCache.Counted

theorem addFrom_counted {rest index : Nat} (h : c.Counted page)
    (hrest : index + rest = c.fragmentsCount)
    (hok : addFrom (leb2pebPairPerFragment page.bytes) rest index item c = .ok c') :
    c'.Counted page := by
  induction rest generalizing index item c with
  | zero => cases hok
  | succ rest ih =>
    obtain ⟨⟨fragment, bytes, moving⟩, hadd, hok⟩ := Checked.bind_eq_ok.1 hok
    cases moving with
    | none =>
      cases hok
      exact h.set (by omega) hadd (.inl rfl)
    | some item' =>
      have hmore : rest ≠ 0 := by
        rintro rfl
        cases hok
      have hset := h.set (by omega) hadd (.inr (by omega))
      exact ih hset (by change index + 1 + rest = c.fragmentsCount; omega) hok

theorem findFragmentFrom_le {leb rest k : Nat}
    (h : findFragmentFrom cap c leb rest i = .ok k) : k ≤ i + rest := by
  induction rest generalizing i with
  | zero =>
    cases h
    exact Nat.le_refl _
  | succ rest ih =>
    unfold findFragmentFrom at h
    obtain ⟨-, h⟩ := bugOn_bind_eq_ok.1 h
    split_ifs at h
    · cases h
      omega
    · cases h
      omega
    · cases h
      omega
    · have := ih h
      omega

theorem maptblCacheMkfsPrepare_counted (h : maptblCacheMkfsPrepare page a = .ok c₀) :
    c₀.Counted page := by
  have hfilled := maptblCacheMkfsPrepare_filled h
  have hempty : ∀ i < c₀.fragmentsCount, (c₀.fragments i).hdr.itemsCount = 0 := fun i hi =>
    (hfilled.sound.holds i hi).count
  refine ⟨hfilled.sound.count, fun i hi => ?_, fun i hi => ?_, fun i hi => ?_, ?_⟩
  · rw [hempty i hi]
    exact Nat.zero_le _
  · rw [hempty i (by omega)]
    exact Nat.zero_le _
  · rw [hempty i hi]
    exact (hfilled.sound.holds i hi).bytes
  · rw [hfilled.sound.bytes]
    refine Finset.sum_congr rfl fun i hi => ?_
    rw [hempty i (Finset.mem_range.1 hi)]
    rfl

theorem cachePairs_counted (hprepare : maptblCacheMkfsPrepare page a = .ok c₀)
    (hrun : cachePairs page pairs c₀ = .ok c) : c.Counted page := by
  refine Checked.forEach_inv (·.Counted page) hrun (maptblCacheMkfsPrepare_counted hprepare)
    fun p t t' ht hstep => ?_
  unfold cacheLeb2pebPair at hstep
  obtain ⟨-, hstep⟩ := bugOn_bind_eq_ok.1 hstep
  obtain ⟨-, hstep⟩ := bugOn_bind_eq_ok.1 hstep
  obtain ⟨index, hfind, hstep⟩ := Checked.bind_eq_ok.1 hstep
  obtain ⟨-, hfind⟩ := bugOn_bind_eq_ok.1 hfind
  have hle := findFragmentFrom_le hfind
  exact addFrom_counted ht (by omega) hstep

end

namespace MaptblCache

def kept (page : PageSize) (c : MaptblCache) : Nat :=
  ∑ i ∈ Finset.range c.fragmentsCount,
    min (leb2pebPairPerFragment page.bytes) (c.fragments i).hdr.itemsCount

def surplus (page : PageSize) (c : MaptblCache) : Nat :=
  ∑ i ∈ Finset.range c.fragmentsCount,
    ((c.fragments i).hdr.itemsCount - leb2pebPairPerFragment page.bytes)

end MaptblCache

section

variable {page : PageSize} {c c' c₀ : MaptblCache} {item : CacheItem} {pairs : List (Nat × Nat)}
  {a : SegsArray} {i : Nat}

theorem addFrom_fragmentsCount {cap rest index : Nat}
    (h : addFrom cap rest index item c = .ok c') : c'.fragmentsCount = c.fragmentsCount := by
  induction rest generalizing index item c with
  | zero => cases h
  | succ rest ih =>
    obtain ⟨⟨fragment, bytes, moving⟩, -, h⟩ := Checked.bind_eq_ok.1 h
    cases moving with
    | none =>
      cases h
      rfl
    | some item' =>
      exact (ih h : c'.fragmentsCount = (c.set index fragment bytes).fragmentsCount)

theorem addFrom_kept {rest index : Nat} (hrest : index + rest = c.fragmentsCount)
    (hok : addFrom (leb2pebPairPerFragment page.bytes) rest index item c = .ok c') :
    c'.kept page = c.kept page + 1 := by
  have hcap := leb2pebPairPerFragment_bound page
  induction rest generalizing index item c with
  | zero => cases hok
  | succ rest ih =>
    obtain ⟨⟨fragment, bytes, moving⟩, hadd, hok⟩ := Checked.bind_eq_ok.1 hok
    obtain ⟨hle, hitems, -, -, hroom⟩ := addLeb2pebPair_header hadd
    rw [Word.u16_of_lt (by omega)] at hitems
    have hindex : index < c.fragmentsCount := by omega
    have hset : (c.set index fragment bytes).kept page +
        min (leb2pebPairPerFragment page.bytes) (c.fragments index).hdr.itemsCount = c.kept page +
          min (leb2pebPairPerFragment page.bytes) fragment.hdr.itemsCount :=
      sum_range_update (fun f : MaptblCacheFragment =>
        min (leb2pebPairPerFragment page.bytes) f.hdr.itemsCount) c.fragments hindex fragment
    cases moving with
    | none =>
      have hless := hroom.1 rfl
      cases hok
      omega
    | some item' =>
      have hfull := hroom.not.1 (Option.some_ne_none item')
      have hrec : c'.kept page = (c.set index fragment bytes).kept page + 1 :=
        ih (by change index + 1 + rest = c.fragmentsCount; omega) hok
      omega

theorem cacheLeb2pebPair_kept {leb peb : Nat} (h : cacheLeb2pebPair page c leb peb = .ok c') :
    c'.fragmentsCount = c.fragmentsCount ∧ c'.kept page = c.kept page + 1 := by
  unfold cacheLeb2pebPair at h
  obtain ⟨-, h⟩ := bugOn_bind_eq_ok.1 h
  obtain ⟨-, h⟩ := bugOn_bind_eq_ok.1 h
  obtain ⟨index, hfind, h⟩ := Checked.bind_eq_ok.1 h
  obtain ⟨-, hfind⟩ := bugOn_bind_eq_ok.1 hfind
  have hle := findFragmentFrom_le hfind
  exact ⟨addFrom_fragmentsCount h, addFrom_kept (by omega) h⟩

theorem cachePairs_fragmentsCount (h : cachePairs page pairs c₀ = .ok c) :
    c.fragmentsCount = c₀.fragmentsCount :=
  Checked.forEach_inv (fun t => t.fragmentsCount = c₀.fragmentsCount) h rfl
    fun _ _ _ ht hstep => (cacheLeb2pebPair_kept hstep).1.trans ht

theorem cachePairs_kept (hprepare : maptblCacheMkfsPrepare page a = .ok c₀)
    (hrun : cachePairs page pairs c₀ = .ok c) : c.kept page = pairs.length := by
  induction pairs using List.reverseRecOn generalizing c with
  | nil =>
    cases hrun
    refine Finset.sum_eq_zero fun i hi => ?_
    rw [((maptblCacheMkfsPrepare_filled hprepare).sound.holds i (Finset.mem_range.1 hi)).count]
    exact Nat.min_zero _
  | append_singleton xs x ih =>
    rw [cachePairs_append] at hrun
    obtain ⟨c₁, hrun₁, hstep⟩ := Checked.bind_eq_ok.1 hrun
    rw [List.length_append, List.length_singleton, ← ih hrun₁]
    exact (cacheLeb2pebPair_kept hstep).2

namespace MaptblCache

theorem kept_le : c.kept page ≤ c.fragmentsCount * leb2pebPairPerFragment page.bytes := by
  have hle := Finset.sum_le_card_nsmul (Finset.range c.fragmentsCount)
    (fun i => min (leb2pebPairPerFragment page.bytes) (c.fragments i).hdr.itemsCount) _
    fun i _ => Nat.min_le_left _ _
  rwa [Finset.card_range] at hle

theorem items_pos (hcount : c.fragmentsCount = (c.kept page + leb2pebPairPerFragment page.bytes - 1) /
      leb2pebPairPerFragment page.bytes) (hi : i < c.fragmentsCount) :
    0 < (c.fragments i).hdr.itemsCount := by
  by_contra hempty
  have hmem := Finset.mem_range.2 hi
  have hrest : _ ≤ ((Finset.range c.fragmentsCount).erase i).card * leb2pebPairPerFragment page.bytes :=
    Finset.sum_le_card_nsmul ((Finset.range c.fragmentsCount).erase i)
      (fun j => min (leb2pebPairPerFragment page.bytes) (c.fragments j).hdr.itemsCount) _
      fun j _ => Nat.min_le_left _ _
  have hsum := Finset.add_sum_erase (Finset.range c.fragmentsCount)
    (fun j => min (leb2pebPairPerFragment page.bytes) (c.fragments j).hdr.itemsCount) hmem
  rw [Finset.card_erase_of_mem hmem, Finset.card_range, Nat.sub_mul] at hrest
  change _ = c.kept page at hsum
  have hmul := Nat.div_mul_le_self (c.kept page + leb2pebPairPerFragment page.bytes - 1)
    (leb2pebPairPerFragment page.bytes)
  have hcap := (leb2pebPairPerFragment_bound page).2.1
  have hone := Nat.le_mul_of_pos_left (leb2pebPairPerFragment page.bytes) (Nat.zero_lt_of_lt hi)
  rw [← hcount] at hmul
  omega

end MaptblCache

/-- The bytes of the fragments that `n` pairs fill. -/
def cacheBytesOf (page : PageSize) (n : Nat) : Nat :=
  let pairs := leb2pebPairPerFragment page.bytes
  36 * ((n + pairs - 1) / pairs) + 20 * n

theorem MaptblCache.Counted.bytes_eq (h : c.Counted page) (hcount : c.fragmentsCount =
      (c.kept page + leb2pebPairPerFragment page.bytes - 1) / leb2pebPairPerFragment page.bytes) :
    ∑ i ∈ Finset.range c.fragmentsCount, (c.fragments i).hdr.bytesCount =
        cacheBytesOf page (c.kept page) + 20 * c.surplus page ∧
      c.bytesCount = cacheBytesOf page (c.kept page) + 20 * c.surplus page := by
  have hitems : c.kept page + c.surplus page =
      ∑ i ∈ Finset.range c.fragmentsCount, (c.fragments i).hdr.itemsCount := by
    unfold MaptblCache.kept MaptblCache.surplus
    rw [← Finset.sum_add_distrib]
    exact Finset.sum_congr rfl fun i _ => by omega
  have hsum : ∑ i ∈ Finset.range c.fragmentsCount, (36 + 20 * (c.fragments i).hdr.itemsCount) =
      cacheBytesOf page (c.kept page) + 20 * c.surplus page := by
    rw [Finset.sum_add_distrib, ← Finset.mul_sum, ← hitems, Finset.sum_const_nat fun _ _ => rfl,
      Finset.card_range]
    unfold cacheBytesOf
    simp only
    rw [← hcount]
    omega
  constructor
  · rw [← hsum]
    exact Finset.sum_congr rfl fun i hi => h.used i (Finset.mem_range.1 hi)
  · rw [← hsum, h.bytes]
    refine Finset.sum_congr rfl fun i hi => ?_
    exact if_neg (Nat.ne_of_gt (MaptblCache.items_pos hcount (Finset.mem_range.1 hi)))

/-- A fragment counts at most one item too many, and the last one none. -/
theorem MaptblCache.Counted.surplus_le (h : c.Counted page) :
    c.surplus page ≤ c.fragmentsCount - 1 := by
  unfold MaptblCache.surplus
  cases hn : c.fragmentsCount with
  | zero => exact Nat.le_refl 0
  | succ m =>
    have hlast := h.last m hn.symm
    have hone : ∀ i ∈ Finset.range m,
        (c.fragments i).hdr.itemsCount - leb2pebPairPerFragment page.bytes ≤ 1 := fun i hi => by
      have hi := Finset.mem_range.1 hi
      have hitems := h.items i (by omega)
      omega
    have hsum : _ ≤ (Finset.range m).card * 1 := Finset.sum_le_card_nsmul (Finset.range m) _ 1 hone
    rw [Finset.card_range, Nat.mul_one] at hsum
    rw [Finset.sum_range_succ, Nat.sub_eq_zero_of_le hlast, Nat.add_zero]
    exact hsum

theorem MaptblCache.Sound.surplus_eq_zero {L : Nat → List CacheItem} (h : c.Sound page L) :
    c.surplus page = 0 :=
  Finset.sum_eq_zero fun i hi => by
    have hholds := h.holds i (Finset.mem_range.1 hi)
    rw [hholds.count]
    exact Nat.sub_eq_zero_of_le hholds.fits

end

end Ssdfs
