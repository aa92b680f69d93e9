import Mathlib.Algebra.Order.BigOperators.Group.Finset
import Ssdfs.Lib.Chunks
import Ssdfs.MaptblCache.Cache
import Ssdfs.MaptblCache.Insert

namespace Ssdfs

open Memory

def MaptblCacheFragment.items (fragment : MaptblCacheFragment) : List CacheItem :=
  (List.range fragment.hdr.itemsCount).map fun i =>
    ⟨⟨peek fragment.area.data 8 (16 * i), peek fragment.area.data 8 (16 * i + 8)⟩,
      .ofWord (peek fragment.area.data 4 (16 * fragment.hdr.itemsCount + 4 + 4 * i))⟩

def MaptblCache.items (c : MaptblCache) : List CacheItem :=
  (List.range c.fragmentsCount).flatMap fun i => (c.fragments i).items

def cacheItem (p : Nat × Nat) : CacheItem := ⟨⟨p.1, p.2⟩, usingState⟩

/-- The cache holds exactly the given pairs, in order, and its headers describe them. -/
structure MaptblCache.Correct (page : PageSize) (c : MaptblCache) (pairs : List (Nat × Nat)) :
    Prop where
  items : c.items.Perm (pairs.map cacheItem)
  sorted : c.items.Pairwise (·.pair.lebId < ·.pair.lebId)
  headers : ∀ i < c.fragmentsCount, 0 < (c.fragments i).hdr.itemsCount →
    (c.fragments i).hdr.startLeb = firstLeb (c.fragments i).items ∧
    (c.fragments i).hdr.endLeb = lastLeb (c.fragments i).items ∧
    (c.fragments i).hdr.itemsCount ≤ leb2pebPairPerFragment page.bytes ∧
    (c.fragments i).hdr.bytesCount = maptblCacheHdrSize + pebStateSize +
      (c.fragments i).hdr.itemsCount * (leb2pebPairSize + pebStateSize)
  bytes : c.bytesCount = ∑ i ∈ Finset.range c.fragmentsCount,
    if (c.fragments i).hdr.itemsCount = 0 then 0 else (c.fragments i).hdr.bytesCount

def cachePairs (page : PageSize) (pairs : List (Nat × Nat)) (c : MaptblCache) :
    Mkfs MaptblCache :=
  Checked.forEach (fun p c => cacheLeb2pebPair page c p.1 p.2) pairs c

theorem MaptblCacheFragment.Holds.items_eq {page : PageSize} {fragment : MaptblCacheFragment}
    {items : List CacheItem} (h : fragment.Holds page items) : fragment.items = items := by
  unfold MaptblCacheFragment.items
  rw [h.count]
  refine List.ext_getElem (by simp) fun i hi hi' => ?_
  obtain ⟨h1, h2, h3⟩ := h.item i hi'
  simp [h1, h2, h3]

def bytesOf (items : List CacheItem) : Nat :=
  if items.length = 0 then 0 else 36 + 20 * items.length

/-- The fragments are well formed and hold the items of `L`. -/
structure MaptblCache.Sound (page : PageSize) (c : MaptblCache) (L : Nat → List CacheItem) :
    Prop where
  count : c.fragmentsCount < 65535
  holds : ∀ i < c.fragmentsCount, (c.fragments i).Holds page (L i)
  bytes : c.bytesCount = ∑ i ∈ Finset.range c.fragmentsCount, bytesOf (L i)

theorem sum_range_update {α : Type} (f : α → Nat) (g : Nat → α) {n k : Nat} (hk : k < n) (x : α) :
    ∑ i ∈ Finset.range n, f (Function.update g k x i) + f (g k) =
      ∑ i ∈ Finset.range n, f (g i) + f x := by
  have hmem : k ∈ Finset.range n := Finset.mem_range.2 hk
  rw [← Finset.add_sum_erase _ (fun i => f (Function.update g k x i)) hmem,
    ← Finset.add_sum_erase _ (fun i => f (g i)) hmem, Function.update_self]
  have heq : ∑ i ∈ (Finset.range n).erase k, f (Function.update g k x i) =
      ∑ i ∈ (Finset.range n).erase k, f (g i) :=
    Finset.sum_congr rfl fun i hi => by rw [Function.update_of_ne (Finset.ne_of_mem_erase hi)]
  rw [heq]
  omega

def StopsAt (cap leb : Nat) (items : List CacheItem) : Prop :=
  items = [] ∨ (firstLeb items ≤ leb ∧ leb ≤ lastLeb items) ∨
    (lastLeb items < leb ∧ items.length < cap)

namespace MaptblCache.Sound

variable {page : PageSize} {c : MaptblCache} {L : Nat → List CacheItem}

theorem bytes_le (h : c.Sound page L) : c.bytesCount ≤ 65535 * 32768 := by
  have hcap := leb2pebPairPerFragment_bound page
  rw [h.bytes]
  calc ∑ i ∈ Finset.range c.fragmentsCount, bytesOf (L i)
      ≤ ∑ _i ∈ Finset.range c.fragmentsCount, 32768 := by
        refine Finset.sum_le_sum fun i hi => ?_
        have := (h.holds i (Finset.mem_range.1 hi)).fits
        unfold bytesOf
        split <;> omega
    _ = c.fragmentsCount * 32768 := by simp
    _ ≤ 65535 * 32768 := Nat.mul_le_mul_right _ (Nat.le_of_lt h.count)

theorem firstLeb_eq_max (h : c.Sound page L) {i : Nat} (hi : i < c.fragmentsCount) :
    firstLeb (L i) = Word.u64Max ↔ L i = [] := by
  have hh := h.holds i hi
  cases hL : L i with
  | nil => simp [firstLeb]
  | cons x xs =>
    have := (hh.valid x (by simp [hL])).1
    simp only [firstLeb, reduceCtorEq, iff_false]
    omega

theorem findFragmentFrom_ok (h : c.Sound page L) {leb rest i : Nat}
    (hi : i + rest = c.fragmentsCount) :
    ∃ k, findFragmentFrom (leb2pebPairPerFragment page.bytes) c leb rest i = .ok k ∧
      k ≤ c.fragmentsCount ∧
      (∀ j, i ≤ j → j < k → ¬StopsAt (leb2pebPairPerFragment page.bytes) leb (L j)) ∧
      (k < c.fragmentsCount → StopsAt (leb2pebPairPerFragment page.bytes) leb (L k)) := by
  induction rest generalizing i with
  | zero => exact ⟨i, rfl, by omega, by omega, by omega⟩
  | succ rest ih =>
    have hlt : i < c.fragmentsCount := by omega
    have hh := h.holds i hlt
    unfold findFragmentFrom
    simp only [hh.start, hh.finish, hh.count, h.firstLeb_eq_max hlt]
    rw [bugOn_of_not (by rw [hh.magic]; simp), Checked.ok_bind]
    split
    case isTrue he => exact ⟨i, rfl, by omega, by omega, fun _ => .inl he⟩
    case isFalse he =>
      split
      case isTrue hin => exact ⟨i, rfl, by omega, by omega, fun _ => .inr (.inl hin)⟩
      case isFalse hin =>
        split
        case isTrue hroom => exact ⟨i, rfl, by omega, by omega, fun _ => .inr (.inr hroom)⟩
        case isFalse hroom =>
          obtain ⟨k, hk, hkn, hskip, hstop⟩ := ih (i := i + 1) (by omega)
          refine ⟨k, hk, hkn, fun j hij hjk => ?_, hstop⟩
          rcases Nat.eq_or_lt_of_le hij with rfl | hlt'
          · rintro (h1 | h2 | h3)
            · exact he h1
            · exact hin h2
            · exact hroom h3
          · exact hskip j hlt' hjk

theorem update (h : c.Sound page L) {k p : Nat} (hk : k < c.fragmentsCount) {item : CacheItem}
    {fragment : MaptblCacheFragment} (hp : p ≤ (L k).length)
    (hf : fragment.Holds page ((L k).insertIdx p item)) :
    (c.set k fragment (cacheBytesAfter c.bytesCount (L k).length)).Sound page
      (Function.update L k ((L k).insertIdx p item)) := by
  have hbytes := h.bytes_le
  have hlen := List.length_insertIdx_of_le_length hp item
  refine ⟨h.count, fun i hi => ?_, ?_⟩
  · change (Function.update c.fragments k fragment i).Holds page _
    by_cases hik : i = k
    · subst hik
      rw [Function.update_self, Function.update_self]
      exact hf
    · rw [Function.update_of_ne hik, Function.update_of_ne hik]
      exact h.holds i hi
  · change cacheBytesAfter c.bytesCount (L k).length = _
    have hsum := sum_range_update bytesOf L hk ((L k).insertIdx p item)
    rw [← h.bytes] at hsum
    unfold cacheBytesAfter
    simp only [bytesOf, hlen, Nat.add_eq_zero_iff, Nat.one_ne_zero, and_false, if_false] at hsum
    by_cases h0 : (L k).length = 0
    · rw [if_pos h0, Word.u32_of_lt (n := c.bytesCount + 36) (by omega),
        Word.u32_of_lt (by omega)]
      rw [if_pos h0] at hsum
      simp only [bytesOf]
      change _ = ∑ i ∈ Finset.range c.fragmentsCount, _
      omega
    · rw [if_neg h0, Word.u32_of_lt (by omega)]
      rw [if_neg h0] at hsum
      simp only [bytesOf]
      change _ = ∑ i ∈ Finset.range c.fragmentsCount, _
      omega

end MaptblCache.Sound

theorem addLeb2pebPair_header {cap cacheBytes cacheBytes' : Nat}
    {fragment fragment' : MaptblCacheFragment} {item : CacheItem} {moving : Option CacheItem}
    (h : addLeb2pebPair cap fragment cacheBytes item = .ok (fragment', cacheBytes', moving)) :
    fragment.hdr.itemsCount ≤ cap ∧
      fragment'.hdr.itemsCount = Word.u16 (fragment.hdr.itemsCount + 1) ∧
      fragment'.hdr.bytesCount = Word.u16 (36 + fragment'.hdr.itemsCount * 20) ∧
      cacheBytes' = cacheBytesAfter cacheBytes fragment.hdr.itemsCount ∧
      (moving = none ↔ fragment.hdr.itemsCount < cap) := by
  unfold addLeb2pebPair at h
  obtain ⟨hle, h⟩ := bugOn_bind_eq_ok.1 h
  obtain ⟨room, hroom, h⟩ := Checked.bind_eq_ok.1 h
  obtain ⟨_, -, h⟩ := Checked.bind_eq_ok.1 h
  obtain ⟨_, -, h⟩ := Checked.bind_eq_ok.1 h
  obtain ⟨_, -, h⟩ := Checked.bind_eq_ok.1 h
  obtain ⟨_, -, h⟩ := Checked.bind_eq_ok.1 h
  obtain ⟨_, -, h⟩ := Checked.bind_eq_ok.1 h
  obtain ⟨_, -, h⟩ := Checked.bind_eq_ok.1 h
  cases h
  refine ⟨Nat.not_lt.1 hle, rfl, rfl, rfl, ?_⟩
  unfold makeRoom at hroom
  obtain ⟨_, -, hroom⟩ := Checked.bind_eq_ok.1 hroom
  split at hroom
  case isTrue hfull =>
    obtain ⟨_, -, hroom⟩ := Checked.bind_eq_ok.1 hroom
    obtain ⟨_, -, hroom⟩ := Checked.bind_eq_ok.1 hroom
    cases hroom
    exact iff_of_false (Option.some_ne_none _) (by omega)
  case isFalse hless =>
    obtain ⟨_, -, hroom⟩ := Checked.bind_eq_ok.1 hroom
    obtain ⟨_, -, hroom⟩ := Checked.bind_eq_ok.1 hroom
    refine iff_of_true ?_ (by omega)
    split at hroom
    · obtain ⟨_, -, hroom⟩ := Checked.bind_eq_ok.1 hroom
      cases hroom
      rfl
    · cases hroom
      rfl

def MaptblCache.Overfull (page : PageSize) (c : MaptblCache) : Prop :=
  ∃ i < c.fragmentsCount,
    leb2pebPairPerFragment page.bytes < (c.fragments i).hdr.itemsCount

theorem addFrom_overfull {page : PageSize} {rest index : Nat} {item : CacheItem}
    {c c' : MaptblCache} (ho : c.Overfull page)
    (h : addFrom (leb2pebPairPerFragment page.bytes) rest index item c = .ok c') :
    c'.Overfull page := by
  induction rest generalizing index item c with
  | zero => cases h
  | succ rest ih =>
    unfold addFrom at h
    obtain ⟨⟨fragment, bytes, moving⟩, hadd, h⟩ := Checked.bind_eq_ok.1 h
    obtain ⟨i, hi, hover⟩ := ho
    have hne : i ≠ index := by
      rintro rfl
      have := (addLeb2pebPair_header hadd).1
      omega
    have ho' : (c.set index fragment bytes).Overfull page := by
      refine ⟨i, hi, ?_⟩
      change _ < (Function.update c.fragments index fragment i).hdr.itemsCount
      rwa [Function.update_of_ne hne]
    cases moving with
    | none => cases h; exact ho'
    | some item' => exact ih ho' h

theorem cacheLeb2pebPair_overfull {page : PageSize} {c c' : MaptblCache} {leb peb : Nat}
    (ho : c.Overfull page) (h : cacheLeb2pebPair page c leb peb = .ok c') :
    c'.Overfull page := by
  unfold cacheLeb2pebPair at h
  obtain ⟨-, h⟩ := bugOn_bind_eq_ok.1 h
  obtain ⟨-, h⟩ := bugOn_bind_eq_ok.1 h
  obtain ⟨_, -, h⟩ := Checked.bind_eq_ok.1 h
  exact addFrom_overfull ho h

section Step

variable {page : PageSize} {c : MaptblCache} {L : Nat → List CacheItem} {leb peb : Nat}

theorem MaptblCache.Sound.findFragmentIndex_ok (h : c.Sound page L) (hleb : leb < Word.u64Max) :
    ∃ k, findFragmentIndex (leb2pebPairPerFragment page.bytes) c leb = .ok k ∧
      k ≤ c.fragmentsCount ∧
      (∀ j < k, ¬StopsAt (leb2pebPairPerFragment page.bytes) leb (L j)) ∧
      (k < c.fragmentsCount → StopsAt (leb2pebPairPerFragment page.bytes) leb (L k)) := by
  obtain ⟨k, hk, hle, hskip, hstop⟩ : ∃ k, findFragmentFrom _ c leb c.fragmentsCount 0 = .ok k ∧ _ :=
    h.findFragmentFrom_ok (Nat.zero_add _)
  refine ⟨k, ?_, hle, fun j hj => hskip j (Nat.zero_le j) hj, hstop⟩
  unfold findFragmentIndex
  rwa [bugOn_of_not (by omega), Checked.ok_bind]

theorem MaptblCache.Sound.step (h : c.Sound page L) (hleb : leb < Word.u64Max)
    (hpeb : peb < Word.u64Max) (hnew : ∀ i < c.fragmentsCount, ∀ x ∈ L i, x.pair.lebId ≠ leb) :
    ∃ k, (∀ j < k, ¬StopsAt (leb2pebPairPerFragment page.bytes) leb (L j)) ∧
      ((k = c.fragmentsCount ∧ cacheLeb2pebPair page c leb peb = .error .abort) ∨
        (k < c.fragmentsCount ∧ StopsAt (leb2pebPairPerFragment page.bytes) leb (L k) ∧
          ((leb2pebPairPerFragment page.bytes ≤ (L k).length ∧
            ∀ c', cacheLeb2pebPair page c leb peb = .ok c' → c'.Overfull page) ∨
          ((L k).length < leb2pebPairPerFragment page.bytes ∧
            ∃ c' p, p ≤ (L k).length ∧ cacheLeb2pebPair page c leb peb = .ok c' ∧
              c'.fragmentsCount = c.fragmentsCount ∧
              c'.Sound page
                (Function.update L k ((L k).insertIdx p (cacheItem (leb, peb)))))))) := by
  have hcap := leb2pebPairPerFragment_bound page
  obtain ⟨k, hfind, hle, hskip, hstop⟩ := h.findFragmentIndex_ok hleb
  have hrun : cacheLeb2pebPair page c leb peb =
      addFrom (leb2pebPairPerFragment page.bytes) (c.fragmentsCount - k) k
        (cacheItem (leb, peb)) c := by
    unfold cacheLeb2pebPair
    rw [bugOn_of_not (by omega), Checked.ok_bind, bugOn_of_not (by omega), Checked.ok_bind]
    simp only [hfind, Checked.ok_bind]
    rfl
  refine ⟨k, hskip, ?_⟩
  rcases Nat.eq_or_lt_of_le hle with rfl | hlt
  · left
    rw [hrun, Nat.sub_self]
    exact ⟨rfl, rfl⟩
  right
  obtain ⟨rest, hrest⟩ : ∃ rest, c.fragmentsCount - k = rest + 1 := ⟨_, (Nat.succ_pred (by omega)).symm⟩
  rw [hrest] at hrun
  refine ⟨hlt, hstop hlt, ?_⟩
  rcases Nat.lt_or_ge (L k).length (leb2pebPairPerFragment page.bytes) with hroom | hfull
  · right
    have hitem : ∀ y ∈ L k, y.pair.lebId ≠ (cacheItem (leb, peb)).pair.lebId := hnew k hlt
    obtain ⟨fragment, p, hp, hadd, hholds⟩ :=
      addLeb2pebPair_ok (h.holds k hlt) hroom hleb hpeb hitem c.bytesCount
    refine ⟨hroom, c.set k fragment (cacheBytesAfter c.bytesCount (L k).length), p, hp, ?_, rfl,
      h.update hlt hp hholds⟩
    rw [hrun, addFrom, hadd]
    rfl
  · left
    refine ⟨hfull, fun c' hc' => ?_⟩
    rw [hrun, addFrom] at hc'
    obtain ⟨⟨fragment, bytes, moving⟩, hadd, hc'⟩ := Checked.bind_eq_ok.1 hc'
    obtain ⟨hcount, hcount', -⟩ := addLeb2pebPair_header hadd
    have ho : (c.set k fragment bytes).Overfull page := by
      refine ⟨k, hlt, ?_⟩
      change _ < (Function.update c.fragments k fragment k).hdr.itemsCount
      rw [Function.update_self, hcount', Word.u16_of_lt (by omega)]
      rw [(h.holds k hlt).count]
      omega
    cases moving with
    | none => cases hc'; exact ho
    | some item' => exact addFrom_overfull ho hc'

end Step

end Ssdfs
