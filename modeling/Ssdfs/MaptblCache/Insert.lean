import Mathlib.Data.List.Perm.Basic
import Ssdfs.MaptblCache.Fragment

namespace Ssdfs

open Memory

section Bytes

variable (m : Bytes) (n p : Nat) (item : CacheItem)

/-- The area of `n` items after an insertion at place `p`. -/
def insertBytes : Bytes :=
  let m := Memory.move m (16 * n + 16) (16 * n) (4 + 4 * n)
  let m := Memory.move m (16 * (p + 1)) (16 * p) (16 * (n - p))
  let m := Memory.move m (16 * n + 20 + 4 * (p + 1)) (16 * n + 20 + 4 * p) (4 * (n - p))
  let m := poke m 8 (16 * p) item.pair.lebId
  let m := poke m 8 (16 * p + 8) item.pair.pebId
  poke m 4 (16 * n + 20 + 4 * p) item.state.word

variable {m n p item}

theorem insertBytes_record (hp : p ≤ n) :
    peek (insertBytes m n p item) 4 (16 * (n + 1)) = peek m 4 (16 * n) := by
  unfold insertBytes
  simp only
  rw [peek_poke_of_disjoint (by omega), peek_poke_of_disjoint (by omega),
    peek_poke_of_disjoint (by omega), peek_move_outside (by omega), peek_move_outside (by omega),
    peek_move_inside (by omega) (by omega)]
  congr 1
  omega

theorem insertBytes_leb_self (hp : p ≤ n) (h : item.pair.lebId < 256 ^ 8) :
    peek (insertBytes m n p item) 8 (16 * p) = item.pair.lebId := by
  unfold insertBytes
  simp only
  rw [peek_poke_of_disjoint (by omega), peek_poke_of_disjoint (by omega), peek_poke_of_lt h]

theorem insertBytes_peb_self (hp : p ≤ n) (h : item.pair.pebId < 256 ^ 8) :
    peek (insertBytes m n p item) 8 (16 * p + 8) = item.pair.pebId := by
  unfold insertBytes
  simp only
  rw [peek_poke_of_disjoint (by omega), peek_poke_of_lt h]

theorem insertBytes_state_self :
    peek (insertBytes m n p item) 4 (16 * (n + 1) + 4 + 4 * p) = item.state.word := by
  unfold insertBytes
  simp only
  rw [show 16 * (n + 1) + 4 + 4 * p = 16 * n + 20 + 4 * p by omega,
    peek_poke_of_lt item.state.word_lt]

/-- The pairs in front of the new one keep their place; `r` reaches the LEB or the PEB. -/
theorem insertBytes_pair_lt {i r : Nat} (hp : p ≤ n) (hi : i < p) (hr : r ≤ 8) :
    peek (insertBytes m n p item) 8 (16 * i + r) = peek m 8 (16 * i + r) := by
  unfold insertBytes
  simp only
  rw [peek_poke_of_disjoint (by omega), peek_poke_of_disjoint (by omega),
    peek_poke_of_disjoint (by omega), peek_move_outside (by omega), peek_move_outside (by omega),
    peek_move_outside (by omega)]

theorem insertBytes_pair_gt {i r : Nat} (hi : p < i) (hn : i ≤ n) (hr : r ≤ 8) :
    peek (insertBytes m n p item) 8 (16 * i + r) = peek m 8 (16 * (i - 1) + r) := by
  unfold insertBytes
  simp only
  rw [peek_poke_of_disjoint (by omega), peek_poke_of_disjoint (by omega),
    peek_poke_of_disjoint (by omega), peek_move_outside (by omega),
    peek_move_inside (by omega) (by omega), peek_move_outside (by omega)]
  congr 1
  omega

theorem insertBytes_state_lt {i : Nat} (hp : p ≤ n) (hi : i < p) :
    peek (insertBytes m n p item) 4 (16 * (n + 1) + 4 + 4 * i) = peek m 4 (16 * n + 4 + 4 * i) := by
  unfold insertBytes
  simp only
  rw [peek_poke_of_disjoint (by omega), peek_poke_of_disjoint (by omega),
    peek_poke_of_disjoint (by omega), peek_move_outside (by omega), peek_move_outside (by omega),
    peek_move_inside (by omega) (by omega)]
  congr 1
  omega

theorem insertBytes_state_gt {i : Nat} (hi : p < i) (hn : i ≤ n) :
    peek (insertBytes m n p item) 4 (16 * (n + 1) + 4 + 4 * i) =
      peek m 4 (16 * n + 4 + 4 * (i - 1)) := by
  unfold insertBytes
  simp only
  rw [peek_poke_of_disjoint (by omega), peek_poke_of_disjoint (by omega),
    peek_poke_of_disjoint (by omega), peek_move_inside (by omega) (by omega),
    peek_move_outside (by omega), peek_move_inside (by omega) (by omega)]
  congr 1
  omega

theorem insertBytes_frame {x : Nat} (hp : p ≤ n) (hx : 20 * (n + 1) + 4 ≤ x) :
    insertBytes m n p item x = m x := by
  unfold insertBytes
  rw [poke_of_not (by omega), poke_of_not (by omega), poke_of_not (by omega)]
  unfold Memory.move
  rw [if_neg (by omega), if_neg (by omega), if_neg (by omega)]

end Bytes

def firstLeb : List CacheItem → Nat
  | [] => Word.u64Max
  | x :: _ => x.pair.lebId

def lastLeb : List CacheItem → Nat
  | [] => Word.u64Max
  | [x] => x.pair.lebId
  | _ :: x :: xs => lastLeb (x :: xs)

/-- A well-formed fragment that holds the given items. -/
structure MaptblCacheFragment.Holds (page : PageSize) (fragment : MaptblCacheFragment)
    (items : List CacheItem) : Prop where
  magic : fragment.hdr.magicKey = maptblCacheMagic
  count : fragment.hdr.itemsCount = items.length
  fits : items.length ≤ leb2pebPairPerFragment page.bytes
  bytes : fragment.hdr.bytesCount = 36 + 20 * items.length
  start : fragment.hdr.startLeb = firstLeb items
  finish : fragment.hdr.endLeb = lastLeb items
  size : fragment.area.size = page.bytes - 32
  record : peek fragment.area.data 4 (16 * items.length) = maptblCachePebStateMagic
  item : ∀ i (h : i < items.length),
    peek fragment.area.data 8 (16 * i) = items[i].pair.lebId ∧
    peek fragment.area.data 8 (16 * i + 8) = items[i].pair.pebId ∧
    peek fragment.area.data 4 (16 * items.length + 4 + 4 * i) = items[i].state.word
  sorted : items.Pairwise (·.pair.lebId < ·.pair.lebId)
  valid : ∀ x ∈ items, x.pair.lebId < Word.u64Max ∧ x.pair.pebId < Word.u64Max

theorem leb2pebPairPerFragment_bound (page : PageSize) :
    20 * leb2pebPairPerFragment page.bytes + 36 ≤ page.bytes ∧
      0 < leb2pebPairPerFragment page.bytes ∧ page.bytes ≤ 32768 := by
  cases page <;> decide

namespace MaptblCacheFragment.Holds

variable {page : PageSize} {fragment : MaptblCacheFragment} {items : List CacheItem}

theorem areaSize (h : fragment.Holds page items) :
    areaSizeOrEmpty fragment.hdr = .ok (16 * items.length, 4 + 4 * items.length) := by
  unfold areaSizeOrEmpty maptblCacheAreaSize
  simp only [h.bytes, h.count]
  rw [failIf_of_not (by simp only [maptblCacheHdrSize, pebStateSize]; omega)]
  rcases Nat.eq_zero_or_pos items.length with h0 | hpos
  · rw [h0]
    rfl
  · have hcap : (36 + 20 * items.length - (maptblCacheHdrSize + pebStateSize)) /
        (leb2pebPairSize + pebStateSize) = items.length := by
      simp only [maptblCacheHdrSize, pebStateSize, leb2pebPairSize]
      omega
    simp only [Checked.ok_bind, hcap]
    rw [failIf_of_not (by simp only [maptblCacheHdrSize, pebStateSize]; omega), Checked.ok_bind,
      failIf_of_not (by omega)]
    simp [leb2pebPairSize, pebStateSize, Nat.mul_comm]

theorem stateArea (h : fragment.Holds page items) :
    pebStateArea fragment = .ok (16 * items.length) := by
  have hcap := leb2pebPairPerFragment_bound page
  have hsize := h.size
  have hfits := h.fits
  unfold pebStateArea
  rw [h.areaSize]
  simp only [Checked.ok_bind]
  rw [Buf.load_ok (by omega), h.record]
  simp [failIf]

theorem makeRoom_ok (h : fragment.Holds page items)
    (hroom : items.length < leb2pebPairPerFragment page.bytes) :
    makeRoom (leb2pebPairPerFragment page.bytes) fragment =
      .ok ⟨{ fragment.area with
        data := Memory.move fragment.area.data (16 * items.length + 16) (16 * items.length)
          (4 + 4 * items.length) }, 16 * items.length + 20, none⟩ := by
  have hcap := leb2pebPairPerFragment_bound page
  have hsize := h.size
  unfold makeRoom firstPebState pebStateAreaSize
  rw [h.stateArea, h.areaSize, h.count]
  simp only [Checked.ok_bind, leb2pebPairSize, pebStateSize]
  rw [if_neg (by omega), if_pos (by omega), Buf.move_ok (by omega) (by omega)]
  rfl

end MaptblCacheFragment.Holds

theorem findItemIndex_ok (area : Buf) (leb : Nat) (lebs : Nat → Nat) {n : Nat}
    (hsize : 16 * n ≤ area.size)
    (hpeek : ∀ i < n, peek area.data 8 (16 * i) = lebs i ∧ lebs i ≠ Word.u64Max) :
    ∃ p ≤ n, findItemIndex area leb n = .ok p ∧ (∀ i, i + 1 = p → lebs i ≤ leb) ∧
      ∀ i < n, p ≤ i → leb < lebs i := by
  induction n with
  | zero => exact ⟨0, Nat.le_refl 0, rfl, by omega, by omega⟩
  | succ n ih =>
    obtain ⟨hn, hne⟩ := hpeek n (Nat.lt_succ_self n)
    unfold findItemIndex
    simp only [leb2pebPairSize]
    rw [Buf.load_ok (by omega), hn, Checked.ok_bind]
    by_cases hle : lebs n ≤ leb
    · refine ⟨n + 1, Nat.le_refl _, ?_, ?_, by omega⟩
      · simp [bugOn, Checked.bugOn, hne, hle]
      · intro i hi
        obtain rfl : i = n := by omega
        exact hle
    · obtain ⟨p, hp, hfind, hlo, hhi⟩ := ih (by omega) fun i hi => hpeek i (by omega)
      refine ⟨p, by omega, ?_, hlo, ?_⟩
      · simp [bugOn, Checked.bugOn, hne, hle, hfind]
      · intro i hi hpi
        rcases Nat.lt_succ_iff_lt_or_eq.1 hi with hlt | rfl
        · exact hhi i hlt hpi
        · omega

@[simp] theorem move_zero (m : Bytes) (dst src : Nat) : Memory.move m dst src 0 = m := by
  funext i
  unfold Memory.move
  rw [if_neg (by omega)]

theorem shiftItems_ok {cap n p states : Nat} {area : Buf} (hp : p ≤ n) (hn : n < cap)
    (hpairs : 16 * (n + 1) ≤ area.size) (hstates : states + 4 * (n + 1) ≤ area.size) :
    shiftItems cap n p states area = .ok { area with
      data := Memory.move (Memory.move area.data (16 * (p + 1)) (16 * p) (16 * (n - p)))
        (states + 4 * (p + 1)) (states + 4 * p) (4 * (n - p)) } := by
  unfold shiftItems
  simp only [leb2pebPairSize, pebStateSize]
  by_cases h : p < n
  · rw [if_pos h, if_neg (by omega), Buf.move_ok (by omega) (by omega), Checked.ok_bind,
      Buf.move_ok (by simp only; omega) (by simp only; omega)]
  · obtain rfl : p = n := by omega
    rw [if_neg h, Nat.sub_self, Nat.mul_zero, move_zero, move_zero]

theorem firstLeb_eq (items : List CacheItem) (h : 0 < items.length) :
    firstLeb items = items[0].pair.lebId := by
  cases items with
  | nil => simp at h
  | cons x xs => rfl

theorem lastLeb_eq (items : List CacheItem) (h : 0 < items.length) :
    lastLeb items = items[items.length - 1].pair.lebId := by
  induction items with
  | nil => simp at h
  | cons x xs ih =>
    cases xs with
    | nil => rfl
    | cons y ys =>
      rw [lastLeb, ih (by simp)]
      simp

theorem sorted_insertIdx {items : List CacheItem} {item : CacheItem} {p : Nat}
    (hs : items.Pairwise (·.pair.lebId < ·.pair.lebId)) (hp : p ≤ items.length)
    (hlo : ∀ i (h : i < items.length), i < p → items[i].pair.lebId < item.pair.lebId)
    (hhi : ∀ i (h : i < items.length), p ≤ i → item.pair.lebId < items[i].pair.lebId) :
    (items.insertIdx p item).Pairwise (·.pair.lebId < ·.pair.lebId) := by
  rw [List.pairwise_iff_getElem] at hs ⊢
  intro i j hi hj hij
  have hlen := List.length_insertIdx_of_le_length hp item
  rw [List.getElem_insertIdx, List.getElem_insertIdx]
  split
  case isTrue hip =>
    split
    case isTrue hjp => exact hs i j _ _ hij
    case isFalse hjp =>
      split
      case isTrue => exact hlo i _ hip
      case isFalse => exact hs i (j - 1) _ _ (by omega)
  case isFalse hip =>
    rw [dif_neg (show ¬j < p by omega), dif_neg (show ¬j = p by omega)]
    split
    case isTrue => exact hhi (j - 1) _ (by omega)
    case isFalse => exact hs (i - 1) (j - 1) _ _ (by omega)

/-- The bytes of the whole cache after an insertion into a fragment of `n` items. -/
def cacheBytesAfter (cacheBytes n : Nat) : Nat :=
  Word.u32 ((if n = 0 then Word.u32 (cacheBytes + 36) else cacheBytes) + 20)

/-- The fragment of `n` items after an insertion at place `p`. -/
def MaptblCacheFragment.inserted (fragment : MaptblCacheFragment) (n p : Nat) (item : CacheItem) :
    MaptblCacheFragment where
  hdr := { fragment.hdr with
    itemsCount := Word.u16 (n + 1)
    bytesCount := Word.u16 (36 + Word.u16 (n + 1) * 20)
    startLeb := peek (insertBytes fragment.area.data n p item) 8 0
    endLeb := peek (insertBytes fragment.area.data n p item) 8 (16 * n) }
  area := { fragment.area with data := insertBytes fragment.area.data n p item }

namespace MaptblCacheFragment.Holds

variable {page : PageSize} {fragment : MaptblCacheFragment} {items : List CacheItem}
  {item : CacheItem} {p : Nat}

theorem insert_item (h : fragment.Holds page items) (hp : p ≤ items.length)
    (hleb : item.pair.lebId < 256 ^ 8) (hpeb : item.pair.pebId < 256 ^ 8)
    (i : Nat) (hi : i < (items.insertIdx p item).length) :
    peek (insertBytes fragment.area.data items.length p item) 8 (16 * i) =
        (items.insertIdx p item)[i].pair.lebId ∧
      peek (insertBytes fragment.area.data items.length p item) 8 (16 * i + 8) =
        (items.insertIdx p item)[i].pair.pebId ∧
      peek (insertBytes fragment.area.data items.length p item) 4
          (16 * (items.length + 1) + 4 + 4 * i) = (items.insertIdx p item)[i].state.word := by
  rw [List.length_insertIdx_of_le_length hp] at hi
  simp only [List.getElem_insertIdx]
  rcases Nat.lt_trichotomy i p with hlt | rfl | hgt
  · rw [dif_pos hlt]
    obtain ⟨h1, h2, h3⟩ := h.item i (by omega)
    refine ⟨?_, ?_, ?_⟩
    · rw [← h1]
      exact insertBytes_pair_lt (r := 0) hp hlt (by omega)
    · rw [← h2]
      exact insertBytes_pair_lt hp hlt (Nat.le_refl 8)
    · rw [← h3]
      exact insertBytes_state_lt hp hlt
  · rw [dif_neg (Nat.lt_irrefl i), dif_pos rfl]
    exact ⟨insertBytes_leb_self hp hleb, insertBytes_peb_self hp hpeb, insertBytes_state_self⟩
  · rw [dif_neg (by omega), dif_neg (by omega)]
    obtain ⟨h1, h2, h3⟩ := h.item (i - 1) (by omega)
    refine ⟨?_, ?_, ?_⟩
    · rw [← h1]
      exact insertBytes_pair_gt (r := 0) hgt (by omega) (by omega)
    · rw [← h2]
      exact insertBytes_pair_gt hgt (by omega) (Nat.le_refl 8)
    · rw [← h3]
      exact insertBytes_state_gt hgt (by omega)

theorem insert (h : fragment.Holds page items)
    (hroom : items.length < leb2pebPairPerFragment page.bytes) (hp : p ≤ items.length)
    (hleb : item.pair.lebId < Word.u64Max) (hpeb : item.pair.pebId < Word.u64Max)
    (hsorted : (items.insertIdx p item).Pairwise (·.pair.lebId < ·.pair.lebId)) :
    (fragment.inserted items.length p item).Holds page (items.insertIdx p item) := by
  have hcap := leb2pebPairPerFragment_bound page
  have hlen := List.length_insertIdx_of_le_length hp item
  have h64 : Word.u64Max < 256 ^ 8 := by decide
  have hitem := h.insert_item hp (Nat.lt_trans hleb h64) (Nat.lt_trans hpeb h64)
  have hcount : Word.u16 (items.length + 1) = items.length + 1 := Word.u16_of_lt (by omega)
  refine
    { magic := h.magic
      count := by rw [hlen]; exact hcount
      fits := by omega
      bytes := ?_
      start := ?_
      finish := ?_
      size := h.size
      record := ?_
      item := ?_
      sorted := hsorted
      valid := ?_ }
  · simp only [inserted, hcount, hlen]
    rw [Word.u16_of_lt (by omega)]
    omega
  · rw [firstLeb_eq _ (by omega), ← (hitem 0 (by omega)).1]
    rfl
  · rw [lastLeb_eq _ (by omega), ← (hitem _ (by omega)).1, hlen, Nat.add_sub_cancel]
    rfl
  · rw [hlen]
    exact (insertBytes_record hp).trans h.record
  · intro i hi
    have := hitem i hi
    rwa [hlen]
  · intro x hx
    rcases (List.mem_insertIdx hp).1 hx with rfl | hmem
    · exact ⟨hleb, hpeb⟩
    · exact h.valid x hmem

end MaptblCacheFragment.Holds

theorem addLeb2pebPair_eq {page : PageSize} {fragment : MaptblCacheFragment}
    {items : List CacheItem} {item : CacheItem} (h : fragment.Holds page items)
    (hroom : items.length < leb2pebPairPerFragment page.bytes)
    (hnew : ∀ x ∈ items, x.pair.lebId ≠ item.pair.lebId) (cacheBytes : Nat) :
    ∃ p ≤ items.length,
      addLeb2pebPair (leb2pebPairPerFragment page.bytes) fragment cacheBytes item =
        .ok (fragment.inserted items.length p item, cacheBytesAfter cacheBytes items.length, none) ∧
      (items.insertIdx p item).Pairwise (·.pair.lebId < ·.pair.lebId) := by
  have hcap := leb2pebPairPerFragment_bound page
  have hsize := h.size
  have hpairs : ∀ i (hi : i < items.length),
      peek (Memory.move fragment.area.data (16 * items.length + 16) (16 * items.length)
        (4 + 4 * items.length)) 8 (16 * i) = items[i].pair.lebId ∧
      items[i].pair.lebId ≠ Word.u64Max := fun i hi =>
    ⟨(peek_move_outside (by omega)).trans (h.item i hi).1,
      Nat.ne_of_lt (h.valid _ (List.getElem_mem hi)).1⟩
  obtain ⟨p, hp, hfind, hlo, hhi⟩ := findItemIndex_ok
    { fragment.area with
      data := Memory.move fragment.area.data (16 * items.length + 16) (16 * items.length)
        (4 + 4 * items.length) }
    item.pair.lebId (fun i => if hi : i < items.length then items[i].pair.lebId else 0)
    (n := items.length) (by simp only; omega)
    (fun i hi => by simpa only [dif_pos hi] using hpairs i hi)
  have hsorted : (items.insertIdx p item).Pairwise (·.pair.lebId < ·.pair.lebId) := by
    refine sorted_insertIdx h.sorted hp (fun i hi hip => ?_) (fun i hi hpi => ?_)
    · have hlast := hlo (p - 1) (by omega)
      rw [dif_pos (by omega)] at hlast
      have hne := hnew _ (List.getElem_mem (show p - 1 < items.length by omega))
      rcases Nat.lt_or_ge i (p - 1) with hlt | hge
      · have := List.pairwise_iff_getElem.1 h.sorted i (p - 1) hi (by omega) hlt
        omega
      · obtain rfl : i = p - 1 := by omega
        omega
    · have := hhi i hi hpi
      rwa [dif_pos hi] at this
  refine ⟨p, hp, ?_, hsorted⟩
  unfold addLeb2pebPair
  simp only [h.count]
  rw [bugOn_of_not (by omega), Checked.ok_bind, h.makeRoom_ok hroom, Checked.ok_bind]
  simp only
  rw [hfind, Checked.ok_bind, shiftItems_ok hp hroom (by simp only; omega) (by simp only; omega),
    Checked.ok_bind]
  unfold storePair
  simp only [leb2pebPairSize, pebStateSize, maptblCacheHdrSize]
  rw [Buf.store_ok (by simp only; omega), Checked.ok_bind, Buf.store_ok (by simp only; omega),
    Checked.ok_bind, Buf.store_ok (by simp only; omega), Checked.ok_bind,
    Buf.load_ok (by simp only; omega), Checked.ok_bind, Buf.load_ok (by simp only; omega),
    Checked.ok_bind]
  rfl

theorem addLeb2pebPair_ok {page : PageSize} {fragment : MaptblCacheFragment}
    {items : List CacheItem} {item : CacheItem} (h : fragment.Holds page items)
    (hroom : items.length < leb2pebPairPerFragment page.bytes)
    (hleb : item.pair.lebId < Word.u64Max) (hpeb : item.pair.pebId < Word.u64Max)
    (hnew : ∀ x ∈ items, x.pair.lebId ≠ item.pair.lebId) (cacheBytes : Nat) :
    ∃ fragment' p, p ≤ items.length ∧
      addLeb2pebPair (leb2pebPairPerFragment page.bytes) fragment cacheBytes item =
        .ok (fragment', cacheBytesAfter cacheBytes items.length, none) ∧
      fragment'.Holds page (items.insertIdx p item) := by
  obtain ⟨p, hp, hrun, hsorted⟩ := addLeb2pebPair_eq h hroom hnew cacheBytes
  exact ⟨_, p, hp, hrun, h.insert hroom hp hleb hpeb hsorted⟩

end Ssdfs
