import Ssdfs.Recover.BlkDescRun

namespace Ssdfs

open Memory

section

variable {crc32 : List UInt8 → UInt32} {decompress : UInt8 → Buf → Nat → Nat → Buf → Nat → Mkfs Buf}
  {src : BlkDescSource} {B : Buf} {f n page i j : Nat} {hasNextArea : Bool}
  {env : RawAreaEnvironment}

/-- `k` items have been read of the table. -/
def Progress (src : BlkDescSource) (B : Buf) (f n page : Nat) : Nat → RawAreaEnvironment → Prop
  | 0 => Opened B
  | k + 1 => Reading src B f n page (k / 60) (k % 60 + 1)
      (if k % 60 + 1 = fragmentItems f n (k / 60) then .processed else .initialized)

theorem progress_succ {k : Nat} : Progress src B f n page (k + 1) env ↔
    Reading src B f n page (k / 60) (k % 60 + 1)
      (if k % 60 + 1 = fragmentItems f n (k / 60) then .processed else .initialized) env := Iff.rfl

theorem getNextBlkDesc_ok {env' : RawAreaEnvironment}
    (h : prepareContentBuffer crc32 decompress env = .ok env')
    (hreading : Reading src B f n page i j .initialized env') (hj : j < fragmentItems f n i) :
    ∃ t, getNextBlkDesc crc32 decompress env = .ok (blockDescriptor src
        (Word.u32 (0 + (i * 60 + j) * src.itemSize.toNat)) (Word.u32 (page + (i * 60 + j))), t) ∧
      Reading src B f n page i (j + 1)
        (if j + 1 = fragmentItems f n i then .processed else .initialized) t := by
  unfold getNextBlkDesc
  rw [h, Checked.ok_bind]
  exact takeBlkDesc_ok hj hreading

theorem item_place {k : Nat} (hpos : 0 < f) (hk : k < itemsBefore f n f) :
    k / 60 < f ∧ k % 60 < fragmentItems f n (k / 60) := by
  rw [itemsBefore_self hpos] at hk
  unfold fragmentItems
  split <;> omega

theorem progress_step {k : Nat}
    (htable : TableAt crc32 src B.data 0 0 f hasNextArea page n 0) (hf : f ≤ fragmentsChainMax)
    (hfit : 256 + itemsBefore f n f * 64 ≤ B.size) (hpos : 0 < f) (hk : k < itemsBefore f n f)
    (h : Progress src B f n page k env) :
    ∃ t, getNextBlkDesc crc32 decompress env = .ok (blockDescriptor src
        (Word.u32 (0 + k * src.itemSize.toNat)) (Word.u32 (page + k)), t) ∧
      Progress src B f n page (k + 1) t := by
  obtain ⟨hfragment, hitem⟩ := item_place hpos hk
  have hkey : k / 60 * 60 + k % 60 = k := by omega
  suffices hbuffer : ∃ env', prepareContentBuffer crc32 decompress env = .ok env' ∧
      Reading src B f n page (k / 60) (k % 60) .initialized env' by
    obtain ⟨env', henv', hreading⟩ := hbuffer
    obtain ⟨t, ht, hprogress⟩ := getNextBlkDesc_ok henv' hreading hitem
    rw [hkey] at ht
    exact ⟨t, ht, hprogress⟩
  cases k with
  | zero =>
    obtain ⟨env', henv', hreading, -⟩ :=
      @prepareFirstContentBuffer_ok crc32 decompress src B f n page hasNextArea env htable hf hfit hpos
        h
    exact ⟨env', henv', hreading⟩
  | succ k =>
    rw [progress_succ] at h
    split at h
    · -- the item before was the last of its fragment
      rename_i hlast
      have hnext : (k + 1) / 60 = k / 60 + 1 ∧ (k + 1) % 60 = 0 := by
        unfold fragmentItems at hlast
        rw [itemsBefore_self hpos] at hk
        split at hlast <;> omega
      rw [hnext.1] at hfragment ⊢
      rw [hnext.2]
      exact prepareNextContentBuffer_ok htable hf hfit hfragment h
    · rename_i hlast
      have hplace := item_place hpos (Nat.lt_of_succ_lt hk)
      have hsame : (k + 1) / 60 = k / 60 ∧ (k + 1) % 60 = k % 60 + 1 := by
        have hle : fragmentItems f n (k / 60) ≤ 60 := fragmentItems_le
        omega
      rw [hsame.1, hsame.2]
      refine ⟨env, ?_, h⟩
      obtain ⟨portionSize, hiter⟩ := h.iter
      unfold prepareContentBuffer
      rw [hiter]

theorem progress (htable : TableAt crc32 src B.data 0 0 f hasNextArea page n 0)
    (hf : f ≤ fragmentsChainMax) (hfit : 256 + itemsBefore f n f * 64 ≤ B.size) (hpos : 0 < f)
    (h : Opened B env) :
    ∃ t, Checked.Yields (getNextBlkDesc crc32 decompress) env
        (blockDescriptors src page 0 (itemsBefore f n f)) t ∧
      Progress src B f n page (itemsBefore f n f) t :=
  Checked.yields_range (Progress src B f n page) h fun _ hk _ hprogress =>
    progress_step htable hf hfit hpos hk hprogress

theorem drains_table (htable : TableAt crc32 src B.data 0 0 f hasNextArea page n 0)
    (hf : f ≤ fragmentsChainMax) (hfit : 256 + itemsBefore f n f * 64 ≤ B.size) (hpos : 0 < f)
    (hlast : n % 60 ≠ 0) (h : Opened B env) :
    Checked.Drains (getNextBlkDesc crc32 decompress) .enodata env
      (blockDescriptors src page 0 (itemsBefore f n f)) := by
  obtain ⟨t, ht, hprogress⟩ :=
    @progress crc32 decompress src B f n page hasNextArea env htable hf hfit hpos h
  refine ⟨t, ht, ?_⟩
  obtain ⟨k, hk⟩ := Nat.exists_eq_succ_of_ne_zero (show itemsBefore f n f ≠ 0 by
    rw [itemsBefore_self hpos]
    omega)
  rw [hk] at hprogress
  rw [itemsBefore_self hpos] at hk
  have hplace : k / 60 = f - 1 ∧ k % 60 + 1 = n % 60 := by omega
  have hitems : fragmentItems f n (k / 60) = n % 60 := by
    unfold fragmentItems
    rw [if_neg (by omega)]
  rw [Nat.succ_eq_add_one, progress_succ, hitems, if_pos hplace.2] at hprogress
  unfold getNextBlkDesc
  rw [prepareNextContentBuffer_eq htable hf (by omega) hprogress, if_pos (by omega)]
  rfl

theorem not_drains_table (htable : TableAt crc32 src B.data 0 0 f hasNextArea page n 0)
    (hf : f ≤ fragmentsChainMax) (hfit : 256 + itemsBefore f n f * 64 ≤ B.size) (hpos : 1 < f)
    (hlast : n % 60 = 0) (h : Opened B env) {ds : List BlockDescriptor} :
    ¬Checked.Drains (getNextBlkDesc crc32 decompress) .enodata env ds := by
  obtain ⟨t, ht, hprogress⟩ :=
    @progress crc32 decompress src B f n page hasNextArea env htable hf hfit (by omega) h
  have hitems : itemsBefore f n f = (f - 2) * 60 + 59 + 1 := by
    rw [itemsBefore_self (by omega), hlast]
    omega
  have hplace : ((f - 2) * 60 + 59) / 60 = f - 2 ∧ ((f - 2) * 60 + 59) % 60 + 1 = 60 := by omega
  have hfull : fragmentItems f n (f - 2) = 60 := by
    unfold fragmentItems
    rw [if_pos (by omega)]
  have hempty : fragmentItems f n (f - 2 + 1) = 0 := by
    unfold fragmentItems
    rw [if_neg (by omega), hlast]
  rw [hitems, progress_succ, hplace.1, hplace.2, hfull, if_pos rfl] at hprogress
  obtain ⟨s, hs, hreading⟩ := @prepareNextContentBuffer_ok crc32 decompress src B f n page (f - 2) 60
    hasNextArea t htable hf hfit (by omega) hprogress
  obtain ⟨b, hb, hsizes, -⟩ := hreading.content
  have hsize := hsizes (f - 2) (Nat.le_succ _)
  rw [hfull] at hsize
  obtain ⟨d, hd⟩ := takeBlkDesc_empty hempty (by rw [hb]; exact Nat.le_trans (by decide) hsize) hreading
  have hfirst : getNextBlkDesc crc32 decompress t = .ok (d, s) := by
    unfold getNextBlkDesc
    rw [hs, Checked.ok_bind, hd]
  have hfixed : getNextBlkDesc crc32 decompress s = .ok (d, s) := by
    obtain ⟨portionSize, hiter⟩ := hreading.iter
    unfold getNextBlkDesc prepareContentBuffer
    rw [hiter]
    exact hd
  intro hdrains
  obtain ⟨cs, hcs⟩ := Checked.drains_of_yields ht hdrains
  obtain ⟨u, hu, hend⟩ := hcs
  cases cs with
  | nil =>
    cases hu
    rw [hfirst] at hend
    cases hend
  | cons c cs =>
    obtain ⟨s', hs', hu⟩ := hu
    rw [hfirst] at hs'
    obtain ⟨rfl, rfl⟩ := Prod.mk.inj (Except.ok.inj hs')
    exact Checked.not_drains_of_fixed hfixed ⟨u, hu, hend⟩

theorem not_drains_empty (htable : TableAt crc32 src B.data 0 0 1 hasNextArea page n 0)
    (hfit : 256 ≤ B.size) (hlast : n % 60 = 0) (h : Opened B env) {ds : List BlockDescriptor} :
    ¬Checked.Drains (getNextBlkDesc crc32 decompress) .enodata env ds := by
  have hempty : fragmentItems 1 n 0 = 0 := hlast
  have hitems : itemsBefore 1 n 1 = 0 := by rw [itemsBefore_self Nat.zero_lt_one, hlast]
  obtain ⟨t, ht, hreading, hsize⟩ := @prepareFirstContentBuffer_ok crc32 decompress src B 1 n page
    hasNextArea env htable (by decide) (by rw [hitems]; exact hfit) Nat.zero_lt_one h
  obtain ⟨portionSize, hiter⟩ := hreading.iter
  obtain ⟨b, hb, -⟩ := hreading.content
  rw [hempty, hb] at hsize
  have hzero : b.size = 0 := hsize
  refine Checked.not_drains_of_error (e := .code .erange) ?_ (by decide)
  unfold getNextBlkDesc
  rw [ht, Checked.ok_bind]
  unfold takeBlkDesc
  rw [hiter]
  simp only
  rw [failIf_of_not fun h => h rfl, Checked.ok_bind, hb]
  simp only
  rw [failIf_of_not fun h => h rfl, Checked.ok_bind, hzero]
  rfl

end

end Ssdfs
