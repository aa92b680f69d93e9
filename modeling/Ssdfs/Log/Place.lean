import Ssdfs.Lib.Align
import Ssdfs.Log.Define

namespace Ssdfs

namespace PebContent

variable (peb : PebContent) (k j : ExtentIndex)

@[simp] theorem size_setOffset (offset : Nat) : (peb.setOffset k offset).size j = peb.size j := by
  unfold setOffset size
  by_cases h : j = k
  · subst h
    simp
  · simp [h]

@[simp] theorem size_setSize (bytesCount : UInt32) :
    (peb.setSize k bytesCount).size j = if j = k then bytesCount.toNat else peb.size j := by
  unfold setSize size
  by_cases h : j = k
  · subst h
    simp
  · simp [h]

@[simp] theorem start_setOffset (offset : Nat) :
    (peb.setOffset k offset).start j = if j = k then Word.u32 offset else peb.start j := by
  unfold setOffset start
  by_cases h : j = k
  · subst h
    simp [Word.u32]
  · simp [h]

@[simp] theorem start_setSize (bytesCount : UInt32) :
    (peb.setSize k bytesCount).start j = peb.start j := by
  unfold setSize start
  by_cases h : j = k
  · subst h
    simp
  · simp [h]

theorem finish_eq : peb.finish k = peb.start k + peb.size k := rfl

@[simp] theorem start_blank (lebId pebId : Nat) : (blank lebId pebId).start k = 0 := rfl

@[simp] theorem size_blank (lebId pebId : Nat) : (blank lebId pebId).size k = 0 := rfl

/-- The extents that are not empty. -/
def present : List ExtentIndex := ExtentIndex.all.filter fun k => decide (0 < peb.size k)

end PebContent

section

variable {layout : VolumeLayout} {segType : SegType} {sizes : ExtentIndex → UInt32}
  {peb : PebContent} {pageSize header : Nat} {size size' : ExtentIndex → Nat} {k : ExtentIndex}

theorem startOffset_congr (h : ∀ j, j.rank < k.rank → size j = size' j) :
    startOffset pageSize header size k = startOffset pageSize header size' k := by
  cases k <;> simp (disch := decide) [startOffset, ExtentIndex.rank, h]

@[simp] theorem size_placeExtent (j : ExtentIndex) : (placeExtent layout segType sizes peb k).size j =
    if j = k then (sizes k).toNat else peb.size j := by
  unfold placeExtent setExtentStartOffset
  rw [PebContent.size_setSize, PebContent.size_setOffset]

theorem start_placeExtent (j : ExtentIndex) : (placeExtent layout segType sizes peb k).start j =
    if j = k then Word.u32 (startOffset (logPageSize layout segType) (peb.start .segHeader)
      peb.size k) else peb.start j := by
  unfold placeExtent setExtentStartOffset
  rw [PebContent.start_setSize, PebContent.start_setOffset]

def sizesOf (ks : List ExtentIndex) (sizes : ExtentIndex → UInt32) (j : ExtentIndex) : Nat :=
  if j ∈ ks then (sizes j).toNat else 0

theorem startOffset_header : startOffset pageSize header size .segHeader = header := rfl

theorem foldl_placeExtent {lebId pebId : Nat} {ks : List ExtentIndex}
    (hks : ks.Pairwise fun k k' => k.rank < k'.rank) :
    let peb := ks.foldl (placeExtent layout segType sizes) (.blank lebId pebId)
    peb.size = sizesOf ks sizes ∧ peb.start .segHeader = 0 ∧ ∀ k ∈ ks, peb.start k =
      Word.u32 (startOffset (logPageSize layout segType) 0 (sizesOf ks sizes) k) := by
  simp only
  induction ks using List.reverseRecOn with
  | nil => exact ⟨rfl, rfl, fun k hk => absurd hk List.not_mem_nil⟩
  | append_singleton ks k ih =>
    obtain ⟨hpair, -, hlast⟩ := List.pairwise_append.1 hks
    have hrank : ∀ j ∈ ks, j.rank < k.rank := fun j hj => hlast j hj k (List.mem_singleton.2 rfl)
    have hnot : ∀ j ∈ ks, j ≠ k := fun j hj heq => by
      have := hrank j hj
      rw [heq] at this
      exact Nat.lt_irrefl _ this
    obtain ⟨hsize, hhdr, hstart⟩ := ih hpair
    have hsizes : ∀ j, j ≠ k → sizesOf (ks ++ [k]) sizes j = sizesOf ks sizes j := by
      intro j hj
      unfold sizesOf
      simp [hj]
    have hbelow : ∀ i, i.rank ≤ k.rank → startOffset (logPageSize layout segType) 0
        (sizesOf ks sizes) i = startOffset (logPageSize layout segType) 0
          (sizesOf (ks ++ [k]) sizes) i := by
      refine fun i hi => startOffset_congr fun j hj => (hsizes j fun heq => ?_).symm
      subst heq
      omega
    rw [List.foldl_append, List.foldl_cons, List.foldl_nil]
    refine ⟨?_, ?_, fun j hj => ?_⟩
    · funext j
      rw [size_placeExtent, hsize]
      unfold sizesOf
      by_cases hj : j = k
      · subst hj
        simp
      · simp [hj]
    · rw [start_placeExtent, hhdr, hsize]
      split
      case isTrue hk =>
        subst hk
        rfl
      case isFalse => rfl
    · rw [start_placeExtent, hhdr, hsize]
      by_cases heq : j = k
      · subst heq
        rw [if_pos rfl, hbelow j (Nat.le_refl _)]
      · have hmem : j ∈ ks := by simpa [heq] using hj
        rw [if_neg heq, hstart j hmem, hbelow j (Nat.le_of_lt (hrank j hmem))]

end

end Ssdfs
