import Ssdfs.Blkbmap.Encode

namespace Ssdfs

open Memory

/-- The state of block `i` of a PEB: of the `blks` blocks from `start` on the first `valid` ones are
filled by the payload. -/
def markedState (start valid blks i : Nat) : Nat :=
  if start ≤ i ∧ i < start + valid then 3
  else if start + valid ≤ i ∧ i < start + blks then 1
  else 0

structure BlksRequested (valid blks : Nat) : Prop where
  valid_le : valid ≤ blks
  blks_le : blks ≤ valid + 1

section

variable {layout : VolumeLayout} {bytesCount start count valid blks bmap bytes : Nat} {buf : Buf}
  {areas : List BlkArea}

def markedAreas (start valid blks : Nat) : List BlkArea :=
  (if valid > 0 then [⟨start, valid, blkValid⟩] else []) ++
    if blks - valid > 0 then [⟨Word.u32 (start + valid), blks - valid, blkPreAllocated⟩] else []

theorem blkAreas_exact (hblks : blks < 65536) (hvalid : bytesCount / layout.pageSize.bytes = valid)
    (hlt : valid < Word.u32Max) :
    Checked.Exact (blkAreas layout bytesCount start blks) (BlksRequested valid blks)
      fun areas => areas = markedAreas start valid blks := by
  unfold Word.u32Max at hlt
  unfold blkAreas
  rw [hvalid, Word.u32_of_lt (Nat.lt_succ_of_lt hlt)]
  simp only
  by_cases hreq : BlksRequested valid blks
  · obtain ⟨hle, hge⟩ := hreq
    have hsub : Word.sub32 blks valid = blks - valid := Word.sub32_of_le hle (by omega)
    rw [hsub, failIf_of_not (by omega), Checked.ok_bind]
    exact ⟨fun _ => ⟨_, rfl, rfl⟩, fun _ _ => ⟨hle, hge⟩⟩
  · have hmany : Word.sub32 blks valid > 1 := by
      by_contra hfew
      refine hreq ⟨?_, ?_⟩ <;> unfold Word.sub32 at hfew <;> omega
    have hfail : failIf (Word.sub32 blks valid > 1) .erange = fail .erange := if_pos hmany
    rw [hfail]
    exact Checked.Exact.error.congr (iff_false_intro hreq) fun _ h => h

theorem setBlkArea_exact {state : Int} (hstate : blkFree ≤ state ∧ state < blkStateMax)
    (hstart : start < 4294967296) (hcount : count < 65536) (hsize : buf.size = bmap + bytes) :
    Checked.Exact (setBlkAreas bmap (if count > 0 then [⟨start, count, state⟩] else []) buf)
      (0 < count → start + count ≤ 4 * bytes)
      (AreaSet bmap start state.toNat (start + count) buf) := by
  split
  case isTrue hpos =>
    have hexact := @blkbmapSetArea_exact count bmap start buf state hstate hstart (by omega)
    unfold setBlkAreas
    rw [Checked.forEach_singleton]
    refine hexact.congr (imp_congr_right fun _ => ?_) fun _ h => h
    rw [hsize]
    omega
  case isFalse hzero =>
    obtain rfl := Nat.le_zero.1 (Nat.not_lt.1 hzero)
    exact (Checked.Exact.ok ⟨rfl, Packed.Filled.empty (Nat.le_refl _)⟩).congr
      (iff_true_intro fun h => absurd h (Nat.lt_irrefl 0)) fun _ h => h

theorem setBlkItems_strays {state curByte rest j processed : Nat} :
    Checked.OnlyStrays (setBlkItems count state curByte rest j processed buf) := by
  induction rest generalizing j processed buf with
  | zero => exact Checked.OnlyStrays.ok
  | succ rest ih =>
    unfold setBlkItems
    split
    · exact Checked.OnlyStrays.ok
    · exact Buf.get_strays.bind fun _ => Buf.put_strays.bind fun _ => ih

theorem setBlkBytes_strays {state rest curByte byteItem processed : Nat} :
    Checked.OnlyStrays (setBlkBytes count state rest curByte byteItem processed buf) := by
  induction rest generalizing curByte byteItem processed buf with
  | zero => exact Checked.OnlyStrays.ok
  | succ rest ih =>
    unfold setBlkBytes
    refine setBlkItems_strays.bind fun r => ?_
    obtain ⟨processed, buf⟩ := r
    cases processed with
    | none => exact Checked.OnlyStrays.ok
    | some processed => exact ih

theorem blkbmapSetArea_strays {state : Int} (hstate : blkFree ≤ state ∧ state < blkStateMax) :
    Checked.OnlyStrays (blkbmapSetArea buf bmap start count state) := by
  unfold blkbmapSetArea
  rw [failIf_of_not (by omega), Checked.ok_bind]
  exact setBlkBytes_strays

theorem setBlkAreas_strays :
    Checked.OnlyStrays (setBlkAreas bmap (markedAreas start valid blks) buf) := by
  have hone : ∀ (l : List BlkArea), (∀ area ∈ l, blkFree ≤ area.state ∧ area.state < blkStateMax) →
      ∀ buf, Checked.OnlyStrays (setBlkAreas bmap l buf) := fun l => by
    induction l with
    | nil => exact fun _ _ => Checked.OnlyStrays.ok
    | cons area l ih =>
      intro hl buf
      exact (blkbmapSetArea_strays (hl area (List.mem_cons_self ..))).bind
        (ih fun a ha => hl a (List.mem_cons_of_mem _ ha))
  refine hone _ (fun area harea => ?_) buf
  unfold markedAreas at harea
  rcases List.mem_append.1 harea with h | h
  · split at h
    · cases List.mem_singleton.1 h
      exact show blkFree ≤ blkValid ∧ blkValid < blkStateMax by decide
    · cases h
  · split at h
    · cases List.mem_singleton.1 h
      exact show blkFree ≤ blkPreAllocated ∧ blkPreAllocated < blkStateMax by decide
    · cases h

/-- A bitmap in which the areas have been set. -/
structure Marked (start valid blks bmap : Nat) (buf buf' : Buf) : Prop where
  size : buf'.size = buf.size
  states : ∀ i, blkState buf'.data bmap i =
    if start ≤ i ∧ i < start + blks then markedState start valid blks i
    else blkState buf.data bmap i

theorem setBlkAreas_exact (hreq : BlksRequested valid blks) (hstart : start < 4294967296)
    (hblks : blks < 65536) (hbytes : bytes < 536870912) (hsize : buf.size = bmap + bytes) :
    Checked.Exact (setBlkAreas bmap (markedAreas start valid blks) buf)
      (0 < blks → start + blks ≤ 4 * bytes) (Marked start valid blks bmap buf) := by
  obtain ⟨hle, hge⟩ := hreq
  unfold setBlkAreas markedAreas
  rw [Checked.forEach_append]
  have hfirst := @setBlkArea_exact start valid bmap bytes buf blkValid (by decide) hstart
    (Nat.lt_of_le_of_lt hle hblks) hsize
  refine ((hfirst.known.bind (D := 0 < blks - valid →
    Word.u32 (start + valid) + (blks - valid) ≤ 4 * bytes) (R := Marked start valid blks bmap buf)
      ?_).congr ?_ fun _ h => h)
  · rintro t ⟨hfit, ht⟩
    have hsecond := @setBlkArea_exact (Word.u32 (start + valid)) (blks - valid) bmap bytes t
      blkPreAllocated (by decide) (Word.u32_lt _) (by omega) (ht.size.trans hsize)
    have hwrap : Word.u32 (start + valid) = start + valid := Word.u32_of_lt (by
      rcases Nat.eq_zero_or_pos valid with hzero | hpos
      · omega
      · have := hfit hpos
        omega)
    refine hsecond.weaken fun u hu => ⟨hu.size.trans ht.size, fun i => ?_⟩
    have hu' := hu.filled.items i
    have hend : start + valid + (blks - valid) = start + blks := by omega
    have hpre : blkPreAllocated.toNat % 2 ^ blkStateBits = 1 := rfl
    have hvalid : blkValid.toNat % 2 ^ blkStateBits = 3 := rfl
    rw [hwrap, hend, hpre, ht.filled.items i, hvalid] at hu'
    refine hu'.trans ?_
    unfold markedState
    split_ifs <;> first | rfl | omega
  · unfold Word.u32
    constructor
    · exact fun h => ⟨fun hpos => by have := h (by omega); omega,
        fun hpos => by have := h (by omega); omega⟩
    · rintro ⟨hvalid, hpre⟩ hpos
      rcases Nat.eq_zero_or_pos valid with hzero | hvalid'
      · have := hpre (by omega)
        omega
      · have := hvalid hvalid'
        rcases Nat.lt_or_ge valid blks with hlt | hge'
        · have := hpre (by omega)
          omega
        · omega

end

end Ssdfs
