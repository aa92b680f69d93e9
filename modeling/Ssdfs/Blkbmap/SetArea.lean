import Ssdfs.Segbmap.Bitmap

namespace Ssdfs

open Memory

def blkStateBits : Nat := 2
def blkStateMask : Nat := 0x3

def blkFree : Int := 0x0
def blkPreAllocated : Int := 0x1
def blkValid : Int := 0x3
def blkStateMax : Int := blkValid + 1

/-- Here the macro's sum is one of 32 bits, as its item is. -/
def alignedEndItem32 (item stateBits : Nat) : Nat :=
  Word.u32 (item + itemsPerByte stateBits - 1) >>> stateBits <<< stateBits

section

variable (count state : Nat)

/-- The next `rest` items of a byte from `j` on. No number of processed items comes back once
there are `count`: the jump behind both loops. -/
def setBlkItems (curByte : Nat) : Nat → Nat → Nat → Buf → Mkfs (Option Nat × Buf)
  | 0, _, processed, buf => .ok (some processed, buf)
  | rest + 1, j, processed, buf =>
    if processed ≥ count then .ok (none, buf)
    else do
      let value ← buf.get Errno Wire.u8 curByte
      let buf ← buf.put Errno Wire.u8 curByte (setStateInByte value j blkStateBits blkStateMask state)
      setBlkItems curByte rest (j + 1) (processed + 1) buf

def setBlkBytes : Nat → Nat → Nat → Nat → Buf → Mkfs Buf
  | 0, _, _, _, buf => .ok buf
  | rest + 1, curByte, byteItem, processed, buf => do
    let (processed, buf) ← setBlkItems count state curByte (itemsPerByte blkStateBits - byteItem)
      byteItem processed buf
    match processed with
    | none => .ok buf
    | some processed => setBlkBytes rest (curByte + 1) 0 processed buf

end

def blkbmapSetArea (buf : Buf) (bmap startItem itemsCount : Nat) (state : Int) : Mkfs Buf := do
  failIf (state < blkFree ∨ state ≥ blkStateMax) .einval
  let itemsPerByte := itemsPerByte blkStateBits
  let alignedStart := alignedStartItem startItem blkStateBits
  let alignedEnd := alignedEndItem32 (Word.u32 (startItem + itemsCount)) blkStateBits
  let bytesCount := Word.sub32 alignedEnd alignedStart / itemsPerByte
  setBlkBytes itemsCount state.toNat bytesCount (bmap + alignedStart / itemsPerByte)
    (Word.sub32 startItem alignedStart) 0 buf

/-- The state of block `i` of a bitmap. -/
def blkState (m : Bytes) (bmap i : Nat) : Nat :=
  stateInByte (m (bmap + i / itemsPerByte blkStateBits)) blkStateBits blkStateMask
    (i % itemsPerByte blkStateBits)

section

variable {count state bmap start b j processed : Nat} {m : Bytes} {buf : Buf}

/-- A buffer in which the blocks from `start` up to `hi` have been set. -/
structure AreaSet (bmap start state hi : Nat) (buf buf' : Buf) : Prop where
  size : buf'.size = buf.size
  filled : Packed.Filled blkStateBits 4 bmap start hi state buf.data buf'.data

/-- Where the items of byte `b` end that are to be set. -/
def areaStop (start count b : Nat) : Nat := min (start + count) (b * 4 + 4)

theorem setBlkItems_exact {buf₀ : Buf} {rest : Nat} (hj : j + rest = 4) (hlo : start ≤ b * 4 + j)
    (hhi : b * 4 + j ≤ start + count) (hset : AreaSet bmap start state (b * 4 + j) buf₀ buf) :
    Checked.Exact (setBlkItems count state (bmap + b) rest j (b * 4 + j - start) buf)
      (b * 4 + j < areaStop start count b → bmap + b < buf₀.size)
      fun r => AreaSet bmap start state (areaStop start count b) buf₀ r.2 ∧
        (r.1 = none → areaStop start count b = start + count) ∧
        ∀ p, r.1 = some p → p = b * 4 + 4 - start ∧ b * 4 + 4 ≤ start + count := by
  induction rest generalizing j buf with
  | zero =>
    obtain rfl : j = 4 := hj
    have hstop : areaStop start count b = b * 4 + 4 := Nat.min_eq_right hhi
    rw [hstop]
    refine (Checked.Exact.ok ⟨hset, nofun, fun p hp => ?_⟩).congr
      (iff_true_intro fun h => absurd h (Nat.lt_irrefl _)) fun _ h => h
    cases hp
    exact ⟨rfl, hhi⟩
  | succ rest ih =>
    unfold setBlkItems
    by_cases hdone : b * 4 + j - start ≥ count
    · have heq : b * 4 + j = start + count := by omega
      have hstop : areaStop start count b = start + count := Nat.min_eq_left (by omega)
      rw [if_pos hdone, hstop, ← heq]
      refine (Checked.Exact.ok ⟨hset, fun _ => rfl, nofun⟩).congr ?_ fun _ h => h
      exact iff_true_intro fun h => absurd h (Nat.lt_irrefl _)
    · have hmore : b * 4 + j < areaStop start count b := Nat.lt_min.2 ⟨by omega, by omega⟩
      rw [if_neg hdone]
      by_cases hin : bmap + b < buf₀.size
      · have hfit : bmap + b + 1 ≤ buf.size := hset.size ▸ hin
        rw [Buf.get_ok (show bmap + b + Wire.u8.size ≤ buf.size from hfit), Checked.ok_bind,
          Buf.put_ok (show bmap + b + Wire.u8.size ≤ buf.size from hfit), Checked.ok_bind]
        have hnext : AreaSet bmap start state (b * 4 + (j + 1)) buf₀
            ⟨buf.size, Wire.u8.write buf.data (bmap + b) (setStateInByte
              (Wire.u8.read buf.data (bmap + b)) j blkStateBits blkStateMask state)⟩ :=
          ⟨hset.size, hset.filled.snoc (by omega) (by decide) hlo⟩
        rw [show b * 4 + j - start + 1 = b * 4 + (j + 1) - start by omega]
        refine (@ih (j + 1) _ (by omega) (by omega) (by omega) hnext).congr ?_ fun _ h => h
        exact iff_of_true (fun _ => hin) fun _ => hin
      · have hout : ¬bmap + b + Wire.u8.size ≤ buf.size := fun h => hin (hset.size ▸ h)
        unfold Buf.get
        rw [if_neg hout, Checked.error_bind]
        exact Checked.Exact.error.congr (iff_false_intro fun h => hin (h hmore)) fun _ h => h

/-- The blocks from the `b`-th byte on, in enough bytes for all of them. -/
theorem setBlkBytes_exact {buf₀ : Buf} {rest : Nat} (hj : j < 4) (hlo : start ≤ b * 4 + j)
    (hhi : b * 4 + j ≤ start + count) (hrest : start + count ≤ (b + rest) * 4)
    (hset : AreaSet bmap start state (b * 4 + j) buf₀ buf) :
    Checked.Exact (setBlkBytes count state rest (bmap + b) j (b * 4 + j - start) buf)
      (b * 4 + j < start + count → bmap + (start + count - 1) / 4 < buf₀.size)
      (AreaSet bmap start state (start + count) buf₀) := by
  induction rest generalizing b j buf with
  | zero =>
    have heq : b * 4 + j = start + count := by omega
    refine (Checked.Exact.ok (heq ▸ hset)).congr ?_ fun _ h => h
    exact iff_true_intro fun h => absurd h (by omega)
  | succ rest ih =>
    unfold setBlkBytes
    have hitems := @setBlkItems_exact count state bmap start b j buf buf₀ (4 - j) (by omega) hlo hhi
      hset
    by_cases hend : b * 4 + 4 ≤ start + count
    · have hstop : areaStop start count b = b * 4 + 4 := Nat.min_eq_right hend
      rw [hstop] at hitems
      refine (hitems.bind (D := b * 4 + 4 < start + count →
        bmap + (start + count - 1) / 4 < buf₀.size) ?_).congr ?_ fun _ h => h
      · rintro ⟨p, t⟩ ⟨ht, hnone, hsome⟩
        cases p with
        | none =>
          have heq := hnone rfl
          rw [← heq]
          refine (Checked.Exact.ok ht).congr ?_ fun _ h => h
          exact iff_true_intro fun h => absurd h (by omega)
        | some p =>
          obtain ⟨rfl, -⟩ := hsome p rfl
          have hbyte : b * 4 + 4 = (b + 1) * 4 + 0 := by omega
          rw [hbyte] at ht ⊢
          exact @ih (b + 1) 0 t (by decide) (by omega) (by omega) (by omega) ht
      · constructor
        · exact fun h => ⟨fun _ => by have := h (by omega); omega, fun hlt => h (by omega)⟩
        · rintro ⟨hthis, hlater⟩ -
          by_cases hlt : b * 4 + 4 < start + count
          · exact hlater hlt
          · have := hthis (by omega)
            omega
    · have hstop : areaStop start count b = start + count := Nat.min_eq_left (by omega)
      rw [hstop] at hitems
      refine (hitems.bind (D := True) ?_).congr ?_ fun _ h => h
      · rintro ⟨p, t⟩ ⟨ht, -, hsome⟩
        cases p with
        | none => exact Checked.Exact.ok ht
        | some p => exact absurd (hsome p rfl).2 hend
      · rw [and_true]
        refine imp_congr_right fun hlt => ?_
        rw [show (start + count - 1) / 4 = b by omega]

theorem bytesCount_eq (hstart : start < 4294967296)
    (hround : (start + count + 3) / 4 * 4 - start / 4 * 4 < 4294967296) :
    Word.sub32 (alignedEndItem32 (Word.u32 (start + count)) blkStateBits)
      (alignedStartItem start blkStateBits) / 4 = (start + count + 3) / 4 - start / 4 := by
  have hend : alignedEndItem32 (Word.u32 (start + count)) blkStateBits =
      (start + count + 3) % 4294967296 / 4 * 4 := by
    have hpad : ∀ n, n + itemsPerByte blkStateBits - 1 = n + 3 := fun _ => rfl
    unfold alignedEndItem32 Word.u32
    rw [hpad, Nat.mod_add_mod, Nat.shiftLeft_eq, Nat.shiftRight_eq_div_pow]
    rfl
  have hlo : alignedStartItem start blkStateBits = start / 4 * 4 := by
    unfold alignedStartItem blkStateBits
    rw [Nat.shiftLeft_eq, Nat.shiftRight_eq_div_pow]
  rw [hend, hlo]
  unfold Word.sub32
  omega

theorem blkbmapSetArea_exact {state : Int} (hstate : blkFree ≤ state ∧ state < blkStateMax)
    (hstart : start < 4294967296)
    (hround : (start + count + 3) / 4 * 4 - start / 4 * 4 < 4294967296) :
    Checked.Exact (blkbmapSetArea buf bmap start count state)
      (0 < count → bmap + (start + count - 1) / 4 < buf.size)
      (AreaSet bmap start state.toNat (start + count) buf) := by
  have hlo : alignedStartItem start blkStateBits = start / 4 * 4 := by
    unfold alignedStartItem blkStateBits
    rw [Nat.shiftLeft_eq, Nat.shiftRight_eq_div_pow]
  have hitem : Word.sub32 start (start / 4 * 4) = start % 4 := by
    rw [Word.sub32_of_le (Nat.div_mul_le_self start 4) hstart]
    omega
  have hbytes := bytesCount_eq hstart hround
  have hbits : itemsPerByte blkStateBits = 4 := rfl
  have hbyte : start / 4 * 4 / 4 = start / 4 := Nat.mul_div_cancel _ (by decide)
  have hsplit : start / 4 * 4 + start % 4 = start := Nat.div_add_mod' start 4
  have hexact := @setBlkBytes_exact count state.toNat bmap start (start / 4) (start % 4) buf buf
    ((start + count + 3) / 4 - start / 4) (Nat.mod_lt _ (by decide)) (Nat.le_of_eq hsplit.symm)
    (by omega) (by omega) ⟨rfl, Packed.Filled.empty (Nat.le_of_eq hsplit)⟩
  rw [hsplit, Nat.sub_self] at hexact
  unfold blkbmapSetArea
  rw [failIf_of_not (by omega), Checked.ok_bind]
  simp only [hbits, hbytes]
  rw [hlo, hitem, hbyte]
  exact hexact.congr (by rw [Nat.lt_add_right_iff_pos]) fun _ h => h

/-- Every block of the area reads back as the state and every other one as before. -/
theorem blkbmapSetArea_sets {state : Int} {bytes : Nat}
    (hstate : blkFree ≤ state ∧ state < blkStateMax) (hbitmap : bmap + bytes ≤ buf.size)
    (hcapacity : start + count ≤ bytes * itemsPerByte blkStateBits)
    (hwrap : start + count ≤ Word.u32Max)
    (hround : start < 4 → start + count + (itemsPerByte blkStateBits - 1) ≤ Word.u32Max) :
    ∃ buf', blkbmapSetArea buf bmap start count state = .ok buf' ∧
      (∀ i, start ≤ i → i < start + count → (blkState buf'.data bmap i : Int) = state) ∧
      (∀ i, i < start ∨ start + count ≤ i →
        blkState buf'.data bmap i = blkState buf.data bmap i) ∧
      buf'.size = buf.size ∧
      ∀ x, x < bmap ∨ bmap + bytes ≤ x → buf'.data x = buf.data x := by
  have hbits : itemsPerByte blkStateBits = 4 := rfl
  have hmax : Word.u32Max = 4294967295 := rfl
  have hvalid : blkStateMax = 4 := rfl
  have hfree : blkFree = 0 := rfl
  rw [hbits] at hcapacity hround
  rw [hmax] at hwrap hround
  rw [hvalid, hfree] at hstate
  have hexact := @blkbmapSetArea_exact count bmap start buf state hstate (by omega) (by omega)
  obtain ⟨buf', hrun, hsize, hitems, hframe⟩ := hexact.succeeds fun hcount => by omega
  have hlt : state.toNat % 2 ^ blkStateBits = state.toNat :=
    Nat.mod_eq_of_lt (by have : 2 ^ blkStateBits = 4 := rfl; omega)
  have hstates : ∀ i, blkState buf'.data bmap i =
      if start ≤ i ∧ i < start + count then state.toNat else blkState buf.data bmap i :=
    fun i => hlt ▸ hitems i
  refine ⟨buf', hrun, fun i hlo hhi => ?_, fun i hi => ?_, hsize, fun x hx => ?_⟩
  · rw [hstates, if_pos ⟨hlo, hhi⟩]
    exact Int.toNat_of_nonneg hstate.1
  · rw [hstates, if_neg (by omega)]
  · exact hframe x fun i hlo hhi => by omega

/-- Five blocks from the third one on: the end of a byte and the start of the next one. -/
theorem blkbmapSetArea_sets_five :
    (blkFree ≤ blkValid ∧ blkValid < blkStateMax) ∧ 48 + 4 ≤ (Buf.zero 64).size ∧
      3 + 5 ≤ 4 * itemsPerByte blkStateBits ∧ 3 + 5 ≤ Word.u32Max ∧
      (3 < 4 → 3 + 5 + (itemsPerByte blkStateBits - 1) ≤ Word.u32Max) ∧
      ∃ buf', blkbmapSetArea (Buf.zero 64) 48 3 5 blkValid = .ok buf' ∧
        (∀ i, 3 ≤ i → i < 3 + 5 → (blkState buf'.data 48 i : Int) = blkValid) ∧
        (∀ i, i < 3 ∨ 3 + 5 ≤ i →
          blkState buf'.data 48 i = blkState (Buf.zero 64).data 48 i) ∧
        buf'.size = (Buf.zero 64).size ∧
        ∀ x, x < 48 ∨ 48 + 4 ≤ x → buf'.data x = (Buf.zero 64).data x :=
  ⟨by decide, by decide, by decide, by decide, by decide,
    blkbmapSetArea_sets (by decide) (by decide) (by decide) (by decide) (by decide)⟩

end

end Ssdfs
