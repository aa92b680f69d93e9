import Mathlib.Logic.Function.Iterate
import Ssdfs.Lib.Memory

/-! Checksums that are carried on from one run of bytes to the next, and the cyclic ones. -/

/-- A checksum of bytes in a row does not depend on where they are divided; it shows a byte that
differs, and what follows does not cover that up. -/
structure RunningChecksum {γ : Type} (sum : γ → List UInt8 → γ) : Prop where
  nil : ∀ s, sum s [] = s
  append : ∀ s xs ys, sum s (xs ++ ys) = sum (sum s xs) ys
  shows : ∀ s, Function.Injective fun x => sum s [x]
  keeps : ∀ ys, Function.Injective fun s => sum s ys

namespace RunningChecksum

variable {γ : Type} {sum : γ → List UInt8 → γ}

theorem byte (h : RunningChecksum sum) {s : γ} {xs ys : List UInt8} {x y : UInt8}
    (hxy : sum s (xs ++ x :: ys) = sum s (xs ++ y :: ys)) : x = y := by
  rw [List.append_cons, List.append_cons xs y, h.append, h.append _ (xs ++ [y]), h.append,
    h.append _ xs] at hxy
  exact h.shows _ (h.keeps _ hxy)

/-- Bytes of a memory at the places `ps` and at the places `ws` cannot keep the same checksum when a
byte changes that only `ws` has. -/
theorem not_same (h : RunningChecksum sum) {ι : Type} {s : γ} {ps ws : List ι} {m m' : ι → UInt8}
    {x : ι} (hx : x ∈ ws) (hws : ws.Nodup) (hps : x ∉ ps) (hdiff : m x ≠ m' x)
    (hrest : ∀ y ≠ x, m y = m' y) (hm : sum s (ps.map m) = sum s (ws.map m)) :
    sum s (ps.map m') ≠ sum s (ws.map m') := by
  intro hm'
  obtain ⟨as, bs, rfl⟩ := List.append_of_mem hx
  have hsame : ∀ zs : List ι, x ∉ zs → zs.map m = zs.map m' := fun zs hzs =>
    List.map_congr_left fun y hy => hrest y fun heq => hzs (heq ▸ hy)
  obtain ⟨has, hbs⟩ : x ∉ as ∧ x ∉ bs := by
    rw [List.nodup_append, List.nodup_cons] at hws
    exact ⟨fun hmem => hws.2.2 x hmem x List.mem_cons_self rfl, hws.2.1.1⟩
  rw [hsame ps hps, hm', List.map_append, List.map_append, List.map_cons, List.map_cons, hsame as has,
    hsame bs hbs] at hm
  exact hdiff (h.byte hm).symm

end RunningChecksum

namespace Crc

variable {w : Nat} (poly : BitVec w)

def shift (c : BitVec w) : BitVec w := if c.getLsbD 0 then c >>> 1 ^^^ poly else c >>> 1

def step (c : BitVec w) (byte : UInt8) : BitVec w :=
  (shift poly)^[8] (c ^^^ byte.toBitVec.setWidth w)

/-- The checksum of the bytes behind those with the checksum `c`. -/
def sum (c : BitVec w) (bytes : List UInt8) : BitVec w := ~~~bytes.foldl (step poly) (~~~c)

variable {poly}

theorem msb_shift (hpoly : poly.msb = true) (c : BitVec w) : (shift poly c).msb = c.getLsbD 0 := by
  unfold shift
  split
  case isTrue hbit => simp [hbit, hpoly]
  case isFalse hbit => simp [hbit]

theorem shift_injective (hpoly : poly.msb = true) : Function.Injective (shift poly) := by
  intro c d h
  have hlow : c.getLsbD 0 = d.getLsbD 0 := by rw [← msb_shift hpoly, h, msb_shift hpoly]
  have hhigh : c >>> 1 = d >>> 1 := by
    unfold shift at h
    rw [hlow] at h
    split at h
    case isTrue => exact (BitVec.xor_left_inj _).1 h
    case isFalse => exact h
  refine BitVec.eq_of_getLsbD_eq fun i _ => ?_
  cases i with
  | zero => exact hlow
  | succ i => simpa [Nat.add_comm] using congrArg (BitVec.getLsbD · i) hhigh

theorem step_injective (hpoly : poly.msb = true) (hw : 8 ≤ w) (c : BitVec w) :
    Function.Injective (step poly c) := by
  intro x y h
  have hxor := (shift_injective hpoly).iterate 8 h
  have hbits : x.toBitVec.setWidth w = y.toBitVec.setWidth w := (BitVec.xor_right_inj _).1 hxor
  refine UInt8.toBitVec_inj.1 (BitVec.eq_of_getLsbD_eq fun i hi => ?_)
  simpa [show i < w by omega] using congrArg (BitVec.getLsbD · i) hbits

theorem foldl_step_injective (hpoly : poly.msb = true) (bytes : List UInt8) :
    Function.Injective fun c => bytes.foldl (step poly) c := by
  induction bytes with
  | nil => exact fun _ _ h => h
  | cons b bytes ih =>
    intro c d h
    exact (BitVec.xor_left_inj _).1 ((shift_injective hpoly).iterate 8 (ih h))

theorem running (hpoly : poly.msb = true) (hw : 8 ≤ w) : RunningChecksum (sum poly) where
  nil s := by simp [sum]
  append s xs ys := by simp [sum]
  shows s x y h := by
    refine step_injective hpoly hw (~~~s) (BitVec.not_inj.1 ?_)
    simpa [sum] using h
  keeps ys c d h := BitVec.not_inj.1 (foldl_step_injective hpoly ys (BitVec.not_inj.1 h))

end Crc

/-- The CRC-32 of the bytes behind those with the checksum `c`. -/
def crc32 (c : UInt32) (bytes : List UInt8) : UInt32 := ⟨Crc.sum 0xEDB88320#32 c.toBitVec bytes⟩

theorem crc32_running : RunningChecksum crc32 := by
  have h := @Crc.running 32 0xEDB88320#32 (by decide) (by decide)
  refine ⟨fun s => ?_, fun s xs ys => ?_, fun s x y hxy => ?_, fun ys c d hcd => ?_⟩
  · exact congrArg UInt32.ofBitVec (h.nil _)
  · exact congrArg UInt32.ofBitVec (h.append _ _ _)
  · exact h.shows _ (congrArg UInt32.toBitVec hxy)
  · exact UInt32.toBitVec_inj.1 (h.keeps ys (congrArg UInt32.toBitVec hcd))

example : crc32 0 [0x31, 0x32, 0x33, 0x34, 0x35, 0x36, 0x37, 0x38, 0x39] = 0xCBF43926 := by
  decide +kernel
