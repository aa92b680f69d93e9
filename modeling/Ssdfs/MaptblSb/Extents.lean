import Mathlib.Data.List.Basic
import Ssdfs.Lib.Runs
import Ssdfs.MaptblSb.Header

namespace Ssdfs

open Runs

def MetaAreaExtent.segs (e : MetaAreaExtent) : List Nat :=
  if e.type = segExtentType then List.range' e.startId.toNat e.len.toNat else []

def MaptblSbHeader.chainSegs (hdr : MaptblSbHeader) (chain : MaptblSeg) : List Nat :=
  (List.range maptblReservedExtents).flatMap fun i => (hdr.extents chain i).segs

section

variable {base : Nat → MetaAreaExtent} {f : Nat → Nat} {i n : Nat} {w : ExtentsWalk}
  {rs : List (Nat × Nat)} {run : Nat × Nat}

def slots (base : Nat → MetaAreaExtent) (rs : List (Nat × Nat)) (k : Nat) : MetaAreaExtent :=
  (rs.reverse[k]?).elim (base k) fun run => segExtent run.1 run.2

theorem slots_cons : slots base (run :: rs) =
    Function.update (slots base rs) rs.length (segExtent run.1 run.2) := by
  funext k
  unfold slots
  rw [List.reverse_cons, Function.update_apply]
  split
  case isTrue hk =>
    rw [hk, List.getElem?_append_right (by rw [List.length_reverse]), List.length_reverse,
      Nat.sub_self]
    rfl
  case isFalse hk =>
    rcases Nat.lt_or_gt_of_ne hk with hlt | hgt
    · rw [List.getElem?_append_left (by rwa [List.length_reverse])]
    · rw [List.getElem?_eq_none (by rw [List.length_append, List.length_reverse]; exact hgt),
        List.getElem?_eq_none (by rw [List.length_reverse]; exact Nat.le_of_lt hgt)]

/-- The walk after `i` segments: all of the runs are in their slots but the newest one. -/
def Walked (base : Nat → MetaAreaExtent) (f : Nat → Nat) (i : Nat) (w : ExtentsWalk) : Prop :=
  (newest f i).length ≤ maptblReservedExtents ∧
    match newest f i with
    | [] => w = ⟨Word.u64Max, 0, 0, base⟩
    | run :: rest => w = ⟨run.1, run.2, rest.length, slots base rest⟩

theorem Walked.add_exact (hf : ∀ k ≤ i, f k < Word.u64Max) (hi : i + 1 < 4294967296)
    (h : Walked base f i w) : Checked.Exact (w.add (f i))
      ((newest f (i + 1)).length ≤ maptblReservedExtents) (Walked base f (i + 1)) := by
  obtain ⟨hfew, h⟩ := h
  have hnext : newest f (i + 1) = extend (f i) (newest f i) := rfl
  cases hn : newest f i with
  | nil =>
    rw [hn] at h hnext
    simp only at h
    subst h
    have hone : newest f (i + 1) = [(f i, 1)] := hnext
    refine (Checked.Exact.of_eq_ok rfl ?_).congr ?_ fun _ h => h
    · unfold Walked
      rw [hone]
      exact ⟨Nat.succ_le_succ (Nat.zero_le 2), rfl⟩
    · rw [hone]
      exact iff_of_true (Nat.succ_le_succ (Nat.zero_le 2)) trivial
  | cons run rest =>
    rw [hn] at h hfew
    rw [hn, extend_cons] at hnext
    simp only at h
    subst h
    obtain ⟨⟨k, hk, hstart⟩, hlen⟩ := newest_bounds (hn ▸ List.mem_cons_self .. : run ∈ newest f i)
    obtain ⟨m, rfl⟩ : ∃ m, i = m + 1 := ⟨i - 1, by omega⟩
    obtain ⟨hend, hpos⟩ := end_newest hn
    have hlt := hf m (by omega)
    unfold ExtentsWalk.add
    have hne : run.1 ≠ Word.u64Max := by omega
    rw [if_neg hne]
    unfold Word.u64Max at hlt
    simp only
    rw [Word.u64_of_lt (by omega)]
    by_cases heq : run.1 + run.2 = f (m + 1)
    · rw [if_neg (not_not.2 heq), Word.u32_of_lt (by omega)]
      rw [if_pos heq] at hnext
      refine (Checked.Exact.of_eq_ok rfl ?_).congr ?_ fun _ h => h
      · unfold Walked
        rw [hnext]
        exact ⟨hfew, rfl⟩
      · rw [hnext]
        exact iff_of_true hfew trivial
    · rw [if_pos heq]
      rw [if_neg heq] at hnext
      rw [hnext]
      by_cases hfull : rest.length + 1 ≥ maptblReservedExtents
      · have hbug : (bugOn (rest.length + 1 ≥ maptblReservedExtents) : Mkfs Unit) = .error .abort :=
          Checked.bugOn_of hfull
        rw [hbug, Checked.error_bind]
        exact Checked.Exact.error.congr (iff_of_false (Nat.not_le.2 (Nat.lt_succ_of_le hfull)) id)
          fun _ h => h
      · rw [bugOn_of_not hfull, Checked.ok_bind]
        have hroom : ((f (m + 1), 1) :: run :: rest).length ≤ maptblReservedExtents :=
          Nat.succ_le_of_lt (Nat.not_le.1 hfull)
        refine (Checked.Exact.of_eq_ok rfl ?_).congr (iff_of_true hroom trivial) fun _ h => h
        unfold Walked
        rw [hnext]
        refine ⟨hroom, ?_⟩
        change _ = ExtentsWalk.mk _ _ _ (slots base (run :: rest))
        rw [slots_cons]
        rfl

/-- The extents of a chain with the segment numbers `f`. -/
theorem walk_exact (hf : ∀ k < n, f k < Word.u64Max) (hn : n < 4294967296) :
    Checked.Exact (Checked.forRange n (fun i (walk : ExtentsWalk) => walk.add (f i))
      ⟨Word.u64Max, 0, 0, base⟩ >>= ExtentsWalk.close)
      ((runs f n).length ≤ maptblReservedExtents) (· = slots base (newest f n)) := by
  have hwalk : Checked.Exact (Checked.forRange n (fun i (walk : ExtentsWalk) => walk.add (f i))
      ⟨Word.u64Max, 0, 0, base⟩) (∀ i < n, (newest f (i + 1)).length ≤ maptblReservedExtents)
      (Walked base f n) :=
    Checked.Exact.forRange ⟨Nat.zero_le _, rfl⟩ fun i hi t ht =>
      ht.add_exact (fun k hk => hf k (by omega)) (by omega)
  have hclose : ∀ w, Walked base f n w →
      Checked.Exact w.close True (· = slots base (newest f n)) := fun w ⟨hfew, hw⟩ => by
    cases hruns : newest f n with
    | nil =>
      rw [hruns] at hw
      simp only at hw
      subst hw
      exact Checked.Exact.ok rfl
    | cons run rest =>
      rw [hruns] at hw hfew
      simp only at hw
      subst hw
      obtain ⟨⟨k, hk, hstart⟩, -⟩ := newest_bounds (hruns ▸ List.mem_cons_self .. : run ∈ newest f n)
      obtain ⟨m, rfl⟩ : ∃ m, n = m + 1 := ⟨n - 1, by omega⟩
      have hpos := (end_newest hruns).2
      have hlt := hf k hk
      have hroom : ¬rest.length ≥ maptblReservedExtents := Nat.not_le.2 hfew
      unfold ExtentsWalk.close
      simp only
      rw [if_pos (by omega), bugOn_of_not (by omega), Checked.ok_bind, bugOn_of_not hroom,
        Checked.ok_bind]
      exact Checked.Exact.ok slots_cons.symm
  refine (hwalk.bind hclose).congr ?_ fun _ h => h
  rw [and_true, length_runs]
  constructor
  · exact fun h i hi => Nat.le_trans (length_newest_mono (Nat.succ_le_of_lt hi)) h
  · intro h
    cases n with
    | zero => exact Nat.zero_le _
    | succ n => exact h n (Nat.lt_succ_self n)

theorem slots_segs (hbase : ∀ k < maptblReservedExtents, (base k).type ≠ segExtentType)
    (hf : ∀ k < n, f k < Word.u64Max) (hn : n < 4294967296)
    (hfew : (runs f n).length ≤ maptblReservedExtents) :
    ((List.range maptblReservedExtents).flatMap fun i => (slots base (newest f n) i).segs) =
      (List.range n).map f := by
  rw [← members_runs, ← flatMap_slots members hfew]
  refine List.flatMap_congr fun i hi => ?_
  unfold slots
  change (((runs f n)[i]?).elim (base i) fun run => segExtent run.1 run.2).segs = _
  cases hrun : (runs f n)[i]? with
  | none => exact if_neg (hbase i (List.mem_range.1 hi))
  | some run =>
    have hmem : run ∈ newest f n := List.mem_reverse.1 (List.mem_of_getElem? hrun)
    obtain ⟨⟨k, hk, hstart⟩, hlen⟩ := newest_bounds hmem
    have hlt := hf k hk
    unfold Word.u64Max at hlt
    have hid : (UInt64.ofNat run.1).toNat = run.1 :=
      UInt64.toNat_ofNat_of_lt' (show run.1 < 18446744073709551616 by omega)
    have hlen' : (UInt32.ofNat run.2).toNat = run.2 :=
      UInt32.toNat_ofNat_of_lt' (show run.2 < 4294967296 by omega)
    change (if segExtentType = segExtentType then
      List.range' (UInt64.ofNat run.1).toNat (UInt32.ofNat run.2).toNat else []) = members run
    rw [if_pos rfl, hid, hlen']
    rfl

theorem slots_of_le {k : Nat} (h : (runs f n).length ≤ k) : slots base (newest f n) k = base k := by
  unfold slots
  change ((runs f n)[k]?).elim (base k) _ = _
  rw [List.getElem?_eq_none h]
  rfl

/-- The first `k` extents of a chain have been marked as empty. -/
def cleared (k : Nat) (extents : Nat → MetaAreaExtent) (i : Nat) : MetaAreaExtent :=
  if i < k then { extents i with type := emptyExtentType } else extents i

theorem cleared_of_lt {extents : Nat → MetaAreaExtent} {k : Nat} (hi : i < k) :
    cleared k extents i = { extents i with type := emptyExtentType } := if_pos hi

def emptySlots (i : Nat) : MetaAreaExtent :=
  if i < maptblReservedExtents then { unsetExtent with type := emptyExtentType } else unsetExtent

theorem emptySlots_type (i : Nat) : (emptySlots i).type ≠ segExtentType := by
  unfold emptySlots
  split <;> decide

/-- The number of the mapping table's segment `i`. -/
def maptblSegId (a : SegsArray) (i : Nat) : Nat :=
  (a.segs ((a.metaArray .pebMappingTable).startSegIndex + i)).segId

/-- The segments of the copy come behind the `n` of the main chain. -/
def chainSegId (a : SegsArray) (n : Nat) : MaptblSeg → Nat → Nat
  | .main, i => maptblSegId a i
  | .copy, i => maptblSegId a (n + i)

theorem segsPerCopy_lt {layout : VolumeLayout} (hn : segsPerCopy layout = .ok n) : n < 4294967296 := by
  obtain ⟨-, rfl⟩ := Checked.quot_eq_ok.1 hn
  exact Nat.lt_of_le_of_lt (Nat.div_le_self _ _) (Word.u32_lt _)

theorem defineMaptblExtents_eq {layout : VolumeLayout} {a : SegsArray} {chain : MaptblSeg}
    {extents : Nat → MetaAreaExtent} (hn : segsPerCopy layout = .ok n) :
    defineMaptblExtents layout a chain extents = (Checked.forRange n
      (fun i (walk : ExtentsWalk) => walk.add (chainSegId a n chain i))
      ⟨Word.u64Max, 0, 0, cleared maptblReservedExtents extents⟩ >>= ExtentsWalk.close) := by
  unfold defineMaptblExtents
  rw [hn, Checked.ok_bind]
  cases chain with
  | main => rfl
  | copy =>
    have hsame : (fun i (walk : ExtentsWalk) => walk.add (chainSegId a n .copy i)) =
        fun i walk => walk.add
          (a.segs ((a.metaArray .pebMappingTable).startSegIndex + n + i)).segId := by
      funext i walk
      rw [Nat.add_assoc]
      rfl
    rw [hsame]
    rfl

theorem defineExtents_exact {layout : VolumeLayout} {a : SegsArray} {chain : MaptblSeg}
    (extents : Nat → MetaAreaExtent) (hn : segsPerCopy layout = .ok n) (hlt : n < 4294967296)
    (hids : ∀ i < n, chainSegId a n chain i < Word.u64Max) :
    Checked.Exact (defineMaptblExtents layout a chain extents)
      ((runs (chainSegId a n chain) n).length ≤ maptblReservedExtents)
      (· = slots (cleared maptblReservedExtents extents) (newest (chainSegId a n chain) n)) := by
  rw [defineMaptblExtents_eq hn]
  exact walk_exact hids hlt

theorem defineMaptblExtents_exact {layout : VolumeLayout} {a : SegsArray} {chain : MaptblSeg}
    (hn : segsPerCopy layout = .ok n) (hlt : n < 4294967296)
    (hids : ∀ i < n, chainSegId a n chain i < Word.u64Max) :
    Checked.Exact (defineMaptblExtents layout a chain fun _ => unsetExtent)
      ((runs (chainSegId a n chain) n).length ≤ maptblReservedExtents)
      (· = slots emptySlots (newest (chainSegId a n chain) n)) :=
  defineExtents_exact (fun _ => unsetExtent) hn hlt hids

end

end Ssdfs
