import Ssdfs.MaptblSb.Extents

namespace Ssdfs

open Runs

def maptblSegCopyMax : Nat := 2

def MaptblSeg.index : MaptblSeg → Nat
  | .main => 0
  | .copy => 1

/-- The place of `extents[i][chain]` in the array. -/
def extentCell (chain : MaptblSeg) (i : Nat) : Nat := i * maptblSegCopyMax + chain.index

def putExtent (chain : MaptblSeg) (i : Nat) (extent : MetaAreaExtent)
    (extents : Nat → MetaAreaExtent) : Mkfs (Nat → MetaAreaExtent) :=
  if extentCell chain i < maptblReservedExtents * maptblSegCopyMax then
    .ok (Function.update extents (extentCell chain i) extent)
  else .error .stray

section

variable (chain : MaptblSeg)

/-- `ExtentsWalk.add` on the array of both chains. -/
def ExtentsWalk.addCell (curSegId : Nat) (w : ExtentsWalk) : Mkfs ExtentsWalk :=
  if w.segId = Word.u64Max then .ok { w with segId := curSegId, extentLen := Word.u32 (w.extentLen + 1) }
  else if Word.u64 (w.segId + w.extentLen) ≠ curSegId then do
    let extents ← putExtent chain w.j (segExtent w.segId w.extentLen) w.extents
    bugOn (w.j + 1 ≥ maptblReservedExtents)
    .ok ⟨curSegId, 1, w.j + 1, extents⟩
  else .ok { w with extentLen := Word.u32 (w.extentLen + 1) }

def ExtentsWalk.closeCell (w : ExtentsWalk) : Mkfs (Nat → MetaAreaExtent) :=
  if w.extentLen ≠ 0 then do
    bugOn (w.segId = Word.u64Max)
    bugOn (w.j ≥ maptblReservedExtents)
    putExtent chain w.j (segExtent w.segId w.extentLen) w.extents
  else .ok w.extents

def clearExtents (extents : Nat → MetaAreaExtent) : Mkfs (Nat → MetaAreaExtent) :=
  Checked.forRange maptblReservedExtents (fun i extents =>
    putExtent chain i { extents (extentCell chain i) with type := emptyExtentType } extents) extents

/-- `define_maptbl_extents` as it writes into the array of the superblock's header. -/
def defineExtentCells (layout : VolumeLayout) (a : SegsArray) (extents : Nat → MetaAreaExtent) :
    Mkfs (Nat → MetaAreaExtent) := do
  let segsPerCopy ← segsPerCopy layout
  let segIndex := (a.metaArray .pebMappingTable).startSegIndex +
    match chain with
    | .main => 0
    | .copy => segsPerCopy
  let cleared ← clearExtents chain extents
  let walk ← Checked.forRange segsPerCopy
    (fun i walk => ExtentsWalk.addCell chain (a.segs (segIndex + i)).segId walk)
    ⟨Word.u64Max, 0, 0, cleared⟩
  walk.closeCell chain

def chainOf (extents : Nat → MetaAreaExtent) (i : Nat) : MetaAreaExtent := extents (extentCell chain i)

def ExtentsWalk.chainOf (w : ExtentsWalk) : ExtentsWalk := { w with extents := Ssdfs.chainOf chain w.extents }

def SameOutside (extents extents' : Nat → MetaAreaExtent) : Prop :=
  ∀ c, (∀ i < maptblReservedExtents, c ≠ extentCell chain i) → extents' c = extents c

end

section

variable {chain other : MaptblSeg} {i j : Nat} {extents extents' : Nat → MetaAreaExtent}
  {extent : MetaAreaExtent} {w w' : ExtentsWalk} {layout : VolumeLayout} {a : SegsArray} {n : Nat}

theorem MaptblSeg.index_lt (chain : MaptblSeg) : chain.index < maptblSegCopyMax := by
  cases chain <;> decide

theorem extentCell_inj (h : extentCell chain i = extentCell other j) : chain = other ∧ i = j := by
  have hchain := chain.index_lt
  have hother := other.index_lt
  unfold extentCell maptblSegCopyMax at *
  have hij : i = j := by omega
  refine ⟨?_, hij⟩
  have hindex : chain.index = other.index := by omega
  cases chain <;> cases other <;> first | rfl | exact nomatch hindex

theorem extentCell_lt (hi : i < maptblReservedExtents) :
    extentCell chain i < maptblReservedExtents * maptblSegCopyMax := by
  have hchain := chain.index_lt
  unfold extentCell
  calc i * maptblSegCopyMax + chain.index < (i + 1) * maptblSegCopyMax := by
        rw [Nat.add_one_mul]
        exact Nat.add_lt_add_left hchain _
    _ ≤ maptblReservedExtents * maptblSegCopyMax := Nat.mul_le_mul_right _ hi

theorem putExtent_ok (hi : i < maptblReservedExtents) : putExtent chain i extent extents =
    .ok (Function.update extents (extentCell chain i) extent) := if_pos (extentCell_lt hi)

theorem chainOf_update : chainOf chain (Function.update extents (extentCell chain i) extent) =
    Function.update (chainOf chain extents) i extent := by
  funext k
  unfold chainOf
  rw [Function.update_apply, Function.update_apply]
  exact if_congr ⟨fun h => (extentCell_inj h).2, congrArg _⟩ rfl rfl

theorem SameOutside.refl (chain : MaptblSeg) (extents : Nat → MetaAreaExtent) :
    SameOutside chain extents extents := fun _ _ => rfl

theorem SameOutside.update (h : SameOutside chain extents extents') (hi : i < maptblReservedExtents) :
    SameOutside chain extents (Function.update extents' (extentCell chain i) extent) :=
  fun c hc => (Function.update_of_ne (hc i hi) _ _).trans (h c hc)

structure ClearedTo (chain : MaptblSeg) (extents : Nat → MetaAreaExtent) (k : Nat)
    (extents' : Nat → MetaAreaExtent) : Prop where
  marked : chainOf chain extents' = cleared k (chainOf chain extents)
  same : SameOutside chain extents extents'

theorem ClearedTo.step (h : ClearedTo chain extents i extents') (hi : i < maptblReservedExtents) :
    ClearedTo chain extents (i + 1) (Function.update extents' (extentCell chain i)
      { extents' (extentCell chain i) with type := emptyExtentType }) where
  marked := by
    have hold : extents' (extentCell chain i) = chainOf chain extents i :=
      (congrFun h.marked i).trans (if_neg (Nat.lt_irrefl i))
    funext k
    rw [chainOf_update, Function.update_apply, h.marked, hold]
    unfold cleared
    by_cases hk : k = i
    · subst hk
      rw [if_pos rfl, if_pos (Nat.lt_succ_self k)]
    · rw [if_neg hk]
      exact if_congr (by omega) rfl rfl
  same := h.same.update hi

theorem clearExtents_ok (chain : MaptblSeg) (extents : Nat → MetaAreaExtent) :
    ∃ extents', clearExtents chain extents = .ok extents' ∧
      ClearedTo chain extents maptblReservedExtents extents' :=
  Checked.forRange_ok (ClearedTo chain extents) ⟨rfl, SameOutside.refl chain extents⟩
    fun _ hi _ h => ⟨_, putExtent_ok hi, h.step hi⟩

structure InChain (chain : MaptblSeg) (extents : Nat → MetaAreaExtent) (w : ExtentsWalk) : Prop
    where
  inside : w.j < maptblReservedExtents
  same : SameOutside chain extents w.extents

theorem InChain.addCell_map (hw : InChain chain extents w) (segId : Nat) :
    (w.addCell chain segId).map (ExtentsWalk.chainOf chain) = (w.chainOf chain).add segId := by
  unfold ExtentsWalk.addCell ExtentsWalk.add
  by_cases hfirst : w.segId = Word.u64Max
  · rw [if_pos hfirst]
    exact (if_pos hfirst).symm
  · rw [if_neg hfirst]
    refine Eq.trans ?_ (if_neg hfirst).symm
    by_cases hnext : Word.u64 (w.segId + w.extentLen) ≠ segId
    · rw [if_pos hnext]
      refine Eq.trans ?_ (if_pos hnext).symm
      rw [putExtent_ok hw.inside, Checked.ok_bind]
      by_cases hfull : w.j + 1 ≥ maptblReservedExtents
      · have hbug : (bugOn (w.j + 1 ≥ maptblReservedExtents) : Mkfs Unit) = .error .abort :=
          Checked.bugOn_of hfull
        change _ = bugOn (w.j + 1 ≥ maptblReservedExtents) >>= _
        rw [hbug]
        rfl
      · change _ = bugOn (w.j + 1 ≥ maptblReservedExtents) >>= _
        rw [bugOn_of_not hfull, Checked.ok_bind, Checked.ok_bind]
        refine congrArg (fun e => Except.ok (ExtentsWalk.mk segId 1 (w.j + 1) e)) ?_
        exact chainOf_update
    · rw [if_neg hnext]
      exact (if_neg hnext).symm

theorem InChain.addCell (hw : InChain chain extents w) {segId : Nat}
    (h : w.addCell chain segId = .ok w') : InChain chain extents w' := by
  unfold ExtentsWalk.addCell at h
  split at h
  · cases h
    exact ⟨hw.inside, hw.same⟩
  · split at h
    · rw [putExtent_ok hw.inside, Checked.ok_bind] at h
      obtain ⟨hroom, h⟩ := bugOn_bind_eq_ok.1 h
      cases h
      exact ⟨Nat.not_le.1 hroom, hw.same.update hw.inside⟩
    · cases h
      exact ⟨hw.inside, hw.same⟩

theorem InChain.closeCell_map (hw : InChain chain extents w) :
    (w.closeCell chain).map (chainOf chain) = (w.chainOf chain).close := by
  unfold ExtentsWalk.closeCell ExtentsWalk.close
  by_cases hopen : w.extentLen ≠ 0
  · rw [if_pos hopen]
    refine Eq.trans ?_ (if_pos hopen).symm
    change _ = bugOn (w.segId = Word.u64Max) >>= fun _ => bugOn (w.j ≥ maptblReservedExtents) >>= _
    rw [putExtent_ok hw.inside, bugOn_of_not (Nat.not_le.2 hw.inside)]
    by_cases hnone : w.segId = Word.u64Max
    · have hbug : (bugOn (w.segId = Word.u64Max) : Mkfs Unit) = .error .abort := Checked.bugOn_of hnone
      rw [hbug]
      rfl
    · rw [bugOn_of_not hnone]
      exact congrArg Except.ok chainOf_update
  · rw [if_neg hopen]
    exact (if_neg hopen).symm

theorem InChain.closeCell (hw : InChain chain extents w) (h : w.closeCell chain = .ok extents') :
    SameOutside chain extents extents' := by
  unfold ExtentsWalk.closeCell at h
  split at h
  · obtain ⟨-, h⟩ := bugOn_bind_eq_ok.1 h
    obtain ⟨-, h⟩ := bugOn_bind_eq_ok.1 h
    rw [putExtent_ok hw.inside] at h
    cases h
    exact hw.same.update hw.inside
  · cases h
    exact hw.same

theorem defineExtentCells_eq (chain : MaptblSeg) (extents : Nat → MetaAreaExtent)
    (hn : segsPerCopy layout = .ok n) : ∃ extents', ClearedTo chain extents maptblReservedExtents extents' ∧
      defineExtentCells chain layout a extents = (Checked.forRange n
        (fun i walk => ExtentsWalk.addCell chain (chainSegId a n chain i) walk)
        ⟨Word.u64Max, 0, 0, extents'⟩ >>= ExtentsWalk.closeCell chain) := by
  obtain ⟨extents', hclear, hcleared⟩ := clearExtents_ok chain extents
  refine ⟨extents', hcleared, ?_⟩
  unfold defineExtentCells
  rw [hn, Checked.ok_bind, hclear, Checked.ok_bind]
  cases chain with
  | main => rfl
  | copy =>
    have hsame : (fun i walk => ExtentsWalk.addCell .copy (chainSegId a n .copy i) walk) =
        fun i walk => walk.addCell .copy
          (a.segs ((a.metaArray .pebMappingTable).startSegIndex + n + i)).segId := by
      funext i walk
      rw [Nat.add_assoc]
      rfl
    rw [hsame]

theorem defineExtentCells_map (hn : segsPerCopy layout = .ok n) :
    (defineExtentCells chain layout a extents).map (chainOf chain) =
      defineMaptblExtents layout a chain (chainOf chain extents) := by
  obtain ⟨extents', hcleared, heq⟩ := @defineExtentCells_eq layout a n chain extents hn
  have hwalk : (Checked.forRange n (fun i walk => ExtentsWalk.addCell chain (chainSegId a n chain i) walk)
      ⟨Word.u64Max, 0, 0, extents'⟩).map (ExtentsWalk.chainOf chain) = Checked.forRange n
        (fun i walk => walk.add (chainSegId a n chain i))
        ⟨Word.u64Max, 0, 0, cleared maptblReservedExtents (chainOf chain extents)⟩ := by
    rw [← hcleared.marked]
    exact Checked.forRange_map (InChain chain extents) ⟨Nat.zero_lt_succ 2, hcleared.same⟩
      (fun i t ht => ht.addCell_map _) fun i t t' ht h => ht.addCell h
  rw [heq, defineMaptblExtents_eq hn, ← hwalk]
  cases hrun : Checked.forRange n (fun i walk => ExtentsWalk.addCell chain (chainSegId a n chain i) walk)
    ⟨Word.u64Max, 0, 0, extents'⟩ with
  | error e => rfl
  | ok w =>
    have hw : InChain chain extents w := Checked.forRange_ind (fun _ => InChain chain extents) hrun
      ⟨Nat.zero_lt_succ 2, hcleared.same⟩ fun i _ t t' ht h => ht.addCell h
    exact hw.closeCell_map

theorem defineExtentCells_same (h : defineExtentCells chain layout a extents = .ok extents') :
    SameOutside chain extents extents' := by
  obtain ⟨n, hn, -⟩ := Checked.bind_eq_ok.1 h
  obtain ⟨_, hcleared, heq⟩ := @defineExtentCells_eq layout a n chain extents hn
  rw [heq] at h
  obtain ⟨w, hrun, hclose⟩ := Checked.bind_eq_ok.1 h
  have hw : InChain chain extents w := Checked.forRange_ind (fun _ => InChain chain extents) hrun
    ⟨Nat.zero_lt_succ 2, hcleared.same⟩ fun i _ t t' ht h => ht.addCell h
  exact hw.closeCell hclose

def expandExtents (chain : MaptblSeg) (extents : Nat → MetaAreaExtent) : List Nat :=
  (List.range maptblReservedExtents).flatMap fun i => (extents (extentCell chain i)).segs

/-- The extents of a chain stand for its segments, and the other chain keeps its extents. -/
theorem defineExtentCells_expand (hn : segsPerCopy layout = .ok n)
    (hids : ∀ i < n, chainSegId a n chain i < Word.u64Max)
    (hfew : (runs (chainSegId a n chain) n).length ≤ maptblReservedExtents) :
    ∃ extents', defineExtentCells chain layout a extents = .ok extents' ∧
      expandExtents chain extents' = (List.range n).map (chainSegId a n chain) ∧
      (∀ i < maptblReservedExtents, (runs (chainSegId a n chain) n).length ≤ i →
        (extents' (extentCell chain i)).type = emptyExtentType) ∧
      ∀ other ≠ chain, ∀ i, extents' (extentCell other i) = extents (extentCell other i) := by
  have hlt := segsPerCopy_lt hn
  obtain ⟨slots', hslots, hwritten⟩ :=
    (defineExtents_exact (chainOf chain extents) hn hlt hids).succeeds hfew
  rw [← defineExtentCells_map hn] at hslots
  obtain ⟨extents', h, rfl⟩ := Checked.exists_of_map hslots
  refine ⟨extents', h, ?_, fun i hi hunused => ?_, fun other hother i =>
    defineExtentCells_same h _ fun k _ hcell => hother (extentCell_inj hcell).1⟩
  · change ((List.range maptblReservedExtents).flatMap fun i => (chainOf chain extents' i).segs) = _
    rw [hwritten]
    exact slots_segs (fun k hk => by
      rw [cleared_of_lt hk]
      exact fun h => nomatch h) hids hlt hfew
  · change (chainOf chain extents' i).type = _
    rw [hwritten, slots_of_le hunused, cleared_of_lt hi]

end

/-- A volume whose mapping table has `n` portions, one in each of its segments. -/
def tableOf (n : Nat) : VolumeLayout where
  needEraseDevice := false
  segSize := 0x800000
  pageSize := .kib4
  nandDiesCount := 1
  lebsPerPebIndex := 1
  segbmap := ⟨false, 1⟩
  maptbl :=
    { hasBackupCopy := true, stripesPerPortion := 1, portionsPerFragment := 1,
      reservedPebsPerFragment := 0, maptblPebs := n, lebtblPortionBytes := 4096,
      lebtblPortionMempages := 1, pebtblPortionBytes := 4096, pebtblPortionMempages := 1,
      lebsPerPortion := 476, pebsPerPortion := 476, portionsCount := n, portionSize := 8192 }
  env := ⟨0x400000000, 0x800000, .blk⟩

/-- The segments 5, 6 and 9 for the main chain, 7, 12 and 13 for the copy. -/
def brokenSegs : SegsArray where
  metaArray _ := ⟨0, 6, .dedicated⟩
  segs i := ⟨some .pebMappingTable, .dedicated, [5, 6, 9, 7, 12, 13].getD i 0,
    fun _ => ⟨0, 0, fun _ => ⟨none, 0, 0⟩⟩, 0, 1⟩
  segsCapacity := 6
  segsCount := 6
  lastAllocatedSegIndex := 5

theorem defineExtentCells_expand_copy : ∃ extents',
    defineExtentCells .copy (tableOf 3) brokenSegs (fun _ => unsetExtent) = .ok extents' ∧
      expandExtents .copy extents' = [7, 12, 13] := by
  obtain ⟨extents', h, hexpand, -⟩ := @defineExtentCells_expand .copy (fun _ => unsetExtent) (tableOf 3)
    brokenSegs 3 (by decide +kernel) (by decide) (by decide)
  exact ⟨extents', h, hexpand⟩

end Ssdfs
