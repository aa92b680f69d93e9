import Ssdfs.LogTables.Payload
import Ssdfs.LogTables.Run

namespace Ssdfs

/-- A PEB as the loops come to it, the `seg`-th segment's `peb`-th one. -/
structure PebSite where
  seg : Nat
  peb : Nat
  fragmentIndex : Nat
  startLogicalBlk : Nat
  deriving Repr, DecidableEq

structure WalkState (σ : Type) where
  fragmentIndex : Nat
  startLogicalBlk : Nat
  rest : σ

section

variable {σ : Type} (layout : VolumeLayout) (src : PayloadSource) (body : PebSite → σ → Mkfs σ)

def visitPeb (i j : Nat) (st : WalkState σ) : Mkfs (WalkState σ) :=
  if st.fragmentIndex ≥ src.fragmentsCount then .ok st
  else do
    let rest ← body ⟨i, j, st.fragmentIndex, st.startLogicalBlk⟩ st.rest
    .ok ⟨st.fragmentIndex + 1, Word.u32 (st.startLogicalBlk + src.validBlks layout), rest⟩

def visitSeg (i : Nat) (st : Nat × σ) : Mkfs (Nat × σ) := do
  let _ ← Checked.forRange src.pebsPerSeg (countUsedBlks layout src) 0
  let st ← Checked.forRange src.pebsPerSeg (visitPeb layout src body i) ⟨st.1, 0, st.2⟩
  .ok (st.fragmentIndex, st.rest)

/-- The loops that `segbmap_mkfs_define_layout` and `maptbl_mkfs_define_layout` share. -/
def walkPebs (segs : Nat) (rest : σ) : Mkfs σ := do
  let st ← Checked.forRange segs (visitSeg layout src body) (0, rest)
  .ok st.2

/-- The PEB that fragment `n` is counted for. -/
def PayloadSource.site (n : Nat) : PebSite where
  seg := n / src.pebsPerSeg
  peb := n % src.pebsPerSeg
  fragmentIndex := n
  startLogicalBlk := Word.u32 (n % src.pebsPerSeg * src.validBlks layout)

def PayloadSource.visited (segs : Nat) : Nat := min src.fragmentsCount (segs * src.pebsPerSeg)

end

section

variable {σ : Type} {layout : VolumeLayout} {src : PayloadSource} {body : PebSite → σ → Mkfs σ}
  {rest : σ} {i j n : Nat}

theorem countUsedBlks_ok {used : Nat} (hpos : 0 < src.validBlks layout)
    (hlt : n * src.validBlks layout < 4294967296) (hused : used = 0) :
    Checked.forRange n (countUsedBlks layout src) used = .ok (n * src.validBlks layout) := by
  subst hused
  induction n with
  | zero => rw [Nat.zero_mul, Checked.forRange]
  | succ n ih =>
    rw [Nat.succ_mul] at hlt ⊢
    rw [Checked.forRange, ih (by omega), Checked.ok_bind]
    unfold countUsedBlks
    simp only
    rw [Word.u32_of_lt hlt, failIf_of_not (by omega), Checked.ok_bind]

theorem site_of_lt (hj : j < src.pebsPerSeg) : src.site layout (i * src.pebsPerSeg + j) =
    ⟨i, j, i * src.pebsPerSeg + j, Word.u32 (j * src.validBlks layout)⟩ := by
  have hdiv : (i * src.pebsPerSeg + j) / src.pebsPerSeg = i := by
    rw [Nat.mul_comm, Nat.mul_add_div (by omega), Nat.div_eq_of_lt hj, Nat.add_zero]
  have hmod : (i * src.pebsPerSeg + j) % src.pebsPerSeg = j := by
    rw [Nat.mul_comm, Nat.mul_add_mod, Nat.mod_eq_of_lt hj]
  unfold PayloadSource.site
  rw [hdiv, hmod]

/-- The bodies for the first `n` PEBs, one after the other. -/
def runSites (layout : VolumeLayout) (src : PayloadSource) (body : PebSite → σ → Mkfs σ) (rest : σ)
    (n : Nat) : Mkfs σ :=
  Checked.forRange (min src.fragmentsCount n) (fun n => body (src.site layout n)) rest

theorem runSites_succ : runSites layout src body rest (n + 1) =
    if src.fragmentsCount ≤ n then runSites layout src body rest n
    else runSites layout src body rest n >>= body (src.site layout n) := by
  unfold runSites
  split
  case isTrue hle => rw [Nat.min_eq_left hle, Nat.min_eq_left (Nat.le_succ_of_le hle)]
  case isFalse hlt =>
    have hlt := Nat.not_le.1 hlt
    rw [Nat.min_eq_right (Nat.le_of_lt hlt), Nat.min_eq_right hlt]
    rfl

/-- The loop over the PEBs of segment `i`, with the segments before it already done. -/
theorem forRange_visitPeb (hj : j ≤ src.pebsPerSeg) :
    (do
      let rest ← runSites layout src body rest (i * src.pebsPerSeg)
      Checked.forRange j (visitPeb layout src body i)
        ⟨min src.fragmentsCount (i * src.pebsPerSeg), 0, rest⟩) =
    (do
      let rest ← runSites layout src body rest (i * src.pebsPerSeg + j)
      .ok ⟨min src.fragmentsCount (i * src.pebsPerSeg + j),
        Word.u32 ((min src.fragmentsCount (i * src.pebsPerSeg + j) -
          min src.fragmentsCount (i * src.pebsPerSeg)) * src.validBlks layout), rest⟩ :
        Mkfs (WalkState σ)) := by
  induction j with
  | zero =>
    rw [Nat.add_zero, Nat.sub_self, Nat.zero_mul]
    rfl
  | succ j ih =>
    have hfor : ∀ st : WalkState σ, Checked.forRange (j + 1) (visitPeb layout src body i) st =
        Checked.forRange j (visitPeb layout src body i) st >>= visitPeb layout src body i j :=
      fun _ => rfl
    simp only [hfor]
    rw [← bind_assoc, ih (Nat.le_of_succ_le hj), ← Nat.add_assoc, runSites_succ]
    by_cases hle : src.fragmentsCount ≤ i * src.pebsPerSeg + j
    · rw [if_pos hle, Nat.min_eq_left hle, Nat.min_eq_left (Nat.le_succ_of_le hle), bind_assoc]
      refine congrArg _ (funext fun rest => ?_)
      rw [Checked.ok_bind]
      exact if_pos (Nat.le_refl _)
    · have hlt := Nat.not_le.1 hle
      rw [if_neg hle, Nat.min_eq_right (Nat.le_of_lt hlt), Nat.min_eq_right (Nat.succ_le_of_lt hlt),
        Nat.min_eq_right (show i * src.pebsPerSeg ≤ src.fragmentsCount by omega), bind_assoc,
        bind_assoc]
      refine congrArg _ (funext fun rest => ?_)
      rw [Checked.ok_bind]
      unfold visitPeb
      have hdone : (i * src.pebsPerSeg + j).succ - i * src.pebsPerSeg = j + 1 := by omega
      rw [if_neg hle, site_of_lt hj, Nat.add_sub_cancel_left, hdone]
      simp only [u32_add_u32, Nat.succ_mul, Nat.succ_eq_add_one]

theorem walkPebs_eq {segs : Nat} (hpos : 0 < src.validBlks layout)
    (hlt : src.pebsPerSeg * src.validBlks layout < 4294967296) :
    walkPebs layout src body segs rest =
      Checked.forRange (src.visited segs) (fun n => body (src.site layout n)) rest := by
  have hsegs : Checked.forRange segs (visitSeg layout src body) (0, rest) = (do
      let rest ← runSites layout src body rest (segs * src.pebsPerSeg)
      .ok (min src.fragmentsCount (segs * src.pebsPerSeg), rest)) := by
    induction segs with
    | zero =>
      unfold runSites
      rw [Nat.zero_mul, Nat.min_zero]
      rfl
    | succ segs ih =>
      have hfor : Checked.forRange (segs + 1) (visitSeg layout src body) (0, rest) =
          Checked.forRange segs (visitSeg layout src body) (0, rest) >>=
            visitSeg layout src body segs := rfl
      have hvisit := @forRange_visitPeb σ layout src body rest segs src.pebsPerSeg (Nat.le_refl _)
      rw [hfor, ih, bind_assoc]
      unfold visitSeg
      simp only [Checked.ok_bind, countUsedBlks_ok hpos hlt rfl]
      rw [← bind_assoc, hvisit, bind_assoc, Nat.succ_mul]
      rfl
  unfold walkPebs
  rw [hsegs, bind_assoc]
  exact bind_pure _

end

end Ssdfs
