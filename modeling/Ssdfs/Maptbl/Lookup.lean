import Ssdfs.Maptbl.Prepare

namespace Ssdfs

structure LebtblSlot where
  fragmentIndex : Nat
  portionIndex : Nat
  mempageIndex : Nat
  lebDescIndex : Nat
  deriving Repr, DecidableEq

def getLebtblFragment (layout : VolumeLayout) (lebId : Nat) : Mkfs LebtblSlot := do
  let lebDescPerPortion := layout.maptbl.lebsPerPortion
  let lebDescPerPeb := Word.u32 (lebDescPerPortion * layout.maptbl.portionsPerFragment)
  let fragmentIndex ← quot lebId lebDescPerPeb
  let fragmentIndex := Word.u32 fragmentIndex
  bugOn (fragmentIndex ≥ layout.maptbl.maptblPebs)
  let diffLebId := Word.sub64 lebId (Word.u32 (fragmentIndex * lebDescPerPeb))
  let portionIndex ← quot diffLebId lebDescPerPortion
  let portionIndex := Word.u32 portionIndex
  bugOn (portionIndex ≥ layout.maptbl.portionsPerFragment)
  let diffLebId := Word.sub64 diffLebId (Word.u32 (portionIndex * lebDescPerPortion))
  let lebDescPerMempage := lebDescPerFragment pageCacheSize
  let mempageIndex := Word.u32 (diffLebId / lebDescPerMempage)
  let lebtblsPerPortion := layout.maptbl.lebtblPortionBytes / layout.pageSize.bytes
  bugOn (mempageIndex ≥ lebtblsPerPortion)
  .ok ⟨fragmentIndex, portionIndex, mempageIndex, diffLebId % lebDescPerMempage⟩

variable {layout : VolumeLayout}

/-- The slot of a LEB as plain divisions, without the 32-bit intermediate values. -/
def lebtblSlot (layout : VolumeLayout) (lebId : Nat) : LebtblSlot where
  fragmentIndex := lebId / layout.maptbl.pebsPerPortion / layout.maptbl.portionsPerFragment
  portionIndex := lebId / layout.maptbl.pebsPerPortion % layout.maptbl.portionsPerFragment
  mempageIndex := lebId % layout.maptbl.pebsPerPortion / 1016
  lebDescIndex := lebId % layout.maptbl.pebsPerPortion % 1016

theorem getLebtblFragment_eq_ok (hacc : layout.Accepted) {leb : Nat} (hleb : leb < 4294967296)
    {slot : LebtblSlot} :
    getLebtblFragment layout leb = .ok slot ↔
      leb / layout.maptbl.pebsPerPortion / layout.maptbl.portionsPerFragment <
        layout.maptbl.maptblPebs ∧ slot = lebtblSlot layout leb := by
  have hP := hacc.pebs_pos
  have hpos := hacc.portions_pos
  have hppf := hacc.portionsPerFragment_lt
  have hpage : 0 < layout.pageSize.bytes :=
    Nat.lt_of_lt_of_le (by decide) layout.pageSize.bytes_ge
  generalize hPdef : layout.maptbl.pebsPerPortion = P at *
  generalize hFdef : layout.maptbl.portionsPerFragment = F at *
  have hPlt : P < 65535 := hPdef ▸ hacc.pebs_lt
  have hPF : P * F < 4294967296 :=
    Nat.lt_of_lt_of_le (Nat.mul_lt_mul_of_lt_of_le hPlt (Nat.le_of_lt hppf) (by decide))
      (by decide)
  have hper : Word.u32 (P * F) = P * F := Word.u32_of_lt hPF
  have hPFpos : P * F ≠ 0 := Nat.ne_of_gt (Nat.mul_pos hP hpos)
  have hle₁ := Nat.div_mul_le_self leb (P * F)
  have hle₂ := Nat.div_le_self leb (P * F)
  have hfrag : Word.u32 (leb / (P * F)) = leb / (P * F) := Word.u32_of_lt (by omega)
  have hdiff : Word.sub64 leb (Word.u32 (leb / (P * F) * (P * F))) = leb % (P * F) := by
    rw [Word.u32_of_lt (by omega), Word.sub64_of_le hle₁ (by omega), Nat.mul_comm,
      Nat.mod_eq_sub]
  have hmodlt := Nat.mod_lt leb (Nat.pos_of_ne_zero hPFpos)
  have hportion : leb % (P * F) / P = leb / P % F := Nat.mod_mul_right_div_self leb P F
  have hplt := Nat.mod_lt (leb / P) hpos
  have hpu : Word.u32 (leb / P % F) = leb / P % F := Word.u32_of_lt (by omega)
  have hrest : Word.sub64 (leb % (P * F)) (Word.u32 (leb / P % F * P)) = leb % P := by
    have hle := Nat.div_mul_le_self (leb % (P * F)) P
    have hmod : leb % (P * F) % P = leb % P := Nat.mod_mul_right_mod leb P F
    rw [hportion] at hle
    rw [Word.u32_of_lt (by omega), Word.sub64_of_le hle (by omega), ← hmod,
      Nat.mod_eq_sub (leb % (P * F)) P, hportion,
      Nat.mul_comm (leb / P % F)]
  have hlast := Nat.mod_lt leb hP
  have hpages : layout.maptbl.lebtblPortionBytes / layout.pageSize.bytes = (P + 1015) / 1016 := by
    rw [hacc.lebtbl_eq, hPdef, Nat.mul_div_cancel _ hpage]
  have hmem : Word.u32 (leb % P / 1016) = leb % P / 1016 := Word.u32_of_lt (by omega)
  unfold getLebtblFragment
  simp only [hacc.lebs_eq, hPdef, hFdef, hper, quot_bind_eq_ok, bugOn_bind_eq_ok, hfrag, hdiff,
    hportion, hpu, hrest, lebDescPerFragment_page, hmem, hpages]
  rw [← Nat.div_div_eq_div_mul]
  constructor
  · rintro ⟨-, hm, -, -, -, h⟩
    cases h
    refine ⟨by omega, ?_⟩
    unfold lebtblSlot
    rw [hPdef, hFdef]
  · rintro ⟨hm, rfl⟩
    refine ⟨hPFpos, by omega, by omega, by omega, by omega, ?_⟩
    unfold lebtblSlot
    rw [hPdef, hFdef]

end Ssdfs
