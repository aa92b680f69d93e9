import Ssdfs.Write.PebRun

namespace Ssdfs

def eraseAllocatedSegmentsOnly (erase : Nat → Nat → Mkfs Unit) (layout : VolumeLayout)
    (a : SegsArray) : Mkfs (List (Nat × Nat)) :=
  let segSize := layout.segSize.toNat
  Checked.forRange a.segsCount (fun i erased => do
    let offset := Word.u64 ((a.segs i).segId * segSize)
    erase offset segSize
    .ok (erased ++ [(offset, segSize)])) []

def writeSegments (layout : VolumeLayout) (fuel : Nat) (checkPeb : Bool → Mkfs Unit)
    (a : SegsArray) (w : WriteState) : Mkfs WriteState :=
  Checked.forRange a.segsCount (fun i =>
    Checked.forRange (a.segs i).pebsCount (writePeb layout fuel checkPeb a i)) w

def deviceBytes (ranges : List (Nat × Nat)) : Set Nat := {x | ∃ r ∈ ranges, r.1 ≤ x ∧ x < r.1 + r.2}

section

variable {layout : VolumeLayout} {a : SegsArray} {fuel : Nat} {checkPeb : Bool → Mkfs Unit}
  {erase : Nat → Nat → Mkfs Unit} {w w' : WriteState}

theorem eraseAllocatedSegmentsOnly_ok {erased : List (Nat × Nat)}
    (h : eraseAllocatedSegmentsOnly erase layout a = .ok erased) :
    erased = (List.range a.segsCount).map fun i =>
      (Word.u64 ((a.segs i).segId * layout.segSize.toNat), layout.segSize.toNat) := by
  refine Checked.forRange_ind (fun k st => st = (List.range k).map fun i =>
    (Word.u64 ((a.segs i).segId * layout.segSize.toNat), layout.segSize.toNat)) h rfl ?_
  rintro k - st st' rfl hstep
  obtain ⟨-, -, hstep⟩ := Checked.bind_eq_ok.1 hstep
  cases hstep
  rw [List.range_succ, List.map_append]
  rfl

theorem deviceBytes_erased {erased : List (Nat × Nat)}
    (h : eraseAllocatedSegmentsOnly erase layout a = .ok erased)
    (hids : ∀ i < a.segsCount, (a.segs i).segId = i)
    (hfit : a.segsCount * layout.segSize.toNat ≤ layout.env.fsSize.toNat) :
    deviceBytes erased = Set.Iio (a.segsCount * layout.segSize.toNat) := by
  have hfs := layout.env.fsSize.toNat_lt
  rw [eraseAllocatedSegmentsOnly_ok h]
  have hoffset : ∀ i < a.segsCount, Word.u64 ((a.segs i).segId * layout.segSize.toNat) =
      layout.segSize.toNat * i ∧ layout.segSize.toNat * (i + 1) ≤
        a.segsCount * layout.segSize.toNat := fun i hi => by
    have hle := Nat.mul_le_mul_right layout.segSize.toNat (Nat.succ_le_of_lt hi)
    rw [Nat.succ_mul] at hle
    rw [hids i hi, Word.u64_of_lt (by omega), Nat.mul_comm]
    exact ⟨rfl, by rw [Nat.mul_succ, Nat.mul_comm]; exact hle⟩
  ext x
  constructor
  · rintro ⟨r, hr, hlo, hhi⟩
    obtain ⟨i, hi, rfl⟩ := List.mem_map.1 hr
    obtain ⟨hoff, hle⟩ := hoffset i (List.mem_range.1 hi)
    simp only [hoff] at hhi
    exact Nat.lt_of_lt_of_le hhi hle
  · intro hx
    have hx : x < a.segsCount * layout.segSize.toNat := hx
    have hpos : 0 < layout.segSize.toNat := Nat.pos_of_ne_zero fun hzero => by
      rw [hzero, Nat.mul_zero] at hx
      exact absurd hx (Nat.not_lt_zero x)
    have hi : x / layout.segSize.toNat < a.segsCount := Nat.div_lt_of_lt_mul (Nat.mul_comm .. ▸ hx)
    obtain ⟨hoff, -⟩ := hoffset _ hi
    have hdm := Nat.div_add_mod x layout.segSize.toNat
    have hmod := Nat.mod_lt x hpos
    refine ⟨_, List.mem_map.2 ⟨_, List.mem_range.2 hi, rfl⟩, ?_⟩
    simp only [hoff]
    omega

theorem checkLayoutBeforeWrite_site {u : Unit} {site : Nat × Nat}
    (h : checkLayoutBeforeWrite layout a = .ok u) (hsite : site ∈ a.written) :
    ∃ bmap bmap' blks, checkPebBeforeWrite layout (a.content site) bmap = .ok (bmap', blks) := by
  obtain ⟨bmap, hloop, -⟩ := Checked.bind_eq_ok.1 h
  obtain ⟨t, t', -, hseg⟩ := Checked.forRange_step hloop hsite.1
  obtain ⟨st, hpebs, -⟩ := Checked.bind_eq_ok.1 hseg
  obtain ⟨u, u', -, hpeb⟩ := Checked.forRange_step hpebs hsite.2
  obtain ⟨⟨bmap', blks⟩, hcheck, -⟩ := Checked.bind_eq_ok.1 hpeb
  exact ⟨_, bmap', blks, hcheck⟩

structure WrittenAt (layout : VolumeLayout) (a : SegsArray) (sites : Set (Nat × Nat))
    (w : WriteState) : Prop where
  inside : ∀ r ∈ w.writes, ∃ site ∈ sites,
    (a.content site).pebId * layout.env.eraseSize.toNat ≤ r.1 ∧
      r.1 + r.2 ≤ ((a.content site).pebId + 1) * layout.env.eraseSize.toNat
  touched : ∀ site ∈ sites, ∃ r ∈ w.writes,
    r.1 = (a.content site).pebId * layout.env.eraseSize.toNat ∧ 0 < r.2
  empty : w.bufferOffset = 0

theorem writeContent_pages {peb : PebContent} {blks : Nat} {bmap bmap' : BlkBmap}
    (hdvd : layout.pageSize.bytes ∣ layout.env.eraseSize.toNat)
    (hfuel : layout.env.eraseSize.toNat < fuel)
    (hcheck : checkPebBeforeWrite layout peb bmap = .ok (bmap', blks))
    (hfirst : ∀ k, peb.items.head? = some k → peb.start k < layout.pageSize.bytes)
    (hempty : w.bufferOffset = 0) :
    ∃ w' n, writeContent layout fuel peb w = .ok w' ∧ PebWritten layout peb w w' ∧ 0 < n ∧
      w'.writes = w.writes ++ (List.range n).map (fun i =>
        (peb.pebId * layout.env.eraseSize.toNat + layout.pageSize.bytes * i,
          layout.pageSize.bytes)) ∧
      layout.pageSize.bytes * n ≤ layout.env.eraseSize.toNat := by
  obtain ⟨hitems, hpacked, -⟩ := checkPebBeforeWrite_ok (erase_add_page_le hdvd) hcheck
  obtain ⟨v, hv, hwritten, n, hwrites, hle⟩ :=
    writeContent_ok hdvd hpacked hfirst hfuel hitems hempty
  refine ⟨v, n, hv, hwritten, ?_, hwrites, hle⟩
  obtain ⟨k, hk⟩ := List.exists_mem_of_ne_nil _ hitems
  have hsize := (hpacked.fits k hk).size_pos
  obtain ⟨m, hm, hfin, -⟩ := hwritten.pages
  have hlen := congrArg List.length (hm.symm.trans hwrites)
  simp only [List.length_append, List.length_map, List.length_range] at hlen
  have := hfin k hk
  by_contra hzero
  obtain rfl : m = 0 := by omega
  omega

theorem WrittenAt.insert (hdvd : layout.pageSize.bytes ∣ layout.env.eraseSize.toNat)
    (hfuel : layout.env.eraseSize.toNat < fuel) {i j blks : Nat} {bmap bmap' : BlkBmap}
    (hcheck : checkPebBeforeWrite layout (a.content (i, j)) bmap = .ok (bmap', blks))
    (hfirst : ∀ k, (a.content (i, j)).items.head? = some k →
      (a.content (i, j)).start k < layout.pageSize.bytes)
    {sites : Set (Nat × Nat)} (h : WrittenAt layout a sites w)
    (hwrite : writePeb layout fuel checkPeb a i j w = .ok w') :
    WrittenAt layout a (insert (i, j) sites) w' := by
  obtain ⟨v, n, hv, hwritten, hpos, hwrites, hle⟩ :=
    writeContent_pages hdvd hfuel hcheck hfirst h.empty
  unfold writePeb at hwrite
  obtain ⟨-, hwrite⟩ := failIf_bind_eq_ok.1 hwrite
  obtain ⟨-, hwrite⟩ := failIf_bind_eq_ok.1 hwrite
  rw [hv, Checked.ok_bind] at hwrite
  obtain ⟨openZones, -, hwrite⟩ := Checked.bind_eq_ok.1 hwrite
  cases hwrite
  have hpage := layout.pageSize.bytes_ge
  refine ⟨fun r hr => ?_, fun site hsite => ?_, hwritten.empty⟩
  · rw [hwrites, List.mem_append] at hr
    rcases hr with hr | hr
    · obtain ⟨site, hsite, hin⟩ := h.inside r hr
      exact ⟨site, Set.mem_insert_of_mem _ hsite, hin⟩
    · obtain ⟨p, hp, rfl⟩ := List.mem_map.1 hr
      refine ⟨(i, j), Set.mem_insert _ _, Nat.le_add_right _ _, ?_⟩
      have hmul := Nat.mul_le_mul_left layout.pageSize.bytes
        (Nat.succ_le_of_lt (List.mem_range.1 hp))
      rw [Nat.mul_succ] at hmul
      rw [Nat.succ_mul]
      simp only
      omega
  · rcases hsite with rfl | hsite
    · refine ⟨_, hwrites ▸ List.mem_append_right _ (List.mem_map.2 ⟨0, List.mem_range.2 hpos, rfl⟩),
        rfl, ?_⟩
      simp only
      omega
    · obtain ⟨r, hr, hin⟩ := h.touched site hsite
      exact ⟨r, hwrites ▸ List.mem_append_left _ hr, hin⟩

theorem writeSegments_ok {u : Unit} (hdvd : layout.pageSize.bytes ∣ layout.env.eraseSize.toNat)
    (hfuel : layout.env.eraseSize.toNat < fuel) (hcheck : checkLayoutBeforeWrite layout a = .ok u)
    (hfirst : ∀ site ∈ a.written, ∀ k, (a.content site).items.head? = some k →
      (a.content site).start k < layout.pageSize.bytes)
    (hempty : w.bufferOffset = 0) (hwrites : w.writes = [])
    (h : writeSegments layout fuel checkPeb a w = .ok w') : WrittenAt layout a a.written w' := by
  rw [SegsArray.written_eq]
  refine Checked.forRange_ind (fun i t => WrittenAt layout a (a.writtenBefore i 0) t) h ?_ ?_
  · have hnone : a.writtenBefore 0 0 = ∅ := by
      ext site
      simp [SegsArray.writtenBefore]
    rw [hnone]
    exact ⟨by simp [hwrites], fun site hsite => hsite.elim, hempty⟩
  · intro i hi t t' ht hseg
    rw [← SegsArray.writtenBefore_succ]
    refine Checked.forRange_ind (fun j v => WrittenAt layout a (a.writtenBefore i j) v) hseg ht ?_
    intro j hj v v' hv hpeb
    have hsite : (i, j) ∈ a.written := ⟨hi, hj⟩
    obtain ⟨bmap, bmap', blks, hsitecheck⟩ := checkLayoutBeforeWrite_site hcheck hsite
    rw [← SegsArray.insert_writtenBefore]
    exact hv.insert hdvd hfuel hsitecheck (hfirst _ hsite) hpeb

theorem WrittenAt.subset_iff (h : WrittenAt layout a a.written w)
    {n : Nat} :
    deviceBytes w.writes ⊆ Set.Iio (n * layout.env.eraseSize.toNat) ↔
      ∀ site ∈ a.written, (a.content site).pebId < n := by
  constructor
  · intro hsub site hsite
    obtain ⟨r, hr, hstart, hpos⟩ := h.touched site hsite
    have hlt : r.1 < n * layout.env.eraseSize.toNat := hsub ⟨r, hr, Nat.le_refl _, by omega⟩
    rw [hstart] at hlt
    exact Nat.lt_of_mul_lt_mul_right hlt
  · rintro hall x ⟨r, hr, hlo, hhi⟩
    obtain ⟨site, hsite, -, hend⟩ := h.inside r hr
    have hle := Nat.mul_le_mul_right layout.env.eraseSize.toNat
      (Nat.succ_le_of_lt (hall site hsite))
    rw [Nat.succ_eq_add_one] at hle
    rw [Set.mem_Iio]
    omega

end

end Ssdfs
