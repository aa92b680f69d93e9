import Ssdfs.Maptbl.MapRun
import Ssdfs.Maptbl.Walk

namespace Ssdfs

section

variable (layout : VolumeLayout)

def stripeKey (leb : Nat) : Nat × Nat :=
  (leb / layout.maptbl.pebsPerPortion, stripeOf layout leb)

def takenFrom (key : Nat × Nat) (lebs : List Nat) : Nat :=
  lebs.countP fun leb => stripeKey layout leb = key

theorem takenFrom_snoc (key : Nat × Nat) (lebs : List Nat) (leb : Nat) :
    takenFrom layout key (lebs ++ [leb]) =
      if key = stripeKey layout leb then takenFrom layout key lebs + 1
      else takenFrom layout key lebs := by
  unfold takenFrom
  rw [List.countP_append, List.countP_singleton]
  by_cases hkey : stripeKey layout leb = key
  · rw [if_pos (decide_eq_true hkey), if_pos hkey.symm]
  · rw [if_neg (by simpa using hkey), if_neg (Ne.symm hkey), Nat.add_zero]

/-- The PEB of a stripe that has `rank` good PEBs before it. -/
structure Tables.Ranked (t₀ : Tables) (key : Nat × Nat) (rank item : Nat) : Prop where
  good : (t₀.stripe layout key.1 key.2).usedBmap item = false
  rank_eq : Bitmap.clearBefore (t₀.stripe layout key.1 key.2).usedBmap item = rank

/-- In the tables `t`, reached from `t₀` by mapping the given LEBs, each stripe has lost its first
good PEBs, in the order of the LEBs, and the descriptor of a LEB names the last of them that the
LEB has got. -/
structure Tables.InOrder (t₀ t : Tables) (lebs : List Nat) : Prop where
  used : ∀ key, Bitmap.FirstTaken (t₀.stripe layout key.1 key.2).usedBmap (takenFrom layout key lebs)
    (t.stripe layout key.1 key.2).usedBmap
  fits : ∀ key, takenFrom layout key lebs ≤ Bitmap.clearBefore
    (t₀.stripe layout key.1 key.2).usedBmap (t.stripe layout key.1 key.2).pebsCount
  described : ∀ leb ∈ lebs, leb < 4294967296 ∧
    leb < (t.lebFragment (lebtblSlot layout leb)).startLeb +
      (t.lebFragment (lebtblSlot layout leb)).lebsCount
  decodes : ∀ before leb after, lebs = before ++ leb :: after → leb ∉ after →
    ∃ item, t₀.Ranked layout (stripeKey layout leb)
        (takenFrom layout (stripeKey layout leb) before) item ∧
      476 * stripeOf layout leb + item < 65535 ∧
      decodeLeb layout t leb = .ok ⟨(lebtblSlot layout leb).fragmentIndex,
        (lebtblSlot layout leb).portionIndex, stripeOf layout leb, item⟩

end

section Step

variable {layout : VolumeLayout} {n leb peb i j : Nat} {t₀ t t' : Tables} {slot : LebtblSlot}
  {type : PebType} {lebs : List Nat}

theorem Tables.SameHeaders.startLeb_eq (hacc : layout.Accepted)
    (h : (Tables.fresh layout n).SameHeaders t)
    (hdesc : leb < (t.lebFragment (lebtblSlot layout leb)).startLeb +
      (t.lebFragment (lebtblSlot layout leb)).lebsCount) :
    (t.lebFragment (lebtblSlot layout leb)).startLeb =
      layout.pageStart (leb / layout.maptbl.pebsPerPortion)
        (leb % layout.maptbl.pebsPerPortion / 1016) := by
  have hhdr := h.lebHeader (lebtblSlot layout leb).fragmentIndex
    (lebtblSlot layout leb).portionIndex (lebtblSlot layout leb).mempageIndex
  unfold Tables.lebFragment at hdesc ⊢
  rw [hhdr.startLeb, hhdr.lebsCount] at hdesc
  rw [hhdr.startLeb]
  have hpage : leb % layout.maptbl.pebsPerPortion / 1016 < layout.lebtblPages := by
    have hmod := Nat.mod_lt leb hacc.pebs_pos
    unfold VolumeLayout.lebtblPages Geometry.pages
    omega
  simp only [lebtblSlot, Tables.fresh_index _ _ hacc.portions_pos] at hdesc ⊢
  split at hdesc
  case isTrue hportion =>
    rw [if_pos hportion]
    simp only [freshPortion, if_pos hpage, freshLebTable]
  case isFalse => simp [PortionTables.zero, LebTableFragment.zero] at hdesc

theorem MapsLeb.stripe_eq (hmaps : MapsLeb layout t t' leb peb slot i j type)
    (hacc : layout.Accepted) (h : (Tables.fresh layout n).SameHeaders t) :
    i = stripeOf layout leb := by
  have hstripe := hmaps.stripe
  have hdesc := hmaps.described
  obtain rfl := hmaps.slot_eq
  rw [getStripeIndex_ok hacc hmaps.leb_lt (h.startLeb_eq hacc hdesc)] at hstripe
  exact (Except.ok.inj hstripe).symm

theorem stripe_mapAt_used (key : Nat × Nat) :
    ((t.mapAt (lebtblSlot layout leb) (stripeOf layout leb) j type).stripe layout key.1 key.2).usedBmap =
      if key = stripeKey layout leb then
        Function.update (t.stripe layout key.1 key.2).usedBmap j true
      else (t.stripe layout key.1 key.2).usedBmap := by
  obtain ⟨q, k⟩ := key
  have hiff : (q / layout.maptbl.portionsPerFragment, q % layout.maptbl.portionsPerFragment, k) =
      ((lebtblSlot layout leb).fragmentIndex, (lebtblSlot layout leb).portionIndex,
        stripeOf layout leb) ↔ (q, k) = stripeKey layout leb := by
    unfold lebtblSlot stripeKey
    simp only [Prod.mk.injEq]
    constructor
    · rintro ⟨hf, hp, rfl⟩
      refine ⟨?_, rfl⟩
      rw [← Nat.div_add_mod q layout.maptbl.portionsPerFragment, hf, hp, Nat.div_add_mod]
    · rintro ⟨rfl, rfl⟩
      exact ⟨rfl, rfl, rfl⟩
  unfold Tables.stripe
  rw [Tables.mapAt_pebtbl, if_congr hiff rfl rfl]
  split
  case isTrue h => rw [h]; rfl
  case isFalse => rfl

theorem mapAt_described {slot' : LebtblSlot} {leb' : Nat} :
    leb' < ((t.mapAt slot i j type).lebFragment slot').startLeb +
        ((t.mapAt slot i j type).lebFragment slot').lebsCount ↔
      leb' < (t.lebFragment slot').startLeb + (t.lebFragment slot').lebsCount := by
  have hhdr := t.mapAt_lebHeader slot i j type slot'.fragmentIndex slot'.portionIndex
    slot'.mempageIndex
  unfold Tables.lebFragment
  rw [hhdr.startLeb, hhdr.lebsCount]

theorem MapsLeb.stripe_header (hmaps : MapsLeb layout t t' leb peb slot i j type)
    (hacc : layout.Accepted) (h : (Tables.fresh layout n).SameHeaders t) :
    j < layout.stripeCount (stripeKey layout leb).1 (stripeKey layout leb).2 ∧
      peb = layout.stripeStart (stripeKey layout leb).1 (stripeKey layout leb).2 + j := by
  obtain rfl := hmaps.stripe_eq hacc h
  obtain ⟨-, rfl, -, -, -, -, -, -, hmem, -, -, rfl, -⟩ := hmaps
  have hhdr := h.pebHeader (lebtblSlot layout leb).fragmentIndex
    (lebtblSlot layout leb).portionIndex (stripeOf layout leb)
  unfold Tables.pebFragment at hmem
  unfold Tables.pebAt Tables.pebFragment
  rw [hhdr.pebsCount] at hmem
  rw [hhdr.startPeb]
  obtain ⟨-, -, -, hfresh⟩ := Tables.fresh_pebtbl hmem
  rw [hfresh] at hmem ⊢
  unfold freshPebTable lebtblSlot at *
  simp only [Nat.div_add_mod] at *
  exact ⟨hmem, rfl⟩

theorem Tables.InOrder.next (hacc : layout.Accepted) (h : t₀.InOrder layout t lebs)
    (hheaders : (Tables.fresh layout n).SameHeaders t)
    (hmaps : MapsLeb layout t t' leb peb slot i j type) :
    t₀.Ranked layout (stripeKey layout leb) (takenFrom layout (stripeKey layout leb) lebs) j ∧
      peb = layout.stripeStart (leb / layout.maptbl.pebsPerPortion) (stripeOf layout leb) + j := by
  have hpeb := (hmaps.stripe_header hacc hheaders).2
  obtain rfl := hmaps.stripe_eq hacc hheaders
  obtain ⟨-, rfl, -, -, -, -, -, -, -, hclear, hfirst, -, -⟩ := hmaps
  obtain ⟨hgood, hrank⟩ := (h.used (stripeKey layout leb)).next hclear hfirst
  exact ⟨⟨hgood, hrank⟩, hpeb⟩

theorem Tables.InOrder.step (hacc : layout.Accepted) (h : t₀.InOrder layout t lebs)
    (hheaders : (Tables.fresh layout n).SameHeaders t)
    (hmaps : MapsLeb layout t t' leb peb slot i j type) :
    t₀.InOrder layout t' (lebs ++ [leb]) := by
  obtain ⟨hranked, -⟩ := h.next hacc hheaders hmaps
  obtain rfl := hmaps.stripe_eq hacc hheaders
  obtain ⟨hleb, rfl, hget, hdesc, -, -, hj, hindex, hmem, -, -, -, rfl⟩ := hmaps
  constructor
  case fits =>
    intro key
    have hhdr := t.mapAt_pebHeader (lebtblSlot layout leb) (stripeOf layout leb) j type
      (key.1 / layout.maptbl.portionsPerFragment) (key.1 % layout.maptbl.portionsPerFragment) key.2
    rw [hhdr.pebsCount, takenFrom_snoc]
    split
    case isTrue heq =>
      subst heq
      rw [← hranked.rank_eq]
      exact (Bitmap.clearBefore_lt_iff hranked.good).2 hmem
    case isFalse => exact h.fits key
  case used =>
    intro key
    rw [stripe_mapAt_used, takenFrom_snoc]
    split
    case isTrue heq =>
      subst heq
      exact (h.used _).set hranked.good hranked.rank_eq
    case isFalse => exact h.used key
  case described =>
    intro leb' hmem
    rw [mapAt_described]
    rcases List.mem_append.1 hmem with hmem | hmem
    · exact h.described leb' hmem
    · obtain rfl := List.mem_singleton.1 hmem
      exact ⟨hleb, hdesc⟩
  case decodes =>
    intro before leb' after hlebs hlast
    rcases List.eq_nil_or_concat after with rfl | ⟨rest, y, rfl⟩
    · obtain ⟨rfl, hc⟩ := List.append_inj' hlebs rfl
      obtain rfl := List.singleton_inj.1 hc
      exact ⟨j, hranked, hindex, decodeLeb_mapAt_self hget hj type⟩
    · have hsnoc : lebs ++ [leb] = (before ++ leb' :: rest) ++ [y] := by
        rw [hlebs, List.concat_eq_append, List.append_assoc, List.cons_append]
      obtain ⟨hprev, hy⟩ := List.append_inj' hsnoc rfl
      obtain rfl := List.singleton_inj.1 hy
      rw [List.concat_eq_append, List.mem_append, List.mem_singleton, not_or] at hlast
      obtain ⟨item, hranked', hindex', hdecodes⟩ := h.decodes before leb' rest hprev hlast.1
      have hsmall := (h.described leb' (hprev ▸ List.mem_append_cons_self)).1
      exact ⟨item, hranked', hindex', decodeLeb_mapAt_of_ne hacc hsmall hlast.2 hdecodes _ j type⟩

end Step

section Run

variable {layout : VolumeLayout} {n : Nat} {st : MapState} {t : Tables} {c : MaptblCache}
  {a : SegsArray} {done : List (Nat × Nat)} {site : Nat × Nat}

namespace SegsArray

variable (a)

@[simp] theorem lebs_nil : a.lebs [] = [] := rfl

@[simp] theorem lebs_append (sites sites' : List (Nat × Nat)) :
    a.lebs (sites ++ sites') = a.lebs sites ++ a.lebs sites' := by
  unfold lebs
  rw [List.filter_append, List.map_append]

@[simp] theorem lebs_cons (site : Nat × Nat) (sites : List (Nat × Nat)) :
    a.lebs (site :: sites) =
      if a.lebAt site = Word.u64Max then a.lebs sites else a.lebAt site :: a.lebs sites := by
  unfold lebs
  rw [List.filter_cons]
  split
  case isTrue hleb => rw [if_neg (by simpa using hleb), List.map_cons]
  case isFalse hleb => rw [if_pos (by simpa using hleb)]

end SegsArray

/-- A run keeps the tables' invariant and the order in which the PEBs are given away. -/
theorem forEach_mapSite_inOrder (hacc : layout.Accepted) (hn : n < 65535)
    (hmarked : (Tables.fresh layout n).Marked t)
    (hrun : Checked.forEach (mapSite layout) done ⟨t, c, a⟩ = .ok st) :
    a.SameShape st.segs ∧ st.tables.Taken layout n t ∧
      t.InOrder layout st.tables (a.lebs done) := by
  induction done using List.reverseRecOn generalizing st with
  | nil =>
    cases hrun
    refine ⟨⟨rfl, fun _ => rfl, rfl, rfl⟩, hmarked.taken, fun key => Bitmap.firstTaken_zero,
      fun key => Nat.zero_le _, ?_, ?_⟩
    · exact fun leb h => absurd h List.not_mem_nil
    · exact fun before leb after h => by simp [SegsArray.lebs] at h
  | append_singleton done site ih =>
    rw [Checked.forEach_append] at hrun
    obtain ⟨u, hu, hrun⟩ := Checked.bind_eq_ok.1 hrun
    rw [Checked.forEach_singleton] at hrun
    obtain ⟨hshape, htaken, horder⟩ := ih hu
    refine ⟨mapSite_shape hshape hrun, ?_⟩
    rw [SegsArray.lebs_append, SegsArray.lebs_cons, hshape.lebAt]
    rcases mapSite_ok hrun with ⟨hleb, rfl⟩ | ⟨hleb, tables, peb, cache, hpeb, hcall, rfl⟩
    · rw [if_pos hleb, SegsArray.lebs_nil, List.append_nil]
      exact ⟨htaken, horder⟩
    · obtain ⟨slot, i, j, type, hmaps⟩ := mapLeb2peb_ok hacc hn htaken.toSameHeaders hcall hpeb
      rw [if_neg hleb]
      exact ⟨htaken.step hmaps, horder.step hacc htaken.toSameHeaders hmaps⟩

theorem forEach_mapSite_call {rest : List (Nat × Nat)}
    (hrun : Checked.forEach (mapSite layout) (done ++ site :: rest) ⟨t, c, a⟩ = .ok st)
    (hleb : a.lebAt site ≠ Word.u64Max) :
    ∃ u t' peb, Checked.forEach (mapSite layout) done ⟨t, c, a⟩ = .ok u ∧
      mapLeb2peb layout u.tables (a.lebAt site) (u.segs.segs site.1).segType = .ok (t', peb) ∧
      peb ≠ Word.u64Max := by
  rw [Checked.forEach_append] at hrun
  obtain ⟨u, hu, hrun⟩ := Checked.bind_eq_ok.1 hrun
  obtain ⟨v, hv, -⟩ := Checked.bind_eq_ok.1 hrun
  have hshape : a.SameShape u.segs := Checked.forEach_inv (fun w => a.SameShape w.segs) hu
    ⟨rfl, fun _ => rfl, rfl, rfl⟩ fun s w w' hw => mapSite_shape hw
  rw [hshape.lebAt] at hleb ⊢
  rcases mapSite_ok hv with ⟨hmax, -⟩ | ⟨-, tables, peb, cache, hpeb, hcall, -⟩
  · exact absurd hmax hleb
  · exact ⟨u, tables, peb, hu, hcall, hpeb⟩

end Run

end Ssdfs
