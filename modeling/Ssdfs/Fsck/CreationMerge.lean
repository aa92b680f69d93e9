import Ssdfs.Fsck.CreationPoint

namespace Ssdfs

/-- The map is the list, in a memory that was doubled as often as needed. -/
structure MetadataMap.Holds (map : MetadataMap) (l : List MetadataPebItem) : Prop where
  items : map.items = l
  fits : map.count ≤ map.capacity
  capacity : map.capacity = 0 ∨ ∃ k ≤ 27, map.capacity = 8 * 2 ^ k

section

variable {map map' : MetadataMap} {l : List MetadataPebItem} {item : MetadataPebItem}

theorem MetadataMap.init_holds : MetadataMap.init.Holds [] :=
  ⟨rfl, Nat.le_refl 0, .inl rfl⟩

theorem MetadataMap.Holds.count (h : map.Holds l) : map.count = l.length := by
  have hlength := congrArg List.length h.items
  unfold MetadataMap.items at hlength
  rwa [List.length_map, List.length_range] at hlength

theorem resizeMetadataMap_holds (h : map.Holds l) :
    (∃ map', resizeMetadataMap map = .ok map' ∧ map'.Holds l ∧ map'.count < map'.capacity) ∨
      resizeMetadataMap map = fail .enomem ∧ 1073741824 ≤ l.length := by
  have hcount := h.count
  have hfits := h.fits
  unfold resizeMetadataMap MetadataMap.isExhausted
  rcases h.capacity with hzero | ⟨k, hk, hcapacity⟩
  · have hexhausted : decide (map.capacity = 0 ∨ map.count ≥ map.capacity) = true :=
      decide_eq_true (.inl hzero)
    rw [hexhausted, if_neg (by decide), if_pos hzero]
    exact .inl ⟨_, rfl, ⟨h.items, by simp only [metadataMapCapacityMin]; omega, .inr ⟨0, by decide, rfl⟩⟩,
      by simp only [metadataMapCapacityMin]; omega⟩
  · have hpos := Nat.two_pow_pos k
    rcases Nat.lt_or_ge map.count map.capacity with hroom | hfull
    · have hroomy : decide (map.capacity = 0 ∨ map.count ≥ map.capacity) = false :=
        decide_eq_false (by omega)
      rw [hroomy, if_pos rfl]
      exact .inl ⟨map, rfl, h, hroom⟩
    · have hexhausted : decide (map.capacity = 0 ∨ map.count ≥ map.capacity) = true :=
        decide_eq_true (.inr hfull)
      rw [hexhausted, if_neg (by decide), if_neg (by omega)]
      rcases Nat.lt_or_ge k 27 with hlt | hge
      · have hdouble : 2 ^ (k + 1) ≤ 2 ^ 27 := Nat.pow_le_pow_right (by decide) hlt
        have hpow : 2 ^ (k + 1) = 2 ^ k * 2 := Nat.pow_succ ..
        rw [failIf_of_not (by unfold intMax; omega), Checked.ok_bind]
        exact .inl ⟨_, rfl, ⟨h.items, by simp only; omega, .inr ⟨k + 1, hlt, by simp only; omega⟩⟩,
          by simp only; omega⟩
      · obtain rfl : k = 27 := by omega
        have hlarge : map.capacity * 2 > intMax := by
          rw [hcapacity]
          decide
        refine .inr ⟨?_, by omega⟩
        unfold failIf
        rw [if_pos hlarge]
        rfl

theorem MetadataMap.Holds.put (h : map.Holds l) (hroom : map.count < map.capacity) :
    ∃ map', map.put item = .ok map' ∧ map'.Holds (l ++ [item]) := by
  unfold MetadataMap.put
  rw [if_pos hroom]
  refine ⟨_, rfl, ?_, hroom, h.capacity⟩
  rw [← h.items]
  unfold MetadataMap.items
  simp only
  rw [List.range_succ, List.map_append, List.map_singleton, Function.update_self]
  congr 1
  refine List.map_congr_left fun i hi => Function.update_of_ne ?_ ..
  exact Nat.ne_of_lt (List.mem_range.1 hi)

theorem MetadataMap.Collected.holds (h : map.Collected) : ∃ l, map.Holds l ∧
    ∀ item ∈ l, (metadataMapIndex item.type).isSome := by
  induction h with
  | init => exact ⟨[], MetadataMap.init_holds, fun item hitem => (List.not_mem_nil hitem).elim⟩
  | @add map map' pebId hdr _ hadd ih =>
    obtain ⟨l, hholds, hknown⟩ := ih
    unfold metadataMapAddPebDescriptor at hadd
    rcases resizeMetadataMap_holds hholds with ⟨larger, hresize, hlarger, hroom⟩ | ⟨hfail, -⟩
    · rw [hresize, Checked.ok_bind] at hadd
      cases htype : collectedPebType hdr.segType with
      | none =>
        rw [htype] at hadd
        cases hadd
      | some type =>
        rw [htype] at hadd
        simp only at hadd
        obtain ⟨map'', hput, hholds'⟩ := @MetadataMap.Holds.put _ _
          ⟨hdr.segId, hdr.lebId, pebId, type, hdr.pebCreateTime, hdr.createTime⟩ hlarger hroom
        obtain rfl := Except.ok.inj (hput.symm.trans hadd)
        refine ⟨_, hholds', fun item hitem => ?_⟩
        rcases List.mem_append.1 hitem with hold | hnew
        · exact hknown item hold
        · obtain rfl := List.mem_singleton.1 hnew
          revert htype
          cases hdr.segType <;> simp only [collectedPebType] <;> intro htype <;> cases htype <;> rfl
    · rw [hfail] at hadd
      cases hadd

end

/-- The items `done` have been merged into the points. -/
structure CreationArray.Merged (done : List MetadataPebItem) (array : CreationArray) : Prop where
  ascending : array.points.Pairwise fun p q =>
    p.volumeCreationTimestamp.toNat < q.volumeCreationTimestamp.toNat
  maps : ∀ point ∈ array.points, ∀ index, (point.metadataMap index).Holds (done.filter fun item =>
    item.volumeCreationTimestamp = point.volumeCreationTimestamp ∧
      metadataMapIndex item.type = some index)
  complete : ∀ item ∈ done, ∃ point ∈ array.points,
    point.volumeCreationTimestamp = item.volumeCreationTimestamp

def CreationArray.Ready (array : CreationArray) : Prop :=
  array.state = .allocated ∧ array.points ≠ [] ∨
    array.state = .useBuffer ∧ ∃ point, array.points = [point]

/-- At most `extra` of the points are without an item. -/
structure CreationArray.Merging (done : List MetadataPebItem) (extra : Nat) (array : CreationArray) :
    Prop extends array.Merged done where
  ready : array.Ready
  few : array.points.length ≤ done.length + extra

def CreationArray.HasPoint (createTime : UInt64) (array : CreationArray) : Prop :=
  ∃ point ∈ array.points, point.volumeCreationTimestamp = createTime

def PointAdded (done : List MetadataPebItem) (createTime : UInt64) (r : Mkfs CreationArray) : Prop :=
  (∃ array, r = .ok array ∧ array.Merging done 2 ∧ array.HasPoint createTime) ∨
    r = fail .enomem ∧ intMax ≤ done.length + 1

section

variable {array : CreationArray} {done : List MetadataPebItem} {createTime : UInt64} {extra i : Nat}

theorem findCreationPoint_eq (h : array.Ready) : findCreationPoint createTime array =
    array.points.findIdx? fun point => point.volumeCreationTimestamp = createTime := by
  unfold findCreationPoint
  rcases h with ⟨hstate, -⟩ | ⟨hstate, -⟩ <;> rw [hstate]

theorem findCreationPoint_some (h : array.Ready) (hfind : findCreationPoint createTime array = some i) :
    ∃ point, array.points[i]? = some point ∧ point.volumeCreationTimestamp = createTime := by
  rw [findCreationPoint_eq h] at hfind
  obtain ⟨hi, htime, -⟩ := List.findIdx?_eq_some_iff_getElem.1 hfind
  exact ⟨_, List.getElem?_eq_getElem hi, of_decide_eq_true htime⟩

theorem findCreationPoint_none (h : array.Ready) (hfind : findCreationPoint createTime array = none) :
    ¬array.HasPoint createTime := by
  rw [findCreationPoint_eq h] at hfind
  rintro ⟨point, hpoint, htime⟩
  have hfalse := List.findIdx?_eq_none_iff.1 hfind point hpoint
  rw [decide_eq_true htime] at hfalse
  cases hfalse

theorem CreationArray.Merged.filter_none (h : array.Merged done) (hnew : ¬array.HasPoint createTime)
    (index : SegType) : (done.filter fun item => item.volumeCreationTimestamp = createTime ∧
      metadataMapIndex item.type = some index) = [] := by
  refine List.filter_eq_nil_iff.2 fun item hitem htime => ?_
  obtain ⟨point, hpoint, heq⟩ := h.complete item hitem
  exact hnew ⟨point, hpoint, heq.trans (of_decide_eq_true htime).1⟩

theorem insertCreationPoint_added (h : array.Merging done 1) (hnew : ¬array.HasPoint createTime) :
    PointAdded done createTime (insertCreationPoint createTime array.points) := by
  have hfew := h.few
  unfold insertCreationPoint
  by_cases hlarge : array.points.length + 1 > intMax
  · refine .inr ⟨?_, by omega⟩
    unfold failIf
    rw [if_pos hlarge]
    rfl
  · rw [failIf_of_not hlarge, Checked.ok_bind]
    refine .inl ⟨_, rfl, ⟨⟨?_, fun point hpoint index => ?_, fun item hitem => ?_⟩,
      .inl ⟨rfl, fun hnil => ?_⟩, ?_⟩, _, mem_insertBefore.2 (.inl rfl), rfl⟩
    · exact @pairwise_insertBefore _ { CreationPoint.init with volumeCreationTimestamp := createTime } _
        (fun point => point.volumeCreationTimestamp.toNat) h.ascending fun point hpoint heq =>
          hnew ⟨point, hpoint, UInt64.toNat_inj.1 heq⟩
    · rcases mem_insertBefore.1 hpoint with rfl | hold
      · rw [h.filter_none hnew]
        exact MetadataMap.init_holds
      · exact h.maps point hold index
    · obtain ⟨point, hpoint, htime⟩ := h.complete item hitem
      exact ⟨point, mem_insertBefore.2 (.inr hpoint), htime⟩
    · exact List.ne_nil_of_mem (mem_insertBefore.2 (.inl rfl)) hnil
    · rw [length_insertBefore]
      omega

theorem addCreationPoint_added (h : array.Merging done 1)
    (hsentinel : ∀ item ∈ done, item.volumeCreationTimestamp < 0xFFFFFFFFFFFFFFFF)
    (hnew : ¬array.HasPoint createTime) : PointAdded done createTime (addCreationPoint createTime array) := by
  have hinsert := insertCreationPoint_added h hnew
  obtain ⟨state, points⟩ := array
  rcases h.ready with ⟨hstate, hne⟩ | ⟨hstate, point, hpoints⟩
  · obtain rfl : state = .allocated := hstate
    obtain ⟨p, ps, rfl⟩ := List.exists_cons_of_ne_nil hne
    cases ps with
    | nil | cons => exact hinsert
  · obtain rfl : state = .useBuffer := hstate
    obtain rfl : points = [point] := hpoints
    change PointAdded done createTime (if point.volumeCreationTimestamp ≥ 0xFFFFFFFFFFFFFFFF then _ else _)
    by_cases hunused : point.volumeCreationTimestamp ≥ 0xFFFFFFFFFFFFFFFF
    · have hnone : done = [] := List.eq_nil_iff_forall_not_mem.2 fun item hitem => by
        obtain ⟨p, hp, htime⟩ := h.complete item hitem
        obtain rfl := List.mem_singleton.1 hp
        have hlt := hsentinel item hitem
        rw [← htime] at hlt
        exact absurd hlt (UInt64.not_lt.2 hunused)
      rw [if_pos hunused, hnone]
      exact .inl ⟨_, rfl, ⟨⟨List.pairwise_singleton .., fun p hp index => by
        obtain rfl := List.mem_singleton.1 hp
        exact MetadataMap.init_holds, fun item hitem => (List.not_mem_nil hitem).elim⟩,
        .inr ⟨rfl, _, rfl⟩, Nat.le_succ 1⟩, _, List.mem_singleton_self _, rfl⟩
    · rw [if_neg hunused]
      exact hinsert

theorem findOrAddCreationPoint_located (h : array.Merging done 1)
    (hsentinel : ∀ item ∈ done, item.volumeCreationTimestamp < 0xFFFFFFFFFFFFFFFF) :
    (∃ array' i point, findOrAddCreationPoint createTime array = .ok (array', i) ∧
      array'.Merging done 2 ∧ array'.points[i]? = some point ∧
      point.volumeCreationTimestamp = createTime) ∨
      findOrAddCreationPoint createTime array = fail .enomem ∧ intMax ≤ done.length + 1 := by
  unfold findOrAddCreationPoint
  cases hfind : findCreationPoint createTime array with
  | some i =>
    obtain ⟨point, hpoint, htime⟩ := findCreationPoint_some h.ready hfind
    exact .inl ⟨array, i, point, rfl, ⟨h.toMerged, h.ready, Nat.le_succ_of_le h.few⟩, hpoint, htime⟩
  | none =>
    rcases addCreationPoint_added h hsentinel (findCreationPoint_none h.ready hfind) with
      ⟨array', hadd, hmerging, hhas⟩ | ⟨hfail, hlarge⟩
    · simp only
      rw [hadd, Checked.ok_bind]
      cases hfind' : findCreationPoint createTime array' with
      | some i =>
        obtain ⟨point, hpoint, htime⟩ := findCreationPoint_some hmerging.ready hfind'
        exact .inl ⟨array', i, point, rfl, hmerging, hpoint, htime⟩
      | none => exact absurd hhas (findCreationPoint_none hmerging.ready hfind')
    · simp only
      rw [hfail]
      exact .inr ⟨rfl, hlarge⟩

theorem CreationPoint.addItem_holds {point : CreationPoint} {index : SegType} {item : MetadataPebItem}
    {l : List MetadataPebItem} (h : (point.metadataMap index).Holds l) :
    (∃ map flags, point.addItem item index = .ok { point with
        metadataMap := Function.update point.metadataMap index map, foundMetadata := flags } ∧
      map.Holds (l ++ [item])) ∨
      point.addItem item index = fail .enomem ∧ 1073741824 ≤ l.length := by
  unfold CreationPoint.addItem
  rcases resizeMetadataMap_holds h with ⟨larger, hresize, hlarger, hroom⟩ | ⟨hfail, hlarge⟩
  · obtain ⟨map, hput, hholds⟩ := @MetadataMap.Holds.put _ _ item hlarger hroom
    rw [hresize, Checked.ok_bind, hput, Checked.ok_bind]
    exact .inl ⟨map, _, rfl, hholds⟩
  · rw [hfail]
    exact .inr ⟨rfl, hlarge⟩

theorem filter_append_singleton {α : Type} {p : α → Bool} {l : List α} {a : α} :
    (l ++ [a]).filter p = if p a then l.filter p ++ [a] else l.filter p := by
  rw [List.filter_append]
  cases h : p a
  · rw [List.filter_cons_of_neg (by rw [h]; decide), List.filter_nil, List.append_nil, if_neg (by decide)]
  · rw [List.filter_cons_of_pos h, List.filter_nil, if_pos rfl]

theorem CreationArray.Merging.set (h : array.Merging done 2) {item : MetadataPebItem} {index : SegType}
    {point : CreationPoint} {map : MetadataMap} {flags : UInt64}
    (hindex : metadataMapIndex item.type = some index) (hpoint : array.points[i]? = some point)
    (htime : point.volumeCreationTimestamp = item.volumeCreationTimestamp)
    (hmap : map.Holds ((done.filter fun item => item.volumeCreationTimestamp = point.volumeCreationTimestamp ∧
      metadataMapIndex item.type = some index) ++ [item])) :
    CreationArray.Merging (done ++ [item]) 1 { array with points := array.points.set i { point with
      metadataMap := Function.update point.metadataMap index map, foundMetadata := flags } } := by
  obtain ⟨hi, hget⟩ := List.getElem?_eq_some_iff.1 hpoint
  generalize hnew : ({ point with
    metadataMap := Function.update point.metadataMap index map, foundMetadata := flags } : CreationPoint) =
      new
  have hnewTime : new.volumeCreationTimestamp = point.volumeCreationTimestamp := by rw [← hnew]
  have htimes : (array.points.set i new).map CreationPoint.volumeCreationTimestamp =
      array.points.map CreationPoint.volumeCreationTimestamp := by
    rw [List.map_set, hnewTime, ← hget, ← List.getElem_map CreationPoint.volumeCreationTimestamp,
      List.set_getElem_self]
    rwa [List.length_map]
  have hascending : List.Pairwise (fun a b : UInt64 => a.toNat < b.toNat)
      (array.points.map CreationPoint.volumeCreationTimestamp) := List.pairwise_map.2 h.ascending
  rw [← htimes] at hascending
  refine ⟨⟨?_, fun p hp idx => ?_, fun it hit => ?_⟩, ?_, ?_⟩
  · exact (List.pairwise_map (f := CreationPoint.volumeCreationTimestamp)).1 hascending
  · obtain ⟨j, hj, rfl⟩ := List.mem_iff_getElem.1 hp
    rw [List.length_set] at hj
    rw [List.getElem_set, filter_append_singleton]
    by_cases hij : i = j
    · subst hij
      rw [if_pos rfl, hnewTime]
      by_cases hidx : idx = index
      · subst hidx
        rw [if_pos (decide_eq_true ⟨htime.symm, hindex⟩), ← hnew]
        simp only [Function.update_self]
        exact hmap
      · rw [if_neg (by
          simp only [decide_eq_true_eq, hindex, Option.some_inj]
          exact fun hboth => hidx hboth.2.symm), ← hnew]
        simp only [Function.update_of_ne hidx]
        exact h.maps point (List.mem_of_getElem? hpoint) idx
    · rw [if_neg hij]
      have hne : item.volumeCreationTimestamp ≠ array.points[j].volumeCreationTimestamp := fun heq => by
        have heq' : array.points[i].volumeCreationTimestamp = array.points[j].volumeCreationTimestamp := by
          rw [hget, htime, heq]
        have horder := List.pairwise_iff_getElem.1 h.ascending
        rcases Nat.lt_or_gt_of_ne hij with hlt | hgt
        · have hless := horder i j hi hj hlt
          rw [heq'] at hless
          exact Nat.lt_irrefl _ hless
        · have hless := horder j i hj hi hgt
          rw [heq'] at hless
          exact Nat.lt_irrefl _ hless
      rw [if_neg fun hboth => hne (of_decide_eq_true hboth).1]
      exact h.maps _ (List.getElem_mem hj) idx
  · have hmem : it.volumeCreationTimestamp ∈
        (array.points.set i new).map CreationPoint.volumeCreationTimestamp := by
      rw [htimes]
      rcases List.mem_append.1 hit with hold | hlast
      · exact List.mem_map.2 (h.complete it hold)
      · obtain rfl := List.mem_singleton.1 hlast
        exact List.mem_map.2 ⟨point, List.mem_of_getElem? hpoint, htime⟩
    exact List.mem_map.1 hmem
  · rcases h.ready with ⟨hstate, hne⟩ | ⟨hstate, only, honly⟩
    · refine .inl ⟨hstate, fun hnil => hne (List.length_eq_zero_iff.1 ?_)⟩
      have hlength := congrArg List.length hnil
      rwa [List.length_set] at hlength
    · refine .inr ⟨hstate, List.length_eq_one_iff.1 ?_⟩
      simp only
      rw [List.length_set, honly]
      rfl
  · have hfew := h.few
    simp only [List.length_set, List.length_append, List.length_singleton]
    omega

theorem processMetadataMapItem_merging {item : MetadataPebItem} (h : array.Merging done 1)
    (hsentinel : ∀ item ∈ done, item.volumeCreationTimestamp < 0xFFFFFFFFFFFFFFFF)
    (hknown : (metadataMapIndex item.type).isSome) :
    (∃ array', processMetadataMapItem item array = .ok array' ∧ array'.Merging (done ++ [item]) 1) ∨
      processMetadataMapItem item array = fail .enomem ∧ 1073741824 ≤ done.length := by
  obtain ⟨index, hindex⟩ := Option.isSome_iff_exists.1 hknown
  unfold processMetadataMapItem
  rcases @findOrAddCreationPoint_located _ _ item.volumeCreationTimestamp h hsentinel with
    ⟨array', i, point, hfind, hmerging, hpoint, htime⟩ | ⟨hfail, hlarge⟩
  · rw [hfind, Checked.ok_bind]
    simp only [hindex, hpoint]
    rcases @CreationPoint.addItem_holds point index item _
      (hmerging.maps point (List.mem_of_getElem? hpoint) index) with ⟨map, flags, hadd, hmap⟩ | ⟨hfail, hlarge⟩
    · rw [hadd, Checked.ok_bind]
      exact .inl ⟨_, rfl, hmerging.set hindex hpoint htime hmap⟩
    · rw [hfail]
      have hle := List.length_filter_le (fun item : MetadataPebItem =>
        decide (item.volumeCreationTimestamp = point.volumeCreationTimestamp ∧
          metadataMapIndex item.type = some index)) done
      exact .inr ⟨rfl, by omega⟩
  · rw [hfail]
    unfold intMax at hlarge
    exact .inr ⟨rfl, by omega⟩

theorem forEach_item_merging {items : List MetadataPebItem} (h : array.Merging done 1)
    (hsentinel : ∀ item ∈ done ++ items, item.volumeCreationTimestamp < 0xFFFFFFFFFFFFFFFF)
    (hknown : ∀ item ∈ items, (metadataMapIndex item.type).isSome) :
    (∃ array', Checked.forEach processMetadataMapItem items array = .ok array' ∧
      array'.Merging (done ++ items) 1) ∨
      Checked.forEach processMetadataMapItem items array = fail .enomem ∧
        1073741824 < (done ++ items).length := by
  induction items generalizing done array with
  | nil =>
    rw [List.append_nil]
    exact .inl ⟨array, rfl, h⟩
  | cons item items ih =>
    have happend : done ++ item :: items = (done ++ [item]) ++ items := by
      rw [List.append_assoc, List.singleton_append]
    unfold Checked.forEach
    rcases processMetadataMapItem_merging h (fun it hit => hsentinel it (List.mem_append_left _ hit))
      (hknown item List.mem_cons_self) with ⟨array', hitem, hmerging⟩ | ⟨hfail, hlarge⟩
    · rw [hitem, Checked.ok_bind, happend]
      rw [happend] at hsentinel
      exact ih hmerging hsentinel fun it hit => hknown it (List.mem_cons_of_mem item hit)
    · rw [hfail]
      refine .inr ⟨rfl, ?_⟩
      rw [List.length_append, List.length_cons]
      omega

end

theorem mergeMetadataMaps_eq {threads : List MetadataMap} {array : CreationArray} :
    mergeMetadataMaps threads array =
      Checked.forEach processMetadataMapItem (threads.flatMap MetadataMap.items) array := by
  have hthread : processThreadMetadataMap =
      fun map => Checked.forEach processMetadataMapItem (MetadataMap.items map) := by
    funext map array
    unfold MetadataMap.items
    rw [Checked.forEach_map, Checked.forEach_range]
    rfl
  unfold mergeMetadataMaps
  rw [Checked.forEach_flatMap, hthread]

/-- What the threads have collected comes together, unless it is more than the maps can hold. -/
theorem mergeMetadataMaps_merged {threads : List MetadataMap} {point : CreationPoint}
    (hcollected : ∀ map ∈ threads, map.Collected) (hfresh : ∀ index, point.metadataMap index = .init)
    (hsentinel : ∀ map ∈ threads, ∀ item ∈ map.items,
      item.volumeCreationTimestamp < 0xFFFFFFFFFFFFFFFF) :
    (∃ array, mergeMetadataMaps threads ⟨.useBuffer, [point]⟩ = .ok array ∧
      array.Merged (threads.flatMap MetadataMap.items)) ∨
      mergeMetadataMaps threads ⟨.useBuffer, [point]⟩ = fail .enomem ∧
        1073741824 < (threads.flatMap MetadataMap.items).length := by
  have hstart : CreationArray.Merging [] 1 ⟨.useBuffer, [point]⟩ :=
    ⟨⟨List.pairwise_singleton .., fun p hp index => by
      obtain rfl := List.mem_singleton.1 hp
      rw [hfresh]
      exact MetadataMap.init_holds, fun item hitem => (List.not_mem_nil hitem).elim⟩,
      .inr ⟨rfl, point, rfl⟩, Nat.le_refl 1⟩
  have hrun := @forEach_item_merging _ [] (threads.flatMap MetadataMap.items) hstart
    (fun item hitem => by
      obtain ⟨map, hmap, hitem⟩ := List.mem_flatMap.1 hitem
      exact hsentinel map hmap item hitem)
    fun item hitem => by
      obtain ⟨map, hmap, hitem⟩ := List.mem_flatMap.1 hitem
      obtain ⟨l, hholds, hknown⟩ := (hcollected map hmap).holds
      rw [hholds.items] at hitem
      exact hknown item hitem
  rw [mergeMetadataMaps_eq]
  rcases hrun with ⟨array, hok, hmerging⟩ | ⟨hfail, hlarge⟩
  · exact .inl ⟨array, hok, hmerging.toMerged⟩
  · exact .inr ⟨hfail, hlarge⟩

/-- Two threads have found a PEB each, of volumes created one after the other. -/
theorem mergeMetadataMaps_two : ∃ older newer array, older.Collected ∧ newer.Collected ∧
    mergeMetadataMaps [newer, older] ⟨.useBuffer, [.init]⟩ = .ok array ∧
      array.Merged (newer.items ++ older.items) := by
  obtain ⟨older, holder⟩ : ∃ map, metadataMapAddPebDescriptor 5 ⟨0, 0, .sb, 7, 100⟩ .init = .ok map :=
    Checked.exists_ok rfl
  obtain ⟨newer, hnewer⟩ : ∃ map, metadataMapAddPebDescriptor 6 ⟨1, 1, .maptbl, 8, 200⟩ .init = .ok map :=
    Checked.exists_ok rfl
  have hcollected : older.Collected ∧ newer.Collected := ⟨.add .init holder, .add .init hnewer⟩
  have holder : older.items = [⟨0, 0, 5, .sbseg, 7, 100⟩] := by
    obtain rfl := Except.ok.inj holder
    rfl
  have hnewer : newer.items = [⟨1, 1, 6, .maptbl, 8, 200⟩] := by
    obtain rfl := Except.ok.inj hnewer
    rfl
  have hmerge := @mergeMetadataMaps_merged [newer, older] .init
    (by simp [hcollected]) (fun _ => rfl) (by simp [holder, hnewer])
  rw [List.flatMap_cons, List.flatMap_singleton] at hmerge
  rcases hmerge with ⟨array, hok, hmerged⟩ | ⟨-, hlarge⟩
  · exact ⟨older, newer, array, hcollected.1, hcollected.2, hok, hmerged⟩
  · rw [holder, hnewer] at hlarge
    exact absurd hlarge (by decide)

end Ssdfs
