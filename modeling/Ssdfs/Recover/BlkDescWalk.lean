import Mathlib.Data.List.Perm.Subperm
import Ssdfs.Recover.BlkDescRun
import Ssdfs.Recover.PebLogs

namespace Ssdfs

open Memory

section

variable (crc32 : List UInt8 → UInt32)
  (decompress : UInt8 → Buf → Nat → Nat → Buf → Nat → Mkfs Buf)

def HasMoreFragments (area : RawAreaEnvironment) : Prop :=
  area.blkDescHdr.chainHdr.magic = chainHdrMagic ∧
    (area.iter.fragmentIndex % 65536).toNat < area.blkDescHdr.chainHdr.fragmentsCount.toNat ∧
    Word.u16 ((area.iter.fragmentIndex % 65536).toNat + 1) ≠
      area.blkDescHdr.chainHdr.fragmentsCount.toNat

instance {area : RawAreaEnvironment} : Decidable (HasMoreFragments area) :=
  inferInstanceAs (Decidable (_ ∧ _ ∧ _))

def tableRead (area : RawAreaEnvironment) : Option Nat :=
  match area.buffer, area.iter.state with
  | none, _ => none
  | some _, .unknown => some 0
  | some _, .initialized => none
  | some buffer, .processed =>
    if HasMoreFragments area then
      let startFragment := Word.u16 ((area.iter.fragmentIndex % 65536).toNat + 1)
      match extractValidBlkDescFragment crc32 decompress buffer startFragment area with
      | .error (.code .enodata) => some (Word.u32 (area.iter.portionOffset + area.iter.portionSize))
      | _ => none
    else none

def ItemWhole (area : RawAreaEnvironment) : Prop :=
  ∀ area', prepareContentBuffer crc32 decompress area = .ok area' →
    area'.iter.itemOffset + blockDescriptorSize ≤ rawSize area'.uncompressed →
    area'.iter.itemOffset + blockDescriptorSize ≤ area'.iter.fragmentSize

end

/-- An iterator inside fragment `k` of a table. -/
structure IterPlaced (iter : RawContentIterator) (k : Nat) : Prop where
  fragment : iter.fragmentIndex = k
  index : k < blkTableMax
  item : iter.itemSize = blockDescriptorSize
  offset : iter.itemOffset < 65536
  size : iter.fragmentSize < 65536

section

variable {crc32 : List UInt8 → UInt32} {decompress : UInt8 → Buf → Nat → Nat → Buf → Nat → Mkfs Buf}
  {area area' : RawAreaEnvironment} {buffer : Buf} {i start : Nat} {d : BlockDescriptor}

structure Started (area area' : RawAreaEnvironment) (i : Nat) : Prop where
  state : area'.iter.state = .initialized
  offset : area'.iter.itemOffset = 0
  placed : IterPlaced area'.iter i
  buffer : area'.buffer = area.buffer

theorem copyBlkDescFragment_started (h : copyBlkDescFragment crc32 decompress buffer i area = .ok area') :
    Started area area' i := by
  unfold copyBlkDescFragment at h
  simp only at h
  rw [failIf_bind_eq_ok, failIf_bind_eq_ok] at h
  obtain ⟨-, -, h⟩ := h
  split at h
  case isFalse => cases h
  case isTrue hi =>
    rw [failIf_bind_eq_ok, failIf_bind_eq_ok] at h
    obtain ⟨-, -, h⟩ := h
    obtain ⟨dst, -, h⟩ := Checked.bind_eq_ok.1 h
    obtain ⟨-, -, h⟩ := Checked.bind_eq_ok.1 h
    cases h
    exact ⟨rfl, rfl, ⟨rfl, hi, rfl, (by decide : 0 < 65536), UInt16.toNat_lt _⟩, rfl⟩

theorem firstValidFragment_started {is : List Nat}
    (h : firstValidFragment crc32 decompress buffer area is = .ok area') :
    ∃ i ∈ is, Started area area' i := by
  induction is with
  | nil => cases h
  | cons i is ih =>
    unfold firstValidFragment at h
    split at h
    · obtain ⟨j, hj, hstarted⟩ := ih h
      exact ⟨j, List.mem_cons_of_mem i hj, hstarted⟩
    · exact ⟨i, List.mem_cons_self, copyBlkDescFragment_started h⟩

theorem extractValidBlkDescFragment_started
    (h : extractValidBlkDescFragment crc32 decompress buffer start area = .ok area') :
    ∃ i, start ≤ i ∧ Started area area' i := by
  unfold extractValidBlkDescFragment at h
  simp only at h
  rw [failIf_bind_eq_ok] at h
  obtain ⟨i, hi, hstarted⟩ := firstValidFragment_started h.2
  exact ⟨i, (List.mem_range'_1.1 hi).1, hstarted⟩

theorem readPortionHeader_eq {offset : Nat} (h : readPortionHeader buffer offset area = .ok area') :
    area'.iter = area.iter ∧ area'.buffer = area.buffer := by
  obtain ⟨hdr, -, h⟩ := Checked.bind_eq_ok.1 h
  cases h
  exact ⟨rfl, rfl⟩

inductive PreparedFragment (crc32 : List UInt8 → UInt32)
    (decompress : UInt8 → Buf → Nat → Nat → Buf → Nat → Mkfs Buf) (area area' : RawAreaEnvironment) :
    Prop
  | same : area.iter.state = .initialized → area' = area → PreparedFragment crc32 decompress area area'
  | later (i : Nat) : area.iter.state = .processed →
      Word.u16 ((area.iter.fragmentIndex % 65536).toNat + 1) ≤ i → Started area area' i →
      tableRead crc32 decompress area = none → PreparedFragment crc32 decompress area area'
  | table (i offset : Nat) : tableRead crc32 decompress area = some offset → offset < 4294967296 →
      Started area area' i → PreparedFragment crc32 decompress area area'

theorem prepareContentBuffer_prepared (h : prepareContentBuffer crc32 decompress area = .ok area') :
    PreparedFragment crc32 decompress area area' := by
  unfold prepareContentBuffer at h
  split at h
  case h_1 hstate =>
    unfold prepareFirstContentBuffer at h
    split at h
    · cases h
    · rename_i buffer hbuf
      obtain ⟨hdr, hhdr, h⟩ := Checked.bind_eq_ok.1 h
      obtain ⟨i, -, hstarted⟩ := extractValidBlkDescFragment_started h
      obtain ⟨-, hbuffer⟩ := readPortionHeader_eq hhdr
      refine .table i 0 ?_ (by decide) ⟨hstarted.state, hstarted.offset, hstarted.placed,
        hstarted.buffer.trans hbuffer⟩
      unfold tableRead
      rw [hstate, hbuf]
  case h_2 hstate =>
    cases h
    exact .same hstate rfl
  case h_3 hstate =>
    unfold prepareNextContentBuffer at h
    split at h
    · cases h
    · rename_i buffer hbuf
      simp only at h
      rw [failIf_bind_eq_ok, failIf_bind_eq_ok, failIf_bind_eq_ok] at h
      obtain ⟨hmagic, hinside, hlast, h⟩ := h
      have hmore : HasMoreFragments area := ⟨not_not.1 hmagic, Nat.not_le.1 hinside, hlast⟩
      unfold extractNextFragment at h
      split at h
      · rename_i hnone
        obtain ⟨hdr, hhdr, h⟩ := Checked.bind_eq_ok.1 h
        obtain ⟨i, -, hstarted⟩ := extractValidBlkDescFragment_started h
        obtain ⟨-, hbuffer⟩ := readPortionHeader_eq hhdr
        refine .table i (Word.u32 (area.iter.portionOffset + area.iter.portionSize)) ?_ (Word.u32_lt _)
          ⟨hstarted.state, hstarted.offset, hstarted.placed, hstarted.buffer.trans hbuffer⟩
        unfold tableRead
        rw [hstate, hbuf]
        simp only
        rw [if_pos hmore, hnone]
      · obtain ⟨i, hi, hstarted⟩ := extractValidBlkDescFragment_started h
        refine .later i hstate hi hstarted ?_
        unfold tableRead
        rw [hstate, hbuf]
        simp only
        rw [if_pos hmore]

def tableRest (iter : RawContentIterator) : Nat :=
  match iter.state with
  | .unknown => 0
  | .initialized => (blkTableMax - iter.fragmentIndex.toNat) * 65537 + (65536 - iter.itemOffset)
  | .processed => (blkTableMax - iter.fragmentIndex.toNat) * 65537

theorem takeBlkDesc_advances {k : Nat} (h : takeBlkDesc area = .ok (d, area'))
    (hplaced : IterPlaced area.iter k)
    (hwhole : area.iter.itemOffset + blockDescriptorSize ≤ rawSize area.uncompressed →
      area.iter.itemOffset + blockDescriptorSize ≤ area.iter.fragmentSize) :
    area.iter.state = .initialized ∧ IterPlaced area'.iter k ∧ area'.iter.state ≠ .unknown ∧
      tableRest area'.iter < tableRest area.iter := by
  obtain ⟨hfragment, hindex, hitem, hoffset, hsize⟩ := hplaced
  unfold takeBlkDesc at h
  rw [failIf_bind_eq_ok] at h
  obtain ⟨hstate, h⟩ := h
  rw [not_not] at hstate
  split at h
  · cases h
  · rename_i b hb
    rw [failIf_bind_eq_ok, failIf_bind_eq_ok, hitem, Word.u32_of_lt (by unfold blockDescriptorSize; omega)]
      at h
    obtain ⟨-, hroom, h⟩ := h
    obtain ⟨d', -, h⟩ := Checked.bind_eq_ok.1 h
    have hle := hwhole (by rw [hb]; exact Nat.not_lt.1 hroom)
    have hnext : Word.u32 (area.iter.itemOffset + area.iter.itemSize) =
        area.iter.itemOffset + blockDescriptorSize := by
      rw [hitem, Word.u32_of_lt (by omega)]
    cases h
    unfold contentIteratorIncrement
    rw [hstate]
    simp only
    rw [hnext, if_neg (Nat.not_lt.2 hle)]
    unfold blockDescriptorSize at *
    have hinside : area.iter.itemOffset + 64 < 65536 := by omega
    split
    · refine ⟨trivial, ⟨hfragment, hindex, hitem, hinside, hsize⟩, nofun, ?_⟩
      unfold tableRest
      rw [hstate]
      simp only
      omega
    · refine ⟨trivial, ⟨hfragment, hindex, hitem, hinside, hsize⟩, by simp, ?_⟩
      unfold tableRest
      simp only [hstate]
      omega

def AreaPlaced (area : RawAreaEnvironment) : Prop :=
  area.iter.state = .unknown ∨ ∃ k, IterPlaced area.iter k

theorem getNextBlkDesc_advances (h : getNextBlkDesc crc32 decompress area = .ok (d, area'))
    (hplaced : AreaPlaced area) (hwhole : ItemWhole crc32 decompress area) :
    AreaPlaced area' ∧ tableRest area'.iter < 2097152 ∧
      (tableRead crc32 decompress area = none → tableRest area'.iter < tableRest area.iter) := by
  obtain ⟨ready, hready, htake⟩ := Checked.bind_eq_ok.1 h
  have hbound : ∀ iter : RawContentIterator, tableRest iter < 2097152 := fun iter => by
    unfold tableRest blkTableMax fragmentsChainMax
    split <;> omega
  rcases prepareContentBuffer_prepared hready with ⟨hstate, rfl⟩ | ⟨i, hstate, hi, hstarted, hnone⟩ |
      ⟨i, offset, hsome, -, hstarted⟩
  · obtain ⟨k, hk⟩ := hplaced.resolve_left (by rw [hstate]; exact nofun)
    obtain ⟨-, hplaced', -, hlt⟩ := takeBlkDesc_advances htake hk (hwhole _ hready)
    exact ⟨.inr ⟨k, hplaced'⟩, hbound _, fun _ => hlt⟩
  · obtain ⟨k, hk⟩ := hplaced.resolve_left (by rw [hstate]; exact nofun)
    obtain ⟨-, hplaced', -, hlt⟩ := takeBlkDesc_advances htake hstarted.placed (hwhole _ hready)
    refine ⟨.inr ⟨i, hplaced'⟩, hbound _, fun _ => Nat.lt_trans hlt ?_⟩
    have hindex := hk.index
    have hindex' := hstarted.placed.index
    have hbehind : k + 1 ≤ i := by
      rw [hk.fragment] at hi
      unfold blkTableMax fragmentsChainMax at hindex
      unfold Word.u16 at hi
      omega
    unfold tableRest
    rw [hstate, hstarted.state, hstarted.placed.fragment, hk.fragment, hstarted.offset]
    simp only [Int.toNat_natCast]
    omega
  · obtain ⟨-, hplaced', -, -⟩ := takeBlkDesc_advances htake hstarted.placed (hwhole _ hready)
    exact ⟨.inr ⟨i, hplaced'⟩, hbound _, fun hnone => nomatch hsome.symm.trans hnone⟩

theorem tableRead_lt {offset : Nat} (h : tableRead crc32 decompress area = some offset) :
    offset < 4294967296 := by
  unfold tableRead at h
  split at h
  · cases h
  · cases h
    decide
  · cases h
  · split at h
    · simp only at h
      split at h
      · cases h
        exact Word.u32_lt _
      · cases h
    · cases h

end

def SamePlaces (dump dump' : RawDump) : Prop := ∀ i, (dump'.desc i).iter = (dump.desc i).iter

section

variable {crc32 : List UInt8 → UInt32} {decompress : UInt8 → Buf → Nat → Nat → Buf → Nat → Mkfs Buf}
  {dev : Buf} {peb : PebEnvironment} {pageSize : Nat} {dump t : RawDump} {blkState : BlkStateOffset}
  {blkDesc : BlockDescriptor}

theorem SamePlaces.set {i : Fin segHdrDescMax} {area : RawAreaEnvironment} (h : SamePlaces dump t)
    (harea : area.iter = (t.desc i).iter) : SamePlaces dump (t.setArea i area) := by
  intro j
  by_cases hj : j = i
  · rw [hj, RawDump.setArea_desc, harea, h i]
  · exact (congrArg RawAreaEnvironment.iter (RawDump.setArea_desc_of_ne hj)).trans (h j)

theorem readRawBlockState_places (h : SamePlaces dump t) :
    Report.Leaves (readRawBlockState dev peb pageSize blkState t) (SamePlaces dump) := by
  unfold readRawBlockState
  refine .bind fun i _ => ?_
  simp only
  split
  · exact .ok h
  · refine .bind fun _ _ => ?_
    split
    · have hset : SamePlaces dump (t.setArea i { t.desc i with
          buffer := some (prepareRawBuffer (t.desc i).buffer pageSize) }) := h.set rfl
      refine .attempt hset fun b _ => .ok (hset.set ?_)
      rw [RawDump.setArea_desc]
    · exact .ok h

theorem parseBlockFragment_places {i : Nat} (h : SamePlaces dump t) :
    Report.Leaves (parseBlockFragment crc32 decompress pageSize blkState i t) (SamePlaces dump) := by
  unfold parseBlockFragment
  split
  · refine .bind fun j _ => ?_
    simp only
    split
    · exact .error
    · refine .attempt h fun d _ => ?_
      cases d with
      | none => exact .ok h
      | some d =>
        simp only
        have hset : SamePlaces dump (t.setArea j { t.desc j with
            uncompressed := some (prepareRawBuffer (t.desc j).uncompressed blkFragmentSize) }) := h.set rfl
        refine .attempt hset fun u _ => ?_
        have hset' := hset.set (show RawAreaEnvironment.iter { t.desc j with uncompressed := some u } = _
          by rw [RawDump.setArea_desc])
        refine .attempt hset' fun _ _ => ?_
        unfold copyBlockFragment
        refine .bind fun _ _ => ?_
        split
        · exact .error
        · exact .bind fun c _ => .ok hset'
  · exact .ok h

theorem parseAndDecompressBlockState_places (h : SamePlaces dump t) :
    Report.Leaves (parseAndDecompressBlockState crc32 decompress pageSize blkState t)
      (SamePlaces dump) := by
  unfold parseAndDecompressBlockState
  refine .bind fun i _ => ?_
  split
  · simp only
    split
    · unfold copyMainBlock
      split
      · exact .bind fun c _ => .ok h
      · exact .error
    · split
      · split
        · exact .ok h
        · exact .each h fun j _ t ht => parseBlockFragment_places ht
      · exact .ok h
  · exact .ok h

theorem extractBlockState_places (h : SamePlaces dump t) :
    Report.Leaves (extractBlockState crc32 decompress dev peb pageSize blkDesc t) (SamePlaces dump) := by
  unfold extractBlockState
  generalize List.finRange blkStateOffMax = is
  generalize some Errno.enodata = err
  induction is generalizing err t with
  | nil => exact .ok h
  | cons i is ih =>
    unfold extractBlockStates
    split
    · exact .ok h
    · refine .andThen ?_ (fun _ h => h) fun t ht => ih ht none
      unfold readBlockState
      split
      · exact .andThen (readRawBlockState_places h) (fun _ h => h) fun t ht =>
          parseAndDecompressBlockState_places ht
      · exact .ok h

end

section

variable {σ : Type} (env : RecoverEnvironment σ)

def recoveryTables (s : Recovery σ) : List Nat :=
  (tableRead env.crc32 env.decompress (s.dump.desc blkDescAreaIndex)).toList

/-- The next descriptor neither runs into a `BUG` nor out of a buffer, no table is read a second
time for it, and it lies inside its fragment. -/
structure BlkDescSound (tables : List Nat) (s : Recovery σ) : Prop where
  quiet : ∃ r, blkDescRound env s = .ok r
  fresh : ∀ t ∈ recoveryTables env s, t ∉ tables
  whole : ItemWhole env.crc32 env.decompress (s.dump.desc blkDescAreaIndex)

def BlkDescsSound (s₀ : Recovery σ) : Prop :=
  ∀ tables s, Checked.Traced (blkDescRound env) (recoveryTables env) s₀ tables s →
    BlkDescSound env tables s

variable {env} {s s₀ s' : Recovery σ} {tables : List Nat}

theorem blkDescRound_again (h : blkDescRound env s = .ok (.again s')) : ∃ d area,
    getNextBlkDesc env.crc32 env.decompress (s.dump.desc blkDescAreaIndex) = .ok (d, area) ∧
      (s'.dump.desc blkDescAreaIndex).iter = area.iter := by
  unfold blkDescRound at h
  split at h
  · cases h
  · cases h
  · rename_i d area hnext
    obtain ⟨⟨err, dump⟩, hextract, h⟩ := Checked.bind_eq_ok.1 h
    have hplaces := extractBlockState_places (fun _ => rfl) err dump hextract blkDescAreaIndex
    rw [RawDump.setArea_desc] at hplaces
    refine ⟨d, area, hnext, ?_⟩
    simp only at h
    split at h
    · cases h
      exact hplaces
    · cases h
      exact hplaces
    · cases h

structure BlkDescsRead (tables : List Nat) (s : Recovery σ) : Prop where
  placed : AreaPlaced (s.dump.desc blkDescAreaIndex)
  nodup : tables.Nodup
  small : ∀ t ∈ tables, t < 4294967296

theorem blkDescsRead_traced (hsound : BlkDescsSound env s₀)
    (h0 : (s₀.dump.desc blkDescAreaIndex).iter.state = .unknown)
    (h : Checked.Traced (blkDescRound env) (recoveryTables env) s₀ tables s) :
    BlkDescsRead tables s := by
  induction h with
  | start => exact ⟨.inl h0, List.nodup_nil, nofun⟩
  | again htraced hround ih =>
    have hs := hsound _ _ htraced
    obtain ⟨d, area, hnext, hiter⟩ := blkDescRound_again hround
    obtain ⟨hplaced, -, -⟩ := getNextBlkDesc_advances hnext ih.placed hs.whole
    refine ⟨?_, ?_, fun t ht => ?_⟩
    · unfold AreaPlaced at hplaced ⊢
      rwa [hiter]
    · refine List.Nodup.append ih.nodup ?_ fun t ht ht' => hs.fresh t ht' ht
      unfold recoveryTables
      cases tableRead env.crc32 env.decompress _ with
      | none => exact List.nodup_nil
      | some t => exact List.nodup_singleton t
    · rcases List.mem_append.1 ht with ht | ht
      · exact ih.small t ht
      · exact tableRead_lt (Option.mem_toList.1 ht)

theorem blkDescs_return (hsound : BlkDescsSound env s₀)
    (h0 : (s₀.dump.desc blkDescAreaIndex).iter.state = .unknown) :
    ∃ fuel s, Checked.loop (blkDescRound env) fuel s₀ = .ok s := by
  refine Checked.returns_of_traced
    (fun tables s => (4294967296 - tables.length) * 2097152 +
      tableRest (s.dump.desc blkDescAreaIndex).iter)
    (fun tables s hs => (hsound tables s hs).quiet) fun tables s s' hs hround => ?_
  have hread := blkDescsRead_traced hsound h0 hs
  have hread' := blkDescsRead_traced hsound h0 (hs.again hround)
  obtain ⟨d, area, hnext, hiter⟩ := blkDescRound_again hround
  obtain ⟨-, hrest, hlt⟩ := getNextBlkDesc_advances hnext hread.placed (hsound _ _ hs).whole
  have hlength : (tables ++ recoveryTables env s).length ≤ 4294967296 := by
    have hsub := (hread'.nodup.subperm fun t ht => List.mem_range.2 (hread'.small t ht)).length_le
    rwa [List.length_range] at hsub
  rw [hiter]
  unfold recoveryTables at hlength ⊢
  match htable : tableRead env.crc32 env.decompress (s.dump.desc blkDescAreaIndex) with
  | none =>
    rw [Option.toList_none, List.append_nil]
    exact Nat.add_lt_add_left (hlt htable) _
  | some t =>
    rw [htable, Option.toList_some, List.length_append, List.length_singleton] at hlength
    rw [Option.toList_some, List.length_append, List.length_singleton]
    omega

end

end Ssdfs
