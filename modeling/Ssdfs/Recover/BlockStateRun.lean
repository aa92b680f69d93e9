import Ssdfs.Commit.Check
import Ssdfs.Recover.BlockStored

namespace Ssdfs

open Memory

def blockBytes (frags : List StoredFragment) : List UInt8 := frags.flatMap StoredFragment.content

/-- The first `k` fragments have been restored. -/
structure Restoring (areaIndex : Fin segHdrDescMax) (b : Buf) (size : Nat)
    (frags : List StoredFragment) (k : Nat) (dump : RawDump) : Prop where
  buffer : (dump.desc areaIndex).buffer = some b
  content : ∃ c, dump.content = some c ∧ c.size = size ∧
    ∀ x, c.data x = (blockBytes (frags.take k)).getD x 0

section

variable {crc32 : List UInt8 → UInt32} {compress : UInt8 → List UInt8 → List UInt8}
  {inflate : UInt8 → List UInt8 → Nat → Mkfs (List UInt8)} {blkState : BlkStateOffset}
  {areaIndex : Fin segHdrDescMax} {block b u : Buf} {frags : List StoredFragment}
  {pageSize size i k : Nat} {dump : RawDump} {logArea : UInt8}

theorem blockBytes_take_succ (hk : k < frags.length) :
    blockBytes (frags.take (k + 1)) = blockBytes (frags.take k) ++ frags[k].content := by
  unfold blockBytes
  rw [← List.take_append_getElem hk, List.flatMap_append, List.flatMap_singleton]

theorem length_blockBytes_take
    (hfull : ∀ j (h : j + 1 < frags.length), frags[j].content.length = blkFragmentSize)
    (hk : k < frags.length) : (blockBytes (frags.take k)).length = k * blkFragmentSize := by
  induction k with
  | zero => rw [Nat.zero_mul]; rfl
  | succ k ih =>
    rw [blockBytes_take_succ (Nat.lt_of_succ_lt hk), List.length_append, ih (Nat.lt_of_succ_lt hk),
      hfull k hk, Nat.succ_mul]

theorem copyBlockFragment_settles (hk : k < frags.length)
    (hfull : ∀ j (h : j + 1 < frags.length), frags[j].content.length = blkFragmentSize)
    (hcontent : frags[k].content.length ≤ blkFragmentSize) (hroom : blkFragmentSize ≤ u.size)
    (hdata : ∀ x, u.data x = frags[k].content.getD x 0) (hfit : (k + 1) * blkFragmentSize ≤ size)
    (hsmall : k * blkFragmentSize < Word.u32Max) (h : Restoring areaIndex b size frags k dump) :
    Report.Settles (copyBlockFragment k u dump) True (Restoring areaIndex b size frags (k + 1)) := by
  obtain ⟨c, hc, hsize, hbytes⟩ := h.content
  have hlength := length_blockBytes_take hfull hk
  rw [Nat.succ_mul] at hfit
  unfold copyBlockFragment
  simp only
  rw [Checked.bugOn_of_not (Nat.not_le.2 hsmall), Checked.ok_bind, hc]
  obtain ⟨c', hc', hsize', hinside, hrest⟩ := @Buf.copy_ok Errno c u (k * blkFragmentSize) 0
    blkFragmentSize (by omega) (by omega)
  simp only
  rw [hc', Checked.ok_bind]
  refine .ok ⟨h.buffer, c', rfl, hsize'.trans hsize, fun x => ?_⟩
  rw [blockBytes_take_succ hk]
  rcases Nat.lt_or_ge x (k * blkFragmentSize) with hx | hx
  · rw [hrest x (.inl hx), hbytes, List.getD_append _ _ _ _ (by omega)]
  · rw [List.getD_append_right _ _ _ _ (by omega), hlength]
    rcases Nat.lt_or_ge x (k * blkFragmentSize + blkFragmentSize) with hx' | hx'
    · have hbyte := hinside (x - k * blkFragmentSize) (by omega)
      rw [Nat.add_sub_cancel' hx, Nat.zero_add] at hbyte
      rw [hbyte, hdata]
    · rw [hrest x (.inr hx'), hbytes, List.getD_eq_default _ _ (by omega),
        List.getD_eq_default _ _ (by omega)]

/-- The fragment is inside of what has been read and has the checksum of the block's first one. -/
def Restorable (crc32 : List UInt8 → UInt32) (compress : UInt8 → List UInt8 → List UInt8)
    (pageSize : Nat) (frags : List StoredFragment) (f : StoredFragment) : Prop :=
  f.Taken compress pageSize ∧ ∀ g ∈ frags.head?, g.Matches crc32 f

theorem findBlockFragment_none (hstored : BlockStored compress blkState block frags)
    (hread : BlockRead pageSize block b) (hpage : isPagesizeValid pageSize = true)
    (hi : frags.length ≤ i) : findBlockFragment blkState i b = .ok none := by
  have hle := pagesize_le hpage
  have hstart : 32 ≤ block.size := Nat.le_trans (Nat.le_add_right ..) hstored.table
  unfold findBlockFragment
  rw [hread.read (by rw [BlockStateDescriptor.wire_size]; omega)
    (by rw [BlockStateDescriptor.wire_size]; omega), Checked.ok_bind]
  simp only
  rw [failIf_of_not (not_not.2 hstored.magic), Checked.ok_bind, hstored.count, if_pos hi]

theorem parseBlockFragment_settles (hundo : Undoes compress inflate)
    (harea : areaType2index blkState.logArea = .ok areaIndex)
    (hstored : BlockStored compress blkState block frags) (hread : BlockRead pageSize block b)
    (hpage : isPagesizeValid pageSize = true) (hcount : frags.length ≤ pageSize / blkFragmentSize)
    (hsize : pageSize ≤ size) (hi : i < pageSize / blkFragmentSize)
    (h : Restoring areaIndex b size frags i dump) :
    Report.Settles (parseBlockFragment crc32 (decompressInto inflate) pageSize blkState i dump)
      (∀ f ∈ frags[i]?, Restorable crc32 compress pageSize frags f)
      (Restoring areaIndex b size frags (i + 1)) := by
  have hle := pagesize_le hpage
  unfold parseBlockFragment
  rw [if_pos hpage, harea, Checked.ok_bind]
  simp only
  rw [h.buffer]
  simp only
  rcases Nat.lt_or_ge i frags.length with hlt | hge
  · obtain ⟨first, rest, hcons⟩ := List.exists_cons_of_length_pos (Nat.zero_lt_of_lt hlt)
    have hhead : frags.head? = some first := by
      rw [hcons]
      rfl
    have hfragment := hstored.fragments i hlt
    have hfirst : FragmentStored compress blkState.byteOffset.toNat block 0 first := by
      have hzero := hstored.fragments 0 (Nat.zero_lt_of_lt hlt)
      simp only [hcons, List.getElem_cons_zero] at hzero
      exact hzero
    have htable : blockFragDesc 1 ≤ blockFragDesc frags.length :=
      Nat.add_le_add_left (Nat.mul_le_mul_right _ (Nat.zero_lt_of_lt hlt)) _
    have hplace := blockFragDesc_le hcount hpage
    have hroom : blkFragmentSize ≤ (prepareRawBuffer (dump.desc areaIndex).uncompressed
        blkFragmentSize).size := by
      rw [prepareRawBuffer_size]
      exact Nat.le_max_right ..
    refine (Report.Settles.attempt (D := first.Matches crc32 frags[i])
      (findBlockFragment_guarded hstored hread hpage hcount hlt) fun r htaken hr => ?_).congr
        (by simp [Restorable, hhead, List.getElem?_eq_getElem hlt]) fun _ h => h
    subst hr
    obtain ⟨u, hu, husize, hudata⟩ := uncompressBlockFragment_ok hundo hfragment hstored.limit hread
      htaken hroom prepareRawBuffer_data
    simp only
    rw [hu, Report.attempt_ok]
    rw [← husize] at hroom
    refine (Report.Settles.attempt (D := True) (checkBlockFragmentCsum_guarded hfragment hfirst hread
      (Nat.le_trans htable hstored.table) (Nat.le_trans htable hplace) hroom hudata)
        fun _ _ _ => ?_).congr (and_true _).symm.to_iff fun _ h => h
    have hend : (i + 1) * blkFragmentSize ≤ pageSize := Nat.mul_le_of_le_div _ _ _ hi
    refine copyBlockFragment_settles hlt hstored.full hfragment.content hroom hudata
      (Nat.le_trans hend hsize) ?_ ⟨?_, h.content⟩
    · exact Nat.lt_of_lt_of_le (Nat.mul_lt_mul_of_pos_right (Nat.lt_succ_self i) (by decide))
        (Nat.le_trans hend (Nat.le_trans hle.2 (by decide)))
    · rw [RawDump.setArea_desc]
  · rw [findBlockFragment_none hstored hread hpage hge]
    have htake : frags.take (i + 1) = frags.take i := by
      rw [List.take_of_length_le hge, List.take_of_length_le (Nat.le_succ_of_le hge)]
    rw [List.getElem?_eq_none hge]
    refine (Report.Settles.ok ⟨h.buffer, ?_⟩).congr (by simp) fun _ h => h
    rw [htake]
    exact h.content

theorem range_eq_append {n i : Nat} {is rest : List Nat} (h : [] ++ List.range n = is ++ i :: rest) :
    i = is.length ∧ i < n := by
  have hget := congrArg (·[is.length]?) h
  simp only [List.nil_append, List.getElem?_append_right (Nat.le_refl _), Nat.sub_self,
    List.getElem?_cons_zero] at hget
  obtain ⟨hlt, heq⟩ := List.getElem?_eq_some_iff.1 hget
  rw [List.getElem_range] at heq
  rw [List.length_range] at hlt
  exact ⟨heq.symm, heq ▸ hlt⟩

theorem areaType2index_fragments (h : logArea = logDiffsArea ∨ logArea = logJournalArea) :
    ∃ areaIndex, areaType2index logArea = .ok areaIndex := by
  rcases h with rfl | rfl
  · exact ⟨_, rfl⟩
  · exact ⟨_, rfl⟩

/-- The dump holds the contents of the fragments, one behind the other, and zeros behind them. -/
structure Restored (frags : List StoredFragment) (content : Buf) : Prop where
  whole : ∀ x, content.data x = (blockBytes frags).getD x 0
  piece : ∀ i (h : i < frags.length),
    slice content.data (i * blkFragmentSize) frags[i].content.length = frags[i].content

theorem restored_of_whole {content : Buf}
    (hfull : ∀ j (h : j + 1 < frags.length), frags[j].content.length = blkFragmentSize)
    (hwhole : ∀ x, content.data x = (blockBytes frags).getD x 0) : Restored frags content where
  whole := hwhole
  piece i h := by
    have hlength := length_blockBytes_take hfull h
    have hsplit : blockBytes frags = blockBytes (frags.take i) ++ (frags[i].content ++
        blockBytes (frags.drop (i + 1))) := by
      rw [← List.append_assoc, ← blockBytes_take_succ h]
      unfold blockBytes
      rw [← List.flatMap_append, List.take_append_drop]
    refine List.ext_getElem? fun x => ?_
    rcases Nat.lt_or_ge x frags[i].content.length with hx | hx
    · rw [getElem?_slice hx, hwhole, hsplit, List.getD_append_right _ _ _ _ (by omega), hlength,
        Nat.add_sub_cancel_left, List.getD_append _ _ _ _ hx, List.getD_eq_getElem _ _ hx,
        List.getElem?_eq_getElem hx]
    · rw [List.getElem?_eq_none hx, List.getElem?_eq_none (by rwa [length_slice])]

theorem parseAndDecompressBlockState_settles (hundo : Undoes compress inflate)
    (hstored : BlockStored compress blkState block frags)
    (hpage : isPagesizeValid pageSize = true) (hcount : frags.length ≤ pageSize / blkFragmentSize)
    (hread : ∀ areaIndex, areaType2index blkState.logArea = .ok areaIndex →
      ∃ b, (dump.desc areaIndex).buffer = some b ∧ BlockRead pageSize block b) :
    Report.Settles
      (parseAndDecompressBlockState crc32 (decompressInto inflate) pageSize blkState dump)
      (∀ f ∈ frags, Restorable crc32 compress pageSize frags f) fun dump' =>
        ∃ content, dump'.content = some content ∧ pageSize ≤ content.size ∧ Restored frags content := by
  have hle := pagesize_le hpage
  obtain ⟨areaIndex, harea⟩ := areaType2index_fragments hstored.area
  obtain ⟨b, hb, hblock⟩ := hread areaIndex harea
  have hmain : blkState.logArea ≠ logMainArea := by
    rcases hstored.area with h | h <;> rw [h] <;> decide
  unfold parseAndDecompressBlockState
  rw [harea, Checked.ok_bind, if_pos hpage]
  simp only
  rw [if_neg hmain, if_pos hstored.area, if_neg (by unfold blkFragmentSize; omega)]
  have hstart : Restoring areaIndex b (prepareRawBuffer dump.content pageSize).size frags 0
      { dump with content := some (prepareRawBuffer dump.content pageSize) } :=
    ⟨hb, _, rfl, rfl, fun x => by rw [prepareRawBuffer_data]; rfl⟩
  have hsize : pageSize ≤ (prepareRawBuffer dump.content pageSize).size := by
    rw [prepareRawBuffer_size]
    exact Nat.le_max_right ..
  generalize (prepareRawBuffer dump.content pageSize).size = size at hstart hsize ⊢
  have hsteps : Report.Settles _ (∀ i ∈ List.range (pageSize / blkFragmentSize), ∀ f ∈ frags[i]?,
      Restorable crc32 compress pageSize frags f) _ :=
    @Report.Settles.each Errno Nat RawDump _
      (parseBlockFragment crc32 (decompressInto inflate) pageSize blkState) _
      (fun is => Restoring areaIndex b size frags is.length) [] _ hstart fun is i rest t heq ht => by
        obtain ⟨rfl, hi⟩ := range_eq_append heq
        rw [List.length_append]
        exact parseBlockFragment_settles hundo harea hstored hblock hpage hcount hsize hi ht
  refine hsteps.congr ?_ fun t ht => ?_
  · refine ⟨fun h i _ f hf => h f (List.mem_of_getElem? hf), fun h f hf => ?_⟩
    obtain ⟨i, hi, rfl⟩ := List.getElem_of_mem hf
    exact h i (List.mem_range.2 (Nat.lt_of_lt_of_le hi hcount)) _ (List.getElem?_eq_getElem hi)
  · obtain ⟨c, hc, hcsize, hbytes⟩ := ht.content
    rw [List.nil_append, List.length_range, List.take_of_length_le hcount] at hbytes
    exact ⟨c, hc, hcsize ▸ hsize, restored_of_whole hstored.full hbytes⟩

theorem parseAndDecompressBlockState_restores_iff (hundo : Undoes compress inflate)
    (hstored : BlockStored compress blkState block frags)
    (hpage : isPagesizeValid pageSize = true) (hcount : frags.length ≤ pageSize / blkFragmentSize)
    (hread : ∀ areaIndex, areaType2index blkState.logArea = .ok areaIndex →
      ∃ b, (dump.desc areaIndex).buffer = some b ∧ BlockRead pageSize block b) :
    Report.Settles
        (parseAndDecompressBlockState crc32 (decompressInto inflate) pageSize blkState dump)
        (∀ f ∈ frags, f.Matches crc32 f)
        (fun dump' => ∃ content, dump'.content = some content ∧ pageSize ≤ content.size ∧
          Restored frags content) ↔
      ((∀ f ∈ frags, f.Matches crc32 f) ↔
        ∀ f ∈ frags, Restorable crc32 compress pageSize frags f) :=
  (parseAndDecompressBlockState_settles hundo hstored hpage hcount hread).iff_iff

end

def fullFragment (c : UInt8) (place : Nat) (sequenceId : UInt8) : StoredFragment :=
  let content := c :: List.replicate 4095 0
  ⟨content, fragmentUncomprBlob, place, ssdfsCrc32Le crc32 content, sequenceId, fragmentHasCsum⟩

def fragmentPair (c : UInt8) : List StoredFragment := [fullFragment 0 64 0, fullFragment c 4160 1]

def fragmentPairBlock (c : UInt8) : Buf :=
  let body : Bytes := fun x => if x = 4160 then c else 0
  let header : BlockStateDescriptor := ⟨0, 0, 8192, 8192, 2, 16, chainHdrMagic, 0, 0⟩
  let compress : UInt8 → List UInt8 → List UInt8 := fun _ content => content
  let m := BlockStateDescriptor.wire.write body 0 header
  let m := FragmentDesc.wire.write m 32 ((fullFragment 0 64 0).desc compress 0)
  ⟨16384, FragmentDesc.wire.write m 48 ((fullFragment c 4160 1).desc compress 0)⟩

def diffsBlock : BlkStateOffset := ⟨0, logDiffsArea, 0, 0⟩

def fragmentPairDump (c : UInt8) : RawDump where
  desc _ := ⟨0, 0, createContentIterator, emptyAreaBlockTable, none, some (fragmentPairBlock c)⟩
  content := none

theorem fragmentPairBlock_body {c : UInt8} {x : Nat} (hx : 64 ≤ x) :
    (fragmentPairBlock c).data x = if x = 4160 then c else 0 := by
  unfold fragmentPairBlock
  simp only
  rw [FragmentDesc.wire.write_frame (.inr hx),
    FragmentDesc.wire.write_frame (.inr (by rw [FragmentDesc.wire_size]; omega)),
    BlockStateDescriptor.wire.write_frame (.inr (by rw [BlockStateDescriptor.wire_size]; omega))]

theorem slice_fullFragment {m : Bytes} {off : Nat} {c : UInt8} (hhead : m off = c)
    (htail : ∀ x < 4095, m (off + 1 + x) = 0) : slice m off 4096 = c :: List.replicate 4095 0 := by
  rw [show 4096 = 1 + 4095 from rfl, slice_add]
  have hrest : slice m (off + 1) 4095 = List.replicate 4095 0 := by
    refine List.eq_replicate_iff.2 ⟨length_slice, fun b hb => ?_⟩
    obtain ⟨x, hx, rfl⟩ := List.mem_map.1 hb
    exact htail x (List.mem_range.1 hx)
  rw [hrest, ← hhead]
  rfl

theorem fragmentStored_fullFragment {block : Buf} {place j : Nat} {c sequenceId : UInt8}
    (hdesc : FragmentDesc.wire.read block.data (blockFragDesc j) =
      (fullFragment c place sequenceId).desc (fun _ content => content) 0)
    (hfits : place + 4096 ≤ block.size) (hhead : block.data place = c)
    (htail : ∀ x < 4095, block.data (place + 1 + x) = 0) :
    FragmentStored (fun _ content => content) 0 block j (fullFragment c place sequenceId) := by
  have hlength : (c :: List.replicate 4095 0).length = 4096 := by
    rw [List.length_cons, List.length_replicate]
  have hstored : (fullFragment c place sequenceId).stored (fun _ content => content) =
      c :: List.replicate 4095 0 := if_pos rfl
  refine ⟨hdesc, .inl rfl, Nat.le_of_eq hlength, ?_, ?_, ?_⟩
  · rw [hstored, hlength]
    decide
  · rw [hstored, hlength]
    exact hfits
  · rw [hstored, hlength]
    exact slice_fullFragment hhead htail

theorem blockStored_fragmentPair (c : UInt8) :
    BlockStored (fun _ content => content) diffsBlock (fragmentPairBlock c) (fragmentPair c) := by
  have hheader : BlockStateDescriptor.wire.read (fragmentPairBlock c).data 0 =
      ⟨0, 0, 8192, 8192, 2, 16, chainHdrMagic, 0, 0⟩ := by
    unfold fragmentPairBlock
    simp only
    rw [Wire.read_write_of_disjoint _ _ (.inl (by decide)),
      Wire.read_write_of_disjoint _ _ (.inl (by decide)), Wire.read_write]
  have hfirst : FragmentDesc.wire.read (fragmentPairBlock c).data (blockFragDesc 0) =
      (fullFragment 0 64 0).desc (fun _ content => content) 0 := by
    unfold fragmentPairBlock
    simp only
    rw [Wire.read_write_of_disjoint _ _ (.inl (by decide))]
    exact FragmentDesc.wire.read_write ..
  have hsecond : FragmentDesc.wire.read (fragmentPairBlock c).data (blockFragDesc 1) =
      (fullFragment c 4160 1).desc (fun _ content => content) 0 := FragmentDesc.wire.read_write ..
  refine ⟨.inl rfl, (by decide : 0 + 16384 < 4294967296), ?_, ?_, (by decide : 64 ≤ 16384),
    fun i hi => ?_, fun j hj => ?_⟩
  · rw [hheader]
  · rw [hheader]
    rfl
  · match i, hi with
    | 0, _ =>
      refine fragmentStored_fullFragment hfirst (by decide : 64 + 4096 ≤ 16384) ?_ fun x hx => ?_
      · rw [fragmentPairBlock_body (by decide)]
        rfl
      · rw [fragmentPairBlock_body (by omega), if_neg (by omega)]
    | 1, _ =>
      refine fragmentStored_fullFragment hsecond (by decide : 4160 + 4096 ≤ 16384) ?_ fun x hx => ?_
      · rw [fragmentPairBlock_body (by decide)]
        rfl
      · rw [fragmentPairBlock_body (by omega), if_neg (by omega)]
  · match j, hj with
    | 0, _ =>
      change (0 :: List.replicate 4095 (0 : UInt8)).length = 4096
      rw [List.length_cons, List.length_replicate]

theorem undoes_stored : Undoes (fun _ content => content) fun _ data _ => .ok data :=
  fun _ _ => rfl

theorem blockRead_self {block : Buf} : BlockRead block.size block block := ⟨rfl, fun _ _ _ => rfl⟩

theorem taken_fullFragment {c sequenceId : UInt8} {place : Nat} (h : place + 4096 ≤ 16384) :
    (fullFragment c place sequenceId).Taken (fun _ content => content) 16384 := by
  have hstored : ((fullFragment c place sequenceId).stored fun _ content => content).length = 4096 := by
    have hcontent : (fullFragment c place sequenceId).stored (fun _ content => content) =
        c :: List.replicate 4095 0 := if_pos rfl
    rw [hcontent, List.length_cons, List.length_replicate]
  unfold StoredFragment.Taken
  rw [hstored]
  exact ⟨Nat.le_refl _, h⟩

theorem matches_fullFragment {c s s' : UInt8} {place place' : Nat} :
    (fullFragment c place s).Matches (ssdfsCrc32Le crc32) (fullFragment c place' s') := fun _ => rfl

/-- Two fragments with the same content are restored. -/
theorem parseAndDecompressBlockState_restores_equal :
    Report.Settles
      (parseAndDecompressBlockState (ssdfsCrc32Le crc32) (decompressInto fun _ data _ => .ok data) 16384
        diffsBlock (fragmentPairDump 0))
      (∀ f ∈ fragmentPair 0, f.Matches (ssdfsCrc32Le crc32) f)
      (fun dump => ∃ content, dump.content = some content ∧ 16384 ≤ content.size ∧
        Restored (fragmentPair 0) content) := by
  refine (parseAndDecompressBlockState_restores_iff undoes_stored (blockStored_fragmentPair 0) rfl
    (by decide) fun _ _ => ⟨_, rfl, blockRead_self⟩).2 (iff_of_true ?_ ?_)
  · intro f hf
    rcases List.mem_pair.1 hf with rfl | rfl <;> exact matches_fullFragment
  · intro f hf
    rcases List.mem_pair.1 hf with rfl | rfl
    · exact ⟨taken_fullFragment (by decide), fun g hg => by cases hg; exact matches_fullFragment⟩
    · exact ⟨taken_fullFragment (by decide), fun g hg => by cases hg; exact matches_fullFragment⟩

/-- The second of two fragments fails the checksum of the first, though it has its own. -/
theorem parseAndDecompressBlockState_refuses_intact :
    (∀ f ∈ fragmentPair 1, f.Matches (ssdfsCrc32Le crc32) f) ∧
    ∃ e dump, parseAndDecompressBlockState (ssdfsCrc32Le crc32)
      (decompressInto fun _ data _ => .ok data) 16384 diffsBlock (fragmentPairDump 1) =
        .ok (some e, dump) := by
  refine ⟨fun f hf => ?_, (parseAndDecompressBlockState_settles undoes_stored
    (blockStored_fragmentPair 1) rfl (by decide) fun _ _ => ⟨_, rfl, blockRead_self⟩).code fun h => ?_⟩
  · rcases List.mem_pair.1 hf with rfl | rfl <;> exact matches_fullFragment
  · have hsame : ssdfsCrc32Le crc32 (1 :: List.replicate 4095 0) =
        ssdfsCrc32Le crc32 (0 :: List.replicate 4095 0) :=
      (h (fullFragment 1 4160 1) (List.mem_pair.2 (.inr rfl))).2 _ rfl (by decide)
    unfold ssdfsCrc32Le at hsame
    have hbyte := @RunningChecksum.byte _ crc32 crc32_running 0 [] (List.replicate 4095 0) 1 0
      (UInt32.not_inj.1 hsame)
    exact absurd hbyte (by decide)

end Ssdfs
