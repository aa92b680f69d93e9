import Ssdfs.Layout
import Ssdfs.Lib.Loop
import Ssdfs.Lib.Memory
import Ssdfs.OffTable.Format

namespace Ssdfs

open Memory

def ssdfsInodesBnodeMagic : Nat := 0x494E
def ssdfsInodeHasInlineFile : Nat := 6

/-- The fields of `struct ssdfs_inodes_btree_node_header` that recovery reads. -/
structure InodesNodeHeader where
  magicCommon : Nat
  magicKey : Nat
  logNodeSize : Nat
  type : Nat
  itemsCapacity : Nat
  itemAreaOffset : Nat
  deriving Repr, DecidableEq

def InodesNodeHeader.read (m : Bytes) (off : Nat) : InodesNodeHeader where
  magicCommon := peek m 4 off
  magicKey := peek m 2 (off + 4)
  logNodeSize := peek m 1 (off + 17)
  type := peek m 1 (off + 19)
  itemsCapacity := peek m 2 (off + 30)
  itemAreaOffset := peek m 4 (off + 60)

def InodesNodeHeader.IsNode (hdr : InodesNodeHeader) : Prop :=
  hdr.magicCommon = superMagic.toNat ∧ hdr.magicKey = ssdfsInodesBnodeMagic

instance (hdr : InodesNodeHeader) : Decidable hdr.IsNode := inferInstanceAs (Decidable (_ ∧ _))

/-- What is written to the file of an inode: bytes of the node's buffer from `start` on. -/
structure InlineFile where
  ino : Nat
  start : Nat
  size : Nat
  deriving Repr, DecidableEq

structure NodeWalk where
  curOffset : Nat
  visited : List Nat
  files : List InlineFile
  deriving Repr, DecidableEq

/-- The file of the inode at `curOffset`: its size is taken as it is recorded. -/
def inlineFile (node : Buf) (curOffset : Nat) : Checked Errno (List InlineFile) := do
  let privateFlags ← node.load Errno 2 (curOffset + 122)
  if privateFlags.testBit ssdfsInodeHasInlineFile then do
    let fileSize ← node.load Errno 8 (curOffset + 72)
    if fileSize = 0 ∨ fileSize ≥ Word.u64Max then .ok []
    else do
      let ino ← node.load Errno 8 (curOffset + 104)
      .ok [⟨ino, curOffset + 128, fileSize⟩]
  else .ok []

def inodeRound (node : Buf) (itemSize : Nat) (w : NodeWalk) : Checked Errno (Round NodeWalk NodeWalk) :=
  if Word.u32 (w.curOffset + itemSize) < node.size then do
    let files ← inlineFile node w.curOffset
    .ok (.again ⟨Word.u32 (w.curOffset + itemSize), w.visited ++ [w.curOffset], w.files ++ files⟩)
  else .ok (.leave w)

/-- The node types from `SSDFS_BTREE_NODE_UNKNOWN_TYPE` on. -/
def ssdfsBtreeRootNode : Nat := 1
def ssdfsBtreeIndexNode : Nat := 2
def ssdfsBtreeHybridNode : Nat := 3
def ssdfsBtreeLeafNode : Nat := 4

def nodeExtractInlineFile (fuel : Nat) (node : Buf) : Checked Errno NodeWalk :=
  let nodeHdr := InodesNodeHeader.read node.data 0
  if ¬nodeHdr.IsNode then .error (.code .eio)
  else if nodeHdr.type = ssdfsBtreeHybridNode ∨ nodeHdr.type = ssdfsBtreeLeafNode then do
    failIf (nodeHdr.itemAreaOffset ≥ node.size) .eio
    failIf (nodeHdr.itemsCapacity = 0 ∨ nodeHdr.itemsCapacity ≥ Word.u16Max) .eio
    let itemAreaSize := node.size - nodeHdr.itemAreaOffset
    let itemSize := itemAreaSize / nodeHdr.itemsCapacity
    failIf (itemSize = 0) .eio
    Checked.loop (inodeRound node itemSize) fuel ⟨nodeHdr.itemAreaOffset, [], []⟩
  else if nodeHdr.type = ssdfsBtreeRootNode ∨ nodeHdr.type = ssdfsBtreeIndexNode then
    .ok ⟨0, [], []⟩
  else .error (.code .eio)

namespace InodesNodeHeader

structure HoldsItems (hdr : InodesNodeHeader) (nodeSize : Nat) : Prop where
  node : hdr.IsNode
  type : hdr.type = ssdfsBtreeHybridNode ∨ hdr.type = ssdfsBtreeLeafNode
  area : hdr.itemAreaOffset < nodeSize

def itemSize (hdr : InodesNodeHeader) (nodeSize : Nat) : Nat :=
  (nodeSize - hdr.itemAreaOffset) / hdr.itemsCapacity

/-- The walk goes through the item area. -/
structure Walked (hdr : InodesNodeHeader) (nodeSize : Nat) : Prop extends hdr.HoldsItems nodeSize where
  capacity : 0 < hdr.itemsCapacity ∧ hdr.itemsCapacity < Word.u16Max
  item : 0 < hdr.itemSize nodeSize

/-- The inodes fill the item area. -/
structure Filled (hdr : InodesNodeHeader) (nodeSize : Nat) : Prop extends hdr.HoldsItems nodeSize where
  filled : hdr.itemsCapacity * hdr.itemSize nodeSize = nodeSize - hdr.itemAreaOffset

def slots (hdr : InodesNodeHeader) (nodeSize : Nat) : List Nat :=
  (List.range ((nodeSize - hdr.itemAreaOffset - 1) / hdr.itemSize nodeSize)).map
    fun k => hdr.itemAreaOffset + k * hdr.itemSize nodeSize

end InodesNodeHeader

def HasInlineFile (node : Buf) (slot : Nat) : Prop :=
  (peek node.data 2 (slot + 122)).testBit ssdfsInodeHasInlineFile = true

def recordedSize (node : Buf) (slot : Nat) : Nat := peek node.data 8 (slot + 72)

/-- The recorded size does not lead out of the inode. -/
def SizeInside (node : Buf) (itemSize slot : Nat) : Prop :=
  HasInlineFile node slot → 0 < recordedSize node slot → 128 + recordedSize node slot ≤ itemSize

def nodeHeader (node : Buf) : InodesNodeHeader := InodesNodeHeader.read node.data 0

/-- The inodes of a filled node are visited one after another, and every file that is recovered lies
in its inode; a size that leads out of it is an error. -/
structure ExtractsOwn (node : Buf) : Prop where
  visits : (nodeHeader node).Filled node.size → ∃ fuel w, nodeExtractInlineFile fuel node = .ok w ∧
    w.visited = (List.range (nodeHeader node).itemsCapacity).map
      fun k => (nodeHeader node).itemAreaOffset + k * (nodeHeader node).itemSize node.size
  own : ∃ fuel, (∃ e, nodeExtractInlineFile fuel node = .error (.code e)) ∨
    ∃ w, nodeExtractInlineFile fuel node = .ok w ∧
      (∀ slot ∈ w.visited, SizeInside node ((nodeHeader node).itemSize node.size) slot) ∧
      ∀ f ∈ w.files, ∃ slot ∈ w.visited,
        slot + 128 ≤ f.start ∧ f.start + f.size ≤ slot + (nodeHeader node).itemSize node.size

section

variable {node : Buf} {itemSize slot fuel : Nat} {w w' : NodeWalk} {files : List InlineFile}

theorem inlineFile_inside (h : inlineFile node slot = .ok files) : slot + 124 ≤ node.size := by
  unfold inlineFile at h
  obtain ⟨flags, hflags, -⟩ := Checked.bind_eq_ok.1 h
  exact (Buf.load_eq_ok.1 hflags).1

theorem inlineFile_eq (h : slot + 124 ≤ node.size) :
    inlineFile node slot = .ok (if (peek node.data 2 (slot + 122)).testBit ssdfsInodeHasInlineFile then
      if recordedSize node slot = 0 ∨ recordedSize node slot ≥ Word.u64Max then []
      else [⟨peek node.data 8 (slot + 104), slot + 128, recordedSize node slot⟩] else []) := by
  unfold inlineFile recordedSize
  rw [Buf.load_ok (by omega), Checked.ok_bind]
  split
  · rw [Buf.load_ok (by omega), Checked.ok_bind]
    split
    · rfl
    · rw [Buf.load_ok (by omega), Checked.ok_bind]
  · rfl

theorem mem_inlineFile {f : InlineFile} (h : inlineFile node slot = .ok files) (hf : f ∈ files) :
    HasInlineFile node slot ∧ 0 < recordedSize node slot ∧ f.start = slot + 128 ∧
      f.size = recordedSize node slot := by
  rw [inlineFile_eq (inlineFile_inside h)] at h
  obtain rfl := Except.ok.inj h
  split at hf
  · split at hf
    · cases hf
    · obtain rfl := List.mem_singleton.1 hf
      exact ⟨‹_›, by omega, rfl, rfl⟩
  · cases hf

/-- The walk at the `k`-th inode. -/
structure WalkAt (node : Buf) (base itemSize : Nat) (w : NodeWalk) (k : Nat) : Prop where
  cur : w.curOffset = base + k * itemSize
  within : w.curOffset < node.size
  visited : w.visited = (List.range k).map fun i => base + i * itemSize
  inside : ∀ slot ∈ w.visited, slot + 124 ≤ node.size
  files : ∀ f ∈ w.files, ∃ slot ∈ w.visited, HasInlineFile node slot ∧ 0 < recordedSize node slot ∧
    f.start = slot + 128 ∧ f.size = recordedSize node slot

variable {base k : Nat}

theorem inodeRound_again (hsize : node.size ≤ 2147483648) (hitem : itemSize ≤ node.size)
    (hcur : w.curOffset < node.size) :
    inodeRound node itemSize w = .ok (.again w') ↔
      w.curOffset + itemSize < node.size ∧ ∃ files, inlineFile node w.curOffset = .ok files ∧
        w' = ⟨w.curOffset + itemSize, w.visited ++ [w.curOffset], w.files ++ files⟩ := by
  unfold inodeRound
  rw [Word.u32_of_lt (by omega)]
  constructor
  · intro h
    split at h
    case isTrue hlt =>
      obtain ⟨files, hfiles, hnext⟩ := Checked.bind_eq_ok.1 h
      cases hnext
      exact ⟨hlt, files, hfiles, rfl⟩
    case isFalse => cases h
  · rintro ⟨hlt, files, hfiles, rfl⟩
    rw [if_pos hlt, hfiles, Checked.ok_bind]

theorem walkAt_step (hsize : node.size ≤ 2147483648) (hitem : itemSize ≤ node.size)
    (h : WalkAt node base itemSize w k) (hround : inodeRound node itemSize w = .ok (.again w')) :
    WalkAt node base itemSize w' (k + 1) := by
  obtain ⟨hlt, files, hfiles, rfl⟩ := (inodeRound_again hsize hitem h.within).1 hround
  have hslot := h.cur
  refine ⟨?_, hlt, ?_, fun slot hmem => ?_, fun f hf => ?_⟩
  · rw [Nat.succ_mul, ← Nat.add_assoc, ← hslot]
  · rw [List.range_succ, List.map_append, ← h.visited, hslot]
    rfl
  · rcases List.mem_append.1 hmem with hold | hnew
    · exact h.inside slot hold
    · obtain rfl := List.mem_singleton.1 hnew
      exact inlineFile_inside hfiles
  · rcases List.mem_append.1 hf with hold | hnew
    · obtain ⟨slot, hmem, hrest⟩ := h.files f hold
      exact ⟨slot, List.mem_append_left _ hmem, hrest⟩
    · exact ⟨w.curOffset, List.mem_append_right _ (List.mem_singleton_self _), mem_inlineFile hfiles hnew⟩

theorem walkAt_leave (hsize : node.size ≤ 2147483648) (hitem : itemSize ≤ node.size)
    (h : WalkAt node base itemSize w k) (hround : inodeRound node itemSize w = .ok (.leave w')) :
    w' = w ∧ k = (node.size - base - 1) / itemSize := by
  have hwithin := h.within
  have hcur := h.cur
  unfold inodeRound at hround
  rw [Word.u32_of_lt (by omega)] at hround
  split at hround
  case isTrue =>
    obtain ⟨files, -, hnext⟩ := Checked.bind_eq_ok.1 hround
    cases hnext
  case isFalse hge =>
    cases hround
    refine ⟨rfl, (Nat.div_eq_of_lt_le ?_ ?_).symm⟩
    · omega
    · rw [Nat.succ_mul]
      omega

theorem inodeRound_error {e : Fault Errno} (h : inodeRound node itemSize w = .error e) :
    e = .stray ∧ Word.u32 (w.curOffset + itemSize) < node.size ∧ node.size < w.curOffset + 124 := by
  unfold inodeRound at h
  split at h
  case isTrue hlt =>
    by_cases hin : w.curOffset + 124 ≤ node.size
    · rw [inlineFile_eq hin] at h
      cases h
    · have hstray : inlineFile node w.curOffset = .error .stray := by
        unfold inlineFile Buf.load
        rw [if_neg (by omega)]
        rfl
      rw [hstray] at h
      cases h
      exact ⟨rfl, hlt, by omega⟩
  case isFalse => cases h

theorem walkAt_init (hbase : base < node.size) : WalkAt node base itemSize ⟨base, [], []⟩ 0 where
  cur := by simp
  within := hbase
  visited := rfl
  inside := fun slot hmem => absurd hmem (List.not_mem_nil)
  files := fun f hf => absurd hf (List.not_mem_nil)

theorem itemSize_le :
    (nodeHeader node).itemSize node.size ≤ node.size :=
  Nat.le_trans (Nat.div_le_self _ _) (Nat.sub_le _ _)

theorem nodeExtractInlineFile_eq :
    nodeExtractInlineFile fuel node =
      if ¬(nodeHeader node).IsNode then .error (.code .eio)
      else if (nodeHeader node).type = ssdfsBtreeHybridNode ∨
          (nodeHeader node).type = ssdfsBtreeLeafNode then
        failIf ((nodeHeader node).itemAreaOffset ≥ node.size) .eio >>= fun _ =>
        failIf ((nodeHeader node).itemsCapacity = 0 ∨ (nodeHeader node).itemsCapacity ≥ Word.u16Max)
          .eio >>= fun _ =>
        failIf ((nodeHeader node).itemSize node.size = 0) .eio >>= fun _ =>
        Checked.loop (inodeRound node ((nodeHeader node).itemSize node.size)) fuel
          ⟨(nodeHeader node).itemAreaOffset, [], []⟩
      else if (nodeHeader node).type = ssdfsBtreeRootNode ∨
          (nodeHeader node).type = ssdfsBtreeIndexNode then .ok ⟨0, [], []⟩
      else .error (.code .eio) := rfl

theorem nodeExtractInlineFile_walked (h : (nodeHeader node).Walked node.size) :
    nodeExtractInlineFile fuel node = Checked.loop
      (inodeRound node ((nodeHeader node).itemSize node.size)) fuel
        ⟨(nodeHeader node).itemAreaOffset, [], []⟩ := by
  have harea := h.area
  have hcapacity := h.capacity
  have hitem := h.item
  rw [nodeExtractInlineFile_eq, if_neg (not_not.2 h.node), if_pos h.type, failIf_of_not (by omega),
    Checked.ok_bind, failIf_of_not (by omega), Checked.ok_bind, failIf_of_not (by omega), Checked.ok_bind]

variable (fuel) in
theorem nodeExtractInlineFile_refused (h : ¬(nodeHeader node).Walked node.size) :
    (∃ e, nodeExtractInlineFile fuel node = .error (.code e)) ∨
      nodeExtractInlineFile fuel node = .ok ⟨0, [], []⟩ := by
  rw [nodeExtractInlineFile_eq]
  by_cases hnode : (nodeHeader node).IsNode
  · rw [if_neg (not_not.2 hnode)]
    by_cases htype : (nodeHeader node).type = ssdfsBtreeHybridNode ∨
        (nodeHeader node).type = ssdfsBtreeLeafNode
    · rw [if_pos htype]
      refine .inl ⟨.eio, ?_⟩
      by_cases harea : (nodeHeader node).itemAreaOffset ≥ node.size
      · rw [failIf, if_pos harea]
        rfl
      · by_cases hcapacity :
            (nodeHeader node).itemsCapacity = 0 ∨ (nodeHeader node).itemsCapacity ≥ Word.u16Max
        · rw [failIf_of_not harea, Checked.ok_bind, failIf, if_pos hcapacity]
          rfl
        · by_cases hitem : (nodeHeader node).itemSize node.size = 0
          · rw [failIf_of_not harea, Checked.ok_bind, failIf_of_not hcapacity, Checked.ok_bind, failIf,
              if_pos hitem]
            rfl
          · exact absurd ⟨⟨hnode, htype, by omega⟩, by omega, by omega⟩ h
    · rw [if_neg htype]
      split
      · exact .inr rfl
      · exact .inl ⟨_, rfl⟩
  · rw [if_pos hnode]
    exact .inl ⟨_, rfl⟩

theorem nodeExtractInlineFile_ok (hsize : node.size ≤ 2147483648)
    (h : (nodeHeader node).Walked node.size) (hrun : nodeExtractInlineFile fuel node = .ok w) :
    w.visited = (nodeHeader node).slots node.size ∧
      (∀ slot ∈ w.visited, slot + 124 ≤ node.size) ∧
      ∀ f ∈ w.files, ∃ slot ∈ w.visited, HasInlineFile node slot ∧ 0 < recordedSize node slot ∧
        f.start = slot + 128 ∧ f.size = recordedSize node slot := by
  have hitem : (nodeHeader node).itemSize node.size ≤ node.size := itemSize_le
  rw [nodeExtractInlineFile_walked h] at hrun
  obtain ⟨t, ⟨k, hat⟩, hleave⟩ := Checked.loop_ind
    (fun w => ∃ k, WalkAt node (nodeHeader node).itemAreaOffset ((nodeHeader node).itemSize node.size) w k)
    hrun ⟨0, walkAt_init h.area⟩ fun t t' ⟨k, hat⟩ ht => ⟨k + 1, walkAt_step hsize hitem hat ht⟩
  obtain ⟨rfl, hk⟩ := walkAt_leave hsize hitem hat hleave
  refine ⟨?_, hat.inside, hat.files⟩
  rw [hat.visited, hk]
  rfl

theorem nodeExtractInlineFile_ends (hsize : node.size ≤ 2147483648)
    (h : (nodeHeader node).Walked node.size)
    (hin : ∀ slot ∈ (nodeHeader node).slots node.size, slot + 124 ≤ node.size) :
    ∃ fuel w, nodeExtractInlineFile fuel node = .ok w := by
  have hle : (nodeHeader node).itemSize node.size ≤ node.size := itemSize_le
  have hpos := h.item
  have harea := h.area
  have hround : ∀ w k, WalkAt node (nodeHeader node).itemAreaOffset
      ((nodeHeader node).itemSize node.size) w k →
      ∃ r, inodeRound node ((nodeHeader node).itemSize node.size) w = .ok r := by
    intro w k hat
    match hr : inodeRound node ((nodeHeader node).itemSize node.size) w with
    | .ok r => exact ⟨r, rfl⟩
    | .error e =>
      obtain ⟨-, hlt, hout⟩ := inodeRound_error hr
      have hwithin := hat.within
      have hcur := hat.cur
      rw [Word.u32_of_lt (by omega)] at hlt
      have hmem : w.curOffset ∈ (nodeHeader node).slots node.size := by
        refine List.mem_map.2 ⟨k, List.mem_range.2 ?_, hcur.symm⟩
        rw [Nat.lt_iff_add_one_le, Nat.le_div_iff_mul_le hpos, Nat.succ_mul]
        omega
      exact absurd (hin _ hmem) (by omega)
  obtain ⟨fuel, w, hw⟩ := Checked.returns_of_measure
    (fun w => ∃ k, WalkAt node (nodeHeader node).itemAreaOffset ((nodeHeader node).itemSize node.size) w k)
    (fun w => node.size - w.curOffset) ⟨0, walkAt_init harea⟩ (fun w ⟨k, hat⟩ => hround w k hat)
    fun w w' ⟨k, hat⟩ ht => ⟨⟨k + 1, walkAt_step hsize hle hat ht⟩, by
      obtain ⟨hlt, files, -, rfl⟩ := (inodeRound_again hsize hle hat.within).1 ht
      simp only
      omega⟩
  exact ⟨fuel, w, (nodeExtractInlineFile_walked h).trans hw⟩

theorem nodeExtractInlineFile_enough (hsize : node.size ≤ 2147483648) (hfuel : node.size < fuel) :
    nodeExtractInlineFile fuel node ≠ .error .fuel := by
  have hle : (nodeHeader node).itemSize node.size ≤ node.size := itemSize_le
  by_cases h : (nodeHeader node).Walked node.size
  · have hpos := h.item
    rw [nodeExtractInlineFile_walked h]
    refine Checked.loop_enough (fun w => ∃ k, WalkAt node (nodeHeader node).itemAreaOffset
      ((nodeHeader node).itemSize node.size) w k) (fun w => node.size - w.curOffset)
      ⟨0, walkAt_init h.area⟩ (fun w _ herr => nomatch (inodeRound_error herr).1) (fun w w' ⟨k, hat⟩ ht => ?_)
      (Nat.lt_of_le_of_lt (Nat.sub_le _ _) hfuel)
    refine ⟨⟨k + 1, walkAt_step hsize hle hat ht⟩, ?_⟩
    obtain ⟨hlt, files, -, rfl⟩ := (inodeRound_again hsize hle hat.within).1 ht
    simp only
    omega
  · rcases nodeExtractInlineFile_refused fuel h with ⟨e, herr⟩ | hnone
    · rw [herr]
      simp
    · rw [hnone]
      simp

theorem nodeExtractInlineFile_not_code {e : Errno} (h : (nodeHeader node).Walked node.size) :
    nodeExtractInlineFile fuel node ≠ .error (.code e) := by
  intro hrun
  rw [nodeExtractInlineFile_walked h] at hrun
  obtain ⟨t, -, ht⟩ := Checked.loop_error_ind (fun _ => True) hrun (by simp) trivial fun _ _ _ _ => trivial
  cases (inodeRound_error ht).1

theorem not_filled_of_extractsOwn (hsize : node.size ≤ 2147483648) (h : ExtractsOwn node) :
    ¬(nodeHeader node).Filled node.size := by
  intro hfilled
  have harea := hfilled.area
  have hfill := hfilled.filled
  obtain ⟨fuel, w, hrun, hvisited⟩ := h.visits hfilled
  by_cases hwalked : (nodeHeader node).Walked node.size
  · have hall := (nodeExtractInlineFile_ok hsize hwalked hrun).1.symm.trans hvisited
    have hlength := congrArg List.length hall
    simp only [InodesNodeHeader.slots, List.length_map, List.length_range] at hlength
    -- the last inode ends with the node and is left out
    rw [← hfill] at hlength
    have hdiv := Nat.div_mul_le_self ((nodeHeader node).itemsCapacity *
      (nodeHeader node).itemSize node.size - 1) ((nodeHeader node).itemSize node.size)
    rw [hlength] at hdiv
    omega
  · rcases nodeExtractInlineFile_refused fuel hwalked with ⟨e, herr⟩ | hnone
    · cases herr.symm.trans hrun
    · obtain rfl := Except.ok.inj (hnone.symm.trans hrun)
      have hcapacity := congrArg List.length hvisited
      simp only [List.length_nil, List.length_map, List.length_range] at hcapacity
      rw [← hcapacity, Nat.zero_mul] at hfill
      omega

end

/-- No inode is missed exactly if the inodes leave bytes of the item area free, and the files lie in
their inodes exactly if the recorded sizes say so. -/
theorem nodeExtractInlineFile_own_iff {node : Buf} (hsize : node.size ≤ 2147483648) :
    ExtractsOwn node ↔ ¬(nodeHeader node).Filled node.size ∧
      ((nodeHeader node).Walked node.size → ∀ slot ∈ (nodeHeader node).slots node.size,
        slot + 124 ≤ node.size ∧ SizeInside node ((nodeHeader node).itemSize node.size) slot) := by
  constructor
  · intro h
    refine ⟨not_filled_of_extractsOwn hsize h, fun hwalked => ?_⟩
    obtain ⟨fuel, ⟨e, herr⟩ | ⟨w, hrun, hsizes, -⟩⟩ := h.own
    · exact absurd herr (nodeExtractInlineFile_not_code hwalked)
    · obtain ⟨hvisited, hin, -⟩ := nodeExtractInlineFile_ok hsize hwalked hrun
      rw [← hvisited]
      exact fun slot hslot => ⟨hin slot hslot, hsizes slot hslot⟩
  · rintro ⟨hnot, hslots⟩
    refine ⟨fun hfilled => absurd hfilled hnot, ?_⟩
    by_cases hwalked : (nodeHeader node).Walked node.size
    · obtain ⟨fuel, w, hrun⟩ := nodeExtractInlineFile_ends hsize hwalked fun slot hslot =>
        (hslots hwalked slot hslot).1
      obtain ⟨hvisited, -, hfiles⟩ := nodeExtractInlineFile_ok hsize hwalked hrun
      refine ⟨fuel, .inr ⟨w, hrun, fun slot hslot => (hslots hwalked slot (hvisited ▸ hslot)).2,
        fun f hf => ?_⟩⟩
      obtain ⟨slot, hslot, hflag, hpos, hstart, hlen⟩ := hfiles f hf
      have hinside := (hslots hwalked slot (hvisited ▸ hslot)).2 hflag hpos
      exact ⟨slot, hslot, by omega, by omega⟩
    · refine ⟨0, (nodeExtractInlineFile_refused 0 hwalked).imp id fun hnone =>
        ⟨_, hnone, fun slot hslot => ?_, fun f hf => ?_⟩⟩
      · cases hslot
      · cases hf

/-- A leaf of 4096 bytes without inline files, whose items begin at 256. -/
def emptyLeaf (capacity : Nat) : Buf where
  size := 4096
  data := poke (poke (poke (poke (poke (fun _ => 0) 4 0 superMagic.toNat) 2 4 ssdfsInodesBnodeMagic)
    1 19 ssdfsBtreeLeafNode) 2 30 capacity) 4 60 256

theorem nodeExtractInlineFile_own_14 : ExtractsOwn (emptyLeaf 14) := by
  have hitem : (nodeHeader (emptyLeaf 14)).itemSize (emptyLeaf 14).size = 274 := by decide
  refine (nodeExtractInlineFile_own_iff (by decide)).2
    ⟨fun h => absurd h.filled (by decide), fun _ slot hslot => ?_⟩
  rw [hitem]
  have hslots : ∀ slot ∈ (nodeHeader (emptyLeaf 14)).slots (emptyLeaf 14).size,
      slot + 124 ≤ (emptyLeaf 14).size ∧ recordedSize (emptyLeaf 14) slot = 0 := by decide
  exact ⟨(hslots slot hslot).1, fun _ hpos => absurd (hslots slot hslot).2 (by omega)⟩

/-- The last of fifteen inodes is missed. -/
theorem nodeExtractInlineFile_misses_last :
    (nodeHeader (emptyLeaf 15)).itemsCapacity = 15 ∧
      (∃ w, nodeExtractInlineFile 15 (emptyLeaf 15) = .ok w ∧ w.visited.length = 14) ∧
      ¬ExtractsOwn (emptyLeaf 15) := by
  refine ⟨by decide, ⟨_, rfl, by decide⟩, fun h => not_filled_of_extractsOwn (by decide) h ?_⟩
  exact ⟨⟨by decide, .inr (by decide), by decide⟩, by decide⟩

end Ssdfs
