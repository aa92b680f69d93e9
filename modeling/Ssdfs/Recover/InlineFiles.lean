import Ssdfs.Recover.InlineNode

namespace Ssdfs

open Memory

structure FirstNode where
  nodeSize : Nat
  nodeOffset : Nat
  nodesCount : Nat
  deriving Repr, DecidableEq

def pageCacheBytes : Nat := 4096

/-- One page of the file; the offset is a number of 32 bits. -/
def findNodeRound (pageSize : Nat) (file : Buf) (nodeOffset : Nat) :
    Checked Errno (Round Nat FirstNode) :=
  if nodeOffset < file.size then do
    failIf (file.size < nodeOffset + pageCacheBytes) .eio
    let nodeHdr := InodesNodeHeader.read file.data nodeOffset
    if nodeHdr.IsNode then do
      let nodeSize ← Checked.shiftOne Errno nodeHdr.logNodeSize
      failIf (nodeSize = 0 ∨ nodeSize % pageSize ≠ 0) .eio
      .ok (.leave ⟨nodeSize, nodeOffset, Word.u32 ((file.size - nodeOffset) / nodeSize)⟩)
    else .ok (.again (Word.u32 (nodeOffset + pageSize)))
  else .error (.code .enoent)

def findFirstValidNode (fuel pageSize : Nat) (file : Buf) : Checked Errno FirstNode :=
  if file.size = 0 then .error (.code .enoent)
  else Checked.loop (findNodeRound pageSize file) fuel 0

def extractNode (fuel : Nat) (file : Buf) (nodeOffset nodeSize : Nat) : Checked Errno NodeWalk := do
  failIf (file.size < nodeOffset + nodeSize) .eio
  nodeExtractInlineFile fuel ⟨nodeSize, fun i => file.data (nodeOffset + i)⟩

/-- The nodes from `nodeOffset` on, with what became of each: an error of one does not stop the rest. -/
def extractNodes (fuel : Nat) (file : Buf) (nodeSize : Nat) :
    Nat → Nat → List (Nat × Checked Errno NodeWalk)
  | 0, _ => []
  | count + 1, nodeOffset => (nodeOffset, extractNode fuel file nodeOffset nodeSize) ::
      extractNodes fuel file nodeSize count (Word.u32 (nodeOffset + nodeSize))

def extractInlineFiles (fuel pageSize : Nat) (file : Buf) :
    Checked Errno (List (Nat × Checked Errno NodeWalk)) :=
  match findFirstValidNode fuel pageSize file with
  | .error (.code .enoent) => .ok []
  | .error e => .error e
  | .ok first =>
    if first.nodesCount = 0 then .ok []
    else if first.nodesCount ≥ Word.u32Max then .error (.code .erange)
    else .ok (extractNodes fuel file first.nodeSize first.nodesCount first.nodeOffset)

def NodeAt (file : Buf) (offset : Nat) : Prop :=
  (InodesNodeHeader.read file.data offset).IsNode

def nodeSizeAt (file : Buf) (offset : Nat) : Nat :=
  2 ^ (InodesNodeHeader.read file.data offset).logNodeSize

/-- The pages before `offset` hold no header. -/
def NoNodeBelow (pageSize : Nat) (file : Buf) (offset : Nat) : Prop :=
  ∀ o, pageSize ∣ o → o < offset → ¬NodeAt file o

structure IsFirstNode (pageSize : Nat) (file : Buf) (offset : Nat) : Prop where
  aligned : pageSize ∣ offset
  inside : offset < file.size
  node : NodeAt file offset
  first : NoNodeBelow pageSize file offset

/-- The first header is found, and with a node size that the pages divide its nodes are processed one
after another; any other size is an error. -/
structure FindsNodes (pageSize : Nat) (file : Buf) : Prop where
  absent : NoNodeBelow pageSize file file.size →
    ∃ fuel, findFirstValidNode fuel pageSize file = .error (.code .enoent)
  found : ∀ o, IsFirstNode pageSize file o → pageSize ∣ nodeSizeAt file o → ∃ fuel nodes,
    findFirstValidNode fuel pageSize file =
      .ok ⟨nodeSizeAt file o, o, (file.size - o) / nodeSizeAt file o⟩ ∧
    extractInlineFiles fuel pageSize file = .ok nodes ∧
    nodes.map Prod.fst =
      (List.range ((file.size - o) / nodeSizeAt file o)).map (fun i => o + i * nodeSizeAt file o) ∧
    ∀ n ∈ nodes, n.2 ≠ .error .fuel
  refused : ∀ o, IsFirstNode pageSize file o → ¬pageSize ∣ nodeSizeAt file o →
    ∃ fuel, findFirstValidNode fuel pageSize file = .error (.code .eio)

section

variable {pageSize o fuel : Nat} {file : Buf}

/-- Pages as the volume has them, and a file of whole pages. -/
structure WholePages (pageSize : Nat) (file : Buf) : Prop where
  least : 4096 ≤ pageSize
  power : pageSize ∣ 4294967296
  file : pageSize ∣ file.size

theorem WholePages.page_inside (h : WholePages pageSize file) (ho : pageSize ∣ o) (hin : o < file.size) :
    o + pageSize ≤ file.size := by
  obtain ⟨a, rfl⟩ := ho
  obtain ⟨b, hb⟩ := h.file
  rw [hb] at hin ⊢
  rw [← Nat.mul_succ]
  exact Nat.mul_le_mul_left pageSize (Nat.lt_of_mul_lt_mul_left hin)

theorem findNodeRound_again (h : WholePages pageSize file) (ho : pageSize ∣ o) (hin : o < file.size)
    (hnot : ¬NodeAt file o) :
    findNodeRound pageSize file o = .ok (.again (Word.u32 (o + pageSize))) := by
  have hpage := h.page_inside ho hin
  have hleast := h.least
  unfold findNodeRound
  rw [if_pos hin, failIf_of_not (by unfold pageCacheBytes; omega), Checked.ok_bind]
  exact if_neg hnot

theorem findNodeRound_node (h : WholePages pageSize file) (ho : pageSize ∣ o) (hin : o < file.size)
    (hnode : NodeAt file o) :
    findNodeRound pageSize file o =
      Checked.shiftOne Errno (InodesNodeHeader.read file.data o).logNodeSize >>= fun nodeSize =>
      failIf (nodeSize = 0 ∨ nodeSize % pageSize ≠ 0) .eio >>= fun _ =>
      .ok (.leave ⟨nodeSize, o, Word.u32 ((file.size - o) / nodeSize)⟩) := by
  have hpage := h.page_inside ho hin
  have hleast := h.least
  unfold findNodeRound
  rw [if_pos hin, failIf_of_not (by unfold pageCacheBytes; omega), Checked.ok_bind]
  exact if_pos hnode

theorem loop_reaches (h : WholePages pageSize file) {k : Nat} (hlow : k * pageSize < 4294967296)
    (hin : k * pageSize ≤ file.size) (hnone : NoNodeBelow pageSize file (k * pageSize)) :
    Checked.loop (findNodeRound pageSize file) (k + fuel) 0 =
      Checked.loop (findNodeRound pageSize file) fuel (k * pageSize) := by
  have hleast := h.least
  induction k generalizing fuel with
  | zero => rw [Nat.zero_add, Nat.zero_mul]
  | succ k ih =>
    rw [Nat.succ_mul] at hlow hin hnone ⊢
    have hround := findNodeRound_again h (Nat.dvd_mul_left pageSize k) (by omega)
      (hnone _ (Nat.dvd_mul_left pageSize k) (by omega))
    rw [Word.u32_of_lt (by omega)] at hround
    have hfuel : k + 1 + fuel = k + (fuel + 1) := by omega
    rw [hfuel, ih (by omega) (by omega) fun o ho hlt => hnone o ho (by omega),
      Checked.loop_again hround]

/-- Without a header below 4 GiB the offset wraps and the search never ends. -/
theorem not_ends_of_wrap (h : WholePages pageSize file) (hlarge : 4294967296 ≤ file.size)
    (hnone : NoNodeBelow pageSize file 4294967296) :
    ¬Checked.Ends (findNodeRound pageSize file) 0 := by
  refine Checked.not_ends_of_inv (fun o => pageSize ∣ o ∧ o < 4294967296) ⟨Nat.dvd_zero _, by decide⟩
    fun o ⟨ho, hlt⟩ => ⟨_, findNodeRound_again h ho (by omega) (hnone o ho hlt), ?_, Word.u32_lt _⟩
  exact (Nat.dvd_mod_iff h.power).2 (Nat.dvd_add ho (Nat.dvd_refl _))

theorem findFirstValidNode_eq (h : file.size ≠ 0) :
    findFirstValidNode fuel pageSize file = Checked.loop (findNodeRound pageSize file) fuel 0 :=
  if_neg h

theorem findFirstValidNode_at (h : WholePages pageSize file) (ho : IsFirstNode pageSize file o)
    (hlow : o < 4294967296) :
    findFirstValidNode (o / pageSize + 1) pageSize file =
      Checked.shiftOne Errno (InodesNodeHeader.read file.data o).logNodeSize >>= fun nodeSize =>
      failIf (nodeSize = 0 ∨ nodeSize % pageSize ≠ 0) .eio >>= fun _ =>
      .ok ⟨nodeSize, o, Word.u32 ((file.size - o) / nodeSize)⟩ := by
  have hinside := ho.inside
  have hk := Nat.div_mul_cancel ho.aligned
  rw [findFirstValidNode_eq (by omega), loop_reaches h (by omega) (by omega) (hk.symm ▸ ho.first), hk,
    Checked.loop, findNodeRound_node h ho.aligned ho.inside ho.node]
  cases Checked.shiftOne Errno (InodesNodeHeader.read file.data o).logNodeSize with
  | error e => rfl
  | ok nodeSize =>
    simp only [Checked.ok_bind]
    cases failIf (nodeSize = 0 ∨ nodeSize % pageSize ≠ 0) .eio with
    | error e => rfl
    | ok u => rfl

theorem findFirstValidNode_absent (h : WholePages pageSize file) (hlow : file.size < 4294967296)
    (hnone : NoNodeBelow pageSize file file.size) :
    findFirstValidNode (file.size / pageSize + 1) pageSize file = .error (.code .enoent) := by
  have hk := Nat.div_mul_cancel h.file
  by_cases hzero : file.size = 0
  · exact if_pos hzero
  · have hend : findNodeRound pageSize file file.size = .error (.code .enoent) :=
      if_neg (Nat.lt_irrefl _)
    rw [findFirstValidNode_eq hzero, loop_reaches h (by omega) (by omega) (hk.symm ▸ hnone), hk,
      Checked.loop_error hend]

variable (fuel) in
theorem findFirstValidNode_never (h : WholePages pageSize file) (hlarge : 4294967296 ≤ file.size)
    (hnone : NoNodeBelow pageSize file 4294967296) :
    findFirstValidNode fuel pageSize file = .error .fuel := by
  rw [findFirstValidNode_eq (by omega)]
  by_contra hend
  exact not_ends_of_wrap h hlarge hnone ⟨fuel, hend⟩

theorem nodeSize_ok (h : pageSize ∣ nodeSizeAt file o) :
    failIf (nodeSizeAt file o = 0 ∨ nodeSizeAt file o % pageSize ≠ 0) .eio = .ok () := by
  refine failIf_of_not ?_
  rintro (hzero | hmod)
  · exact absurd hzero (Nat.pos_iff_ne_zero.1 (Nat.two_pow_pos _))
  · exact hmod (Nat.mod_eq_zero_of_dvd h)

theorem extractNodes_offsets {nodeSize count : Nat} (h : o + (count - 1) * nodeSize < 4294967296) :
    (extractNodes fuel file nodeSize count o).map Prod.fst =
      (List.range count).map fun i => o + i * nodeSize := by
  induction count generalizing o with
  | zero => rfl
  | succ count ih =>
    rw [extractNodes, List.map_cons, List.range_succ_eq_map, List.map_cons, List.map_map, Nat.zero_mul]
    refine congrArg (o :: ·) ?_
    cases count with
    | zero => rfl
    | succ count =>
      simp only [Nat.add_sub_cancel, Nat.succ_mul] at h
      rw [Word.u32_of_lt (by omega), ih (by simp only [Nat.add_sub_cancel]; omega)]
      refine List.map_congr_left fun i _ => ?_
      simp only [Function.comp_apply, Nat.succ_mul]
      omega

theorem findFirstValidNode_mono {m n : Nat} (h : findFirstValidNode m pageSize file ≠ .error .fuel)
    (hle : m ≤ n) : findFirstValidNode n pageSize file = findFirstValidNode m pageSize file := by
  unfold findFirstValidNode at h ⊢
  split
  · rfl
  · rw [if_neg ‹_›] at h
    exact Checked.loop_mono h hle

theorem extractNodes_enough {nodeSize count : Nat} (hsize : nodeSize ≤ 2147483648)
    (hfuel : nodeSize < fuel) :
    ∀ n ∈ extractNodes fuel file nodeSize count o, n.2 ≠ .error .fuel := by
  induction count generalizing o with
  | zero => exact fun n hn => absurd hn (List.not_mem_nil)
  | succ count ih =>
    intro n hn
    rcases List.mem_cons.1 hn with rfl | hrest
    · simp only [extractNode]
      by_cases hshort : file.size < o + nodeSize
      · rw [failIf, if_pos hshort]
        intro h
        cases h
      · rw [failIf_of_not hshort, Checked.ok_bind]
        exact nodeExtractInlineFile_enough hsize hfuel
    · exact ih n hrest

theorem extractNodes_lt {nodeSize count : Nat} (ho : o < 4294967296) :
    ∀ x ∈ (extractNodes fuel file nodeSize count o).map Prod.fst, x < 4294967296 := by
  induction count generalizing o with
  | zero => exact fun x hx => absurd hx (List.not_mem_nil)
  | succ count ih =>
    intro x hx
    rcases List.mem_cons.1 hx with rfl | hrest
    · exact ho
    · exact ih (Word.u32_lt _) x hrest

theorem firstNode_low (h : WholePages pageSize file) (ho : IsFirstNode pageSize file o)
    {r : Checked Errno FirstNode} (hr : r ≠ .error .fuel)
    (hfind : ∃ fuel, findFirstValidNode fuel pageSize file = r) : o < 4294967296 := by
  obtain ⟨fuel, hfind⟩ := hfind
  by_contra hge
  have hinside := ho.inside
  rw [findFirstValidNode_never fuel h (by omega) fun p hp hlt => ho.first p hp (by omega)] at hfind
  exact hr hfind.symm

theorem firstNode_shift (h : WholePages pageSize file) (ho : IsFirstNode pageSize file o)
    (hlow : o < 4294967296) {r : Checked Errno FirstNode} (hr : r ≠ .error .fuel)
    (htrap : r ≠ .error .trap) (hfind : ∃ fuel, findFirstValidNode fuel pageSize file = r) :
    (InodesNodeHeader.read file.data o).logNodeSize < 32 := by
  obtain ⟨fuel, hfind⟩ := hfind
  by_contra hge
  have hinside := ho.inside
  have hat := findFirstValidNode_at h ho hlow
  rw [Checked.shiftOne_of_ge hge, Checked.error_bind] at hat
  rw [findFirstValidNode_eq (by omega)] at hfind hat
  refine htrap (hfind.symm.trans ?_)
  rcases Nat.le_total fuel (o / pageSize + 1) with hle | hle
  · rw [← Checked.loop_mono (hfind ▸ hr) hle]
    exact hat
  · rw [Checked.loop_mono (by rw [hat]; simp) hle]
    exact hat

/-- The first header and the last node begin below 4 GiB, and the size of the nodes is that of a
defined shift. -/
structure NodesReachable (pageSize : Nat) (file : Buf) : Prop where
  absent : NoNodeBelow pageSize file file.size → file.size < 4294967296
  first : ∀ o, IsFirstNode pageSize file o → o < 4294967296
  shift : ∀ o, IsFirstNode pageSize file o → (InodesNodeHeader.read file.data o).logNodeSize < 32
  last : ∀ o, IsFirstNode pageSize file o → pageSize ∣ nodeSizeAt file o →
    o + ((file.size - o) / nodeSizeAt file o - 1) * nodeSizeAt file o < 4294967296

theorem nodesReachable_of_findsNodes (h : WholePages pageSize file) (hfinds : FindsNodes pageSize file) :
    NodesReachable pageSize file := by
  have hresult : ∀ o, IsFirstNode pageSize file o → ∃ r : Checked Errno FirstNode, r ≠ .error .fuel ∧
      r ≠ .error .trap ∧ ∃ fuel, findFirstValidNode fuel pageSize file = r := by
    intro o ho
    by_cases hdvd : pageSize ∣ nodeSizeAt file o
    · obtain ⟨fuel, nodes, hfind, -⟩ := hfinds.found o ho hdvd
      exact ⟨_, by simp, by simp, fuel, hfind⟩
    · obtain ⟨fuel, hfind⟩ := hfinds.refused o ho hdvd
      exact ⟨_, by simp, by simp, fuel, hfind⟩
  have hfirst : ∀ o, IsFirstNode pageSize file o → o < 4294967296 := fun o ho => by
    obtain ⟨r, hr, -, hfind⟩ := hresult o ho
    exact firstNode_low h ho hr hfind
  refine ⟨fun hnone => ?_, hfirst, fun o ho => ?_, fun o ho hdvd => ?_⟩
  · obtain ⟨fuel, hfind⟩ := hfinds.absent hnone
    by_contra hge
    rw [findFirstValidNode_never fuel h (by omega) fun p hp hlt => hnone p hp (by omega)] at hfind
    cases hfind
  · obtain ⟨r, hr, htrap, hfind⟩ := hresult o ho
    exact firstNode_shift h ho (hfirst o ho) hr htrap hfind
  · obtain ⟨fuel, nodes, hfind, hextract, hoffsets, -⟩ := hfinds.found o ho hdvd
    have hlow := hfirst o ho
    rw [extractInlineFiles, hfind] at hextract
    simp only at hextract
    by_cases hzero : (file.size - o) / nodeSizeAt file o = 0
    · rw [hzero]
      omega
    · rw [if_neg hzero] at hextract
      split at hextract
      · cases hextract
      · obtain rfl := Except.ok.inj hextract
        exact extractNodes_lt hlow _ (hoffsets ▸ List.mem_map.2
          ⟨_, List.mem_range.2 (Nat.sub_lt (Nat.pos_of_ne_zero hzero) Nat.one_pos), rfl⟩)

theorem findsNodes_of_nodesReachable (h : WholePages pageSize file) (hreach : NodesReachable pageSize file) :
    FindsNodes pageSize file where
  absent := fun hnone => ⟨_, findFirstValidNode_absent h (hreach.absent hnone) hnone⟩
  found := fun o ho hdvd => by
    have hat := findFirstValidNode_at h ho (hreach.first o ho)
    have hlast := hreach.last o ho hdvd
    have hleast := h.least
    have hpage : pageSize ≤ nodeSizeAt file o := Nat.le_of_dvd (Nat.two_pow_pos _) hdvd
    have hcount : (file.size - o) / nodeSizeAt file o < 4294967295 := by
      have hmul := Nat.mul_le_mul_left ((file.size - o) / nodeSizeAt file o - 1)
        (Nat.le_trans hleast hpage)
      omega
    rw [Checked.shiftOne_of_lt (hreach.shift o ho), Checked.ok_bind] at hat
    have hat' : findFirstValidNode (o / pageSize + 1) pageSize file =
        (failIf (nodeSizeAt file o = 0 ∨ nodeSizeAt file o % pageSize ≠ 0) .eio >>= fun _ =>
          .ok (⟨nodeSizeAt file o, o, Word.u32 ((file.size - o) / nodeSizeAt file o)⟩ : FirstNode)) := hat
    rw [nodeSize_ok hdvd, Checked.ok_bind, Word.u32_of_lt (by omega)] at hat'
    have hsize : nodeSizeAt file o ≤ 2147483648 :=
      Nat.pow_le_pow_right (by decide) (Nat.le_of_lt_succ (hreach.shift o ho))
    have hfind : findFirstValidNode (o / pageSize + 1 + nodeSizeAt file o) pageSize file = _ :=
      findFirstValidNode_mono (by rw [hat']; simp) (Nat.le_add_right _ _)
    rw [hat'] at hfind
    refine ⟨_, extractNodes (o / pageSize + 1 + nodeSizeAt file o) file (nodeSizeAt file o)
      ((file.size - o) / nodeSizeAt file o) o, hfind, ?_, extractNodes_offsets hlast,
      extractNodes_enough hsize (Nat.lt_add_of_pos_left (Nat.succ_pos _))⟩
    rw [extractInlineFiles, hfind]
    simp only
    by_cases hzero : (file.size - o) / nodeSizeAt file o = 0
    · rw [if_pos hzero, hzero]
      rfl
    · rw [if_neg hzero, if_neg (by unfold Word.u32Max; omega)]
  refused := fun o ho hdvd => by
    have hat := findFirstValidNode_at h ho (hreach.first o ho)
    have hmod : nodeSizeAt file o % pageSize ≠ 0 := fun hmod => hdvd (Nat.dvd_of_mod_eq_zero hmod)
    rw [Checked.shiftOne_of_lt (hreach.shift o ho), Checked.ok_bind, failIf, if_pos (.inr hmod)] at hat
    exact ⟨_, hat⟩

end

/-- The nodes are found and processed where they are exactly if no offset has to go beyond 32 bits. -/
theorem extractInlineFiles_finds_iff {pageSize : Nat} {file : Buf} (h : WholePages pageSize file) :
    FindsNodes pageSize file ↔ NodesReachable pageSize file :=
  ⟨nodesReachable_of_findsNodes h, findsNodes_of_nodesReachable h⟩

def onePageNode : Buf where
  size := 8192
  data := poke (poke (poke (fun _ => 0) 4 4096 superMagic.toNat) 2 4100 ssdfsInodesBnodeMagic) 1 4113 12

theorem extractInlineFiles_finds_second : FindsNodes 4096 onePageNode := by
  refine (extractInlineFiles_finds_iff ⟨by decide, by decide, by decide⟩).2
    ⟨fun _ => by decide, fun o ho => Nat.lt_trans ho.inside (by decide), fun o ho => ?_, fun o ho _ => ?_⟩
  · obtain ⟨k, rfl⟩ := ho.aligned
    have hk : k < 2 := Nat.lt_of_mul_lt_mul_left (Nat.lt_of_lt_of_le ho.inside (by decide))
    have hlog : ∀ k < 2, (InodesNodeHeader.read onePageNode.data (4096 * k)).logNodeSize < 32 := by
      decide
    exact hlog k hk
  · have hinside := ho.inside
    have hmul := Nat.div_mul_le_self (onePageNode.size - o) (nodeSizeAt onePageNode o)
    have hle := Nat.mul_le_mul_right (nodeSizeAt onePageNode o)
      (Nat.sub_le ((onePageNode.size - o) / nodeSizeAt onePageNode o) 1)
    have hsize : onePageNode.size = 8192 := rfl
    omega

/-- A file of 4 GiB without a node is searched forever. -/
theorem findFirstValidNode_hangs_4GiB :
    (∀ fuel, findFirstValidNode fuel 4096 ⟨4294967296, fun _ => 0⟩ = .error .fuel) ∧
      ¬FindsNodes 4096 ⟨4294967296, fun _ => 0⟩ := by
  have hpages : WholePages 4096 ⟨4294967296, fun _ => 0⟩ := ⟨by decide, by decide, by decide⟩
  have hnone : NoNodeBelow 4096 ⟨4294967296, fun _ => 0⟩ 4294967296 := by
    rintro o - - ⟨hmagic, -⟩
    have hzero : peek (fun _ => 0) 4 o = 0 := by
      simp [peek]
    exact absurd (hzero.symm.trans hmagic) (by decide)
  have hnever := fun fuel => findFirstValidNode_never fuel hpages (Nat.le_refl _) hnone
  refine ⟨hnever, fun h => ?_⟩
  obtain ⟨fuel, hfind⟩ := h.absent hnone
  cases (hnever fuel).symm.trans hfind

end Ssdfs
