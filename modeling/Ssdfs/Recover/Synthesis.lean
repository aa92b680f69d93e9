import Ssdfs.Lib.Threads
import Ssdfs.Recover.BlockName
import Ssdfs.Recover.Snapshot

namespace Ssdfs

structure BlockFile where
  name : List Char
  data : List UInt8
  deriving Repr, DecidableEq

structure OutputFolder where
  folders : List (List Char)
  blocks : List Char → List BlockFile
  files : Nat → Option (List UInt8)

def ssdfsEmptyFolderDefaultItemsCount : Nat := 2

namespace OutputFolder

def contentCount (out : OutputFolder) (folder : List Char) : Nat := 2 + (out.blocks folder).length

def setFile (out : OutputFolder) (inodeId : Nat) (data : List UInt8) : OutputFolder :=
  { out with files := Function.update out.files inodeId (some data) }

def setBlocks (out : OutputFolder) (folder : List Char) (blocks : List BlockFile) : OutputFolder :=
  { out with blocks := Function.update out.blocks folder blocks }

def unlink (out : OutputFolder) (folder name : List Char) : OutputFolder :=
  out.setBlocks folder ((out.blocks folder).filter (·.name ≠ name))

end OutputFolder

/-- The names as `scandir` returns them. -/
def alphasort (names : List (List Char)) : List (List Char) :=
  names.mergeSort fun a b => decide (List.le a b)

def writeAt (file : List UInt8) (offset : Nat) (data : List UInt8) : List UInt8 :=
  file.take offset ++ List.replicate (offset - file.length) 0 ++ data ++ file.drop (offset + data.length)

/-- The offsets that `lseek` takes. -/
def offMax : Nat := 9223372036854775807

def createDataFile (inodeId : Nat) (out : OutputFolder) : Option OutputFolder :=
  if Nat.toDigits 10 inodeId ∈ out.folders then none
  else some (out.setFile inodeId ((out.files inodeId).getD []))

/-- One file of an opened folder. A block of another inode is left there; the folder is given up
when the offset does not fit. -/
def synthesizeBlock (pageSize inodeId : Nat) (folder name : List Char) (out : OutputFolder) :
    Option OutputFolder :=
  match blockPlace pageSize name with
  | none => some out
  | some (ino, byteOffset) =>
    if ino ≠ inodeId then some out
    else if byteOffset > offMax then none
    else
      match (out.blocks folder).find? (·.name = name) with
      | none => some out
      | some block =>
        if block.data = [] then some (out.unlink folder name)
        else
          let out := out.setFile inodeId (writeAt ((out.files inodeId).getD []) byteOffset block.data)
          some (out.unlink folder name)

structure BuildState where
  timestamp : TimeRange
  namelist : List (List Char)
  parent : Option (List Char × List (List Char))

structure SynthesisEnv where
  pageSize : Nat
  capacity : Nat
  currentTime : Tm
  localTime : LocalTime

def folderTimestamp (folder : List Char) : UInt64 := UInt64.ofNat (Decimal.toU64 (Decimal.atoll folder))

section

variable (env : SynthesisEnv)

def isFolderInsideRange (range : TimeRange) (folder : List Char) : Bool × TimeRange :=
  range.isTimestampInsideRange env.currentTime (env.localTime.tm (folderTimestamp folder))

def buildFile (inodeId : Nat) (t : BuildState) (out : OutputFolder) :
    Option (BuildState × OutputFolder) :=
  match t.parent with
  | some (folder, name :: names) =>
    match synthesizeBlock env.pageSize inodeId folder name out with
    | some out => some ({ t with parent := some (folder, names) }, out)
    | none => some ({ t with parent := none }, out)
  | some (_, []) => some ({ t with parent := none }, out)
  | none =>
    match t.namelist with
    | [] => none
    | folder :: namelist =>
      let (inside, timestamp) := isFolderInsideRange env t.timestamp folder
      if inside then
        match createDataFile inodeId out with
        | some out =>
          let names := alphasort ((out.blocks folder).map (·.name))
          some (⟨timestamp, namelist, some (folder, names)⟩, out)
        | none => some (⟨timestamp, namelist, none⟩, out)
      else some (⟨timestamp, namelist, none⟩, out)

def addInodeIdJob (jobs : List Nat) (inodeId : Nat) : List Nat :=
  match jobs.getLast? with
  | none => [inodeId]
  | some last => if last < inodeId then jobs ++ [inodeId] else jobs

def requestJobs (capacity : Nat) : List Nat → List Nat → List Nat
  | jobs, [] => jobs
  | jobs, inodeId :: inodeIds =>
    if jobs.length ≥ capacity then jobs else requestJobs capacity (addInodeIdJob jobs inodeId) inodeIds

def folderInodes (out : OutputFolder) (folder : List Char) : List Nat :=
  (alphasort ((out.blocks folder).map (·.name))).map extractInodeId

def buildFilesInFolder (pick : Nat → Nat) (range : TimeRange) (namelist : List (List Char))
    (folder : List Char) (st : Nat × OutputFolder) : Nat → Option (Nat × OutputFolder)
  | 0 => none
  | fuel + 1 =>
    if st.2.contentCount folder ≤ ssdfsEmptyFolderDefaultItemsCount then some st
    else
      let jobs := requestJobs env.capacity [] (folderInodes st.2 folder)
      (Threads.run (buildFile env) pick jobs st.1 (fun _ => ⟨range, namelist, none⟩) st.2 fuel).bind
        fun st => buildFilesInFolder pick range namelist folder st fuel

structure SynthesisState where
  tick : Nat
  timestamp : TimeRange
  out : OutputFolder

def synthesizeFolder (pick : Nat → Nat) (namelist : List (List Char)) (st : SynthesisState)
    (folder : List Char) (fuel : Nat) : Option SynthesisState :=
  let (inside, timestamp) := isFolderInsideRange env st.timestamp folder
  if inside then
    (buildFilesInFolder env pick timestamp namelist folder (st.tick, st.out) fuel).map
      fun (tick, out) => ⟨tick, timestamp, out⟩
  else some { st with timestamp := timestamp }

def deleteFolder (out : OutputFolder) (folder : List Char) : OutputFolder :=
  { out.setBlocks folder [] with folders := out.folders.filter (· ≠ folder) }

def synthesizeFiles (pick : Nat → Nat) (range : TimeRange) (out : OutputFolder) (fuel : Nat) :
    Option OutputFolder :=
  let namelist := alphasort out.folders
  (namelist.foldlM (fun st folder => synthesizeFolder env pick namelist st folder fuel)
      ⟨0, range, out⟩).map
    fun st => namelist.foldl deleteFolder st.out

end

/-! What the threads of one round do to the blocks of their inodes, whatever the scheduler does. -/

section

variable {names : List (List Char)}

theorem alphasort_perm (names : List (List Char)) : (alphasort names).Perm names :=
  List.mergeSort_perm ..

theorem alphasort_ordered (names : List (List Char)) : (alphasort names).Pairwise List.le := by
  have h := @List.pairwise_mergeSort _ (fun a b : List Char => decide (List.le a b))
    (fun a b c hab hbc => decide_eq_true (List.le_trans (of_decide_eq_true hab) (of_decide_eq_true hbc)))
    (fun a b => Bool.or_eq_true_iff.2 ((List.le_total a b).imp decide_eq_true decide_eq_true)) names
  exact h.imp of_decide_eq_true

@[simp] theorem mem_alphasort {name : List Char} : name ∈ alphasort names ↔ name ∈ names :=
  (alphasort_perm names).mem_iff

theorem filter_alphasort (p : List Char → Bool) (names : List (List Char)) :
    (alphasort names).filter p = alphasort (names.filter p) :=
  List.Perm.eq_of_pairwise (fun _ _ _ _ hab hba => List.le_antisymm hab hba)
    ((alphasort_ordered names).filter p) (alphasort_ordered _)
    (((alphasort_perm names).filter p).trans (alphasort_perm _).symm)

end

theorem find_of_nodup {α β : Type} [DecidableEq β] {key : α → β} {l : List α} {a : α}
    (hnodup : (l.map key).Nodup) (ha : a ∈ l) : l.find? (key · = key a) = some a := by
  induction l with
  | nil => cases ha
  | cons c l ih =>
    obtain ⟨hnot, hnodup⟩ := List.nodup_cons.1 hnodup
    by_cases hc : key c = key a
    · rw [List.find?_cons_of_pos (by simpa using hc)]
      rcases List.mem_cons.1 ha with rfl | hmem
      · rfl
      · exact absurd (List.mem_map.2 ⟨a, hmem, hc.symm⟩) hnot
    · rw [List.find?_cons_of_neg (by simpa using hc)]
      rcases List.mem_cons.1 ha with rfl | hmem
      · exact absurd rfl hc
      · exact ih hnodup hmem

/-! The blocks that names stand for, in the order of the names. -/

def inOrder (blocks : List BlockFile) (names : List (List Char)) : List BlockFile :=
  names.filterMap fun name => blocks.find? (·.name = name)

def sortedBlocks (blocks : List BlockFile) : List BlockFile :=
  inOrder blocks (alphasort (blocks.map (·.name)))

section

variable {blocks : List BlockFile} {names : List (List Char)} {name : List Char} {b : BlockFile}

theorem find_name (hnodup : (blocks.map (·.name)).Nodup) (hb : b ∈ blocks) :
    blocks.find? (·.name = b.name) = some b :=
  find_of_nodup hnodup hb

theorem find_name_eq_some (h : blocks.find? (·.name = name) = some b) : b ∈ blocks ∧ b.name = name :=
  ⟨List.mem_of_find?_eq_some h, by simpa using List.find?_some h⟩

theorem find_name_eq_none : blocks.find? (·.name = name) = none ↔ ∀ b ∈ blocks, b.name ≠ name := by
  simp

theorem inOrder_cons_of_none (h : blocks.find? (·.name = name) = none) :
    inOrder blocks (name :: names) = inOrder blocks names :=
  List.filterMap_cons_none h

theorem inOrder_cons_of_some (h : blocks.find? (·.name = name) = some b) :
    inOrder blocks (name :: names) = b :: inOrder blocks names :=
  List.filterMap_cons_some h

theorem mem_inOrder (hnodup : (blocks.map (·.name)).Nodup) :
    b ∈ inOrder blocks names ↔ b ∈ blocks ∧ b.name ∈ names := by
  unfold inOrder
  rw [List.mem_filterMap]
  constructor
  · rintro ⟨name, hname, hfind⟩
    obtain ⟨hmem, rfl⟩ := find_name_eq_some hfind
    exact ⟨hmem, hname⟩
  · exact fun ⟨hb, hname⟩ => ⟨b.name, hname, find_name hnodup hb⟩

theorem mem_sortedBlocks (hnodup : (blocks.map (·.name)).Nodup) : b ∈ sortedBlocks blocks ↔ b ∈ blocks := by
  unfold sortedBlocks
  rw [mem_inOrder hnodup, mem_alphasort]
  exact and_iff_left_of_imp List.mem_map_of_mem

theorem inOrder_filter_names (p : List Char → Bool) (h : ∀ b ∈ blocks, p b.name = true) :
    inOrder blocks (names.filter p) = inOrder blocks names := by
  unfold inOrder
  rw [List.filterMap_filter]
  refine List.filterMap_congr fun name _ => ?_
  split
  · rfl
  · rename_i hp
    refine (find_name_eq_none.2 fun b hb hname => ?_).symm
    subst hname
    exact hp (h b hb)

theorem inOrder_filter_blocks (p : BlockFile → Bool) (hnodup : (blocks.map (·.name)).Nodup) :
    inOrder (blocks.filter p) (alphasort (blocks.map (·.name))) = sortedBlocks (blocks.filter p) := by
  let own : List Char → Bool := fun name => decide (name ∈ (blocks.filter p).map (·.name))
  have hown : ((blocks.map (·.name)).filter own) = (blocks.filter p).map (·.name) := by
    rw [List.filter_map]
    refine congrArg _ (List.filter_congr fun b hb => ?_)
    rw [Bool.eq_iff_iff, Function.comp_apply, decide_eq_true_eq]
    constructor
    · intro hmem
      obtain ⟨c, hc, hname⟩ := List.mem_map.1 hmem
      obtain ⟨hc, hp⟩ := List.mem_filter.1 hc
      have hsame := find_name hnodup hc
      rw [hname, find_name hnodup hb] at hsame
      exact Option.some.inj hsame ▸ hp
    · exact fun hp => List.mem_map_of_mem (List.mem_filter.2 ⟨hb, hp⟩)
  unfold sortedBlocks
  rw [← hown, ← filter_alphasort]
  exact (inOrder_filter_names own fun b hb => decide_eq_true (List.mem_map_of_mem hb)).symm

theorem inOrder_unlinked (h : name ∉ names) :
    inOrder (blocks.filter (·.name ≠ name)) names = inOrder blocks names := by
  unfold inOrder
  refine List.filterMap_congr fun n hn => ?_
  rw [List.find?_filter]
  congr 1
  funext b
  rw [Bool.eq_iff_iff]
  simp only [ne_eq, decide_not, Bool.not_eq_true', decide_eq_false_iff_not, decide_eq_true_eq,
    and_iff_right_iff_imp]
  exact fun hb hname => h (hname ▸ hb ▸ hn)

end

def overlay (pageSize : Nat) (file : List UInt8) (blocks : List BlockFile) : List UInt8 :=
  blocks.foldl (fun file b => writeAt file (extractOffset pageSize b.name) b.data) file

structure InodeView where
  file : Option (List UInt8)
  blocks : List Char → List BlockFile

def OutputFolder.view (inodeId : Nat) (out : OutputFolder) : InodeView where
  file := out.files inodeId
  blocks folder := (out.blocks folder).filter fun b => extractInodeId b.name = inodeId

structure Placed (pageSize : Nat) (folders : List (List Char)) (b : BlockFile) : Prop where
  place : blockPlace pageSize b.name = some (extractInodeId b.name, extractOffset pageSize b.name)
  offset : extractOffset pageSize b.name ≤ offMax
  page : b.data.length = pageSize
  apart : Nat.toDigits 10 (extractInodeId b.name) ∉ folders

structure Stored (pageSize : Nat) (folders : List (List Char)) (start : List Char → List BlockFile)
    (out : OutputFolder) : Prop where
  same : out.folders = folders
  nodup : ∀ folder, ((out.blocks folder).map (·.name)).Nodup
  placed : ∀ folder, ∀ b ∈ out.blocks folder, Placed pageSize folders b
  sub : ∀ folder, (out.blocks folder).Sublist (start folder)

section

variable {pageSize : Nat} {folders : List (List Char)} {start : List Char → List BlockFile}
  {out : OutputFolder}
  {inodeId j : Nat} {folder name : List Char} {data : List UInt8}

theorem Stored.setFile (h : Stored pageSize folders start out) :
    Stored pageSize folders start (out.setFile inodeId data) :=
  ⟨h.same, h.nodup, h.placed, h.sub⟩

theorem OutputFolder.blocks_setBlocks {blocks : List BlockFile} {f : List Char} :
    (out.setBlocks folder blocks).blocks f = if f = folder then blocks else out.blocks f :=
  Function.update_apply ..

theorem OutputFolder.blocks_unlink {f : List Char} :
    (out.unlink folder name).blocks f =
      if f = folder then (out.blocks folder).filter (·.name ≠ name) else out.blocks f :=
  blocks_setBlocks

theorem Stored.unlink (h : Stored pageSize folders start out) :
    Stored pageSize folders start (out.unlink folder name) := by
  have hsub : ∀ f, ((out.unlink folder name).blocks f).Sublist (out.blocks f) := fun f => by
    rw [OutputFolder.blocks_unlink]
    split
    · rename_i hf
      exact hf ▸ List.filter_sublist
    · exact List.Sublist.refl _
  exact ⟨h.same, fun f => (h.nodup f).sublist ((hsub f).map _),
    fun f b hb => h.placed f b ((hsub f).subset hb), fun f => (hsub f).trans (h.sub f)⟩

theorem Stored.view_nodup (h : Stored pageSize folders start out) :
    (((out.view inodeId).blocks folder).map (·.name)).Nodup :=
  (h.nodup folder).sublist (List.filter_sublist.map _)

@[simp] theorem mem_view {b : BlockFile} :
    b ∈ (out.view inodeId).blocks folder ↔ b ∈ out.blocks folder ∧ extractInodeId b.name = inodeId := by
  simp [OutputFolder.view]

theorem view_setFile_of_ne (h : j ≠ inodeId) : (out.setFile inodeId data).view j = out.view j :=
  congrArg (InodeView.mk · (out.view j).blocks) (Function.update_of_ne h ..)

theorem view_setFile : (out.setFile inodeId data).view inodeId = ⟨some data, (out.view inodeId).blocks⟩ :=
  congrArg (InodeView.mk · (out.view inodeId).blocks) (Function.update_self ..)

theorem view_unlink_of_ne (h : j ≠ extractInodeId name) : (out.unlink folder name).view j = out.view j := by
  have hblocks : ∀ f, ((out.unlink folder name).view j).blocks f = (out.view j).blocks f := fun f => by
    change ((out.unlink folder name).blocks f).filter _ = (out.blocks f).filter _
    rw [OutputFolder.blocks_unlink]
    split
    · rename_i hf
      rw [hf, List.filter_filter]
      refine List.filter_congr fun b _ => ?_
      by_cases hname : b.name = name
      · simp [hname, h.symm]
      · simp [hname]
    · rfl
  exact congrArg (InodeView.mk (out.files j)) (funext hblocks)

theorem view_unlink {f : List Char} : ((out.unlink folder name).view inodeId).blocks f =
    if f = folder then ((out.view inodeId).blocks folder).filter (·.name ≠ name)
    else (out.view inodeId).blocks f := by
  change ((out.unlink folder name).blocks f).filter _ = _
  rw [OutputFolder.blocks_unlink]
  split
  · exact List.filter_comm ..
  · rfl

end

end Ssdfs
