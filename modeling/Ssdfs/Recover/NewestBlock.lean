import Mathlib.Data.List.Nodup
import Ssdfs.Recover.BlockStored
import Ssdfs.Recover.SynthesisRounds

namespace Ssdfs

/-- The bytes of a file from an offset on. -/
def HoldsAt (file : List UInt8) (offset : Nat) (data : List UInt8) : Prop := data <+: file.drop offset

section

variable {file data data' : List UInt8} {offset offset' : Nat}

theorem holdsAt_iff : HoldsAt file offset data ↔ ∀ i < data.length, file[offset + i]? = data[i]? := by
  unfold HoldsAt
  rw [List.prefix_iff_getElem?]
  simp only [List.getElem?_drop]
  constructor
  · exact fun h i hi => (h i hi).trans (List.getElem?_eq_getElem hi).symm
  · exact fun h i hi => (h i hi).trans (List.getElem?_eq_getElem hi)

theorem getElem?_writeAt_inside {i : Nat} (hi : i < data.length) :
    (writeAt file offset data)[offset + i]? = data[i]? := by
  have hlen : (file.take offset ++ List.replicate (offset - file.length) 0).length = offset := by
    simp only [List.length_append, List.length_take, List.length_replicate]
    omega
  unfold writeAt
  rw [List.append_assoc, List.getElem?_append_right (by omega), hlen, Nat.add_sub_cancel_left,
    List.getElem?_append_left hi]

theorem getElem?_writeAt_outside {i : Nat} (hi : i < offset ∨ offset + data.length ≤ i)
    (hfile : i < file.length) : (writeAt file offset data)[i]? = file[i]? := by
  have hlen : (file.take offset ++ List.replicate (offset - file.length) 0).length = offset := by
    simp only [List.length_append, List.length_take, List.length_replicate]
    omega
  unfold writeAt
  rcases hi with hi | hi
  · rw [List.append_assoc, List.getElem?_append_left (by omega),
      List.getElem?_append_left (by rw [List.length_take]; omega), List.getElem?_take_of_lt hi]
  · rw [List.getElem?_append_right (by rw [List.length_append, hlen]; omega), List.getElem?_drop,
      List.length_append, hlen]
    congr 1
    omega

theorem holdsAt_writeAt : HoldsAt (writeAt file offset data) offset data :=
  holdsAt_iff.2 fun _ hi => getElem?_writeAt_inside hi

theorem HoldsAt.writeAt (h : HoldsAt file offset data)
    (hapart : offset + data.length ≤ offset' ∨ offset' + data'.length ≤ offset) :
    HoldsAt (writeAt file offset' data') offset data := by
  rw [holdsAt_iff] at h ⊢
  intro i hi
  have hfile : offset + i < file.length := by
    have hget := h i hi
    rw [List.getElem?_eq_getElem hi] at hget
    exact (List.getElem?_eq_some_iff.1 hget).1
  rw [getElem?_writeAt_outside (by omega) hfile]
  exact h i hi

theorem HoldsAt.unique (h : HoldsAt file offset data) (h' : HoldsAt file offset data')
    (hlen : data.length = data'.length) : data = data' :=
  (List.prefix_of_prefix_length_le h h' (Nat.le_of_eq hlen)).eq_of_length hlen

theorem overlay_holdsAt {pageSize : Nat} {before behind : List BlockFile} {b : BlockFile}
    (hpage : ∀ c ∈ b :: behind, c.data.length = pageSize)
    (hapart : ∀ c ∈ behind, extractOffset pageSize b.name + pageSize ≤ extractOffset pageSize c.name ∨
      extractOffset pageSize c.name + pageSize ≤ extractOffset pageSize b.name) :
    HoldsAt (overlay pageSize file (before ++ b :: behind)) (extractOffset pageSize b.name) b.data := by
  have hstays : ∀ (file : List UInt8), HoldsAt file (extractOffset pageSize b.name) b.data →
      HoldsAt (overlay pageSize file behind) (extractOffset pageSize b.name) b.data := by
    have hb := hpage b (List.mem_cons_self ..)
    induction behind with
    | nil => exact fun _ h => h
    | cons c behind ih =>
      intro file h
      have hc := hpage c (List.mem_cons_of_mem _ (List.mem_cons_self ..))
      refine ih (fun d hd => hpage d ?_) (fun d hd => hapart d (List.mem_cons_of_mem _ hd)) _ (h.writeAt ?_)
      · rcases List.mem_cons.1 hd with rfl | hd
        · exact List.mem_cons_self ..
        · exact List.mem_cons_of_mem _ (List.mem_cons_of_mem _ hd)
      · rw [hb, hc]
        exact hapart c (List.mem_cons_self ..)
  unfold overlay
  rw [List.foldl_append, List.foldl_cons]
  exact hstays _ holdsAt_writeAt

end

/-- A block as `recoverfs.ssdfs` stores it: a page of a file. -/
structure CheckpointBlock (pageSize : Nat) where
  ino : UInt64
  logicalOffset : UInt32
  data : List UInt8
  page : data.length = pageSize

def CheckpointBlock.file {pageSize : Nat} (b : CheckpointBlock pageSize) : BlockFile :=
  ⟨blockName b.ino.toNat b.logicalOffset.toNat, b.data⟩

/-- The blocks that logs of one timestamp hold, no two of one page. -/
structure Checkpoint (pageSize : Nat) where
  timestamp : UInt64
  blocks : List (CheckpointBlock pageSize)
  distinct : (blocks.map fun b => (b.ino, b.logicalOffset)).Nodup

namespace Checkpoint

variable {pageSize : Nat}

def folder (c : Checkpoint pageSize) : List Char := Nat.toDigits 10 c.timestamp.toNat

def Has (c : Checkpoint pageSize) (ino : UInt64) (logicalOffset : UInt32) (data : List UInt8) : Prop :=
  ∃ b ∈ c.blocks, b.ino = ino ∧ b.logicalOffset = logicalOffset ∧ b.data = data

def LastBy (le : Checkpoint pageSize → Checkpoint pageSize → Prop) (cs : List (Checkpoint pageSize))
    (ino : UInt64) (logicalOffset : UInt32) (data : List UInt8) : Prop :=
  ∃ c ∈ cs, c.Has ino logicalOffset data ∧ ∀ c' ∈ cs, ∀ d, c'.Has ino logicalOffset d → le c' c

/-- The order of the times, and the order in which the folders are read. -/
def Newest : List (Checkpoint pageSize) → UInt64 → UInt32 → List UInt8 → Prop :=
  LastBy fun c c' => c.timestamp ≤ c'.timestamp

def LastByName : List (Checkpoint pageSize) → UInt64 → UInt32 → List UInt8 → Prop :=
  LastBy fun c c' => List.le c.folder c'.folder

end Checkpoint

def OutputFolder.ofCheckpoints {pageSize : Nat} (cs : List (Checkpoint pageSize)) : OutputFolder where
  folders := cs.map (·.folder)
  blocks folder :=
    match cs.find? (·.folder = folder) with
    | some c => c.blocks.map (·.file)
    | none => []
  files _ := none

/-- What the recovery of the logs hands over: no two folders of one name, and no folder that stands
where a file has to be created. -/
structure Collected (env : SynthesisEnv) (cs : List (Checkpoint env.pageSize)) : Prop where
  page : isPagesizeValid env.pageSize = true
  capacity : 0 < env.capacity
  clock : env.currentTime.Valid
  timestamps : (cs.map (·.timestamp)).Nodup
  apart : ∀ c ∈ cs, ∀ c' ∈ cs, ∀ b ∈ c.blocks, min 9223372036854775807 b.ino.toNat ≠ c'.timestamp.toNat

theorem blockName_inj {ino ino' : UInt64} {offset offset' : UInt32}
    (h : blockName ino.toNat offset.toNat = blockName ino'.toNat offset'.toNat) :
    ino = ino' ∧ offset = offset' := by
  rw [blockName_eq ino.toNat_lt offset.toNat_lt, blockName_eq ino'.toNat_lt offset'.toNat_lt] at h
  have hlen := congrArg (Decimal.strchr · ssdfsFileNameDelimiter) h
  simp only [strchr_blockName, Option.some.injEq] at hlen
  obtain ⟨hino, hoffset⟩ := List.append_inj h hlen
  exact ⟨UInt64.toNat_inj.1 (Decimal.toDigits_inj hino),
    UInt32.toNat_inj.1 (Decimal.toDigits_inj (List.cons.inj hoffset).2)⟩

section

variable {env : SynthesisEnv} {cs : List (Checkpoint env.pageSize)} {c : Checkpoint env.pageSize}
  {b : CheckpointBlock env.pageSize} {f : List Char}

theorem Collected.folders (h : Collected env cs) : (cs.map (·.folder)).Nodup := by
  have hmap : cs.map (·.folder) = (cs.map (·.timestamp)).map fun t => Nat.toDigits 10 t.toNat := by
    rw [List.map_map]
    rfl
  rw [hmap]
  exact List.Nodup.map (fun _ _ heq => UInt64.toNat_inj.1 (Decimal.toDigits_inj heq)) h.timestamps

theorem Collected.blocks_folder (h : Collected env cs) (hc : c ∈ cs) :
    (OutputFolder.ofCheckpoints cs).blocks c.folder = c.blocks.map (·.file) := by
  unfold OutputFolder.ofCheckpoints
  simp only [find_of_nodup h.folders hc]

theorem mem_ofCheckpoints {x : BlockFile} (h : x ∈ (OutputFolder.ofCheckpoints cs).blocks f) :
    ∃ c ∈ cs, c.folder = f ∧ ∃ b ∈ c.blocks, b.file = x := by
  unfold OutputFolder.ofCheckpoints at h
  simp only at h
  split at h
  case h_1 c hfind =>
    refine ⟨c, List.mem_of_find?_eq_some hfind, by simpa using List.find?_some hfind, ?_⟩
    exact List.mem_map.1 h
  case h_2 => cases h

theorem names_nodup (c : Checkpoint env.pageSize) : ((c.blocks.map (·.file)).map (·.name)).Nodup := by
  have hmap : (c.blocks.map (·.file)).map (·.name) =
      (c.blocks.map fun b => (b.ino, b.logicalOffset)).map fun p => blockName p.1.toNat p.2.toNat := by
    rw [List.map_map, List.map_map]
    rfl
  rw [hmap]
  refine List.Nodup.map (fun p p' heq => ?_) c.distinct
  obtain ⟨hino, hoffset⟩ := blockName_inj heq
  exact Prod.ext hino hoffset

theorem Collected.pageSize_lt (h : Collected env cs) : 0 < env.pageSize ∧ env.pageSize ≤ 131072 := by
  have hle := pagesize_le h.page
  omega

theorem extractOffset_file (h : Collected env cs) (b : CheckpointBlock env.pageSize) :
    extractOffset env.pageSize b.file.name = b.logicalOffset.toNat * env.pageSize :=
  extractOffset_blockName b.ino.toNat_lt b.logicalOffset.toNat_lt
    (Nat.lt_of_le_of_lt h.pageSize_lt.2 (by decide))

theorem extractInodeId_file (b : CheckpointBlock env.pageSize) :
    extractInodeId b.file.name = min 9223372036854775807 b.ino.toNat :=
  extractInodeId_blockName b.ino.toNat_lt b.logicalOffset.toNat_lt

theorem Collected.placed (h : Collected env cs) (hc : c ∈ cs) (hb : b ∈ c.blocks) :
    Placed env.pageSize (cs.map (·.folder)) b.file where
  place := by
    rw [extractOffset_file h, extractInodeId_file]
    exact blockPlace_blockName b.ino.toNat_lt b.logicalOffset.toNat_lt
      (Nat.lt_of_le_of_lt h.pageSize_lt.2 (by decide))
  offset := by
    have hoffset := b.logicalOffset.toNat_lt
    have hmul : b.logicalOffset.toNat * env.pageSize ≤ 4294967295 * 131072 :=
      Nat.mul_le_mul (by omega) h.pageSize_lt.2
    rw [extractOffset_file h]
    unfold offMax
    omega
  page := b.page
  apart hmem := by
    obtain ⟨c', hc', hfolder⟩ := List.mem_map.1 hmem
    rw [extractInodeId_file] at hfolder
    exact h.apart c hc c' hc' b hb (Decimal.toDigits_inj hfolder).symm

theorem Collected.recoverable (h : Collected env cs) : Recoverable env (.ofCheckpoints cs) where
  stored := by
    refine ⟨rfl, fun f => ?_, fun f x hx => ?_, fun f => List.Sublist.refl _⟩
    · unfold OutputFolder.ofCheckpoints
      simp only
      split
      case h_1 c _ => exact names_nodup c
      case h_2 => exact List.nodup_nil
    · obtain ⟨c, hc, -, b, hb, rfl⟩ := mem_ofCheckpoints hx
      exact h.placed hc hb
  nodup := h.folders
  files _ := rfl
  page := h.pageSize_lt.1
  capacity := h.capacity
  clock := h.clock

theorem exists_last {α : Type} {p : α → Prop} {l : List α} (h : ∃ a ∈ l, p a) :
    ∃ before a behind, l = before ++ a :: behind ∧ p a ∧ ∀ b ∈ behind, ¬p b := by
  induction l with
  | nil =>
    obtain ⟨_, hmem, -⟩ := h
    cases hmem
  | cons a l ih =>
    by_cases hl : ∃ b ∈ l, p b
    · obtain ⟨before, b, behind, rfl, hb, hbehind⟩ := ih hl
      exact ⟨a :: before, b, behind, rfl, hb, hbehind⟩
    · obtain ⟨b, hb, hp⟩ := h
      rcases List.mem_cons.1 hb with rfl | hb
      · exact ⟨[], b, l, rfl, hp, fun c hc hpc => hl ⟨c, hc, hpc⟩⟩
      · exact absurd ⟨b, hb, hp⟩ hl

variable {range : TimeRange} {ino : UInt64} {logicalOffset : UInt32} {data data' : List UInt8}

def insideRange (env : SynthesisEnv) (range : TimeRange) (cs : List (Checkpoint env.pageSize)) :
    List (Checkpoint env.pageSize) :=
  cs.filter fun c => admitted env range c.folder

theorem has_unique (h : c.Has ino logicalOffset data) (h' : c.Has ino logicalOffset data') : data = data' := by
  obtain ⟨b, hb, hino, hoffset, rfl⟩ := h
  obtain ⟨b', hb', hino', hoffset', rfl⟩ := h'
  have hsame : b = b' := List.inj_on_of_nodup_map c.distinct hb hb'
    (Prod.ext (hino.trans hino'.symm) (hoffset.trans hoffset'.symm))
  exact hsame ▸ rfl

theorem lastByName_unique (h : Collected env cs)
    (hlast : Checkpoint.LastByName (insideRange env range cs) ino logicalOffset data)
    (hlast' : Checkpoint.LastByName (insideRange env range cs) ino logicalOffset data') : data = data' := by
  obtain ⟨c, hc, hhas, hle⟩ := hlast
  obtain ⟨c', hc', hhas', hle'⟩ := hlast'
  have hfolder : c.folder = c'.folder := List.le_antisymm (hle' c hc data hhas) (hle c' hc' data' hhas')
  have hsame : c = c' :=
    List.inj_on_of_nodup_map h.folders (List.mem_filter.1 hc).1 (List.mem_filter.1 hc').1 hfolder
  exact has_unique hhas (hsame ▸ hhas')

theorem has_of_mem {x : BlockFile} (h : Collected env cs) (hino : ino.toNat < 9223372036854775807)
    (hc : c ∈ cs) (hx : x ∈ ((OutputFolder.ofCheckpoints cs).view ino.toNat).blocks c.folder) :
    ∃ b ∈ c.blocks, b.file = x ∧ b.ino = ino := by
  obtain ⟨hx, hid⟩ := mem_view.1 hx
  rw [h.blocks_folder hc] at hx
  obtain ⟨b, hb, rfl⟩ := List.mem_map.1 hx
  rw [extractInodeId_file] at hid
  exact ⟨b, hb, rfl, UInt64.toNat_inj.1 (by omega)⟩

theorem mem_view_ofCheckpoints (h : Collected env cs) (hc : c ∈ cs) (hb : b ∈ c.blocks)
    (hino : b.ino.toNat < 9223372036854775807) :
    b.file ∈ ((OutputFolder.ofCheckpoints cs).view b.ino.toNat).blocks c.folder := by
  refine mem_view.2 ⟨h.blocks_folder hc ▸ List.mem_map_of_mem hb, ?_⟩
  rw [extractInodeId_file]
  omega

theorem offsets_apart (h : Collected env cs) {b' : CheckpointBlock env.pageSize}
    (hne : b'.logicalOffset ≠ b.logicalOffset) :
    extractOffset env.pageSize b.file.name + env.pageSize ≤ extractOffset env.pageSize b'.file.name ∨
      extractOffset env.pageSize b'.file.name + env.pageSize ≤ extractOffset env.pageSize b.file.name := by
  rw [extractOffset_file h, extractOffset_file h]
  rcases Nat.lt_or_gt_of_ne fun heq => hne (UInt32.toNat_inj.1 heq) with hlt | hgt
  · refine .inr ?_
    rw [← Nat.succ_mul]
    exact Nat.mul_le_mul_right _ hlt
  · refine .inl ?_
    rw [← Nat.succ_mul]
    exact Nat.mul_le_mul_right _ hgt

theorem mem_sorted_view (h : Collected env cs) {x : BlockFile} {i : Nat} :
    x ∈ sortedBlocks (((OutputFolder.ofCheckpoints cs).view i).blocks f) ↔
      x ∈ ((OutputFolder.ofCheckpoints cs).view i).blocks f :=
  mem_sortedBlocks h.recoverable.stored.view_nodup

theorem exists_page (h : Collected env cs) (hc : c ∈ cs) (hb : b ∈ c.blocks)
    (hino : b.ino.toNat < 9223372036854775807) :
    ∃ first rest, sortedBlocks (((OutputFolder.ofCheckpoints cs).view b.ino.toNat).blocks c.folder) =
        first ++ b.file :: rest ∧
      ∀ x ∈ rest, ∃ b' : CheckpointBlock env.pageSize, b'.file = x ∧ b'.logicalOffset ≠ b.logicalOffset := by
  have hof : ∀ {x : BlockFile}, x ∈ sortedBlocks
        (((OutputFolder.ofCheckpoints cs).view b.ino.toNat).blocks c.folder) →
      ∃ b' ∈ c.blocks, b'.file = x ∧ b'.ino = b.ino := fun hx => has_of_mem h hino hc ((mem_sorted_view h).1 hx)
  obtain ⟨first, x, rest, hsplit, ⟨b', hb', rfl, hsame⟩, hrest⟩ := exists_last
    (p := fun x => ∃ b' ∈ c.blocks, b'.file = x ∧ (b'.ino, b'.logicalOffset) = (b.ino, b.logicalOffset))
    ⟨b.file, (mem_sorted_view h).2 (mem_view_ofCheckpoints h hc hb hino), b, hb, rfl, rfl⟩
  obtain rfl : b' = b := List.inj_on_of_nodup_map c.distinct hb' hb hsame
  refine ⟨first, rest, hsplit, fun x hx => ?_⟩
  obtain ⟨b'', hb'', rfl, hino''⟩ :=
    hof (hsplit ▸ List.mem_append_right _ (List.mem_cons_of_mem _ hx))
  exact ⟨b'', rfl, fun heq => hrest _ hx ⟨b'', hb'', rfl, Prod.ext hino'' heq⟩⟩

theorem recoveredFile_eq {out : OutputFolder} {i : Nat} {before behind : List BlockFile} {x : BlockFile}
    (h : mergedBlocks env range out i = before ++ x :: behind) :
    recoveredFile env range out i = some (overlay env.pageSize [] (before ++ x :: behind)) := by
  unfold recoveredFile
  rw [h]
  split
  case h_1 hnil => simp at hnil
  case h_2 => rfl

theorem recoveredFile_holds (h : Collected env cs) (hino : ino.toNat < 9223372036854775807)
    (hhas : ∃ c ∈ insideRange env range cs, ∃ data, c.Has ino logicalOffset data) :
    ∃ data file, Checkpoint.LastByName (insideRange env range cs) ino logicalOffset data ∧
      recoveredFile env range (.ofCheckpoints cs) ino.toNat = some file ∧
      HoldsAt file (logicalOffset.toNat * env.pageSize) data := by
  let names := (alphasort (cs.map (·.folder))).filter (admitted env range)
  let own := fun f => sortedBlocks (((OutputFolder.ofCheckpoints cs).view ino.toNat).blocks f)
  have hmem : ∀ c : Checkpoint env.pageSize, c ∈ insideRange env range cs → c.folder ∈ names := fun c hc =>
    List.mem_filter.2 ⟨mem_alphasort.2 (List.mem_map_of_mem (List.mem_filter.1 hc).1),
      (List.mem_filter.1 hc).2⟩
  have hordered : names.Pairwise List.le := (alphasort_ordered _).filter _
  -- the last folder that has the page
  obtain ⟨before, f, behind, hnames, ⟨c, hc, rfl, data, hdata⟩, hbehind⟩ := exists_last
    (p := fun f => ∃ c ∈ insideRange env range cs, c.folder = f ∧ ∃ data, c.Has ino logicalOffset data)
    (hhas.elim fun c hc => ⟨c.folder, hmem c hc.1, c, hc.1, rfl, hc.2⟩)
  have hlast : Checkpoint.LastByName (insideRange env range cs) ino logicalOffset data := by
    refine ⟨c, hc, hdata, fun c' hc' d hd => ?_⟩
    rcases List.mem_append.1 (hnames ▸ hmem c' hc') with hbefore | hrest
    · exact (List.pairwise_append.1 (hnames ▸ hordered)).2.2 _ hbefore _ (List.mem_cons_self ..)
    · rcases List.mem_cons.1 hrest with heq | hmem
      · exact heq ▸ List.le_refl _
      · exact absurd ⟨c', hc', rfl, d, hd⟩ (hbehind _ hmem)
  obtain ⟨b, hb, rfl, rfl, rfl⟩ := hdata
  obtain ⟨first, rest, hpage, hrest⟩ := exists_page h (List.mem_filter.1 hc).1 hb hino
  have hmerged : mergedBlocks env range (.ofCheckpoints cs) b.ino.toNat =
      (before.flatMap own ++ first) ++ b.file :: (rest ++ behind.flatMap own) := by
    change names.flatMap own = _
    rw [hnames, List.flatMap_append, List.flatMap_cons]
    change _ ++ (sortedBlocks _ ++ _) = _
    rw [hpage]
    simp only [List.append_assoc, List.cons_append]
  have hlater : ∀ x ∈ rest ++ behind.flatMap own,
      ∃ b' : CheckpointBlock env.pageSize, b'.file = x ∧ b'.logicalOffset ≠ b.logicalOffset := by
    intro x hx
    rcases List.mem_append.1 hx with hx | hx
    · exact hrest x hx
    · obtain ⟨f, hf, hx⟩ := List.mem_flatMap.1 hx
      have hname : f ∈ names := hnames ▸ List.mem_append_right _ (List.mem_cons_of_mem _ hf)
      obtain ⟨hsorted, hadm⟩ := List.mem_filter.1 hname
      obtain ⟨c', hc', rfl⟩ := List.mem_map.1 (mem_alphasort.1 hsorted)
      obtain ⟨b', hb', rfl, hino'⟩ := has_of_mem h hino hc' ((mem_sorted_view h).1 hx)
      refine ⟨b', rfl, fun heq => hbehind _ hf ⟨c', List.mem_filter.2 ⟨hc', hadm⟩, rfl, b'.data, b', hb', ?_⟩⟩
      exact ⟨hino', heq, rfl⟩
  refine ⟨b.data, _, hlast, recoveredFile_eq hmerged, extractOffset_file h b ▸ overlay_holdsAt ?_ ?_⟩
  · intro x hx
    rcases List.mem_cons.1 hx with rfl | hx
    · exact b.page
    · obtain ⟨b', rfl, -⟩ := hlater x hx
      exact b'.page
  · intro x hx
    obtain ⟨b', rfl, hne⟩ := hlater x hx
    exact offsets_apart h hne

theorem folder_le_iff {c' : Checkpoint env.pageSize} (h : c.folder.length = c'.folder.length) :
    List.le c.folder c'.folder ↔ c.timestamp ≤ c'.timestamp := by
  rw [UInt64.le_iff_toNat_le, ← Nat.not_lt]
  exact not_congr (Decimal.toDigits_lt_iff h.symm)

def visited (env : SynthesisEnv) (range : TimeRange) (cs : List (Checkpoint env.pageSize)) :
    List (Checkpoint env.pageSize) :=
  insideRange env (settledRange env range (alphasort (cs.map (·.folder)))) cs

theorem newest_lastByName (h : Checkpoint.Newest cs ino logicalOffset data)
    (hdigits : ∀ c ∈ cs, ∀ c' ∈ cs, c.folder.length = c'.folder.length) :
    Checkpoint.LastByName cs ino logicalOffset data := by
  obtain ⟨c, hc, hhas, hle⟩ := h
  exact ⟨c, hc, hhas, fun c' hc' d hd => (folder_le_iff (hdigits c' hc' c hc)).2 (hle c' hc' d hd)⟩

theorem has_length (h : c.Has ino logicalOffset data) : data.length = env.pageSize := by
  obtain ⟨b, -, -, -, rfl⟩ := h
  exact b.page

end

/-- The newest content of a page is in the recovered file exactly if it is also the one whose folder
comes last as a text. With times of equally many digits it always is. -/
theorem synthesizeFiles_newest_iff {env : SynthesisEnv} {cs : List (Checkpoint env.pageSize)}
    (h : Collected env cs) (range : TimeRange) (pick : Nat → Nat) :
    ∃ out, Settles (synthesizeFiles env pick range (.ofCheckpoints cs)) out ∧
      ∀ (ino : UInt64) (logicalOffset : UInt32) (data : List UInt8), ino.toNat < 9223372036854775807 →
        Checkpoint.Newest (visited env range cs) ino logicalOffset data →
        ((∃ file, out.files ino.toNat = some file ∧ HoldsAt file (logicalOffset.toNat * env.pageSize) data) ↔
            Checkpoint.LastByName (visited env range cs) ino logicalOffset data) ∧
          ((∀ c ∈ visited env range cs, ∀ c' ∈ visited env range cs, c.folder.length = c'.folder.length) →
            ∃ file, out.files ino.toNat = some file ∧
              HoldsAt file (logicalOffset.toNat * env.pageSize) data) := by
  obtain ⟨st, hrun, hst⟩ := synthesizeFolders_emptied h.recoverable range pick
  refine ⟨_, hrun.map fun st : SynthesisState =>
    (alphasort (OutputFolder.ofCheckpoints cs).folders).foldl deleteFolder st.out, ?_⟩
  intro ino logicalOffset data hino hnewest
  rw [(synthesizeFiles_of_emptied hst).2, hst.files h.recoverable]
  obtain ⟨data', file, hlast, hfile, hholds⟩ := recoveredFile_holds h hino
    (hnewest.imp fun c hc => ⟨hc.1, data, hc.2.1⟩)
  have hiff : (∃ file, recoveredFile env (settledRange env range (alphasort (cs.map (·.folder))))
        (.ofCheckpoints cs) ino.toNat = some file ∧
      HoldsAt file (logicalOffset.toNat * env.pageSize) data) ↔
      Checkpoint.LastByName (visited env range cs) ino logicalOffset data := by
    constructor
    · rintro ⟨file', hfile', hholds'⟩
      obtain rfl := Option.some.inj (hfile.symm.trans hfile')
      obtain ⟨_, -, hhas, -⟩ := hnewest
      obtain ⟨_, -, hhas', -⟩ := id hlast
      exact hholds'.unique hholds ((has_length hhas).trans (has_length hhas').symm) ▸ hlast
    · intro hlast'
      exact ⟨file, hfile, lastByName_unique h hlast' hlast ▸ hholds⟩
  exact ⟨hiff, fun hdigits => hiff.2 (newest_lastByName hnewest hdigits)⟩

def oneBlock (timestamp : UInt64) (byte : UInt8) : Checkpoint twoThreads.pageSize where
  timestamp := timestamp
  blocks := [⟨20, 3, List.replicate 4096 byte, List.length_replicate⟩]
  distinct := List.nodup_singleton _

def ninthAndTenth : List (Checkpoint twoThreads.pageSize) := [oneBlock 9 1, oneBlock 10 2]

theorem has_oneBlock {timestamp : UInt64} {byte : UInt8} {data : List UInt8} :
    (oneBlock timestamp byte).Has 20 3 data ↔ data = List.replicate 4096 byte := by
  constructor
  · rintro ⟨b, hb, -, -, rfl⟩
    exact List.mem_singleton.1 hb ▸ rfl
  · rintro rfl
    exact ⟨_, List.mem_singleton_self _, rfl, rfl, rfl⟩

theorem ninthAndTenth_collected : Collected twoThreads ninthAndTenth where
  page := by decide
  capacity := by decide
  clock := ⟨by decide, by decide, by decide, by decide, by decide⟩
  timestamps := by decide
  apart c hc c' hc' b hb := by
    have hino : b.ino = 20 := by
      rcases List.mem_pair.1 hc with rfl | rfl
      · exact List.mem_singleton.1 hb ▸ rfl
      · exact List.mem_singleton.1 hb ▸ rfl
    rw [hino]
    rcases List.mem_pair.1 hc' with rfl | rfl
    · decide
    · decide

theorem visited_ninthAndTenth : visited twoThreads openRange ninthAndTenth = ninthAndTenth := by
  have hsettled : ∀ names, settledRange twoThreads openRange names = openRange := fun names => by
    cases names with
    | nil => rfl
    | cons f names => rfl
  unfold visited
  rw [hsettled]
  exact List.filter_eq_self.2 fun c _ => rfl

/-- The ninth comes after the tenth, and its block is the one that stays. -/
theorem synthesizeFiles_newest_10 :
    Checkpoint.Newest ninthAndTenth 20 3 (List.replicate 4096 2) ∧
    ∃ out, Settles (synthesizeFiles twoThreads id openRange (.ofCheckpoints ninthAndTenth)) out ∧
      ¬∃ file, out.files 20 = some file ∧ HoldsAt file (3 * 4096) (List.replicate 4096 2) := by
  have hnewest : Checkpoint.Newest ninthAndTenth 20 3 (List.replicate 4096 2) := by
    refine ⟨oneBlock 10 2, by simp [ninthAndTenth], has_oneBlock.2 rfl, fun c hc d _ => ?_⟩
    rcases List.mem_pair.1 hc with rfl | rfl
    · decide
    · decide
  obtain ⟨out, hrun, hall⟩ := synthesizeFiles_newest_iff ninthAndTenth_collected openRange id
  have hpage := (hall 20 3 _ (by decide) (visited_ninthAndTenth ▸ hnewest)).1
  rw [visited_ninthAndTenth] at hpage
  refine ⟨hnewest, out, hrun, fun hholds => ?_⟩
  obtain ⟨c, hc, hhas, hle⟩ := hpage.1 hholds
  rcases List.mem_pair.1 hc with rfl | rfl
  · have hbyte := congrArg (·[0]?) (has_oneBlock.1 hhas)
    simp only [List.getElem?_replicate] at hbyte
    exact absurd hbyte (by decide)
  · exact absurd (hle (oneBlock 9 1) (by simp [ninthAndTenth]) _ (has_oneBlock.2 rfl)) (by decide)

end Ssdfs
