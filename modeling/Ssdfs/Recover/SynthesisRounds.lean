import Ssdfs.Recover.SynthesisThreads

namespace Ssdfs

section

variable {capacity : Nat} {jobs inodeIds : List Nat} {i j : Nat}

theorem addInodeIdJob_prefix : jobs <+: addInodeIdJob jobs j := by
  unfold addInodeIdJob
  split
  · rename_i hnil
    rw [List.getLast?_eq_none_iff.1 hnil]
    exact List.nil_prefix
  · split
    · exact List.prefix_append ..
    · exact List.prefix_refl _

theorem mem_addInodeIdJob (h : i ∈ addInodeIdJob jobs j) : i ∈ jobs ∨ i = j := by
  unfold addInodeIdJob at h
  split at h
  · exact .inr (List.mem_singleton.1 h)
  · split at h
    · exact (List.mem_append.1 h).imp id List.mem_singleton.1
    · exact .inl h

theorem requestJobs_prefix : jobs <+: requestJobs capacity jobs inodeIds := by
  induction inodeIds generalizing jobs with
  | nil => exact List.prefix_refl _
  | cons j inodeIds ih =>
    unfold requestJobs
    split
    · exact List.prefix_refl _
    · exact addInodeIdJob_prefix.trans ih

theorem mem_requestJobs (h : i ∈ requestJobs capacity jobs inodeIds) : i ∈ jobs ∨ i ∈ inodeIds := by
  induction inodeIds generalizing jobs with
  | nil => exact .inl h
  | cons j inodeIds ih =>
    unfold requestJobs at h
    split at h
    · exact .inl h
    · rcases ih h with hmem | hmem
      · rcases mem_addInodeIdJob hmem with hmem | rfl
        · exact .inl hmem
        · exact .inr (List.mem_cons_self ..)
      · exact .inr (List.mem_cons_of_mem _ hmem)

theorem requestJobs_first (hcap : 0 < capacity) : j ∈ requestJobs capacity [] (j :: inodeIds) := by
  unfold requestJobs
  rw [if_neg (by simp only [List.length_nil]; omega)]
  exact requestJobs_prefix.subset (List.mem_singleton_self j)

end

section

variable (env : SynthesisEnv) (range : TimeRange) (out : OutputFolder)

def mergedBlocks (inodeId : Nat) : List BlockFile :=
  ((alphasort out.folders).filter (admitted env range)).flatMap
    fun folder => sortedBlocks ((out.view inodeId).blocks folder)

def recoveredFile (inodeId : Nat) : Option (List UInt8) :=
  match mergedBlocks env range out inodeId with
  | [] => none
  | blocks => some (overlay env.pageSize [] blocks)

structure RoundProgress (out' : OutputFolder) : Prop where
  stored : Stored env.pageSize out.folders out.blocks out'
  each : ∀ inodeId, out'.view inodeId = out.view inodeId ∨
    (mergedBlocks env range out inodeId ≠ [] ∧
      Merged env range out.folders
        (fun inodeId => overlay env.pageSize [] (mergedBlocks env range out inodeId)) inodeId
        (out'.view inodeId))

end

section

variable {env : SynthesisEnv} {range : TimeRange} {out out' : OutputFolder} {folder : List Char}
  {inodeId : Nat}

theorem Stored.restart {pageSize : Nat} {folders : List (List Char)} {start : List Char → List BlockFile}
    (h : Stored pageSize folders start out) : Stored pageSize folders out.blocks out :=
  ⟨h.same, h.nodup, h.placed, fun _ => List.Sublist.refl _⟩

theorem mergedBlocks_ne_nil (hstored : Stored env.pageSize out.folders out.blocks out) {b : BlockFile}
    (hfolder : folder ∈ out.folders) (hin : admitted env range folder = true)
    (hb : b ∈ (out.view inodeId).blocks folder) : b ∈ mergedBlocks env range out inodeId :=
  List.mem_flatMap.2 ⟨folder, List.mem_filter.2 ⟨mem_alphasort.2 hfolder, hin⟩,
    (mem_sortedBlocks hstored.view_nodup).2 hb⟩

theorem merges_start (hnodup : out.folders.Nodup) (hfiles : out.files inodeId = none)
    (hstored : Stored env.pageSize out.folders out.blocks out) (bound : List Char → Nat)
    (hfolder : folder ∈ out.folders) (hin : admitted env range folder = true) {b : BlockFile}
    (hb : b ∈ (out.view inodeId).blocks folder) :
    Merges env range out.folders bound
      (fun inodeId => overlay env.pageSize [] (mergedBlocks env range out inodeId)) inodeId
      (BuildState.steps bound ⟨range, alphasort out.folders, none⟩) ⟨range, alphasort out.folders, none⟩
      (out.view inodeId) where
  steps := Nat.le_refl _
  merged := by
    have hfile : (out.view inodeId).file = none := hfiles
    rw [hfile, ahead_closed rfl]
    rfl
  file := .inr ⟨folder, mem_alphasort.2 hfolder, hin⟩
  nodup := (alphasort_perm _).nodup_iff.2 hnodup
  left f hf _ _ := .inl (mem_alphasort.2 hf)
  parent f names h := by cases h
  timestamp := rfl
  apart := by
    obtain ⟨hmem, rfl⟩ := mem_view.1 hb
    exact (hstored.placed folder b hmem).apart

/-- What is asked of the output folder before the files are put together. -/
structure Recoverable (env : SynthesisEnv) (out : OutputFolder) : Prop where
  stored : Stored env.pageSize out.folders out.blocks out
  nodup : out.folders.Nodup
  files : ∀ inodeId, out.files inodeId = none
  page : 0 < env.pageSize
  capacity : 0 < env.capacity
  clock : env.currentTime.Valid

theorem mem_folderInodes (h : inodeId ∈ folderInodes out folder) :
    ∃ b, b ∈ (out.view inodeId).blocks folder := by
  obtain ⟨name, hname, rfl⟩ := List.mem_map.1 h
  obtain ⟨b, hb, rfl⟩ := List.mem_map.1 (mem_alphasort.1 hname)
  exact ⟨b, mem_view.2 ⟨hb, rfl⟩⟩

theorem round_settles (h : Recoverable env out) (hsettled : RangeSettled env range)
    (hp : RoundProgress env range out out') (hfolder : folder ∈ out.folders)
    (hin : admitted env range folder = true) (hne : out'.blocks folder ≠ []) (pick : Nat → Nat)
    (tick : Nat) : ∃ tick' out'', Settles (Threads.run (buildFile env) pick
        (requestJobs env.capacity [] (folderInodes out' folder)) tick
        (fun _ => ⟨range, alphasort out.folders, none⟩) out') (tick', out'') ∧
      RoundProgress env range out out'' ∧ (∀ f, (out''.blocks f).Sublist (out'.blocks f)) ∧
      (out''.blocks folder).length < (out'.blocks folder).length := by
  have hjob : ∀ i ∈ requestJobs env.capacity [] (folderInodes out' folder),
      out'.view i = out.view i ∧ ∃ b, b ∈ (out.view i).blocks folder := fun i hi => by
    obtain ⟨b, hb⟩ := mem_folderInodes ((mem_requestJobs hi).resolve_left List.not_mem_nil)
    rcases hp.each i with hsame | ⟨-, hmerged⟩
    · exact ⟨hsame, b, hsame ▸ hb⟩
    · rw [hmerged.blocks folder hfolder hin] at hb
      cases hb
  have hwill : ∀ i ∈ requestJobs env.capacity [] (folderInodes out' folder),
      Merges env range out.folders (fun folder => (out'.blocks folder).length)
        (fun i => overlay env.pageSize [] (mergedBlocks env range out i)) i
        (BuildState.steps (fun folder => (out'.blocks folder).length) ⟨range, alphasort out.folders, none⟩)
        ⟨range, alphasort out.folders, none⟩ (out'.view i) := fun i hi => by
    obtain ⟨hsame, b, hb⟩ := hjob i hi
    exact hsame ▸ merges_start h.nodup (h.files i) h.stored _ hfolder hin hb
  obtain ⟨tick', out'', hrun, hstored, hgoal, hframe⟩ :=
    Threads.run_settles (buildFile_apart h.page hsettled) pick hwill hp.stored.restart tick
  refine ⟨tick', out'', hrun, ⟨?_, fun i => ?_⟩, hstored.sub, ?_⟩
  · exact ⟨hstored.same, hstored.nodup, hstored.placed, fun f => (hstored.sub f).trans (hp.stored.sub f)⟩
  · by_cases hi : i ∈ requestJobs env.capacity [] (folderInodes out' folder)
    · obtain ⟨-, b, hb⟩ := hjob i hi
      exact .inr ⟨List.ne_nil_of_mem (mergedBlocks_ne_nil h.stored hfolder hin hb), hgoal i hi⟩
    · rw [hframe i hi]
      exact hp.each i
  · -- the inode of the first name has lost its blocks
    obtain ⟨i, is, his⟩ : ∃ i is, folderInodes out' folder = i :: is := by
      refine List.exists_cons_of_ne_nil fun hnil => hne ?_
      have hmap := List.map_eq_nil_iff.1 hnil
      exact List.map_eq_nil_iff.1 (List.nil_perm.1 (hmap ▸ alphasort_perm _))
    have hi : i ∈ requestJobs env.capacity [] (folderInodes out' folder) :=
      his ▸ requestJobs_first h.capacity
    obtain ⟨b, hb⟩ := mem_folderInodes (his ▸ List.mem_cons_self .. : i ∈ folderInodes out' folder)
    refine lt_of_le_of_ne (hstored.sub folder).length_le fun hlen => ?_
    obtain ⟨hmem, hid⟩ := mem_view.1 hb
    have hstays : b ∈ (out''.view i).blocks folder :=
      mem_view.2 ⟨(hstored.sub folder).eq_of_length hlen ▸ hmem, hid⟩
    rw [(hgoal i hi).blocks folder hfolder hin] at hstays
    cases hstays

theorem buildFilesInFolder_settles (h : Recoverable env out) (hsettled : RangeSettled env range)
    (hp : RoundProgress env range out out') (hfolder : folder ∈ out.folders)
    (hin : admitted env range folder = true) (pick : Nat → Nat) (tick : Nat) :
    ∃ tick' out'', Settles (buildFilesInFolder env pick range (alphasort out.folders) folder (tick, out'))
        (tick', out'') ∧
      RoundProgress env range out out'' ∧ (∀ f, (out''.blocks f).Sublist (out'.blocks f)) ∧
      out''.blocks folder = [] := by
  induction hlen : (out'.blocks folder).length using Nat.strongRecOn generalizing out' tick with
  | _ n ih =>
    by_cases hnil : out'.blocks folder = []
    · refine ⟨tick, out', ⟨1, fun fuel hfuel => ?_⟩, hp, fun _ => List.Sublist.refl _, hnil⟩
      obtain ⟨fuel, rfl⟩ := Nat.exists_eq_succ_of_ne_zero (Nat.ne_of_gt hfuel)
      unfold buildFilesInFolder OutputFolder.contentCount
      rw [if_pos (by simp [hnil, ssdfsEmptyFolderDefaultItemsCount])]
    · obtain ⟨tick₁, out₁, hrun, hp₁, hsub₁, hlt⟩ := round_settles h hsettled hp hfolder hin hnil pick tick
      obtain ⟨tick', out'', hrest, hp', hsub, hempty⟩ := ih _ (hlen ▸ hlt) hp₁ tick₁ rfl
      refine ⟨tick', out'', Settles.succ (Settles.bind hrun hrest) fun fuel => ?_, hp',
        fun f => (hsub f).trans (hsub₁ f), hempty⟩
      have hpos := List.length_pos_iff.2 hnil
      conv_lhs => unfold buildFilesInFolder
      unfold OutputFolder.contentCount
      rw [if_neg (by simp only [ssdfsEmptyFolderDefaultItemsCount]; omega)]

def settledRange (env : SynthesisEnv) (range : TimeRange) : List (List Char) → TimeRange
  | [] => range
  | folder :: _ => (isFolderInsideRange env range folder).2

theorem settledRange_settled (hclock : env.currentTime.Valid) {names : List (List Char)} (hne : names ≠ []) :
    RangeSettled env (settledRange env range names) := by
  cases names with
  | nil => exact absurd rfl hne
  | cons f names =>
    exact fun g => TimeRange.isTimestampInsideRange_snd_again hclock (env.localTime.valid _)
      (env.localTime.valid _)

theorem isFolderInsideRange_settledRange (hclock : env.currentTime.Valid) (names : List (List Char)) :
    isFolderInsideRange env (settledRange env range (folder :: names)) folder =
      isFolderInsideRange env range folder :=
  Prod.ext (TimeRange.isTimestampInsideRange_again hclock (env.localTime.valid _))
    (TimeRange.isTimestampInsideRange_snd_again hclock (env.localTime.valid _) (env.localTime.valid _))

structure FoldersEmptied (env : SynthesisEnv) (range : TimeRange) (out : OutputFolder)
    (ahead : List (List Char)) (st : SynthesisState) : Prop where
  progress : RoundProgress env range out st.out
  timestamp : st.timestamp = range
  member : ∀ f ∈ ahead, f ∈ out.folders
  empty : ∀ f ∈ out.folders, f ∉ ahead → admitted env range f = true → st.out.blocks f = []

theorem synthesizeFolder_settles (h : Recoverable env out) (hsettled : RangeSettled env range)
    (pick : Nat → Nat) (folders : List (List Char)) (st : SynthesisState)
    (hst : FoldersEmptied env range out (folder :: folders) st) :
    ∃ st', Settles (synthesizeFolder env pick (alphasort out.folders) st folder) st' ∧
      FoldersEmptied env range out folders st' := by
  have hfolder := hst.member folder (List.mem_cons_self ..)
  have hcheck : isFolderInsideRange env st.timestamp folder = (admitted env range folder, range) := by
    rw [hst.timestamp]
    exact Prod.ext rfl (hsettled folder)
  have hahead : ∀ f ∈ folders, f ∈ out.folders := fun f hf => hst.member f (List.mem_cons_of_mem _ hf)
  unfold synthesizeFolder
  simp only [hcheck]
  by_cases hin : admitted env range folder = true
  · obtain ⟨tick', out', hrun, hp, hsub, hempty⟩ :=
      buildFilesInFolder_settles h hsettled hst.progress hfolder hin pick st.tick
    refine ⟨⟨tick', range, out'⟩, ?_, hp, rfl, hahead, fun f hf hnot hadm => ?_⟩
    · simp only [hin, if_true]
      exact hrun.map fun st => (⟨st.1, range, st.2⟩ : SynthesisState)
    · by_cases heq : f = folder
      · exact heq ▸ hempty
      · have hbefore := hst.empty f hf (by simp [heq, hnot]) hadm
        exact List.sublist_nil.1 (hbefore ▸ hsub f)
  · refine ⟨{ st with timestamp := range }, Settles.of_some fun _ => by simp only [hin]; rfl,
      hst.progress, rfl, hahead, fun f hf hnot hadm => ?_⟩
    by_cases heq : f = folder
    · exact absurd (heq ▸ hadm) hin
    · exact hst.empty f hf (by simp [heq, hnot]) hadm

theorem foldl_deleteFolder (names : List (List Char)) (out : OutputFolder) :
    (names.foldl deleteFolder out).folders = out.folders.filter (· ∉ names) ∧
      (names.foldl deleteFolder out).files = out.files := by
  induction names generalizing out with
  | nil => exact ⟨by simp, rfl⟩
  | cons f names ih =>
    obtain ⟨hfolders, hfiles⟩ := ih (deleteFolder out f)
    refine ⟨?_, hfiles⟩
    rw [List.foldl_cons, hfolders]
    change (out.folders.filter _).filter _ = _
    rw [List.filter_filter]
    refine List.filter_congr fun g _ => ?_
    simp only [List.mem_cons, not_or, Bool.decide_and, ne_eq, Bool.and_comm]

theorem FoldersEmptied.files {st : SynthesisState} (h : Recoverable env out) (hst : FoldersEmptied env range out [] st)
    (inodeId : Nat) : st.out.files inodeId = recoveredFile env range out inodeId := by
  unfold recoveredFile
  split
  case h_1 hnil =>
    rcases hst.progress.each inodeId with hsame | ⟨hne, -⟩
    · exact (congrArg InodeView.file hsame).trans (h.files inodeId)
    · exact absurd hnil hne
  case h_2 hne =>
    rcases hst.progress.each inodeId with hsame | ⟨-, hmerged⟩
    · obtain ⟨b, hb⟩ := List.exists_mem_of_ne_nil _ hne
      obtain ⟨f, hf, hb⟩ := List.mem_flatMap.1 hb
      obtain ⟨hmem, hin⟩ := List.mem_filter.1 hf
      rw [mem_sortedBlocks h.stored.view_nodup, ← hsame] at hb
      have hstays := (mem_view.1 hb).1
      rw [hst.empty f (mem_alphasort.1 hmem) List.not_mem_nil hin] at hstays
      cases hstays
    · exact hmerged.file

theorem foldlM_settledRange (hclock : env.currentTime.Valid) (pick : Nat → Nat)
    (namelist names : List (List Char)) (tick fuel : Nat) :
    names.foldlM (fun st f => synthesizeFolder env pick namelist st f fuel) ⟨tick, range, out⟩ =
      names.foldlM (fun st f => synthesizeFolder env pick namelist st f fuel)
        ⟨tick, settledRange env range names, out⟩ := by
  cases names with
  | nil => rfl
  | cons f names =>
    rw [List.foldlM_cons, List.foldlM_cons]
    congr 1
    unfold synthesizeFolder
    simp only [isFolderInsideRange_settledRange hclock]

theorem synthesizeFolders_emptied (h : Recoverable env out) (range : TimeRange) (pick : Nat → Nat) :
    ∃ st, Settles (fun fuel => (alphasort out.folders).foldlM
        (fun st f => synthesizeFolder env pick (alphasort out.folders) st f fuel) ⟨0, range, out⟩) st ∧
      FoldersEmptied env (settledRange env range (alphasort out.folders)) out [] st := by
  have hstart : FoldersEmptied env (settledRange env range (alphasort out.folders)) out (alphasort out.folders)
      ⟨0, settledRange env range (alphasort out.folders), out⟩ :=
    ⟨⟨h.stored, fun _ => .inl rfl⟩, rfl, fun _ hf => mem_alphasort.1 hf,
      fun _ hf hnot _ => absurd (mem_alphasort.2 hf) hnot⟩
  rw [funext fun fuel => foldlM_settledRange h.clock pick (alphasort out.folders) (alphasort out.folders) 0 fuel]
  by_cases hnil : alphasort out.folders = []
  · rw [hnil] at hstart ⊢
    exact ⟨_, Settles.of_some fun _ => rfl, hstart⟩
  · exact Settles.foldl _ (fun f fs st hst =>
      synthesizeFolder_settles h (settledRange_settled h.clock hnil) pick fs st hst) _ hstart

theorem synthesizeFiles_of_emptied {st : SynthesisState} (hst : FoldersEmptied env range out [] st) :
    ((alphasort out.folders).foldl deleteFolder st.out).folders = [] ∧
      ((alphasort out.folders).foldl deleteFolder st.out).files = st.out.files := by
  refine ⟨?_, (foldl_deleteFolder _ _).2⟩
  rw [(foldl_deleteFolder _ _).1, hst.progress.stored.same]
  refine List.filter_eq_nil_iff.2 fun f hf => ?_
  simpa using mem_alphasort.2 hf

/-- The rounds end under every scheduler, the folders are gone, and each file is the one that a single
pass over its blocks gives. -/
theorem synthesizeFiles_settles (h : Recoverable env out) (range : TimeRange) (pick : Nat → Nat) :
    ∃ out', Settles (synthesizeFiles env pick range out) out' ∧ out'.folders = [] ∧
      out'.files = recoveredFile env (settledRange env range (alphasort out.folders)) out := by
  obtain ⟨st, hrun, hst⟩ := synthesizeFolders_emptied h range pick
  obtain ⟨hfolders, hfiles⟩ := synthesizeFiles_of_emptied hst
  refine ⟨_, hrun.map fun st : SynthesisState => (alphasort out.folders).foldl deleteFolder st.out,
    hfolders, hfiles.trans ?_⟩
  funext i
  exact hst.files h i

end

def twoThreads : SynthesisEnv where
  pageSize := 4096
  capacity := 2
  currentTime := ⟨0, 12, 10, 4, 126⟩
  localTime :=
    { tm := fun _ => ⟨0, 12, 10, 4, 126⟩
      valid := fun _ => ⟨by decide, by decide, by decide, by decide, by decide⟩
      mono := fun _ _ _ => le_refl _ }

def openRange : TimeRange := ⟨anyField, anyField, anyField, anyField, anyField⟩

def filledBlock (ino logicalOffset : Nat) (byte : UInt8) : BlockFile :=
  ⟨blockName ino logicalOffset, List.replicate 4096 byte⟩

/-- Two checkpoints that share a page of inode 20; three inodes for two threads. -/
def threeFiles : OutputFolder where
  folders := [['1', '0'], ['9']]
  blocks folder :=
    if folder = ['9'] then [filledBlock 20 3 1, filledBlock 20 0 2, filledBlock 5 1 3]
    else if folder = ['1', '0'] then [filledBlock 7 0 4, filledBlock 20 3 5]
    else []
  files _ := none

theorem placed_filledBlock {folders : List (List Char)} {ino logicalOffset : Nat} {byte : UInt8}
    (hino : ino < 9223372036854775807) (hoffset : logicalOffset < 4294967296)
    (hapart : Nat.toDigits 10 ino ∉ folders) :
    Placed 4096 folders (filledBlock ino logicalOffset byte) := by
  have hid : extractInodeId (blockName ino logicalOffset) = ino := by
    rw [extractInodeId_blockName (by omega) hoffset, Nat.min_eq_right (by omega)]
  have hplace : extractOffset 4096 (blockName ino logicalOffset) = logicalOffset * 4096 :=
    extractOffset_blockName (by omega) hoffset (by decide)
  refine ⟨?_, ?_, List.length_replicate, ?_⟩
  · change blockPlace 4096 (blockName ino logicalOffset) = some
      (extractInodeId (blockName ino logicalOffset), extractOffset 4096 (blockName ino logicalOffset))
    rw [hid, hplace, blockPlace_blockName (by omega) hoffset (by decide), Nat.min_eq_right (by omega)]
  · change extractOffset 4096 (blockName ino logicalOffset) ≤ offMax
    rw [hplace]
    unfold offMax
    omega
  · change Nat.toDigits 10 (extractInodeId (blockName ino logicalOffset)) ∉ folders
    rwa [hid]

theorem threeFiles_recoverable : Recoverable twoThreads threeFiles where
  stored := by
    refine ⟨rfl, fun f => ?_, fun f b hb => ?_, fun _ => List.Sublist.refl _⟩
    · unfold threeFiles
      simp only
      split
      · decide
      · split <;> decide
    · unfold threeFiles at hb
      simp only at hb
      split at hb
      · simp only [List.mem_cons, List.not_mem_nil, or_false] at hb
        rcases hb with rfl | rfl | rfl <;> exact placed_filledBlock (by decide) (by decide) (by decide)
      · split at hb
        · simp only [List.mem_cons, List.not_mem_nil, or_false] at hb
          rcases hb with rfl | rfl <;> exact placed_filledBlock (by decide) (by decide) (by decide)
        · cases hb
  nodup := by decide
  files _ := rfl
  page := by decide
  capacity := by decide
  clock := ⟨by decide, by decide, by decide, by decide, by decide⟩

theorem synthesizeFiles_settles_threeFiles :
    ∃ out', Settles (synthesizeFiles twoThreads (· * 7 + 1) openRange threeFiles) out' ∧
      out'.folders = [] ∧ out'.files = recoveredFile twoThreads
        (settledRange twoThreads openRange (alphasort [['1', '0'], ['9']])) threeFiles :=
  synthesizeFiles_settles threeFiles_recoverable openRange (· * 7 + 1)

end Ssdfs
