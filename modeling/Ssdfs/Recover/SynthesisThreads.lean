import Ssdfs.Recover.Synthesis

namespace Ssdfs

/-- The blocks that a thread has not merged yet, in the order in which it comes to them. -/
def BuildState.ahead (admitted : List Char → Bool) (t : BuildState)
    (blocks : List Char → List BlockFile) : List BlockFile :=
  (match t.parent with
    | some (folder, names) => inOrder (blocks folder) names
    | none => []) ++
  (t.namelist.filter admitted).flatMap fun folder => sortedBlocks (blocks folder)

def BuildState.steps (bound : List Char → Nat) (t : BuildState) : Nat :=
  (match t.parent with
    | some (_, names) => names.length + 1
    | none => 0) +
  (t.namelist.map fun folder => bound folder + 2).sum

section

variable (env : SynthesisEnv) (range : TimeRange)

def admitted (folder : List Char) : Bool := (isFolderInsideRange env range folder).1

/-- Checks change nothing in the range any more. -/
def RangeSettled : Prop := ∀ folder, (isFolderInsideRange env range folder).2 = range

variable (folders : List (List Char)) (bound : List Char → Nat) (merged : Nat → List UInt8)

structure Merges (inodeId n : Nat) (t : BuildState) (v : InodeView) : Prop where
  steps : t.steps bound ≤ n
  merged : overlay env.pageSize (v.file.getD []) (t.ahead (admitted env range) v.blocks) = merged inodeId
  file : v.file.isSome = true ∨ ∃ folder ∈ t.namelist, admitted env range folder = true
  nodup : t.namelist.Nodup
  left : ∀ folder ∈ folders, admitted env range folder = true → v.blocks folder ≠ [] →
    folder ∈ t.namelist ∨
      ∃ names, t.parent = some (folder, names) ∧ ∀ b ∈ v.blocks folder, b.name ∈ names
  parent : ∀ folder names, t.parent = some (folder, names) →
    folder ∉ t.namelist ∧ names.Nodup ∧ ∀ name ∈ names, extractOffset env.pageSize name ≤ offMax
  timestamp : t.timestamp = range
  apart : Nat.toDigits 10 inodeId ∉ folders

structure Merged (inodeId : Nat) (v : InodeView) : Prop where
  file : v.file = some (merged inodeId)
  blocks : ∀ folder ∈ folders, admitted env range folder = true → v.blocks folder = []

end

section

variable {env : SynthesisEnv} {range : TimeRange} {folders : List (List Char)} {bound : List Char → Nat}
  {start : List Char → List BlockFile}
  {merged : Nat → List UInt8} {inodeId n : Nat} {t t' : BuildState} {out out' : OutputFolder}
  {folder name : List Char} {names : List (List Char)}

theorem buildFile_eq_none (h : buildFile env inodeId t out = none) : t.parent = none ∧ t.namelist = [] := by
  match hparent : t.parent, hnamelist : t.namelist with
  | some (folder, name :: names), _ =>
    simp only [buildFile, hparent] at h
    split at h
    · cases h
    · cases h
  | some (folder, []), _ => simp only [buildFile, hparent, reduceCtorEq] at h
  | none, [] => exact ⟨rfl, rfl⟩
  | none, folder :: namelist =>
    simp only [buildFile, hparent, hnamelist] at h
    split at h
    · split at h
      · cases h
      · cases h
    · cases h

theorem Merges.done (h : Merges env range folders bound merged inodeId n t (out.view inodeId))
    (hnone : buildFile env inodeId t out = none) :
    Merged env range folders merged inodeId (out.view inodeId) := by
  obtain ⟨hparent, hnamelist⟩ := buildFile_eq_none hnone
  have hmerged := h.merged
  unfold BuildState.ahead at hmerged
  rw [hparent, hnamelist] at hmerged
  have hfile : (out.view inodeId).file.isSome = true := by
    rcases h.file with hfile | ⟨_, hmem, -⟩
    · exact hfile
    · rw [hnamelist] at hmem
      cases hmem
  obtain ⟨file, hfile⟩ := Option.isSome_iff_exists.1 hfile
  refine ⟨?_, fun folder hmem hin => ?_⟩
  · rw [hfile] at hmerged ⊢
    exact congrArg some hmerged
  · by_contra hne
    rcases h.left folder hmem hin hne with hahead | ⟨_, hopen, -⟩
    · rw [hnamelist] at hahead
      cases hahead
    · rw [hparent] at hopen
      cases hopen

theorem synthesizeBlock_cases (inodeId : Nat) (h : Stored env.pageSize folders start out)
    (hoffset : extractOffset env.pageSize name ≤ offMax) (hpage : 0 < env.pageSize) :
    (synthesizeBlock env.pageSize inodeId folder name out = some out ∧
      ∀ b ∈ (out.view inodeId).blocks folder, b.name ≠ name) ∨
    ∃ b ∈ (out.view inodeId).blocks folder, b.name = name ∧
      synthesizeBlock env.pageSize inodeId folder name out =
        some ((out.setFile inodeId (writeAt ((out.files inodeId).getD [])
          (extractOffset env.pageSize name) b.data)).unlink folder name) := by
  by_cases hfound : ∃ b ∈ (out.view inodeId).blocks folder, b.name = name
  · obtain ⟨b, hb, rfl⟩ := hfound
    refine .inr ⟨b, hb, rfl, ?_⟩
    obtain ⟨hmem, hid⟩ := mem_view.1 hb
    have hplaced := h.placed folder b hmem
    have hne : b.data ≠ [] := fun hnil => by
      have := hplaced.page
      rw [hnil] at this
      simp only [List.length_nil] at this
      omega
    unfold synthesizeBlock
    rw [hplaced.place]
    simp only [hid, ne_eq, not_true_eq_false, if_false, if_neg (Nat.not_lt.2 hoffset),
      find_name (h.nodup folder) hmem, if_neg hne, gt_iff_lt]
  · have hall : ∀ b ∈ (out.view inodeId).blocks folder, b.name ≠ name := fun b hb hname =>
      hfound ⟨b, hb, hname⟩
    refine .inl ⟨?_, hall⟩
    unfold synthesizeBlock
    match hplace : blockPlace env.pageSize name with
    | none => rfl
    | some (ino, byteOffset) =>
      by_cases hino : ino = inodeId
      · have hoff : byteOffset = extractOffset env.pageSize name ∧ ino = extractInodeId name := by
          unfold blockPlace at hplace
          simp only at hplace
          split at hplace
          · cases hplace
          · split at hplace
            · cases hplace
            · cases hplace
              exact ⟨rfl, rfl⟩
        have hnone : (out.blocks folder).find? (·.name = name) = none :=
          find_name_eq_none.2 fun b hb hname =>
            hall b (mem_view.2 ⟨hb, hname ▸ hoff.2 ▸ hino⟩) hname
        simp only [hino, ne_eq, not_true_eq_false, if_false, gt_iff_lt,
          if_neg (Nat.not_lt.2 (hoff.1 ▸ hoffset)), hnone]
      · simp only [ne_eq, hino, not_false_eq_true, if_true]

theorem ahead_open {admitted : List Char → Bool} {blocks : List Char → List BlockFile}
    (h : t.parent = some (folder, names)) :
    t.ahead admitted blocks = inOrder (blocks folder) names ++
      (t.namelist.filter admitted).flatMap fun folder => sortedBlocks (blocks folder) := by
  unfold BuildState.ahead
  rw [h]

theorem steps_open (h : t.parent = some (folder, names)) :
    t.steps bound = names.length + 1 + (t.namelist.map fun folder => bound folder + 2).sum := by
  unfold BuildState.steps
  rw [h]

theorem Merges.skip {v : InodeView} (h : Merges env range folders bound merged inodeId n t v)
    (hparent : t.parent = some (folder, name :: names)) (hnot : ∀ b ∈ v.blocks folder, b.name ≠ name) :
    Merges env range folders bound merged inodeId (n - 1) { t with parent := some (folder, names) } v where
  steps := by
    have hsteps := h.steps
    rw [steps_open hparent] at hsteps
    rw [steps_open rfl]
    simp only [List.length_cons] at hsteps ⊢
    omega
  merged := by
    rw [← h.merged, ahead_open hparent, ahead_open rfl, inOrder_cons_of_none (find_name_eq_none.2 hnot)]
  file := h.file
  nodup := h.nodup
  left f hf hin hne := by
    refine (h.left f hf hin hne).imp id fun ⟨ns, hns, hmem⟩ => ?_
    obtain ⟨rfl, rfl⟩ := Prod.mk.inj (Option.some.inj (hparent.symm.trans hns))
    refine ⟨names, rfl, fun b hb => ?_⟩
    exact (List.mem_cons.1 (hmem b hb)).resolve_left (hnot b hb)
  parent f ns hns := by
    obtain ⟨rfl, rfl⟩ := Prod.mk.inj (Option.some.inj hns)
    obtain ⟨hfresh, hnodup, hoffset⟩ := h.parent _ _ hparent
    exact ⟨hfresh, (List.nodup_cons.1 hnodup).2, fun n hn => hoffset n (List.mem_cons_of_mem _ hn)⟩
  timestamp := h.timestamp
  apart := h.apart

theorem Merges.merge {b : BlockFile} (h : Merges env range folders bound merged inodeId n t (out.view inodeId))
    (hstored : Stored env.pageSize folders start out)
    (hparent : t.parent = some (folder, b.name :: names)) (hb : b ∈ (out.view inodeId).blocks folder) :
    Merges env range folders bound merged inodeId (n - 1) { t with parent := some (folder, names) }
      (((out.setFile inodeId (writeAt ((out.files inodeId).getD [])
        (extractOffset env.pageSize b.name) b.data)).unlink folder b.name).view inodeId) := by
  let out₁ := out.setFile inodeId (writeAt ((out.files inodeId).getD [])
    (extractOffset env.pageSize b.name) b.data)
  obtain ⟨hfresh, hnodup, hoffset⟩ := h.parent _ _ hparent
  obtain ⟨hname, hnodup⟩ := List.nodup_cons.1 hnodup
  have hview : ∀ f, ((out₁.unlink folder b.name).view inodeId).blocks f =
      if f = folder then ((out.view inodeId).blocks folder).filter (·.name ≠ b.name)
      else (out.view inodeId).blocks f := fun f => view_unlink
  have hhere := (hview folder).trans (if_pos rfl)
  have hsub : ∀ f, ((out₁.unlink folder b.name).view inodeId).blocks f ⊆ (out.view inodeId).blocks f := by
    intro f
    rw [hview]
    split
    · rename_i hf
      exact hf ▸ List.filter_subset_self ..
    · exact List.Subset.refl _
  have hfile : ((out₁.unlink folder b.name).view inodeId).file = some _ := Function.update_self ..
  refine ⟨?_, ?_, .inl (hfile ▸ rfl), h.nodup, fun f hf hin hne => ?_, fun f ns hns => ?_, h.timestamp, h.apart⟩
  · have hsteps := h.steps
    rw [steps_open hparent] at hsteps
    rw [steps_open rfl]
    simp only [List.length_cons] at hsteps ⊢
    omega
  · have hlater : (t.namelist.filter (admitted env range)).flatMap
          (fun f => sortedBlocks (((out₁.unlink folder b.name).view inodeId).blocks f)) =
        (t.namelist.filter (admitted env range)).flatMap
          fun f => sortedBlocks ((out.view inodeId).blocks f) := by
      refine List.flatMap_congr fun f hf => congrArg sortedBlocks ((hview f).trans (if_neg ?_))
      intro heq
      exact hfresh (heq ▸ (List.mem_filter.1 hf).1)
    rw [← h.merged, ahead_open hparent, ahead_open rfl, hfile, hhere, inOrder_unlinked hname, hlater,
      inOrder_cons_of_some (find_name hstored.view_nodup hb)]
    rfl
  · refine (h.left f hf hin fun hnil => hne (List.subset_nil.1 (hnil ▸ hsub f))).imp id ?_
    rintro ⟨ns, hns, hmem⟩
    obtain ⟨rfl, rfl⟩ := Prod.mk.inj (Option.some.inj (hparent.symm.trans hns))
    refine ⟨names, rfl, fun c hc => ?_⟩
    rw [hhere] at hc
    obtain ⟨hc, hne⟩ := List.mem_filter.1 hc
    exact (List.mem_cons.1 (hmem c hc)).resolve_left (by simpa using hne)
  · obtain ⟨rfl, rfl⟩ := Prod.mk.inj (Option.some.inj hns)
    exact ⟨hfresh, hnodup, fun n hn => hoffset n (List.mem_cons_of_mem _ hn)⟩

theorem ahead_closed {admitted : List Char → Bool} {blocks : List Char → List BlockFile}
    (h : t.parent = none) :
    t.ahead admitted blocks =
      (t.namelist.filter admitted).flatMap fun folder => sortedBlocks (blocks folder) := by
  unfold BuildState.ahead
  rw [h]
  rfl

theorem steps_closed (h : t.parent = none) :
    t.steps bound = (t.namelist.map fun folder => bound folder + 2).sum := by
  unfold BuildState.steps
  rw [h]
  exact Nat.zero_add _

theorem Merges.close {v : InodeView} (h : Merges env range folders bound merged inodeId n t v)
    (hparent : t.parent = some (folder, [])) :
    Merges env range folders bound merged inodeId (n - 1) { t with parent := none } v where
  steps := by
    have hsteps := h.steps
    rw [steps_open hparent] at hsteps
    rw [steps_closed rfl]
    simp only [List.length_nil] at hsteps ⊢
    omega
  merged := by
    rw [← h.merged, ahead_open hparent, ahead_closed rfl]
    rfl
  file := h.file
  nodup := h.nodup
  left f hf hin hne := by
    refine (h.left f hf hin hne).imp id fun ⟨ns, hns, hmem⟩ => ?_
    obtain ⟨rfl, rfl⟩ := Prod.mk.inj (Option.some.inj (hparent.symm.trans hns))
    obtain ⟨b, hb⟩ := List.exists_mem_of_ne_nil _ hne
    exact absurd (hmem b hb) List.not_mem_nil
  parent f ns hns := by cases hns
  timestamp := h.timestamp
  apart := h.apart

theorem Merges.enter {namelist : List (List Char)}
    (h : Merges env range folders bound merged inodeId n t (out.view inodeId))
    (hstored : Stored env.pageSize folders start out)
    (hbound : (out.blocks folder).length ≤ bound folder) (hparent : t.parent = none)
    (hnamelist : t.namelist = folder :: namelist) (hin : admitted env range folder = true) :
    Merges env range folders bound merged inodeId (n - 1)
      ⟨range, namelist, some (folder, alphasort ((out.blocks folder).map (·.name)))⟩
      ((out.setFile inodeId ((out.files inodeId).getD [])).view inodeId) := by
  have hnodup := h.nodup
  rw [hnamelist] at hnodup
  obtain ⟨hfresh, hnodup⟩ := List.nodup_cons.1 hnodup
  rw [view_setFile]
  refine ⟨?_, ?_, .inl rfl, hnodup, fun f hf hadm hne => ?_, fun f ns hns => ?_, rfl, h.apart⟩
  · have hsteps := h.steps
    rw [steps_closed hparent, hnamelist, List.map_cons, List.sum_cons] at hsteps
    rw [steps_open rfl, (alphasort_perm _).length_eq, List.length_map]
    simp only
    omega
  · have hopen : inOrder ((out.view inodeId).blocks folder) (alphasort ((out.blocks folder).map (·.name))) =
        sortedBlocks ((out.view inodeId).blocks folder) :=
      inOrder_filter_blocks _ (hstored.nodup folder)
    rw [← h.merged, ahead_closed hparent, ahead_open rfl, hnamelist, List.filter_cons_of_pos hin,
      List.flatMap_cons, hopen]
    rfl
  · rcases h.left f hf hadm hne with hmem | ⟨ns, hns, -⟩
    · rw [hnamelist] at hmem
      rcases List.mem_cons.1 hmem with rfl | hmem
      · refine .inr ⟨_, rfl, fun b hb => ?_⟩
        exact mem_alphasort.2 (List.mem_map_of_mem (mem_view.1 hb).1)
      · exact .inl hmem
    · rw [hparent] at hns
      cases hns
  · obtain ⟨rfl, rfl⟩ := Prod.mk.inj (Option.some.inj hns)
    refine ⟨hfresh, (alphasort_perm _).nodup_iff.2 (hstored.nodup folder), fun name hname => ?_⟩
    obtain ⟨b, hb, rfl⟩ := List.mem_map.1 (mem_alphasort.1 hname)
    exact (hstored.placed folder b hb).offset

theorem Merges.pass {v : InodeView} {namelist : List (List Char)}
    (h : Merges env range folders bound merged inodeId n t v) (hparent : t.parent = none)
    (hnamelist : t.namelist = folder :: namelist) (hout : admitted env range folder = false) :
    Merges env range folders bound merged inodeId (n - 1) ⟨range, namelist, none⟩ v := by
  have hnodup := h.nodup
  rw [hnamelist] at hnodup
  refine ⟨?_, ?_, h.file.imp id ?_, (List.nodup_cons.1 hnodup).2, fun f hf hadm hne => ?_,
    fun f ns hns => absurd hns (by simp), rfl, h.apart⟩
  · have hsteps := h.steps
    rw [steps_closed hparent, hnamelist, List.map_cons, List.sum_cons] at hsteps
    rw [steps_closed rfl]
    simp only
    omega
  · rw [← h.merged, ahead_closed hparent, ahead_closed rfl, hnamelist,
      List.filter_cons_of_neg (by simp [hout])]
  · rintro ⟨f, hmem, hadm⟩
    rw [hnamelist] at hmem
    rcases List.mem_cons.1 hmem with rfl | hmem
    · rw [hout] at hadm
      cases hadm
    · exact ⟨f, hmem, hadm⟩
  · rcases h.left f hf hadm hne with hmem | ⟨ns, hns, -⟩
    · rw [hnamelist] at hmem
      rcases List.mem_cons.1 hmem with rfl | hmem
      · rw [hout] at hadm
        cases hadm
      · exact .inl hmem
    · rw [hparent] at hns
      cases hns

theorem createDataFile_of_apart (hstored : Stored env.pageSize folders start out)
    (hapart : Nat.toDigits 10 inodeId ∉ folders) :
    createDataFile inodeId out = some (out.setFile inodeId ((out.files inodeId).getD [])) := by
  unfold createDataFile
  rw [hstored.same, if_neg hapart]

/-- The threads work on their own inodes only, whatever order their steps are made in. -/
theorem buildFile_apart (hpage : 0 < env.pageSize) (hsettled : RangeSettled env range) :
    Threads.Apart (buildFile env) (Stored env.pageSize folders start) OutputFolder.view
      (Merges env range folders (fun folder => (start folder).length) merged) (Merged env range folders merged) where
  done inodeId n t out _ h hnone := h.done hnone
  next inodeId n t out t' out' hstored h hstep := by
    have hpos := h.steps
    match hparent : t.parent, hnamelist : t.namelist with
    | some (folder, name :: names), _ =>
      rw [steps_open hparent] at hpos
      obtain ⟨-, -, hoffset⟩ := h.parent _ _ hparent
      simp only [buildFile, hparent] at hstep
      have hplace := hoffset name (List.mem_cons_self ..)
      rcases synthesizeBlock_cases inodeId hstored hplace hpage with ⟨hblock, hnot⟩ | ⟨b, hb, rfl, hblock⟩
      · rw [hblock] at hstep
        cases hstep
        exact ⟨hstored, ⟨n - 1, by omega, h.skip hparent hnot⟩, fun j hj => rfl⟩
      · rw [hblock] at hstep
        cases hstep
        refine ⟨hstored.setFile.unlink, ⟨n - 1, by omega, h.merge hstored hparent hb⟩, fun j hj => ?_⟩
        rw [view_unlink_of_ne ((mem_view.1 hb).2.symm ▸ hj), view_setFile_of_ne hj]
    | some (folder, []), _ =>
      rw [steps_open hparent] at hpos
      simp only [buildFile, hparent] at hstep
      cases hstep
      exact ⟨hstored, ⟨n - 1, by omega, h.close hparent⟩, fun j hj => rfl⟩
    | none, [] =>
      simp only [buildFile, hparent, hnamelist, reduceCtorEq] at hstep
    | none, folder :: namelist =>
      rw [steps_closed hparent, hnamelist, List.map_cons, List.sum_cons] at hpos
      simp only [buildFile, hparent, hnamelist, h.timestamp, hsettled folder] at hstep
      by_cases hin : admitted env range folder = true
      · rw [if_pos (show (isFolderInsideRange env range folder).1 = true from hin),
          createDataFile_of_apart hstored h.apart] at hstep
        cases hstep
        refine ⟨hstored.setFile, ⟨n - 1, by omega, ?_⟩, fun j hj => view_setFile_of_ne hj⟩
        exact h.enter hstored (hstored.sub folder).length_le hparent hnamelist hin
      · rw [if_neg (show ¬(isFolderInsideRange env range folder).1 = true from hin)] at hstep
        cases hstep
        exact ⟨hstored, ⟨n - 1, by omega, h.pass hparent hnamelist (by simpa using hin)⟩, fun j hj => rfl⟩

end

end Ssdfs
