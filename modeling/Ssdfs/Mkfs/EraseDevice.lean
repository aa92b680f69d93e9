import Ssdfs.Lib.Report
import Ssdfs.Mkfs.EraseRange
import Ssdfs.Write.Placed
import Ssdfs.Write.Segments

namespace Ssdfs

def mkfsUnknownThreads : Nat := 0
def mkfsDefaultThreads : Nat := 1

structure ThreadState where
  peb : PebPortion
  err : Option Errno

structure EndedThread where
  state : ThreadState
  status : Nat
  erased : List (Nat × Nat)

structure Erasure where
  erased : List (Nat × Nat)
  reported : List (Nat × Errno)

def erasePebs (erase : Nat → Nat → Option Errno) (pebSize : Nat) :
    List Nat → Option Errno × List (Nat × Nat)
  | [] => (none, [])
  | peb :: pebs =>
    let offset := Word.u64 (peb * pebSize)
    match erase offset pebSize with
    | some err => (some err, [])
    | none =>
      let (err, erased) := erasePebs erase pebSize pebs
      (err, (offset, pebSize) :: erased)

section

variable (erase : Nat → Nat → Option Errno) (layout : VolumeLayout)

def eraseRequest (offset size : Nat) : Mkfs Unit := (erase offset size).elim (.ok ()) fail

/-- The code of the request that fails goes into the exit status only. -/
def runEraseThread (state : ThreadState) : EndedThread :=
  let state := { state with err := none }
  let pebs := eraseDevicePebRange state.peb (layout.env.fsSize.toNat / layout.env.eraseSize.toNat)
  let (err, erased) := erasePebs erase layout.env.eraseSize.toNat pebs
  ⟨state, if err.isSome then 1 else 0, erased⟩

def waitThreadsActivityEnding (jobs : List EndedThread) : List (Nat × Errno) :=
  jobs.zipIdx.filterMap fun (job, i) => job.state.err.map (i, ·)

def eraseNextSegment (st : Nat × List (Nat × Nat)) : Mkfs (Nat × List (Nat × Nat)) := do
  let segSize := layout.segSize.toNat
  eraseRequest erase st.1 segSize
  .ok (Word.u64 (st.1 + segSize), st.2 ++ [(st.1, segSize)])

def eraseAllSegments : Mkfs (List (Nat × Nat)) := do
  let fsSegsCount ← quot layout.env.fsSize.toNat layout.segSize.toNat
  let (_, erased) ← Checked.forRange fsSegsCount (fun _ => eraseNextSegment erase layout) (0, [])
  .ok erased

/-- The threads for the device; `cpuCores` is their number if the options leave it open. -/
def erasingThreads (cpuCores threadsCapacity : Nat) : Nat :=
  let cpuCores := if cpuCores = 0 then mkfsDefaultThreads else cpuCores
  if threadsCapacity = mkfsUnknownThreads then cpuCores else threadsCapacity

def eraseDeviceByThreads (capacity : Nat) : Mkfs Erasure := do
  let pebsCount ← quot layout.env.fsSize.toNat layout.env.eraseSize.toNat
  let jobs := (List.range capacity).map fun i =>
    runEraseThread erase layout ⟨initPebEnvironment i (pebsPerThread pebsCount capacity) pebsCount, none⟩
  .ok ⟨jobs.flatMap EndedThread.erased, waitThreadsActivityEnding jobs⟩

/-- `isVolumeErased` says that the check of the PEBs has erased them. -/
def eraseDevice (isVolumeErased : Bool) (cpuCores threadsCapacity : Nat) (a : SegsArray) :
    Mkfs Erasure :=
  if isVolumeErased then .ok ⟨[], []⟩
  else if !layout.needEraseDevice then do
    let erased ← eraseAllocatedSegmentsOnly (eraseRequest erase) layout a
    .ok ⟨erased, []⟩
  else
    let capacity := erasingThreads cpuCores threadsCapacity
    if capacity = mkfsDefaultThreads then do
      let erased ← eraseAllSegments erase layout
      .ok ⟨erased, []⟩
    else eraseDeviceByThreads erase layout capacity

end

def writeDevice {σ : Type} (layout : VolumeLayout) (a : SegsArray) (eraseDevice : Mkfs Erasure)
    (writeSegments : σ → Mkfs σ) (openZones : σ → Nat) (calculatedOpenZones : Nat) (s : σ) :
    Mkfs (Report Errno σ) := do
  bugOn (a.segsCapacity = 0 ∨ a.segsCount = 0)
  Report.attempt (failIf (a.segsCapacity ≠ a.segsCount) .einval) s fun _ =>
    Report.attempt (checkLayoutBeforeWrite layout a) s fun _ =>
      Report.attempt eraseDevice s fun _ => do
        let s ← writeSegments s
        Report.attempt (failIf (layout.env.deviceType = .zns ∧ openZones s ≠ calculatedOpenZones)
          .erange) s fun _ => .ok (none, s)

section

variable (erase : Nat → Nat → Option Errno) (layout : VolumeLayout)

def threadsScope (capacity : Nat) : List (Nat × Nat) :=
  (List.range capacity).flatMap fun i =>
    (eraseDevicePebRange (initPebEnvironment i (pebsPerThread layout.pebsPerVolume capacity)
      layout.pebsPerVolume) layout.pebsPerVolume).map fun peb =>
        (Word.u64 (peb * layout.env.eraseSize.toNat), layout.env.eraseSize.toNat)

/-- The device is erased by more than one thread, or by as many as are asked for. -/
def ByThreads (isVolumeErased : Bool) (cpuCores threadsCapacity : Nat) : Prop :=
  isVolumeErased = false ∧ layout.needEraseDevice = true ∧
    erasingThreads cpuCores threadsCapacity ≠ mkfsDefaultThreads

instance {isVolumeErased : Bool} {cpuCores threadsCapacity : Nat} :
    Decidable (ByThreads layout isVolumeErased cpuCores threadsCapacity) :=
  inferInstanceAs (Decidable (_ ∧ _ ∧ _))

def eraseScope (isVolumeErased : Bool) (cpuCores threadsCapacity : Nat) (a : SegsArray) :
    List (Nat × Nat) :=
  if isVolumeErased then []
  else if !layout.needEraseDevice then
    (List.range a.segsCount).map fun i =>
      (Word.u64 ((a.segs i).segId * layout.segSize.toNat), layout.segSize.toNat)
  else if erasingThreads cpuCores threadsCapacity = mkfsDefaultThreads then
    (List.range (layout.env.fsSize.toNat / layout.segSize.toNat)).map fun i =>
      (Word.u64 (i * layout.segSize.toNat), layout.segSize.toNat)
  else threadsScope layout (erasingThreads cpuCores threadsCapacity)

/-- A request of the scope that fails is reported, and then nothing is written. -/
structure ErasureReported (isVolumeErased : Bool) (cpuCores threadsCapacity : Nat) (a : SegsArray) :
    Prop where
  returns : (∃ r ∈ eraseScope layout isVolumeErased cpuCores threadsCapacity a, erase r.1 r.2 ≠ none) →
    ∃ e, eraseDevice erase layout isVolumeErased cpuCores threadsCapacity a = fail e
  unwritten : (∃ r ∈ eraseScope layout isVolumeErased cpuCores threadsCapacity a, erase r.1 r.2 ≠ none) →
    ∀ {σ : Type} (writeSegments : σ → Mkfs σ) (openZones : σ → Nat) (calculatedOpenZones : Nat)
      (s s' : σ) (err : Option Errno),
      writeDevice layout a (eraseDevice erase layout isVolumeErased cpuCores threadsCapacity a)
        writeSegments openZones calculatedOpenZones s = .ok (err, s') → err ≠ none ∧ s' = s

variable {erase layout} {a : SegsArray} {isVolumeErased : Bool} {cpuCores threadsCapacity : Nat}

theorem eraseRequest_guarded {offset size : Nat} :
    Checked.Guarded (eraseRequest erase offset size) (erase offset size = none) fun _ => True := by
  unfold eraseRequest
  cases erase offset size with
  | none => exact (Checked.Guarded.ok trivial).congr (iff_of_true rfl trivial) fun _ h => h
  | some e => exact Checked.Guarded.code.congr (iff_of_false nofun id) fun _ h => h

theorem eraseAllocatedSegmentsOnly_guarded :
    Checked.Guarded (eraseAllocatedSegmentsOnly (eraseRequest erase) layout a)
      (∀ i < a.segsCount, erase (Word.u64 ((a.segs i).segId * layout.segSize.toNat))
        layout.segSize.toNat = none) fun _ => True :=
  Checked.Guarded.forRange (fun _ _ => True) trivial fun _ _ _ _ =>
    (eraseRequest_guarded.bind fun _ _ _ => .ok trivial).congr (and_true _).symm.to_iff fun _ h => h

theorem u64_mul_succ {i n : Nat} : Word.u64 (Word.u64 (i * n) + n) = Word.u64 ((i + 1) * n) := by
  unfold Word.u64
  rw [Nat.mod_add_mod, Nat.succ_mul]

theorem eraseAllSegments_fails
    (h : ∃ i < layout.env.fsSize.toNat / layout.segSize.toNat,
      erase (Word.u64 (i * layout.segSize.toNat)) layout.segSize.toNat ≠ none) :
    ∃ e, eraseAllSegments erase layout = fail e := by
  obtain ⟨i, hi, hfail⟩ := h
  have hseg : layout.segSize.toNat ≠ 0 := fun h0 => by
    rw [h0, Nat.div_zero] at hi
    exact Nat.not_lt_zero i hi
  have hquot : quot layout.env.fsSize.toNat layout.segSize.toNat =
      .ok (layout.env.fsSize.toNat / layout.segSize.toNat) := if_neg hseg
  have hloop : Checked.Guarded (Checked.forRange (layout.env.fsSize.toNat / layout.segSize.toNat)
      (fun _ => eraseNextSegment erase layout) (0, []))
      (∀ i < layout.env.fsSize.toNat / layout.segSize.toNat,
        erase (Word.u64 (i * layout.segSize.toNat)) layout.segSize.toNat = none) _ :=
    Checked.Guarded.forRange (fun i st => st.1 = Word.u64 (i * layout.segSize.toNat))
      (congrArg Word.u64 (Nat.zero_mul _)).symm fun i _ st hst => by
        refine (eraseRequest_guarded.bind (D := True) fun _ _ _ => .ok ?_).congr ?_ fun _ h => h
        · rw [hst]
          exact u64_mul_succ
        · rw [hst, and_true]
  obtain ⟨e, he⟩ := hloop.refuses fun hall => hfail (hall i hi)
  refine ⟨e, ?_⟩
  unfold eraseAllSegments
  rw [hquot, Checked.ok_bind, he]
  rfl

theorem eraseSize_ne_zero_of_scope {capacity : Nat} (h : threadsScope layout capacity ≠ []) :
    layout.env.eraseSize.toNat ≠ 0 := fun h0 => by
  obtain ⟨r, hr⟩ := List.exists_mem_of_ne_nil _ h
  obtain ⟨i, -, hi⟩ := List.mem_flatMap.1 hr
  obtain ⟨peb, hpeb, -⟩ := List.mem_map.1 hi
  have hlt := List.all_eq_true.1 List.all_takeWhile peb hpeb
  have hnone : layout.pebsPerVolume = 0 := by
    unfold VolumeLayout.pebsPerVolume
    rw [h0, Nat.div_zero]
  rw [hnone] at hlt
  exact Nat.not_lt_zero peb (of_decide_eq_true hlt)

theorem eraseDeviceByThreads_ok {capacity : Nat} (h : threadsScope layout capacity ≠ []) :
    ∃ erasure, eraseDeviceByThreads erase layout capacity = .ok erasure := by
  have hquot : quot layout.env.fsSize.toNat layout.env.eraseSize.toNat =
      .ok (layout.env.fsSize.toNat / layout.env.eraseSize.toNat) :=
    if_neg (eraseSize_ne_zero_of_scope h)
  unfold eraseDeviceByThreads
  rw [hquot, Checked.ok_bind]
  exact ⟨_, rfl⟩

theorem eraseDevice_fails (hseq : ¬ByThreads layout isVolumeErased cpuCores threadsCapacity)
    (h : ∃ r ∈ eraseScope layout isVolumeErased cpuCores threadsCapacity a, erase r.1 r.2 ≠ none) :
    ∃ e, eraseDevice erase layout isVolumeErased cpuCores threadsCapacity a = fail e := by
  obtain ⟨r, hr, hfail⟩ := h
  unfold eraseScope at hr
  unfold eraseDevice
  split at hr
  · exact absurd hr List.not_mem_nil
  rename_i herased
  rw [if_neg herased]
  split at hr
  · rename_i hneed
    obtain ⟨i, hi, rfl⟩ := List.mem_map.1 hr
    obtain ⟨e, he⟩ : ∃ e, eraseAllocatedSegmentsOnly (eraseRequest erase) layout a = fail e :=
      eraseAllocatedSegmentsOnly_guarded.refuses fun hall => hfail (hall i (List.mem_range.1 hi))
    exact ⟨e, by rw [if_pos hneed, he]; rfl⟩
  rename_i hneed
  rw [if_neg hneed]
  have hone : erasingThreads cpuCores threadsCapacity = mkfsDefaultThreads := by
    by_contra hmany
    exact hseq ⟨Bool.eq_false_of_not_eq_true herased, by simpa using hneed, hmany⟩
  rw [if_pos hone] at hr
  obtain ⟨i, hi, rfl⟩ := List.mem_map.1 hr
  obtain ⟨e, he⟩ := eraseAllSegments_fails ⟨i, List.mem_range.1 hi, hfail⟩
  refine ⟨e, ?_⟩
  simp only [if_pos hone]
  rw [he]
  rfl

theorem attempt_refused {α σ : Type} {f : Fault Errno} {s s' : σ} {k : α → Mkfs (Report Errno σ)}
    {err : Option Errno} (h : Report.attempt (.error f) s k = .ok (err, s')) : err ≠ none ∧ s' = s := by
  cases f with
  | code e =>
    cases h
    exact ⟨nofun, rfl⟩
  | abort | trap | stray | fuel => exact nomatch h

theorem writeDevice_of_failed {σ : Type} {writeSegments : σ → Mkfs σ} {openZones : σ → Nat}
    {calculatedOpenZones : Nat} {s s' : σ} {e : Errno} {err : Option Errno}
    (h : writeDevice layout a (fail e) writeSegments openZones calculatedOpenZones s = .ok (err, s')) :
    err ≠ none ∧ s' = s := by
  unfold writeDevice fail at h
  have hrest := (bugOn_bind_eq_ok.1 h).2
  cases hcount : failIf (a.segsCapacity ≠ a.segsCount) .einval with
  | error f =>
    rw [hcount] at hrest
    exact attempt_refused hrest
  | ok _ =>
    rw [hcount, Report.attempt_ok] at hrest
    cases hcheck : checkLayoutBeforeWrite layout a with
    | error f =>
      rw [hcheck] at hrest
      exact attempt_refused hrest
    | ok _ =>
      rw [hcheck, Report.attempt_ok] at hrest
      exact attempt_refused hrest

theorem eraseScope_of_threads (h : ByThreads layout isVolumeErased cpuCores threadsCapacity) :
    eraseScope layout isVolumeErased cpuCores threadsCapacity a =
      threadsScope layout (erasingThreads cpuCores threadsCapacity) := by
  obtain ⟨herased, hneed, hmany⟩ := h
  unfold eraseScope
  rw [herased, hneed, if_neg Bool.false_ne_true, if_neg (by decide), if_neg hmany]

theorem eraseDevice_of_threads (h : ByThreads layout isVolumeErased cpuCores threadsCapacity) :
    eraseDevice erase layout isVolumeErased cpuCores threadsCapacity a =
      eraseDeviceByThreads erase layout (erasingThreads cpuCores threadsCapacity) := by
  obtain ⟨herased, hneed, hmany⟩ := h
  unfold eraseDevice
  rw [herased, hneed, if_neg Bool.false_ne_true, if_neg (by decide)]
  exact if_neg hmany

/-- A thread that fails is not heard of: more than one thread report nothing, whatever they leave. -/
theorem eraseDevice_reports_iff : ErasureReported erase layout isVolumeErased cpuCores threadsCapacity a ↔
    ¬ByThreads layout isVolumeErased cpuCores threadsCapacity ∨
      ∀ r ∈ threadsScope layout (erasingThreads cpuCores threadsCapacity), erase r.1 r.2 = none := by
  constructor
  · intro h
    refine or_iff_not_imp_left.2 fun hthreads r hr => ?_
    by_contra hfail
    have hby := not_not.1 hthreads
    have hmem := (eraseScope_of_threads (a := a) hby).symm ▸ hr
    obtain ⟨erasure, herasure⟩ := @eraseDeviceByThreads_ok erase _ _ (List.ne_nil_of_mem hr)
    obtain ⟨e, he⟩ := h.returns ⟨r, hmem, hfail⟩
    rw [eraseDevice_of_threads hby, herasure] at he
    exact nomatch he
  · intro h
    have hfails : (∃ r ∈ eraseScope layout isVolumeErased cpuCores threadsCapacity a,
        erase r.1 r.2 ≠ none) →
        ∃ e, eraseDevice erase layout isVolumeErased cpuCores threadsCapacity a = fail e := by
      rintro ⟨r, hr, hfail⟩
      refine eraseDevice_fails (fun hby => ?_) ⟨r, hr, hfail⟩
      rw [eraseScope_of_threads hby] at hr
      exact h.elim (fun hseq => hseq hby) fun hall => hfail (hall r hr)
    refine ⟨hfails, fun hsome σ writeSegments openZones calculatedOpenZones s s' err hwrite => ?_⟩
    obtain ⟨e, he⟩ := hfails hsome
    rw [he] at hwrite
    exact writeDevice_of_failed hwrite

end

def wornPeb (offset _size : Nat) : Option Errno := if offset = 131072 then some .eio else none

/-- With two threads the first one fails, and the device is written all the same. -/
theorem eraseDevice_unreported : ¬ErasureReported wornPeb { sixteenPebs with needEraseDevice := true }
    false 2 mkfsUnknownThreads gappedSegs := fun h => by
  obtain ⟨e, he⟩ := h.returns ⟨(131072, 131072), by decide, by decide⟩
  exact nomatch he

end Ssdfs
