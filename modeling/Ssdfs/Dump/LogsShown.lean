import Ssdfs.Dump.LogWalk

namespace Ssdfs

open Memory

section

variable (dev : Buf) (env : PebDumpEnvironment) (pebId : Nat)

def FooterRecords (hdr : Bytes) (size : Nat) : Prop :=
  isAreaValid (SegHdr.footerOffset hdr) (SegHdr.footerSize hdr) = true ∧ ∃ area,
    deviceRead dev (Word.u64 (Word.u64 (pebId * env.pebSize.toNat) + SegHdr.footerOffset hdr))
        (SegHdr.footerSize hdr) = .ok area ∧
      if (SegHdr.segFlags hdr).testBit plhInsteadFooterBit then
        0x28 + 4 ≤ SegHdr.footerSize hdr ∧ PlHdr.logBytes area = size
      else (SegHdr.segFlags hdr).testBit logHasFooterBit = true ∧
        0x410 + 4 ≤ SegHdr.footerSize hdr ∧ LogFooter.logBytes area = size

def LogRecords (offset size : Nat) : Prop :=
  ∃ hdr, readSegmentHeader (deviceRead dev) pebId env.pebSize.toNat offset = .ok hdr ∧
    (isSsdfsSegmentHeader hdr = true ∧ FooterRecords dev env pebId hdr size ∨
      isSsdfsPartialLogHeader hdr = true ∧ PlHdr.logBytes hdr = size)

/-- A PEB of a volume that is made of consecutive logs, and of nothing else. -/
structure PebOfLogs (sizes : List Nat) : Prop where
  pebSize : ∃ bits, env.pebSize.toNat = 2 ^ bits
  room : ∀ size ∈ sizes, logHeaderSize ≤ size
  fits : sizes.sum ≤ env.pebSize.toNat
  logs : ∀ i, (h : i < sizes.length) → LogRecords dev env pebId (sizes.take i).sum sizes[i]
  rest : ∀ offset hdr, sizes.sum ≤ offset → offset < env.pebSize.toNat →
    readSegmentHeader (deviceRead dev) pebId env.pebSize.toNat offset = .ok hdr →
      isSsdfsMagicValid hdr = false

def logOfPeb (sizes : List Nat) (i : Nat) : ShownLog := ⟨pebId, i, (sizes.take i).sum⟩

def requestedLogs (sizes : List Nat) : List ShownLog :=
  (List.range' env.logIndex.toNat
    (min (env.logIndex.toNat + env.logsCount.toNat) sizes.length - env.logIndex.toNat)).map
      (logOfPeb pebId sizes)

/-- The first log that is not passed. -/
def firstLog : Nat := if env.logIndex.toNat < 2147483648 then env.logIndex.toNat else 0

/-- What is asked for is what the rounds come to: from all logs their number does not overflow, a single
log is the first one, and no parser stops in front of the last log. -/
structure CanShow (parseLog : ShownLog → Mkfs Unit) (sizes : List Nat) : Prop where
  behind : sizes.length ≤ env.logIndex.toNat →
    env.logIndex.toNat < 2147483648 ∨ env.logIndex.toNat = Word.u32Max ∨ maxLogs env = 0 ∨ sizes = []
  inside : env.logIndex.toNat < sizes.length →
    if env.showAllLogs then env.logIndex.toNat + env.logsCount.toNat < 4294967296
    else (env.logsCount.toNat = 1 ↔ env.logIndex.toNat = 0)
  parses : env.logIndex.toNat < sizes.length → ∀ i, env.logIndex.toNat ≤ i →
    i + 1 < min (env.logIndex.toNat + env.logsCount.toNat) sizes.length →
      parseLog (logOfPeb pebId sizes i) = .ok ()

end

section

variable {dev : Buf} {env : PebDumpEnvironment} {pebId offset size logSize i count : Nat} {sizes : List Nat}
  {parseLog : ShownLog → Mkfs Unit} {shown : List ShownLog} {r : LogRound}

theorem isPassed_iff_lt : isPassed env i = true ↔ i < firstLog env := by
  rw [isPassed_iff]
  unfold firstLog
  split <;> omega

theorem isSsdfsMagicValid_of_hasMagic {key : UInt16} {hdr : Bytes} (h : hasMagic key hdr = true) :
    isSsdfsMagicValid hdr = true := by
  have hmagic : peek hdr 4 0 = superMagic.toNat := (of_decide_eq_true h).1
  exact decide_eq_true hmagic

theorem FooterRecords.read {hdr : Bytes} (h : FooterRecords dev env pebId hdr size) :
    readFooterLogBytes dev env pebId hdr logSize = .ok size := by
  obtain ⟨hvalid, area, hread, hrecords⟩ := h
  unfold readFooterLogBytes
  simp only
  rw [if_pos hvalid, hread]
  split at hrecords
  case isTrue hpartial =>
    obtain ⟨hwide, rfl⟩ := hrecords
    rw [if_pos hpartial, Checked.ok_bind, fieldInArea, if_pos hwide]
    rfl
  case isFalse hpartial =>
    obtain ⟨hfooter, hwide, rfl⟩ := hrecords
    rw [if_neg hpartial, if_pos hfooter, Checked.ok_bind, fieldInArea, if_pos hwide]
    rfl

theorem LogRecords.read (h : LogRecords dev env pebId r.logOffset size) : ∃ hdr,
    readLogBytes dev env pebId r = .ok (hdr, size) ∧
      (isSsdfsSegmentHeader hdr ∨ isSsdfsPartialLogHeader hdr) := by
  obtain ⟨hdr, hread, hcase⟩ := h
  refine ⟨hdr, ?_, hcase.imp And.left And.left⟩
  unfold readLogBytes
  rw [hread, Checked.ok_bind]
  by_cases hseg : isSsdfsSegmentHeader hdr = true
  · rw [if_pos (isSsdfsMagicValid_of_hasMagic hseg), if_pos hseg]
    obtain ⟨-, hfooter⟩ | ⟨hpart, -⟩ := hcase
    · rw [hfooter.read]
      rfl
    · have hkey := (of_decide_eq_true hseg).2.symm.trans (of_decide_eq_true hpart).2
      exact absurd hkey (by decide)
  · obtain ⟨hseg', -⟩ | ⟨hpart, rfl⟩ := hcase
    · exact absurd hseg' hseg
    · rw [if_pos (isSsdfsMagicValid_of_hasMagic hpart), if_neg hseg, if_pos hpart]

theorem PebOfLogs.pebSize_le (h : PebOfLogs dev env pebId sizes) : env.pebSize.toNat ≤ 2147483648 := by
  obtain ⟨bits, hbits⟩ := h.pebSize
  have hlt := env.pebSize.toNat_lt
  rw [hbits] at hlt ⊢
  exact Nat.pow_le_pow_right (by decide) (Nat.le_of_lt_succ ((Nat.pow_lt_pow_iff_right (by decide)).1 hlt))

theorem PebOfLogs.next (h : PebOfLogs dev env pebId sizes) (hi : i < sizes.length) :
    (sizes.take i).sum + sizes[i] = (sizes.take (i + 1)).sum ∧
      (sizes.take (i + 1)).sum ≤ env.pebSize.toNat ∧ logHeaderSize ≤ sizes[i] := by
  have hsplit := List.sum_take_add_sum_drop sizes (i + 1)
  have hfits := h.fits
  exact ⟨(List.sum_take_succ _ _ hi).symm, by omega, h.room _ (List.getElem_mem hi)⟩

/-- Every log has its header, so that the logs do not outnumber an `int`. -/
theorem PebOfLogs.length_lt (h : PebOfLogs dev env pebId sizes) : sizes.length < 2147483648 := by
  have hsum : sizes.length * logHeaderSize ≤ sizes.sum := List.card_nsmul_le_sum sizes _ h.room
  have hfits := h.fits
  have hle := h.pebSize_le
  unfold logHeaderSize at hsum
  omega

theorem logRound_empty {next : Round LogRound Nat} (hnone : ∀ hdr,
      readSegmentHeader (deviceRead dev) pebId env.pebSize.toNat r.logOffset = .ok hdr →
        isSsdfsMagicValid hdr = false)
    (h : logRound dev env pebId parseLog r = .ok (shown, next)) : shown = [] ∧ ∀ r', next = .again r' →
      r'.logOffset = Word.u32 (r.logOffset + r.logSize) ∧ r'.logSize = r.logSize ∧
        r.logOffset < env.pebSize.toNat := by
  have hread : ∀ hdr logSize, readLogBytes dev env pebId r = .ok (hdr, logSize) →
      isSsdfsMagicValid hdr = false ∧ logSize = r.logSize := by
    intro hdr logSize hread
    obtain ⟨hdr', hhdr, hread⟩ := Checked.bind_eq_ok.1 hread
    rw [if_neg (by rw [hnone hdr' hhdr]; decide)] at hread
    split at hread
    · cases hread
    · cases hread
      exact ⟨hnone _ hhdr, rfl⟩
  cases logRound_goes h with
  | stops => exact ⟨rfl, nofun⟩
  | passes hpassed _ hroom =>
    refine ⟨rfl, fun r' heq => ?_⟩
    cases heq
    obtain ⟨-, rfl⟩ := hread _ _ hpassed
    exact ⟨rfl, rfl, hroom⟩
  | fails hlog _ _ hhdr | shows hlog _ _ hhdr =>
    have hmagic := hhdr.elim isSsdfsMagicValid_of_hasMagic isSsdfsMagicValid_of_hasMagic
    exact absurd ((hread _ _ hlog).1.symm.trans hmagic) (by decide)

/-- Behind the logs nothing is shown, with whatever size the walk goes on: the size of the last log does
not carry the offset around, and without a log there is nothing to come to. -/
theorem PebOfLogs.showLogs_rest (h : PebOfLogs dev env pebId sizes)
    (hplace : sizes.sum = 0 ∨ sizes.sum ≤ r.logOffset ∧ r.logSize ≤ env.pebSize.toNat)
    (hshow : showLogs dev env pebId parseLog count r = .ok (shown, logSize)) : shown = [] := by
  induction count generalizing r shown logSize with
  | zero =>
    cases hshow
    rfl
  | succ count ih =>
    by_cases hroom : r.logOffset < env.pebSize.toNat
    · obtain ⟨⟨shown', next⟩, hround, hrest⟩ := Checked.bind_eq_ok.1 hshow
      obtain ⟨rfl, hnext⟩ := logRound_empty (fun hdr hread => h.rest _ hdr (by omega) hroom hread) hround
      cases next with
      | leave s =>
        cases hrest
        rfl
      | again r' =>
        obtain ⟨hoffset, hsize, -⟩ := hnext r' rfl
        obtain ⟨⟨logs, s⟩, hlogs, hrest⟩ := Checked.bind_eq_ok.1 hrest
        cases hrest
        refine ih (hplace.imp_right fun hp => ?_) hlogs
        have hle := h.pebSize_le
        rw [hoffset, hsize, Word.u32_of_lt (by omega)]
        exact ⟨by omega, hp.2⟩
    · have hend : logRound dev env pebId parseLog r = .ok ([], .leave r.logSize) := if_pos (Nat.not_lt.1 hroom)
      rw [showLogs_leave hend] at hshow
      cases hshow
      rfl

theorem PebOfLogs.logRound_eq (h : PebOfLogs dev env pebId sizes) (hi : i < sizes.length) :
    logRound dev env pebId parseLog ⟨i, (sizes.take i).sum, logSize⟩ =
      if i < firstLog env then .ok ([], .again ⟨i + 1, (sizes.take (i + 1)).sum, sizes[i]⟩)
      else
        match parseLog (logOfPeb pebId sizes i) with
        | .error (.code _) => .ok ([logOfPeb pebId sizes i], .leave sizes[i])
        | .error e => .error e
        | .ok () =>
          .ok ([logOfPeb pebId sizes i], .again ⟨i + 1, (sizes.take (i + 1)).sum, sizes[i]⟩) := by
  obtain ⟨hnext, hfits, hroom⟩ := h.next hi
  obtain ⟨hdr, hread, hhdr⟩ := @LogRecords.read _ _ _ _ ⟨i, (sizes.take i).sum, logSize⟩ (h.logs i hi)
  have hlength := h.length_lt
  have hle := h.pebSize_le
  have hinside : ¬(sizes.take i).sum ≥ env.pebSize.toNat := by
    unfold logHeaderSize at hroom
    omega
  have hgo : nextLog ⟨i, (sizes.take i).sum, logSize⟩ sizes[i] =
      .ok (.again ⟨i + 1, (sizes.take (i + 1)).sum, sizes[i]⟩) := by
    apply nextLog_eq_ok.2
    refine ⟨by simp only; omega, ?_⟩
    simp only
    rw [hnext, Word.u32_of_lt (by omega)]
  unfold logRound
  rw [if_neg hinside, hread]
  simp only
  rw [hgo]
  by_cases hpassed : i < firstLog env
  · rw [if_pos hpassed, if_pos (isPassed_iff_lt.2 hpassed)]
    rfl
  · rw [if_neg hpassed, if_neg fun hp => hpassed (isPassed_iff_lt.1 hp), if_pos hhdr]
    rfl

/-- The logs that are shown from log `i` on: induction over the rounds that are left. -/
theorem PebOfLogs.showLogs_eq (h : PebOfLogs dev env pebId sizes) (hi : i ≤ sizes.length)
    (hsize : sizes.sum = 0 ∨ i = 0 ∨ logSize ≤ env.pebSize.toNat) {left : Nat}
    (hshow : showLogs dev env pebId parseLog (maxLogs env - i) ⟨i, (sizes.take i).sum, logSize⟩ =
      .ok (shown, left)) :
    shown = upTo (fun log => !(parseLog log).isOk) ((List.range' (max i (firstLog env))
      (min (maxLogs env) sizes.length - max i (firstLog env))).map (logOfPeb pebId sizes)) := by
  generalize hcount : maxLogs env - i = n at hshow
  induction n generalizing i logSize shown left with
  | zero =>
    have hnone : min (maxLogs env) sizes.length - max i (firstLog env) = 0 := by omega
    cases hshow
    rw [hnone]
    rfl
  | succ n ih =>
    obtain hend | hlt := Nat.eq_or_lt_of_le hi
    · subst hend
      have hnone : min (maxLogs env) sizes.length - max sizes.length (firstLog env) = 0 := by omega
      rw [hnone]
      refine h.showLogs_rest ?_ hshow
      simp only [List.take_length]
      obtain hzero | hzero | hle := hsize
      · exact .inl hzero
      · exact .inl (by rw [List.length_eq_zero_iff.1 hzero]; rfl)
      · exact .inr ⟨Nat.le_refl _, hle⟩
    · obtain ⟨hnext, hfits, hroom⟩ := h.next hlt
      have hround := @logRound_eq _ _ _ logSize _ _ parseLog h hlt
      by_cases hpassed : i < firstLog env
      · rw [if_pos hpassed] at hround
        rw [showLogs_again hround] at hshow
        obtain ⟨⟨logs, s⟩, hlogs, heq⟩ := Checked.exists_of_map hshow
        cases heq
        have hrest := ih hlt (.inr (.inr (by omega))) (by omega) hlogs
        rw [List.nil_append, hrest, Nat.max_eq_right hpassed, Nat.max_eq_right (Nat.le_of_lt hpassed)]
      · rw [if_neg hpassed] at hround
        have hhead : min (maxLogs env) sizes.length - max i (firstLog env) =
            min (maxLogs env) sizes.length - max (i + 1) (firstLog env) + 1 := by omega
        have hfirst : max i (firstLog env) = i := by omega
        have hfirst' : max (i + 1) (firstLog env) = i + 1 := by omega
        rw [hhead, hfirst, hfirst', List.range'_succ, List.map_cons]
        unfold upTo
        match hparse : parseLog (logOfPeb pebId sizes i) with
        | .error f =>
          rw [hparse] at hround
          cases f with
          | code e =>
            rw [showLogs_leave hround] at hshow
            cases hshow
            rfl
          | _ =>
            unfold showLogs at hshow
            rw [hround] at hshow
            cases hshow
        | .ok () =>
          rw [hparse] at hround
          rw [showLogs_again hround] at hshow
          obtain ⟨⟨logs, s⟩, hlogs, heq⟩ := Checked.exists_of_map hshow
          cases heq
          have hrest := ih hlt (.inr (.inr (by omega))) (by omega) hlogs
          rw [hfirst'] at hrest
          rw [hrest]
          rfl

theorem map_logOfPeb_nil {lo n : Nat} : (List.range' lo n).map (logOfPeb pebId sizes) = [] ↔ n = 0 := by
  rw [List.map_eq_nil_iff, List.range'_eq_nil_iff]

theorem upTo_eq_requestedLogs (hlength : sizes.length < 2147483648)
    (hlog : env.logIndex.toNat ≠ Word.u32Max) :
    upTo (fun log => !(parseLog log).isOk) ((List.range' (firstLog env)
        (min (maxLogs env) sizes.length - firstLog env)).map (logOfPeb pebId sizes)) =
      requestedLogs env pebId sizes ↔ CanShow env pebId parseLog sizes := by
  have hindex := env.logIndex.toNat_lt
  have hcount := env.logsCount.toNat_lt
  by_cases hbehind : sizes.length ≤ env.logIndex.toNat
  · have hnone : requestedLogs env pebId sizes = [] := map_logOfPeb_nil.2 (by omega)
    rw [hnone, upTo_eq_nil, map_logOfPeb_nil]
    constructor
    · intro h
      refine ⟨fun _ => ?_, fun hlt => absurd hbehind (Nat.not_le.2 hlt),
        fun hlt => absurd hbehind (Nat.not_le.2 hlt)⟩
      rw [← List.length_eq_zero_iff]
      unfold firstLog at h
      split at h <;> omega
    · intro h
      have hcase := h.behind hbehind
      rw [← List.length_eq_zero_iff] at hcase
      unfold firstLog
      split <;> omega
  · replace hbehind := Nat.not_le.1 hbehind
    have hfirst : firstLog env = env.logIndex.toNat := if_pos (by omega)
    have hinside : CanShow env pebId parseLog sizes ↔
        (if env.showAllLogs then env.logIndex.toNat + env.logsCount.toNat < 4294967296
          else (env.logsCount.toNat = 1 ↔ env.logIndex.toNat = 0)) ∧ ∀ i, env.logIndex.toNat ≤ i →
          i + 1 < min (env.logIndex.toNat + env.logsCount.toNat) sizes.length →
            parseLog (logOfPeb pebId sizes i) = .ok () :=
      ⟨fun h => ⟨h.inside hbehind, h.parses hbehind⟩,
        fun h => ⟨fun hle => absurd hbehind (Nat.not_lt.2 hle), fun _ => h.1, fun _ => h.2⟩⟩
    rw [hinside, hfirst]
    unfold requestedLogs maxLogs
    cases hall : env.showAllLogs with
    | true =>
      simp only [if_true]
      by_cases hwide : env.logIndex.toNat + env.logsCount.toNat < 4294967296
      · rw [Word.u32_of_lt hwide, upTo_eq_self, and_iff_right hwide, ← List.map_dropLast,
          List.forall_mem_map]
        -- all logs but the last one that is asked for
        have hdrop : ∀ i, i ∈ (List.range' env.logIndex.toNat
            (min (env.logIndex.toNat + env.logsCount.toNat) sizes.length - env.logIndex.toNat)).dropLast ↔
            env.logIndex.toNat ≤ i ∧
              i + 1 < min (env.logIndex.toNat + env.logsCount.toNat) sizes.length := fun i => by
          rw [List.dropLast_eq_take, List.length_range', List.take_range'_of_length_ge (Nat.sub_le _ _),
            List.mem_range'_1]
          omega
        constructor
        · intro h i hge hlt
          have hok := h i ((hdrop i).2 ⟨hge, hlt⟩)
          match hparse : parseLog (logOfPeb pebId sizes i) with
          | .error f =>
            rw [hparse] at hok
            cases hok
          | .ok () => rfl
        · intro h i hi
          obtain ⟨hge, hlt⟩ := (hdrop i).1 hi
          rw [h i hge hlt]
          rfl
      · refine iff_of_false (fun h => ?_) fun h => hwide h.1
        have hover : min (Word.u32 (env.logIndex.toNat + env.logsCount.toNat)) sizes.length -
            env.logIndex.toNat = 0 := by
          unfold Word.u32
          omega
        rw [hover] at h
        have hnone := map_logOfPeb_nil.1 h.symm
        omega
    | false =>
      have hsingle := env.single hall
      simp only [Bool.false_eq_true, if_false]
      by_cases hzero : env.logIndex.toNat = 0
      · have hone : min 1 sizes.length - env.logIndex.toNat = 1 := by omega
        rw [hone, hzero]
        by_cases hasked : env.logsCount.toNat = 1
        · have hone' : min (0 + 1) sizes.length - 0 = 1 := by omega
          rw [hasked, hone']
          refine iff_of_true (congrArg (_ :: ·) (ite_self _)) ⟨iff_of_true rfl rfl, fun i _ hlt => ?_⟩
          omega
        · have hnone : min (0 + env.logsCount.toNat) sizes.length - 0 = 0 := by omega
          rw [hnone]
          exact iff_of_false (List.cons_ne_nil _ _) fun h => hasked (h.1.2 rfl)
      · have hnone : min 1 sizes.length - env.logIndex.toNat = 0 := by omega
        rw [hnone]
        constructor
        · intro h
          have hempty := map_logOfPeb_nil.1 h.symm
          refine ⟨iff_of_false (by omega) hzero, fun i hge hlt => ?_⟩
          omega
        · intro h
          apply Eq.symm
          apply map_logOfPeb_nil.2
          have hnot := mt h.1.1 hzero
          omega

end

section

variable {volume : OpenedDevice} {env : PebDumpEnvironment} {parseLog : ShownLog → Mkfs Unit}
  {pebId p logSize left : Nat} {shown logs : List ShownLog} {r : LogRound}

/-- The PEBs that are asked for, as far as the volume has them. -/
def InRange (volume : OpenedDevice) (env : PebDumpEnvironment) (pebId : Nat) : Prop :=
  env.id.toNat ≤ pebId ∧ pebId < env.id.toNat + env.pebsCount.toNat ∧ OnVolume volume env pebId

theorem showLogs_inside {count : Nat}
    (h : showLogs volume.dev env pebId parseLog count r = .ok (shown, logSize)) :
    ∀ log ∈ shown, log.pebId = pebId ∧ log.logOffset < env.pebSize.toNat := by
  induction count generalizing r shown logSize with
  | zero =>
    cases h
    exact nofun
  | succ count ih =>
    obtain ⟨⟨shown', next⟩, hround, h⟩ := Checked.bind_eq_ok.1 h
    have hown : ∀ log ∈ shown', log.pebId = pebId ∧ log.logOffset < env.pebSize.toNat := by
      intro log hlog
      obtain ⟨rfl, hroom⟩ := (logRound_goes hround).eq_log hlog
      exact ⟨rfl, hroom⟩
    cases next with
    | leave s =>
      cases h
      exact hown
    | again r' =>
      obtain ⟨⟨rest, s⟩, hrest, h⟩ := Checked.bind_eq_ok.1 h
      cases h
      exact List.forall_mem_append.2 ⟨hown, ih hrest⟩

theorem showPebs_inside {count : Nat}
    (h : showPebs volume env parseLog count pebId logSize = .ok logs) :
    ∀ log ∈ logs, pebId ≤ log.pebId ∧ log.logOffset < env.pebSize.toNat := by
  induction count generalizing pebId logSize logs with
  | zero =>
    cases h
    exact nofun
  | succ count ih =>
    obtain ⟨pebs, hpebs, h⟩ := Checked.bind_eq_ok.1 h
    obtain ⟨-, rfl⟩ := Checked.quot_eq_ok.1 hpebs
    split at h
    case isFalse =>
      cases h
      exact nofun
    case isTrue hvolume =>
      obtain ⟨⟨shown, s⟩, hshown, h⟩ := Checked.bind_eq_ok.1 h
      obtain ⟨rest, hrest, h⟩ := Checked.bind_eq_ok.1 h
      cases h
      rw [OnVolume.succ_eq hvolume] at hrest
      refine List.forall_mem_append.2 ⟨?_, ?_⟩
      · intro log hlog
        obtain ⟨rfl, hroom⟩ := showLogs_inside hshown log hlog
        exact ⟨Nat.le_refl _, hroom⟩
      · intro log hlog
        obtain ⟨hge, hroom⟩ := ih hrest log hlog
        exact ⟨Nat.le_of_succ_le hge, hroom⟩

theorem showPebs_peb {count : Nat} (h : showPebs volume env parseLog count pebId logSize = .ok logs)
    (hge : pebId ≤ p) (hlt : p < pebId + count) (hvolume : OnVolume volume env p) : ∃ s s',
      showLogs volume.dev env p parseLog (maxLogs env) ⟨0, 0, s⟩ =
        .ok (logs.filter (fun log => log.pebId = p), s') := by
  induction count generalizing pebId logSize logs with
  | zero => omega
  | succ count ih =>
    have hfirst : OnVolume volume env pebId := Nat.lt_of_le_of_lt hge hvolume
    have hsucc := hfirst.succ_eq
    unfold showPebs at h
    rw [Checked.quot_of_ne hfirst.pebSize_ne, Checked.ok_bind, hsucc] at h
    unfold OnVolume at hfirst
    rw [if_pos hfirst] at h
    obtain ⟨⟨shown, s⟩, hshown, h⟩ := Checked.bind_eq_ok.1 h
    obtain ⟨rest, hrest, h⟩ := Checked.bind_eq_ok.1 h
    cases h
    have hown := showLogs_inside hshown
    have hlater := showPebs_inside hrest
    rw [List.filter_append]
    obtain rfl | hne := Nat.eq_or_lt_of_le hge
    · have hall : shown.filter (fun log => log.pebId = pebId) = shown :=
        List.filter_eq_self.2 fun log hlog => decide_eq_true (hown log hlog).1
      have hnone : rest.filter (fun log => log.pebId = pebId) = [] :=
        List.filter_eq_nil_iff.2 fun log hlog hpeb => by
          have hle := (hlater log hlog).1
          have heq := of_decide_eq_true hpeb
          omega
      rw [hall, hnone, List.append_nil]
      exact ⟨logSize, s, hshown⟩
    · have hnone : shown.filter (fun log => log.pebId = p) = [] :=
        List.filter_eq_nil_iff.2 fun log hlog hpeb => by
          have heq := (hown log hlog).1
          have heq' := of_decide_eq_true hpeb
          omega
      rw [hnone, List.nil_append]
      exact ih hrest hne (by omega)

/-- Every log is shown once, at rising offsets inside its PEB, and of a PEB that is made of logs exactly
those are shown that are asked for. -/
def WalksLogs (volume : OpenedDevice) (env : PebDumpEnvironment) (parseLog : ShownLog → Mkfs Unit) :
    Prop :=
  ∃ logs, showPebDump volume env parseLog = .ok logs ∧ logs.Pairwise ShownLog.Before ∧
    (∀ log ∈ logs, log.logOffset < env.pebSize.toNat) ∧ ∀ pebId sizes, InRange volume env pebId →
      PebOfLogs volume.dev env pebId sizes →
        logs.filter (fun log => log.pebId = pebId) = requestedLogs env pebId sizes

instance : Trans ShownLog.Before ShownLog.Before ShownLog.Before where
  trans h h' := by
    unfold ShownLog.Before at *
    omega

theorem PebOfLogs.eq_nil_of_refused {sizes : List Nat} {e : Errno} (h : PebOfLogs volume.dev env p sizes)
    (hrange : InRange volume env p)
    (hrefused : readSegmentHeader (deviceRead volume.dev) env.id.toNat env.pebSize.toNat 0 = fail e) :
    sizes = [] := by
  obtain ⟨hge, -, hvolume⟩ := hrange
  by_contra hne
  obtain ⟨size, hsize⟩ := List.exists_mem_of_ne_nil sizes hne
  have hroom := h.room size hsize
  have hsum := List.single_le_sum (fun _ _ => Nat.zero_le _) size hsize
  have hfits := h.fits
  have hplace : env.id.toNat * env.pebSize.toNat + env.pebSize.toNat ≤ volume.dev.size := by
    rw [← Nat.succ_mul, volume.size_eq]
    exact Nat.le_trans (Nat.mul_le_mul_right _ (Nat.lt_of_le_of_lt hge hvolume))
      (Nat.div_mul_le_self _ _)
  have hlimit := volume.fsSize.toNat_lt
  have hdev := volume.size_eq
  unfold logHeaderSize at hroom
  have hok : ∀ offset, (offset + logHeaderSize ≤ volume.dev.size ∨
      offset + logHeaderSize < 9223372036854775808) →
        deviceRead volume.dev offset logHeaderSize ≠ fail e := by
    intro offset hoffset
    unfold deviceRead
    split
    · exact nofun
    · rename_i hout
      rw [if_pos (hoffset.resolve_left fun hin => hout (.inr hin))]
      exact nofun
  unfold readSegmentHeader at hrefused
  simp only at hrefused
  split at hrefused
  · rw [if_pos trivial] at hrefused
    exact hok _ (.inr (by decide)) hrefused
  · rw [Nat.add_zero, @Word.u64_of_lt (env.id.toNat * env.pebSize.toNat) (by omega),
      Word.u64_of_lt (by omega)] at hrefused
    exact hok _ (.inl (by unfold logHeaderSize; omega)) hrefused

theorem PebOfLogs.not_started {sizes : List Nat} (h : PebOfLogs volume.dev env p sizes)
    (hrange : InRange volume env p) (hnot : ¬DumpStarted volume env)
    (hread : env.id.toNat ≠ Word.u64Max →
      Checked.Returns (readSegmentHeader (deviceRead volume.dev) env.id.toNat env.pebSize.toNat 0)) :
    requestedLogs env p sizes = [] ∧ CanShow env p parseLog sizes := by
  have hlength := h.length_lt
  have hbehind : sizes.length ≤ env.logIndex.toNat ∧
      (env.logIndex.toNat = Word.u32Max ∨ sizes = []) := by
    by_cases hlog : env.logIndex.toNat = Word.u32Max
    · exact ⟨by rw [hlog]; unfold Word.u32Max; omega, .inl hlog⟩
    · have hpeb : env.id.toNat ≠ Word.u64Max := fun hpeb => by
        obtain ⟨hge, -, hvolume⟩ := hrange
        have hle := Nat.div_le_self volume.fsSize.toNat env.pebSize.toNat
        have hlimit := volume.fsSize.toNat_lt
        unfold OnVolume at hvolume
        rw [hpeb] at hge
        unfold Word.u64Max at hge
        omega
      match hhdr : readSegmentHeader (deviceRead volume.dev) env.id.toNat env.pebSize.toNat 0 with
      | .ok hdr => exact absurd ⟨hpeb, hlog, hdr, hhdr⟩ hnot
      | .error f =>
        obtain ⟨e, rfl⟩ := hread hpeb f hhdr
        have hnil := h.eq_nil_of_refused hrange hhdr
        exact ⟨hnil ▸ Nat.zero_le _, .inr hnil⟩
  obtain ⟨hle, hcase⟩ := hbehind
  refine ⟨map_logOfPeb_nil.2 (by omega), fun _ => .inr (hcase.imp_right .inr),
    fun hlt => absurd hle (Nat.not_le.2 hlt), fun hlt => absurd hle (Nat.not_le.2 hlt)⟩

end

/-- A partial header that records 2048 bytes. -/
def partialHeaderBytes : List UInt8 :=
  [0x66, 0x44, 0x73, 0x53, 0x48, 0x50] ++ List.replicate 34 0 ++ [0, 8, 0, 0]

def twoLogPebs : OpenedDevice := ⟨⟨8192, fun i => partialHeaderBytes.getD (i % 2048) 0⟩, 8192, rfl⟩

def secondLog : PebDumpEnvironment := ⟨1, 1, 4096, false, 1, 1, 0xFFFFFFFF, fun _ => Nat.le_refl 1⟩

theorem twoLogPebs_header {place : Nat} (h : place + 2048 ≤ 8192) :
    deviceRead twoLogPebs.dev place logHeaderSize =
      .ok fun i => partialHeaderBytes.getD ((place + i) % 2048) 0 :=
  @deviceRead_inside twoLogPebs.dev place logHeaderSize h

theorem twoLogPebs_first : LogRecords twoLogPebs.dev secondLog 1 0 2048 :=
  ⟨_, @twoLogPebs_header 4096 (by decide), .inr ⟨by decide +kernel, by decide +kernel⟩⟩

theorem twoLogPebs_second : LogRecords twoLogPebs.dev secondLog 1 2048 2048 :=
  ⟨_, @twoLogPebs_header 6144 (by decide), .inr ⟨by decide +kernel, by decide +kernel⟩⟩

theorem twoLogPebs_logs : PebOfLogs twoLogPebs.dev secondLog 1 [2048, 2048] where
  pebSize := ⟨12, rfl⟩
  room := by decide
  fits := by decide
  logs i h :=
    match i, h with
    | 0, _ => twoLogPebs_first
    | 1, _ => twoLogPebs_second
  rest offset hdr hge hlt := absurd (Nat.lt_of_lt_of_le hlt hge) (Nat.lt_irrefl _)

end Ssdfs
