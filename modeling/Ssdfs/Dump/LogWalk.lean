import Ssdfs.Dump.RawDump
import Ssdfs.Lib.Report

/-! The walk of `dump.ssdfs` over the logs of a range of PEBs. -/

namespace Ssdfs

open Memory

def paddingHdrMagic : UInt16 := 0x5044

def isSsdfsPaddingHeader (hdr : Bytes) : Bool := hasMagic paddingHdrMagic hdr
def isSsdfsMagicValid (hdr : Bytes) : Bool := peek hdr 4 0 = superMagic.toNat

structure PebDumpEnvironment where
  id : UInt64
  pebsCount : UInt64
  pebSize : UInt32
  showAllLogs : Bool
  logIndex : UInt32
  logsCount : UInt32
  logSize : UInt32
  single : showAllLogs = false → logsCount.toNat ≤ 1

structure ShownLog where
  pebId : Nat
  logIndex : Nat
  logOffset : Nat
  deriving Repr, DecidableEq

structure LogRound where
  logIndex : Nat
  logOffset : Nat
  logSize : Nat

def isAreaValid (areaOffset areaSize : Nat) : Bool :=
  areaSize ≠ 0 ∧ areaSize < Word.u32Max ∧ areaOffset ≠ 0 ∧ areaOffset < Word.u32Max

/-- The four bytes of a field in a buffer of `areaSize` bytes. -/
def fieldInArea (areaBuf : Bytes) (areaSize field : Nat) : Mkfs Nat :=
  if field + 4 ≤ areaSize then .ok (peek areaBuf 4 field) else .error .stray

section

variable (dev : Buf) (env : PebDumpEnvironment) (pebId : Nat)

def readFooterLogBytes (hdr : Bytes) (logSize : Nat) : Mkfs Nat :=
  let areaOffset := SegHdr.footerOffset hdr
  let areaSize := SegHdr.footerSize hdr
  let segFlags := SegHdr.segFlags hdr
  let place := Word.u64 (Word.u64 (pebId * env.pebSize.toNat) + areaOffset)
  if isAreaValid areaOffset areaSize then
    if segFlags.testBit plhInsteadFooterBit then do
      let areaBuf ← deviceRead dev place areaSize
      fieldInArea areaBuf areaSize 0x28
    else if segFlags.testBit logHasFooterBit then do
      let areaBuf ← deviceRead dev place areaSize
      fieldInArea areaBuf areaSize 0x410
    else fail .eio
  else .ok logSize

/-- The header of a log, and its size; without a header the size stays as it is. -/
def readLogBytes (r : LogRound) : Mkfs (Bytes × Nat) := do
  let hdr ← readSegmentHeader (deviceRead dev) pebId env.pebSize.toNat r.logOffset
  if isSsdfsMagicValid hdr then
    if isSsdfsSegmentHeader hdr then do
      let logSize ← readFooterLogBytes dev env pebId hdr r.logSize
      .ok (hdr, logSize)
    else if isSsdfsPartialLogHeader hdr then .ok (hdr, PlHdr.logBytes hdr)
    else if isSsdfsPaddingHeader hdr then fail .enodata
    else fail .eio
  else if r.logSize = Word.u32Max then fail .einval
  else .ok (hdr, r.logSize)

def maxLogs : Nat :=
  if env.showAllLogs then Word.u32 (env.logIndex.toNat + env.logsCount.toNat) else 1

/-- The log is in front of the first one that is asked for. Both numbers are an `int`, so that an index
from 2^31 on is negative. -/
def isPassed (logIndex : Nat) : Bool := env.logIndex.toNat < 2147483648 ∧ logIndex < env.logIndex.toNat

/-- The offset goes on by the size of the log; the counter of the logs is an `int`. -/
def nextLog (r : LogRound) (logSize : Nat) : Mkfs (Round LogRound Nat) :=
  if r.logIndex + 1 < 2147483648 then
    .ok (.again ⟨r.logIndex + 1, Word.u32 (r.logOffset + logSize), logSize⟩)
  else .error .trap

variable (parseLog : ShownLog → Mkfs Unit)

/-- A round shows a log or none. `parseLog` is what the parsers of the log come to; behind an error that
they report the next PEB is tried. -/
def logRound (r : LogRound) : Mkfs (List ShownLog × Round LogRound Nat) :=
  if r.logOffset ≥ env.pebSize.toNat then .ok ([], .leave r.logSize)
  else
    match readLogBytes dev env pebId r with
    | .error (.code _) => .ok ([], .leave r.logSize)
    | .error e => .error e
    | .ok (hdr, logSize) =>
      if isPassed env r.logIndex then do
        let next ← nextLog r logSize
        .ok ([], next)
      else if isSsdfsSegmentHeader hdr ∨ isSsdfsPartialLogHeader hdr then
        let log := ⟨pebId, r.logIndex, r.logOffset⟩
        match parseLog log with
        | .error (.code _) => .ok ([log], .leave logSize)
        | .error e => .error e
        | .ok () => do
          let next ← nextLog r logSize
          .ok ([log], next)
      else .ok ([], .leave logSize)

/-- At most `count` rounds in a PEB, and the size that is left for the next one. -/
def showLogs : Nat → LogRound → Mkfs (List ShownLog × Nat)
  | 0, r => .ok ([], r.logSize)
  | count + 1, r => do
    let (shown, next) ← logRound dev env pebId parseLog r
    match next with
    | .leave logSize => .ok (shown, logSize)
    | .again r => do
      let (logs, logSize) ← showLogs count r
      .ok (shown ++ logs, logSize)

end

/-- The logs of `count` PEBs from `pebId` on. -/
def showPebs (volume : OpenedDevice) (env : PebDumpEnvironment) (parseLog : ShownLog → Mkfs Unit) :
    Nat → Nat → Nat → Mkfs (List ShownLog)
  | 0, _, _ => .ok []
  | count + 1, pebId, logSize => do
    let pebs ← Checked.quot Errno volume.fsSize.toNat env.pebSize.toNat
    if pebId < pebs then do
      let (shown, logSize) ← showLogs volume.dev env pebId parseLog (maxLogs env) ⟨0, 0, logSize⟩
      let logs ← showPebs volume env parseLog count (Word.u64 (pebId + 1)) logSize
      .ok (shown ++ logs)
    else .ok []

/-- Nothing is shown where the PEB or the log is not given, or the header of the PEB is refused. -/
def showPebDump (volume : OpenedDevice) (env : PebDumpEnvironment)
    (parseLog : ShownLog → Mkfs Unit) : Mkfs (List ShownLog) :=
  if env.id.toNat = Word.u64Max then .ok []
  else
    match readSegmentHeader (deviceRead volume.dev) env.id.toNat env.pebSize.toNat 0 with
    | .error (.code _) => .ok []
    | .error e => .error e
    | .ok _ =>
      if env.logIndex.toNat = Word.u32Max then .ok []
      else showPebs volume env parseLog env.pebsCount.toNat env.id.toNat env.logSize.toNat

def ShownLog.Before (a b : ShownLog) : Prop :=
  a.pebId < b.pebId ∨ a.pebId = b.pebId ∧ a.logOffset < b.logOffset

section

variable {dev : Buf} {env : PebDumpEnvironment} {pebId : Nat} {parseLog : ShownLog → Mkfs Unit}
  {r : LogRound} {logSize : Nat} {shown : List ShownLog} {next : Round LogRound Nat}

theorem nextLog_eq_ok : nextLog r logSize = .ok next ↔ r.logIndex + 1 < 2147483648 ∧
    next = .again ⟨r.logIndex + 1, Word.u32 (r.logOffset + logSize), logSize⟩ := by
  unfold nextLog
  by_cases h : r.logIndex + 1 < 2147483648
  · rw [if_pos h, and_iff_right h]
    exact ⟨fun heq => (Except.ok.inj heq).symm, fun heq => congrArg Except.ok heq.symm⟩
  · rw [if_neg h]
    exact iff_of_false nofun fun hc => h hc.1

theorem isPassed_iff {i : Nat} : isPassed env i = true ↔
    env.logIndex.toNat < 2147483648 ∧ i < env.logIndex.toNat := decide_eq_true_iff

def LogRound.log (pebId : Nat) (r : LogRound) : ShownLog := ⟨pebId, r.logIndex, r.logOffset⟩

inductive RoundGoes (dev : Buf) (env : PebDumpEnvironment) (pebId : Nat)
    (parseLog : ShownLog → Mkfs Unit) (r : LogRound) :
    List ShownLog → Round LogRound Nat → Prop
  | stops {logSize : Nat} (hsize : logSize = r.logSize ∨
      ∃ hdr, readLogBytes dev env pebId r = .ok (hdr, logSize)) :
      RoundGoes dev env pebId parseLog r [] (.leave logSize)
  | passes {hdr : Bytes} {logSize : Nat} (hread : readLogBytes dev env pebId r = .ok (hdr, logSize))
      (hpassed : isPassed env r.logIndex = true) (hroom : r.logOffset < env.pebSize.toNat)
      (hcount : r.logIndex + 1 < 2147483648) :
      RoundGoes dev env pebId parseLog r []
        (.again ⟨r.logIndex + 1, Word.u32 (r.logOffset + logSize), logSize⟩)
  | fails {hdr : Bytes} {logSize : Nat} (hread : readLogBytes dev env pebId r = .ok (hdr, logSize))
      (hpassed : isPassed env r.logIndex = false) (hroom : r.logOffset < env.pebSize.toNat)
      (hhdr : isSsdfsSegmentHeader hdr ∨ isSsdfsPartialLogHeader hdr)
      (hparse : ∃ e, parseLog (r.log pebId) = fail e) :
      RoundGoes dev env pebId parseLog r [r.log pebId] (.leave logSize)
  | shows {hdr : Bytes} {logSize : Nat} (hread : readLogBytes dev env pebId r = .ok (hdr, logSize))
      (hpassed : isPassed env r.logIndex = false) (hroom : r.logOffset < env.pebSize.toNat)
      (hhdr : isSsdfsSegmentHeader hdr ∨ isSsdfsPartialLogHeader hdr)
      (hparse : parseLog (r.log pebId) = .ok ()) (hcount : r.logIndex + 1 < 2147483648) :
      RoundGoes dev env pebId parseLog r [r.log pebId]
        (.again ⟨r.logIndex + 1, Word.u32 (r.logOffset + logSize), logSize⟩)

theorem logRound_goes (h : logRound dev env pebId parseLog r = .ok (shown, next)) :
    RoundGoes dev env pebId parseLog r shown next := by
  unfold logRound at h
  split at h
  case isTrue =>
    cases h
    exact .stops (.inl rfl)
  case isFalse hroom =>
    replace hroom := Nat.not_le.1 hroom
    split at h
    case h_1 =>
      cases h
      exact .stops (.inl rfl)
    case h_2 => cases h
    case h_3 hdr logSize hread =>
      split at h
      case isTrue hpassed =>
        obtain ⟨next, hnext, h⟩ := Checked.bind_eq_ok.1 h
        obtain ⟨hcount, rfl⟩ := nextLog_eq_ok.1 hnext
        cases h
        exact .passes hread hpassed hroom hcount
      case isFalse hpassed =>
        replace hpassed := Bool.eq_false_of_not_eq_true hpassed
        split at h
        case isFalse =>
          cases h
          exact .stops (.inr ⟨hdr, hread⟩)
        case isTrue hhdr =>
          simp only at h
          split at h
          case h_1 e hparse =>
            cases h
            exact .fails hread hpassed hroom hhdr ⟨e, hparse⟩
          case h_2 => cases h
          case h_3 hparse =>
            obtain ⟨next, hnext, h⟩ := Checked.bind_eq_ok.1 h
            obtain ⟨hcount, rfl⟩ := nextLog_eq_ok.1 hnext
            cases h
            exact .shows hread hpassed hroom hhdr hparse hcount

theorem RoundGoes.eq_log (h : RoundGoes dev env pebId parseLog r shown next) {log : ShownLog}
    (hlog : log ∈ shown) : log = r.log pebId ∧ r.logOffset < env.pebSize.toNat := by
  cases h with
  | stops | passes => cases hlog
  | fails hread hpassed hroom | shows hread hpassed hroom => exact ⟨List.mem_singleton.1 hlog, hroom⟩

theorem RoundGoes.again_index {r' : LogRound} (h : RoundGoes dev env pebId parseLog r shown (.again r')) :
    r'.logIndex = r.logIndex + 1 := by
  cases h <;> rfl

theorem isPassed_succ {i : Nat} (h : isPassed env i = false) : isPassed env (i + 1) = false := by
  apply Bool.eq_false_of_not_eq_true
  intro hnext
  obtain ⟨hpos, hlt⟩ := isPassed_iff.1 hnext
  exact Bool.false_ne_true (h.symm.trans (isPassed_iff.2 ⟨hpos, Nat.lt_of_succ_lt hlt⟩))

theorem showLogs_leave {count : Nat} (h : logRound dev env pebId parseLog r = .ok (shown, .leave logSize)) :
    showLogs dev env pebId parseLog (count + 1) r = .ok (shown, logSize) := by
  unfold showLogs
  rw [h]
  rfl

theorem showLogs_again {count : Nat} {r' : LogRound}
    (h : logRound dev env pebId parseLog r = .ok (shown, .again r')) :
    showLogs dev env pebId parseLog (count + 1) r =
      (showLogs dev env pebId parseLog count r').map fun res => (shown ++ res.1, res.2) := by
  conv => lhs; unfold showLogs
  rw [h, Checked.ok_bind]
  simp only
  cases showLogs dev env pebId parseLog count r' <;> rfl

end

/-! The rounds of a dump. -/

section

variable (volume : OpenedDevice) (env : PebDumpEnvironment) (parseLog : ShownLog → Mkfs Unit)

/-- A PEB and a log are given, and the header of the PEB can be read. -/
structure DumpStarted : Prop where
  peb : env.id.toNat ≠ Word.u64Max
  log : env.logIndex.toNat ≠ Word.u32Max
  header : ∃ hdr, readSegmentHeader (deviceRead volume.dev) env.id.toNat env.pebSize.toNat 0 = .ok hdr

def OnVolume (pebId : Nat) : Prop := pebId < volume.fsSize.toNat / env.pebSize.toNat

inductive PebEnds (pebId : Nat) (r : LogRound) : List ShownLog → Nat → Prop
  | count (h : maxLogs env ≤ r.logIndex) : PebEnds pebId r [] r.logSize
  | leave {shown : List ShownLog} {logSize : Nat} (h : r.logIndex < maxLogs env)
      (hround : logRound volume.dev env pebId parseLog r = .ok (shown, .leave logSize)) :
      PebEnds pebId r shown logSize

/-- The dump comes to a round in a PEB, behind which there are `left` more of them. -/
inductive ComesTo : Nat → Nat → LogRound → Prop
  | first {left : Nat} (hstarted : DumpStarted volume env) (hcount : env.pebsCount.toNat = left + 1)
      (hvolume : OnVolume volume env env.id.toNat) :
      ComesTo left env.id.toNat ⟨0, 0, env.logSize.toNat⟩
  | again {left pebId : Nat} {r r' : LogRound} {shown : List ShownLog} (h : ComesTo left pebId r)
      (hcount : r.logIndex < maxLogs env)
      (hround : logRound volume.dev env pebId parseLog r = .ok (shown, .again r')) :
      ComesTo left pebId r'
  | next {left pebId logSize : Nat} {r : LogRound} {shown : List ShownLog} (h : ComesTo (left + 1) pebId r)
      (hends : PebEnds volume env parseLog pebId r shown logSize)
      (hvolume : OnVolume volume env (pebId + 1)) : ComesTo left (pebId + 1) ⟨0, 0, logSize⟩

def restOfDump (left pebId : Nat) (r : LogRound) : Mkfs (List ShownLog) := do
  let (shown, logSize) ← showLogs volume.dev env pebId parseLog (maxLogs env - r.logIndex) r
  let logs ← showPebs volume env parseLog left (Word.u64 (pebId + 1)) logSize
  .ok (shown ++ logs)

/-- The round reads nothing behind the end of the device and no field behind the end of its footer, the
parsers return, and its counter does not overflow; and a log with another one behind it is followed by
it at a higher offset. -/
structure GoesOn (pebId : Nat) (r : LogRound) : Prop where
  runs : ∃ shown next, logRound volume.dev env pebId parseLog r = .ok (shown, next)
  climbs : ∀ r', logRound volume.dev env pebId parseLog r = .ok ([r.log pebId], .again r') →
    r'.logIndex < maxLogs env →
    (∃ next, logRound volume.dev env pebId parseLog r' = .ok ([r'.log pebId], next)) →
    0 < r'.logSize ∧ r.logOffset + r'.logSize < 4294967296

end

section

variable {volume : OpenedDevice} {env : PebDumpEnvironment} {parseLog : ShownLog → Mkfs Unit}
  {left pebId logSize : Nat} {r r' : LogRound} {shown logs : List ShownLog}

theorem OnVolume.succ_eq (h : OnVolume volume env pebId) : Word.u64 (pebId + 1) = pebId + 1 := by
  have hle := Nat.div_le_self volume.fsSize.toNat env.pebSize.toNat
  have hlt := volume.fsSize.toNat_lt
  unfold OnVolume at h
  exact Word.u64_of_lt (by omega)

theorem OnVolume.pebSize_ne (h : OnVolume volume env pebId) : env.pebSize.toNat ≠ 0 := by
  intro hzero
  unfold OnVolume at h
  rw [hzero, Nat.div_zero] at h
  exact Nat.not_lt_zero _ h

theorem showPebs_succ (h : OnVolume volume env pebId) :
    showPebs volume env parseLog (left + 1) pebId logSize =
      restOfDump volume env parseLog left pebId ⟨0, 0, logSize⟩ := by
  have hne := h.pebSize_ne
  unfold OnVolume at h
  conv => lhs; unfold showPebs
  rw [Checked.quot_of_ne hne, Checked.ok_bind, if_pos h]
  rfl

theorem showPebs_stop (hne : env.pebSize.toNat ≠ 0) (h : ¬OnVolume volume env pebId) :
    showPebs volume env parseLog left pebId logSize = .ok [] := by
  cases left with
  | zero => rfl
  | succ left =>
    unfold OnVolume at h
    unfold showPebs
    rw [Checked.quot_of_ne hne, Checked.ok_bind, if_neg h]

theorem restOfDump_again (hcount : r.logIndex < maxLogs env)
    (hround : logRound volume.dev env pebId parseLog r = .ok (shown, .again r')) :
    restOfDump volume env parseLog left pebId r = .ok logs ↔
      ∃ rest, restOfDump volume env parseLog left pebId r' = .ok rest ∧ logs = shown ++ rest := by
  have hindex := (logRound_goes hround).again_index
  have hrounds : maxLogs env - r.logIndex = maxLogs env - r'.logIndex + 1 := by omega
  unfold restOfDump
  rw [hrounds, showLogs_again hround]
  cases showLogs volume.dev env pebId parseLog (maxLogs env - r'.logIndex) r' with
  | error e => exact iff_of_false nofun fun ⟨_, h, _⟩ => nomatch h
  | ok res =>
    obtain ⟨shown', logSize⟩ := res
    change (showPebs volume env parseLog left (Word.u64 (pebId + 1)) logSize >>= fun logs =>
        .ok (shown ++ shown' ++ logs)) = .ok logs ↔
      ∃ rest, (showPebs volume env parseLog left (Word.u64 (pebId + 1)) logSize >>= fun logs =>
        .ok (shown' ++ logs)) = .ok rest ∧ logs = shown ++ rest
    cases showPebs volume env parseLog left (Word.u64 (pebId + 1)) logSize with
    | error e => exact iff_of_false nofun fun ⟨_, h, _⟩ => nomatch h
    | ok logs' =>
      constructor
      · intro h
        cases h
        exact ⟨_, rfl, List.append_assoc _ _ _⟩
      · rintro ⟨rest, h, rfl⟩
        cases h
        exact congrArg Except.ok (List.append_assoc _ _ _)

theorem restOfDump_ends (hends : PebEnds volume env parseLog pebId r shown logSize) :
    restOfDump volume env parseLog left pebId r = .ok logs ↔
      ∃ rest, showPebs volume env parseLog left (Word.u64 (pebId + 1)) logSize = .ok rest ∧
        logs = shown ++ rest := by
  have hshow : showLogs volume.dev env pebId parseLog (maxLogs env - r.logIndex) r =
      .ok (shown, logSize) := by
    cases hends with
    | count h =>
      rw [Nat.sub_eq_zero_of_le h]
      rfl
    | leave h hround =>
      obtain ⟨k, hk⟩ := Nat.exists_eq_add_of_lt h
      rw [hk, Nat.add_assoc, Nat.add_sub_cancel_left]
      exact showLogs_leave hround
  unfold restOfDump
  rw [hshow, Checked.ok_bind]
  simp only
  rw [Checked.bind_eq_ok]
  constructor
  · rintro ⟨rest, hrest, heq⟩
    exact ⟨rest, hrest, (Except.ok.inj heq).symm⟩
  · rintro ⟨rest, hrest, rfl⟩
    exact ⟨rest, hrest, rfl⟩

/-- The PEBs from `pebId` on are shown, the logs of each of them in their order. -/
structure Ordered (pebId : Nat) (logs : List ShownLog) : Prop where
  before : logs.IsChain ShownLog.Before
  pebs : ∀ log ∈ logs, pebId ≤ log.pebId

theorem Ordered.nil : Ordered pebId [] := ⟨.nil, nofun⟩

theorem Ordered.cons {log : ShownLog} (hlog : log.pebId = pebId) (h : Ordered pebId logs)
    (hhead : ∀ y ∈ logs.head?, log.Before y) : Ordered pebId (log :: logs) where
  before := List.isChain_cons.2 ⟨hhead, h.before⟩
  pebs := List.forall_mem_cons.2 ⟨Nat.le_of_eq hlog.symm, h.pebs⟩

theorem Ordered.mono (h : Ordered (pebId + 1) logs) : Ordered pebId logs :=
  ⟨h.before, fun log hlog => Nat.le_of_succ_le (h.pebs log hlog)⟩

def Begins (volume : OpenedDevice) (env : PebDumpEnvironment) (parseLog : ShownLog → Mkfs Unit)
    (pebId : Nat) (r : LogRound) (logs : List ShownLog) : Prop :=
  isPassed env r.logIndex = false → ∀ y ∈ logs.head?, pebId < y.pebId ∨ r.logIndex < maxLogs env ∧
    ∃ next, logRound volume.dev env pebId parseLog r = .ok ([r.log pebId], next) ∧ y = r.log pebId

theorem RoundGoes.ends {next : Round LogRound Nat}
    (h : RoundGoes volume.dev env pebId parseLog r shown next) {rest : List ShownLog}
    (hrest : Ordered (pebId + 1) rest) : Ordered pebId (shown ++ rest) := by
  have hhead : ∀ y ∈ rest.head?, (r.log pebId).Before y := fun y hy =>
    .inl (hrest.pebs y (List.mem_of_mem_head? hy))
  cases h with
  | stops | passes => exact hrest.mono
  | fails | shows => exact hrest.mono.cons rfl hhead

/-- The rounds of a PEB, as long as every round goes on as it should: induction over the rounds that are
left. -/
theorem restOfDump_ordered (hpebs : ∀ logSize, ∀ r shown, ComesTo volume env parseLog left pebId r →
      PebEnds volume env parseLog pebId r shown logSize → ∃ rest,
        showPebs volume env parseLog left (Word.u64 (pebId + 1)) logSize = .ok rest ∧
          Ordered (pebId + 1) rest)
    (hgoes : ∀ r, ComesTo volume env parseLog left pebId r → r.logIndex < maxLogs env →
      GoesOn volume env parseLog pebId r) (hcomes : ComesTo volume env parseLog left pebId r) :
    ∃ logs, restOfDump volume env parseLog left pebId r = .ok logs ∧ Ordered pebId logs ∧
      Begins volume env parseLog pebId r logs := by
  generalize hrounds : maxLogs env - r.logIndex = n
  induction n generalizing r with
  | zero =>
    have hends : PebEnds volume env parseLog pebId r [] r.logSize := .count (Nat.le_of_sub_eq_zero hrounds)
    obtain ⟨rest, hrest, hordered⟩ := hpebs _ _ _ hcomes hends
    exact ⟨rest, (restOfDump_ends hends).2 ⟨rest, hrest, rfl⟩, hordered.mono,
      fun _ y hy => .inl (hordered.pebs y (List.mem_of_mem_head? hy))⟩
  | succ n ih =>
    have hcount : r.logIndex < maxLogs env := by omega
    obtain ⟨⟨shown, next, hround⟩, hclimbs⟩ := hgoes r hcomes hcount
    have hcase := logRound_goes hround
    cases next with
    | leave logSize =>
      have hends : PebEnds volume env parseLog pebId r shown logSize := .leave hcount hround
      obtain ⟨rest, hrest, hordered⟩ := hpebs _ _ _ hcomes hends
      refine ⟨shown ++ rest, (restOfDump_ends hends).2 ⟨rest, hrest, rfl⟩, hcase.ends hordered, ?_⟩
      intro _ y hy
      cases hcase with
      | stops => exact .inl (hordered.pebs y (List.mem_of_mem_head? hy))
      | fails => exact .inr ⟨hcount, _, hround, (Option.some.inj hy).symm⟩
    | again r' =>
      have hindex := hcase.again_index
      obtain ⟨logs, hlogs, hordered, hbegins⟩ := ih (hcomes.again hcount hround) (by omega)
      refine ⟨shown ++ logs, (restOfDump_again hcount hround).2 ⟨logs, hlogs, rfl⟩, ?_, ?_⟩
      · cases hcase with
        | passes => exact hordered
        | shows hread hpassed hroom hhdr hparse =>
          refine Ordered.cons (show (r.log pebId).pebId = pebId from rfl) hordered ?_
          intro y hy
          obtain hlater | ⟨hcount', next, hnext, rfl⟩ := hbegins (isPassed_succ hpassed) y hy
          · exact .inl hlater
          · obtain ⟨hpos, hwide⟩ := hclimbs _ hround hcount' ⟨next, hnext⟩
            refine .inr ⟨rfl, ?_⟩
            change r.logOffset < Word.u32 (r.logOffset + _)
            rw [Word.u32_of_lt hwide]
            exact Nat.lt_add_of_pos_right hpos
      · intro hnone y hy
        cases hcase with
        | passes hread hpassed => exact absurd (hnone.symm.trans hpassed) (by decide)
        | shows => exact .inr ⟨hcount, _, hround, (Option.some.inj hy).symm⟩

theorem restOfDump_of_goesOn (hgoes : ∀ left pebId r, ComesTo volume env parseLog left pebId r →
      r.logIndex < maxLogs env → GoesOn volume env parseLog pebId r)
    (hcomes : ComesTo volume env parseLog left pebId r) (hvolume : OnVolume volume env pebId) :
    ∃ logs, restOfDump volume env parseLog left pebId r = .ok logs ∧ Ordered pebId logs := by
  induction left generalizing pebId r with
  | zero =>
    obtain ⟨logs, hlogs, hordered, -⟩ := restOfDump_ordered
      (fun _ _ _ _ _ => ⟨[], rfl, Ordered.nil⟩) (hgoes 0 pebId) hcomes
    exact ⟨logs, hlogs, hordered⟩
  | succ left ih =>
    have hpebs : ∀ logSize, ∀ r shown, ComesTo volume env parseLog (left + 1) pebId r →
        PebEnds volume env parseLog pebId r shown logSize → ∃ rest,
          showPebs volume env parseLog (left + 1) (Word.u64 (pebId + 1)) logSize = .ok rest ∧
            Ordered (pebId + 1) rest := by
      intro logSize r shown hr hends
      rw [hvolume.succ_eq]
      by_cases hnext : OnVolume volume env (pebId + 1)
      · rw [showPebs_succ hnext]
        exact ih (hr.next hends hnext) hnext
      · exact ⟨[], showPebs_stop hvolume.pebSize_ne hnext, Ordered.nil⟩
    obtain ⟨logs, hlogs, hordered, -⟩ := restOfDump_ordered hpebs (hgoes (left + 1) pebId) hcomes
    exact ⟨logs, hlogs, hordered⟩

theorem ComesTo.onVolume (h : ComesTo volume env parseLog left pebId r) : OnVolume volume env pebId := by
  induction h with
  | first _ _ hvolume => exact hvolume
  | again _ _ _ ih => exact ih
  | next _ _ hvolume => exact hvolume

theorem DumpStarted.showPebDump_eq (h : DumpStarted volume env) : showPebDump volume env parseLog =
    showPebs volume env parseLog env.pebsCount.toNat env.id.toNat env.logSize.toNat := by
  obtain ⟨hdr, hhdr⟩ := h.header
  unfold showPebDump
  rw [if_neg h.peb, hhdr]
  exact if_neg h.log

theorem showPebDump_cases (volume : OpenedDevice) (env : PebDumpEnvironment)
    (parseLog : ShownLog → Mkfs Unit) (hread : env.id.toNat ≠ Word.u64Max →
      Checked.Returns (readSegmentHeader (deviceRead volume.dev) env.id.toNat env.pebSize.toNat 0)) :
    DumpStarted volume env ∨ ¬DumpStarted volume env ∧ showPebDump volume env parseLog = .ok [] := by
  refine or_iff_not_imp_left.2 fun hnot => ⟨hnot, ?_⟩
  unfold showPebDump
  by_cases hpeb : env.id.toNat = Word.u64Max
  · exact if_pos hpeb
  · rw [if_neg hpeb]
    match hhdr : readSegmentHeader (deviceRead volume.dev) env.id.toNat env.pebSize.toNat 0 with
    | .error f =>
      obtain ⟨e, rfl⟩ := hread hpeb f hhdr
      rfl
    | .ok hdr =>
      by_cases hlog : env.logIndex.toNat = Word.u32Max
      · exact if_pos hlog
      · exact absurd ⟨hpeb, hlog, hdr, hhdr⟩ hnot

theorem showPebDump_returns (h : showPebDump volume env parseLog = .ok logs)
    (hpeb : env.id.toNat ≠ Word.u64Max) :
    Checked.Returns (readSegmentHeader (deviceRead volume.dev) env.id.toNat env.pebSize.toNat 0) := by
  unfold showPebDump at h
  rw [if_neg hpeb] at h
  intro f hf
  rw [hf] at h
  cases f with
  | code e => exact ⟨e, rfl⟩
  | _ => cases h

theorem ComesTo.suffix (hdump : showPebDump volume env parseLog = .ok logs)
    (h : ComesTo volume env parseLog left pebId r) :
    ∃ rest, restOfDump volume env parseLog left pebId r = .ok rest ∧ rest <:+ logs := by
  induction h with
  | first hstarted hcount hvolume =>
    rw [hstarted.showPebDump_eq, hcount, showPebs_succ hvolume] at hdump
    exact ⟨logs, hdump, List.suffix_refl logs⟩
  | again _ hcount hround ih =>
    obtain ⟨rest, hrest, hsuffix⟩ := ih
    obtain ⟨rest', hrest', rfl⟩ := (restOfDump_again hcount hround).1 hrest
    exact ⟨rest', hrest', (List.suffix_append _ _).trans hsuffix⟩
  | next h hends hvolume ih =>
    obtain ⟨rest, hrest, hsuffix⟩ := ih
    obtain ⟨rest', hrest', rfl⟩ := (restOfDump_ends hends).1 hrest
    rw [h.onVolume.succ_eq, showPebs_succ hvolume] at hrest'
    exact ⟨rest', hrest', (List.suffix_append _ _).trans hsuffix⟩

theorem readFooterLogBytes_lt {dev : Buf} {hdr : Bytes} {size : Nat} (hlt : logSize < 4294967296)
    (h : readFooterLogBytes dev env pebId hdr logSize = .ok size) : size < 4294967296 := by
  have hfield : ∀ {areaBuf areaSize field}, fieldInArea areaBuf areaSize field = .ok size →
      size < 4294967296 := by
    intro areaBuf areaSize field hfield
    unfold fieldInArea at hfield
    split at hfield
    · cases hfield
      exact peek_lt _ 4 _
    · cases hfield
  unfold readFooterLogBytes at h
  simp only at h
  split at h
  · split at h
    · obtain ⟨areaBuf, -, h⟩ := Checked.bind_eq_ok.1 h
      exact hfield h
    · split at h
      · obtain ⟨areaBuf, -, h⟩ := Checked.bind_eq_ok.1 h
        exact hfield h
      · cases h
  · cases h
    exact hlt

theorem readLogBytes_lt {dev : Buf} {hdr : Bytes} (hlt : r.logSize < 4294967296)
    (h : readLogBytes dev env pebId r = .ok (hdr, logSize)) : logSize < 4294967296 := by
  obtain ⟨hdr', -, h⟩ := Checked.bind_eq_ok.1 h
  split at h
  · split at h
    · obtain ⟨size, hsize, h⟩ := Checked.bind_eq_ok.1 h
      cases h
      exact readFooterLogBytes_lt hlt hsize
    · split at h
      · cases h
        exact peek_lt _ 4 _
      · split at h <;> cases h
  · split at h
    · cases h
    · cases h
      exact hlt

theorem RoundGoes.again_lt {next : Round LogRound Nat} (hlt : r.logSize < 4294967296)
    (h : RoundGoes volume.dev env pebId parseLog r shown next) :
    (∀ size, next = .leave size → size < 4294967296) ∧
      ∀ r', next = .again r' → r'.logSize < 4294967296 := by
  cases h with
  | stops hsize =>
    refine ⟨fun size heq => ?_, nofun⟩
    cases heq
    obtain rfl | ⟨hdr, hread⟩ := hsize
    · exact hlt
    · exact readLogBytes_lt hlt hread
  | fails hread =>
    refine ⟨fun size heq => ?_, nofun⟩
    cases heq
    exact readLogBytes_lt hlt hread
  | passes hread | shows hread =>
    refine ⟨nofun, fun r' heq => ?_⟩
    cases heq
    exact readLogBytes_lt hlt hread

theorem ComesTo.logSize_lt (h : ComesTo volume env parseLog left pebId r) : r.logSize < 4294967296 := by
  induction h with
  | first => exact env.logSize.toNat_lt
  | again _ _ hround ih => exact ((logRound_goes hround).again_lt ih).2 _ rfl
  | next _ hends _ ih =>
    cases hends with
    | count => exact ih
    | leave _ hround => exact ((logRound_goes hround).again_lt ih).1 _ rfl

theorem restOfDump_runs (hcount : r.logIndex < maxLogs env)
    (h : restOfDump volume env parseLog left pebId r = .ok logs) :
    ∃ shown next, logRound volume.dev env pebId parseLog r = .ok (shown, next) := by
  obtain ⟨k, hk⟩ := Nat.exists_eq_add_of_lt hcount
  unfold restOfDump at h
  rw [hk, Nat.add_assoc, Nat.add_sub_cancel_left] at h
  obtain ⟨res, hres, -⟩ := Checked.bind_eq_ok.1 h
  unfold showLogs at hres
  obtain ⟨⟨shown, next⟩, hround, -⟩ := Checked.bind_eq_ok.1 hres
  exact ⟨shown, next, hround⟩

theorem restOfDump_head {next : Round LogRound Nat} (hcount : r.logIndex < maxLogs env)
    (hround : logRound volume.dev env pebId parseLog r = .ok (shown, next))
    (h : restOfDump volume env parseLog left pebId r = .ok logs) : shown <+: logs := by
  cases next with
  | again r' =>
    obtain ⟨rest, -, rfl⟩ := (restOfDump_again hcount hround).1 h
    exact List.prefix_append _ _
  | leave logSize =>
    obtain ⟨rest, -, rfl⟩ := (restOfDump_ends (.leave hcount hround)).1 h
    exact List.prefix_append _ _

theorem ComesTo.goesOn (hdump : showPebDump volume env parseLog = .ok logs)
    (hchain : logs.IsChain ShownLog.Before) (h : ComesTo volume env parseLog left pebId r)
    (hcount : r.logIndex < maxLogs env) : GoesOn volume env parseLog pebId r := by
  obtain ⟨rest, hrest, hsuffix⟩ := h.suffix hdump
  refine ⟨restOfDump_runs hcount hrest, ?_⟩
  intro r' hround hcount' hnext
  obtain ⟨next, hnext⟩ := hnext
  obtain ⟨rest', hrest', rfl⟩ := (restOfDump_again hcount hround).1 hrest
  obtain ⟨tail, rfl⟩ := restOfDump_head hcount' hnext hrest'
  have hbefore : (r.log pebId).Before (r'.log pebId) :=
    (List.isChain_cons_cons.1 (hchain.suffix hsuffix)).1
  have hlt := (h.again hcount hround).logSize_lt
  have hclimb : r.logOffset < r'.logOffset := by
    obtain hpeb | ⟨-, hoffset⟩ := hbefore
    · exact absurd hpeb (Nat.lt_irrefl pebId)
    · exact hoffset
  have hcase := logRound_goes hround
  cases hcase with
  | shows hread hpassed hroom =>
    have hoffset := env.pebSize.toNat_lt
    simp only at hlt hclimb ⊢
    unfold Word.u32 at hclimb
    omega

theorem showPebDump_ordered_iff :
    (∃ logs, showPebDump volume env parseLog = .ok logs ∧ logs.IsChain ShownLog.Before) ↔
      (env.id.toNat ≠ Word.u64Max → Checked.Returns
        (readSegmentHeader (deviceRead volume.dev) env.id.toNat env.pebSize.toNat 0)) ∧
      (DumpStarted volume env → env.pebsCount.toNat = 0 ∨ env.pebSize.toNat ≠ 0) ∧ ∀ left pebId r,
        ComesTo volume env parseLog left pebId r → r.logIndex < maxLogs env →
          GoesOn volume env parseLog pebId r := by
  constructor
  · rintro ⟨logs, hdump, hchain⟩
    refine ⟨showPebDump_returns hdump, fun hstarted => ?_,
      fun left pebId r hcomes hcount => hcomes.goesOn hdump hchain hcount⟩
    rw [hstarted.showPebDump_eq] at hdump
    cases hcount : env.pebsCount.toNat with
    | zero => exact .inl rfl
    | succ left =>
      rw [hcount] at hdump
      obtain ⟨pebs, hpebs, -⟩ := Checked.bind_eq_ok.1 hdump
      exact .inr (Checked.quot_eq_ok.1 hpebs).1
  · rintro ⟨hread, hsize, hgoes⟩
    obtain hstarted | ⟨-, hnone⟩ := showPebDump_cases volume env parseLog hread
    case inr => exact ⟨[], hnone, .nil⟩
    rw [hstarted.showPebDump_eq]
    cases hcount : env.pebsCount.toNat with
    | zero => exact ⟨[], rfl, .nil⟩
    | succ left =>
      obtain hzero | hne := hsize hstarted
      · omega
      · by_cases hvolume : OnVolume volume env env.id.toNat
        · rw [showPebs_succ hvolume]
          obtain ⟨logs, hlogs, hordered⟩ :=
            restOfDump_of_goesOn hgoes (.first hstarted hcount hvolume) hvolume
          exact ⟨logs, hlogs, hordered.before⟩
        · exact ⟨[], showPebs_stop hne hvolume, .nil⟩

end

end Ssdfs
