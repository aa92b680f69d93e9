import Ssdfs.Device.LogHeaders
import Ssdfs.Lib.Loop
import Ssdfs.Recover.BlockState

namespace Ssdfs

open Memory

def log4kb : Nat := 4096

structure LogFields where
  segType : Bytes → Nat
  timestamp : Bytes → Nat
  descArray : Nat

def segHdrFields : LogFields := ⟨SegHdr.segType, fun hdr => peek hdr 8 0x400, 0x418⟩

def plHdrFields : LogFields := ⟨fun hdr => peek hdr 2 0x22, fun hdr => peek hdr 8 0x10, 0x30⟩

def LogFields.desc (fields : LogFields) (hdr : Bytes) (i : Fin segHdrDescMax) : AreaDescriptor :=
  ⟨UInt32.ofNat (peek hdr 4 (fields.descArray + i * 16)),
    UInt32.ofNat (peek hdr 4 (fields.descArray + i * 16 + 4))⟩

def unknownSegType : Nat := 0

def latestArea (pebSize : Nat) (desc : Fin segHdrDescMax → AreaDescriptor) : Nat × Nat :=
  (List.finRange segHdrDescMax).foldl (fun latest i =>
    let offset := (desc i).offset.toNat
    let size := (desc i).size.toNat
    if size ≠ 0 ∧ latest.1 < offset ∧ offset + size < pebSize then (offset, size) else latest) (0, 0)

def behindLog (logSize logIndex : Nat) : Nat :=
  Word.u32 (Word.u32 (logSize + (log4kb - 1)) / log4kb + logIndex)

def defineNextLogIndex (logIndex logOffset : Nat) (latest : Nat × Nat) : Nat :=
  if latest.1 > 0 ∧ latest.2 > 0 then
    let logSize := Word.u32 (latest.1 + latest.2)
    behindLog (if logSize > logOffset then logSize - logOffset else log4kb) logIndex
  else Word.u32 (logIndex + 1)

def createAreas (desc : Fin segHdrDescMax → AreaDescriptor) (dump : RawDump) : RawDump where
  desc i :=
    createRawAreaEnvironment (dump.desc i) (desc i).offset.toNat (desc i).size.toNat area2bufferSize
  content := dump.content

section

variable (dev : Buf) (peb : PebEnvironment)

def logsCount : Nat := peb.pebSize.toNat / log4kb

def logOffset (logIndex : Nat) : Nat := Word.u32 (logIndex * log4kb)

def findValidLog : List Nat → Mkfs (Nat × Bytes)
  | [] => fail .enodata
  | i :: is => do
    let hdr ← readSegmentHeader (deviceRead dev) peb.id.toNat peb.pebSize.toNat (logOffset i)
    if peek hdr 4 0 = superMagic.toNat then .ok (i, hdr) else findValidLog is

def readFooterArea (area : RawAreaEnvironment) : Mkfs Buf :=
  readAreaContent dev peb area.offset (min area.size (rawSize area.buffer))
    (prepareRawBuffer area.buffer log4kb)

/-- The index behind a full log, unless its footer cannot be read. -/
def fullLogIndex (hdr : Bytes) (logIndex : Nat) (dump : RawDump) : Mkfs (Option Nat × RawDump) :=
  let next := defineNextLogIndex logIndex (logOffset logIndex)
    (latestArea peb.pebSize.toNat (segHdrFields.desc hdr))
  let area := dump.desc logFooterIndex
  if area.offset ≥ Word.u64Max then .ok (some next, dump)
  else
    match readFooterArea dev peb area with
    | .error (.code _) =>
      let rawBuf := prepareRawBuffer area.buffer log4kb
      .ok (none, dump.setArea logFooterIndex { area with buffer := some rawBuf })
    | .error f => .error f
    | .ok footer =>
      let dump := dump.setArea logFooterIndex { area with buffer := some footer }
      if isSsdfsLogFooter footer.data then
        .ok (some (behindLog (LogFooter.logBytes footer.data) logIndex), dump)
      else .ok (some next, dump)

def partialLogIndex (hdr : Bytes) (logIndex : Nat) (dump : RawDump) : Mkfs (Option Nat × RawDump) :=
  .ok (some (behindLog (PlHdr.logBytes hdr) logIndex), dump)

end

structure Recovery (σ : Type) where
  dump : RawDump
  files : σ

structure PebWalk (σ : Type) where
  logIndex : Nat
  parsed : List Nat
  recovery : Recovery σ

structure RecoverEnvironment (σ : Type) where
  crc32 : List UInt8 → UInt32
  decompress : UInt8 → Buf → Nat → Nat → Buf → Nat → Mkfs Buf
  dev : Buf
  peb : PebEnvironment
  pageSize : Nat
  createFolder : Nat → σ → Option Errno × σ
  copyBlockState : BlockDescriptor → Buf → σ → σ

section

variable {σ : Type} (env : RecoverEnvironment σ)

/-- A descriptor that is got out of the table; whether its block is recovered or not, the next one is
asked for. -/
def blkDescRound (s : Recovery σ) : Mkfs (Round (Recovery σ) (Recovery σ)) :=
  match getNextBlkDesc env.crc32 env.decompress (s.dump.desc blkDescAreaIndex) with
  | .error (.code _) => .ok (.leave s)
  | .error f => .error f
  | .ok (blkDesc, area) => do
    let (err, dump) ← extractBlockState env.crc32 env.decompress env.dev env.peb env.pageSize blkDesc
      (s.dump.setArea blkDescAreaIndex area)
    match err, dump.content with
    | some _, _ => .ok (.again { s with dump })
    | none, some content => .ok (.again ⟨dump, env.copyBlockState blkDesc content s.files⟩)
    | none, none => .error .abort

/-- The blocks whose descriptors lie in the area that `desc` names. -/
def recoverBlocks (fuel : Nat) (desc : AreaDescriptor) (s : Recovery σ) : Mkfs (Recovery σ) :=
  let area := s.dump.desc blkDescAreaIndex
  if area.offset ≥ env.peb.pebSize.toNat ∨ area.size = 0 then .ok s
  else
    let areaBuf := prepareRawBuffer area.buffer desc.size.toNat
    match prefetchBlkDescTable env.dev env.peb desc area with
    | .error (.code _) =>
      .ok { s with dump := s.dump.setArea blkDescAreaIndex { area with buffer := some areaBuf } }
    | .error f => .error f
    | .ok area =>
      Checked.loop (blkDescRound env) fuel { s with dump := s.dump.setArea blkDescAreaIndex area }

def openFolder (fields : LogFields) (hdr : Bytes) (files : σ) : Option Errno × σ :=
  if fields.segType hdr = unknownSegType ∨ fields.segType hdr = sbSegTypeId then (none, files)
  else env.createFolder (fields.timestamp hdr) files

/-- A log of either kind; `next` gives the index behind it. -/
def parseLog (fields : LogFields) (next : Bytes → Nat → RawDump → Mkfs (Option Nat × RawDump))
    (fuel : Nat) (hdr : Bytes) (logIndex : Nat) (s : Recovery σ) : Mkfs (Nat × Recovery σ) :=
  match openFolder env fields hdr s.files with
  | (some _, files) => .ok (Word.u32 (logIndex + 1), { s with files })
  | (none, files) => do
    let (nextLogIndex, dump) ← next hdr logIndex (createAreas (fields.desc hdr) s.dump)
    match nextLogIndex with
    | none => .ok (Word.u32 (logIndex + 1), ⟨dump, files⟩)
    | some nextLogIndex => do
      let s ← recoverBlocks env fuel (fields.desc hdr blkDescAreaIndex) ⟨dump, files⟩
      .ok (nextLogIndex, s)

def parseFullLog (fuel : Nat) (hdr : Bytes) (logIndex : Nat) (s : Recovery σ) :
    Mkfs (Nat × Recovery σ) :=
  parseLog env segHdrFields (fullLogIndex env.dev env.peb) fuel hdr logIndex s

def parsePartialLog (fuel : Nat) (hdr : Bytes) (logIndex : Nat) (s : Recovery σ) :
    Mkfs (Nat × Recovery σ) :=
  parseLog env plHdrFields partialLogIndex fuel hdr logIndex s

abbrev PebRound (σ : Type) := Round (PebWalk σ) (Option Errno × PebWalk σ)

def goOn (logIndex : Nat) (w : PebWalk σ) : PebRound σ :=
  let w := { w with logIndex }
  if logIndex < logsCount env.peb then .again w else .leave (none, w)

def foundLog (logIndex : Nat) : Mkfs (Nat × Bytes) :=
  findValidLog env.dev env.peb (List.range' logIndex (logsCount env.peb - logIndex))

/-- The error of a log that cannot be parsed is not returned. -/
def processPebRound (fuel : Nat) (w : PebWalk σ) : Mkfs (PebRound σ) :=
  match foundLog env w.logIndex with
  | .error (.code .enodata) => .ok (.leave (none, w))
  | .error (.code e) => .ok (.leave (some e, w))
  | .error f => .error f
  | .ok (i, hdr) =>
    if isSsdfsSegmentHeader hdr then do
      let (next, recovery) ← parseFullLog env fuel hdr i w.recovery
      .ok (goOn env next { w with parsed := w.parsed ++ [i], recovery })
    else if isSsdfsPartialLogHeader hdr then do
      let (next, recovery) ← parsePartialLog env fuel hdr i w.recovery
      .ok (goOn env next { w with parsed := w.parsed ++ [i], recovery })
    else if isSsdfsLogFooter hdr then .ok (goOn env (Word.u32 (i + 1)) w)
    else .ok (.leave (some .erange, w))

/-- The walk through the block descriptors of each log has fuel of its own. -/
def processPeb (blkDescFuel fuel : Nat) (recovery : Recovery σ) :
    Mkfs (Option Errno × PebWalk σ) :=
  Checked.loop (processPebRound env blkDescFuel) fuel ⟨0, [], recovery⟩

end

end Ssdfs
