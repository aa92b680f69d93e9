import Ssdfs.Fsck.CreationMerge
import Ssdfs.Fsck.SbChain
import Ssdfs.Lib.Report
import Ssdfs.Recover.PebRange

/-! The detection of a file system by `fsck.ssdfs`, with the search of the whole volume or without. -/

namespace Ssdfs

open Memory

inductive DetectionState
  | deviceHasFileSystem
  | deviceHasSomeMetadata
  | noFileSystemDetected
  | failedDetectFileSystem
  deriving Repr, DecidableEq

def baseSnapshotSegFound : UInt64 := 1
def sbSegsFound : UInt64 := 2
def mappingTblFound : UInt64 := 4
def segmentBitmapFound : UInt64 := 8
def maptblCacheFound : UInt64 := 16
def allCriticalMetadataFound : UInt64 := 0x1F

def initialSnapshotSegTypeId : Nat := 2

def SegType.ofId : Nat → SegType
  | 1 => .sb
  | 2 => .initialSnapshot
  | 3 => .segbmap
  | 4 => .maptbl
  | 5 => .leafNode
  | 6 => .hybridNode
  | 7 => .indexNode
  | 8 => .userData
  | _ => .unknown

namespace SegHdr

def logSegsize (hdr : Bytes) : Nat := peek hdr 1 0x12
def createTime (hdr : Bytes) : UInt64 := UInt64.ofNat (peek hdr 8 0x18)

end SegHdr

def PebHeader.ofBytes (hdr : Bytes) : PebHeader where
  segId := UInt64.ofNat (peek hdr 8 0x4B8)
  lebId := UInt64.ofNat (peek hdr 8 0x4C0)
  segType := .ofId (SegHdr.segType hdr)
  pebCreateTime := UInt64.ofNat (peek hdr 8 0x4B0)
  createTime := SegHdr.createTime hdr

def CreationPoint.find (found : UInt64) (point : CreationPoint) : CreationPoint :=
  { point with foundMetadata := point.foundMetadata ||| found }

def CreationPoint.has (found : UInt64) (point : CreationPoint) : Bool := point.foundMetadata &&& found ≠ 0

def readOrFail (dev : Nat → Nat → Option Bytes) (offset size : Nat) : Mkfs Bytes :=
  match dev offset size with
  | some bytes => .ok bytes
  | none => fail .eio

structure MetadataSearches where
  superblock : SbSegCopy → Search Unit
  maptblCache : Search Unit
  segbmap : Search Unit
  maptbl : Search Unit

section

variable (dev : Nat → Nat → Option Bytes) (eraseSize : Nat)

def lastFullLog (fuel : Nat) (log : FoundLog) : Search FoundLog :=
  match Report.result (findLastFullLog (readOf dev) fuel eraseSize log) with
  | .error (.code .notFound) => .ok log
  | m => m

def isBaseSnapshotSegmentFound (fuel : Nat) (point : CreationPoint) :
    Search (Report SearchResult CreationPoint) :=
  Report.attempt (findMetadataSegment (readOf dev) eraseSize 0 initialSnapshotSegTypeId 0) point fun hdr =>
    let point := { point with volumeCreationTimestamp := SegHdr.createTime hdr }
    Report.attempt (lastFullLog dev eraseSize fuel ⟨0, 0, hdr, fun _ => 0⟩) point fun log => do
      let _segSize ← Checked.shiftOne SearchResult (SegHdr.logSegsize log.header)
      .ok (none, point.find baseSnapshotSegFound)

end

def searchBehind (needs : UInt64) (search : Search Unit) (point : CreationPoint)
    (k : CreationPoint → Search (Report SearchResult CreationPoint)) :
    Search (Report SearchResult CreationPoint) :=
  if point.has needs = false then .ok (some .failure, point)
  else Report.attempt search point fun _ => k point

section

variable (searches : MetadataSearches)

def isSuperblockSegmentsFound (point : CreationPoint) : Search (Report SearchResult CreationPoint) :=
  searchBehind baseSnapshotSegFound (searches.superblock .main) point fun point =>
    searchBehind baseSnapshotSegFound (searches.superblock .copy) point fun point =>
      searchBehind sbSegsFound searches.maptblCache (point.find sbSegsFound) fun point =>
        .ok (none, point.find maptblCacheFound)

def isSegmentBitmapFound (point : CreationPoint) : Search (Report SearchResult CreationPoint) :=
  searchBehind sbSegsFound searches.segbmap point fun point => .ok (none, point.find segmentBitmapFound)

def isMappingTableSegsFound (point : CreationPoint) : Search (Report SearchResult CreationPoint) :=
  searchBehind sbSegsFound searches.maptbl point fun point => .ok (none, point.find mappingTblFound)

end

section

variable (dev : Nat → Nat → Option Bytes) (eraseSize : Nat)

def detectActions (fuel : Nat) (searches : MetadataSearches) :
    List (CreationPoint → Search (Report SearchResult CreationPoint)) :=
  [isBaseSnapshotSegmentFound dev eraseSize fuel, isSuperblockSegmentsFound searches,
    isSegmentBitmapFound searches, isMappingTableSegsFound searches]

def detectMetadata (fuel : Nat) (searches : MetadataSearches) : Search (Report SearchResult CreationPoint) :=
  Report.each (fun action point => action point) (detectActions dev eraseSize fuel searches) .init

/-- An erase block without a header, or without metadata, is passed over. -/
def processEraseBlock (pebId : Nat) (map : MetadataMap) : Mkfs MetadataMap := do
  let hdr ← readSegmentHeader (readOrFail dev) pebId eraseSize 0
  if ¬isSsdfsSegmentHeader hdr then .ok map
  else if (collectedPebType (PebHeader.ofBytes hdr).segType).isNone then .ok map
  else metadataMapAddPebDescriptor (UInt64.ofNat pebId) (PebHeader.ofBytes hdr) map

/-- An error of one erase block does not stop the thread. -/
def collectPeb (pebId : Nat) (map : MetadataMap) : Mkfs MetadataMap :=
  match processEraseBlock dev eraseSize pebId map with
  | .error (.code _) => .ok map
  | m => m

def collectPebRange (peb : PebPortion) : Mkfs MetadataMap :=
  Checked.forEach (collectPeb dev eraseSize) (processPebRange peb) .init

def collectMetadata (pebsPerThread pebsCount capacity : Nat) : Mkfs (List MetadataMap) :=
  Checked.forRange capacity (fun i maps => do
    let map ← collectPebRange dev eraseSize (initPebEnvironment i pebsPerThread pebsCount)
    .ok (maps ++ [map])) []

def executeWholeVolumeSearch (fsSize capacity : Nat) (array : CreationArray) : Mkfs CreationArray := do
  let pebsCount ← Checked.quot Errno fsSize eraseSize
  let pebsPerThread ← Checked.quot Errno (Word.sub64 (Word.u64 (pebsCount + capacity)) 1) capacity
  let maps ← collectMetadata dev eraseSize pebsPerThread pebsCount capacity
  mergeMetadataMaps maps array

end

def classifyDetection (array : CreationArray) : Search DetectionState :=
  match array.points.getLast? with
  | none => .error .abort
  | some point =>
    .ok (if point.foundMetadata = 0 then .noFileSystemDetected
      else if point.foundMetadata = allCriticalMetadataFound then .deviceHasFileSystem
      else .deviceHasSomeMetadata)

def Search.ofMkfs {α : Type} : Mkfs α → Search α
  | .ok a => .ok a
  | .error (.code _) => Search.failure
  | .error .abort => .error .abort
  | .error .trap => .error .trap
  | .error .stray => .error .stray
  | .error .fuel => .error .fuel

def completeVolumeSearch (dev : Nat → Nat → Option Bytes) (eraseSize fsSize capacity : Nat)
    (point : CreationPoint) : Search DetectionState :=
  match Search.ofMkfs (executeWholeVolumeSearch dev eraseSize fsSize capacity ⟨.useBuffer, [point]⟩) with
  | .ok array => classifyDetection array
  | .error (.code _) => .ok .failedDetectFileSystem
  | .error e => .error e

/-- What `fsck.ssdfs` starts from: the device, the first valid PEB that was found on it with the sizes
of an erase block and of a page, and the options. -/
structure FsckDetection where
  dev : Nat → Nat → Option Bytes
  validPeb : Except Errno (Nat × Nat)
  searches : MetadataSearches
  fsSize : UInt64
  threadsCapacity : UInt32

def isDeviceContainsSsdfsVolume (env : FsckDetection) (fuel : Nat) (forceChecking : Bool) :
    Search DetectionState :=
  match env.validPeb with
  | .error .enodata => .ok .noFileSystemDetected
  | .error _ => .ok .failedDetectFileSystem
  | .ok (logErasesize, logPagesize) => do
    let eraseSize ← Checked.shiftOne SearchResult logErasesize
    let _pageSize ← Checked.shiftOne SearchResult logPagesize
    let (res, point) ← detectMetadata env.dev eraseSize fuel env.searches
    match res with
    | some .failure => .ok .failedDetectFileSystem
    | some .notFound =>
      completeVolumeSearch env.dev eraseSize env.fsSize.toNat env.threadsCapacity.toNat point
    | none =>
      if forceChecking then
        completeVolumeSearch env.dev eraseSize env.fsSize.toNat env.threadsCapacity.toNat point
      else classifyDetection ⟨.useBuffer, [point]⟩

/-- The detection steps all succeed, and what they leave is `point`. -/
structure DetectionSucceeds (env : FsckDetection) (fuel eraseSize : Nat) (point : CreationPoint) : Prop where
  valid : ∃ logErasesize logPagesize pageSize, env.validPeb = .ok (logErasesize, logPagesize) ∧
    Checked.shiftOne SearchResult logErasesize = .ok eraseSize ∧ Checked.shiftOne SearchResult logPagesize = .ok pageSize
  steps : detectMetadata env.dev eraseSize fuel env.searches = .ok (none, point)

/-- Every header of metadata at the start of an erase block tells the same creation time. -/
def OneCreation (dev : Nat → Nat → Option Bytes) (eraseSize : Nat) (createTime : UInt64) : Prop :=
  ∀ pebId hdr, headerAt dev eraseSize pebId = some hdr → isSsdfsSegmentHeader hdr = true →
    (collectedPebType (PebHeader.ofBytes hdr).segType).isSome → SegHdr.createTime hdr = createTime

section

variable {dev : Nat → Nat → Option Bytes} {eraseSize fuel pebId : Nat} {point point' : CreationPoint}
  {needs found : UInt64} {search : Search Unit} {searches : MetadataSearches}
  {k : CreationPoint → Search (Report SearchResult CreationPoint)}

theorem searchBehind_eq_done : searchBehind needs search point k = .ok (none, point') →
    k point = .ok (none, point') := by
  intro h
  unfold searchBehind at h
  split at h
  · cases h
  · obtain ⟨-, -, hk⟩ := Report.attempt_eq_done.1 h
    exact hk

theorem isBaseSnapshotSegmentFound_done
    (h : isBaseSnapshotSegmentFound dev eraseSize fuel point = .ok (none, point')) : ∃ hdr,
      headerAt dev eraseSize 0 = some hdr ∧ isSsdfsSegmentHeader hdr = true ∧
        SegHdr.segType hdr = initialSnapshotSegTypeId ∧
        point' = { point with
          volumeCreationTimestamp := SegHdr.createTime hdr
          foundMetadata := point.foundMetadata ||| baseSnapshotSegFound } := by
  obtain ⟨hdr, hfind, h⟩ := Report.attempt_eq_done.1 h
  obtain ⟨log, -, h⟩ := Report.attempt_eq_done.1 h
  obtain ⟨_, -, h⟩ := Checked.bind_eq_ok.1 h
  cases h
  unfold findMetadataSegment at hfind
  rw [readSegmentHeader_start] at hfind
  cases hread : headerAt dev eraseSize 0 with
  | none =>
    rw [hread] at hfind
    cases hfind
  | some bytes =>
    rw [hread] at hfind
    simp only [Checked.ok_bind] at hfind
    split at hfind
    · cases hfind
    · next hseg =>
      split at hfind
      · cases hfind
      · next htype =>
        cases hfind
        exact ⟨hdr, rfl, by simpa using hseg, not_not.1 htype, rfl⟩

theorem detectMetadata_done (h : detectMetadata dev eraseSize fuel searches = .ok (none, point)) :
    ∃ hdr, headerAt dev eraseSize 0 = some hdr ∧ isSsdfsSegmentHeader hdr = true ∧
      SegHdr.segType hdr = initialSnapshotSegTypeId ∧
      point = { CreationPoint.init with
        volumeCreationTimestamp := SegHdr.createTime hdr
        foundMetadata := allCriticalMetadataFound } := by
  obtain ⟨p₁, h₁, h⟩ := Report.each_cons_eq_done.1 h
  obtain ⟨p₂, h₂, h⟩ := Report.each_cons_eq_done.1 h
  obtain ⟨p₃, h₃, h⟩ := Report.each_cons_eq_done.1 h
  obtain ⟨p₄, h₄, h⟩ := Report.each_cons_eq_done.1 h
  cases h
  obtain ⟨hdr, hread, hseg, htype, rfl⟩ := isBaseSnapshotSegmentFound_done h₁
  have hsb := searchBehind_eq_done (searchBehind_eq_done (searchBehind_eq_done h₂))
  cases hsb
  cases searchBehind_eq_done h₃
  cases searchBehind_eq_done h₄
  have hfound : CreationPoint.init.foundMetadata ||| baseSnapshotSegFound ||| sbSegsFound |||
      maptblCacheFound ||| segmentBitmapFound ||| mappingTblFound = allCriticalMetadataFound := by decide
  exact ⟨hdr, hread, hseg, htype, congrArg (fun found => CreationPoint.mk found _ _) hfound⟩

end

section

variable {dev : Nat → Nat → Option Bytes} {eraseSize pebId : Nat} {createTime : UInt64}
  {map : MetadataMap} {l : List MetadataPebItem}

theorem readSegmentHeader_readOrFail : readSegmentHeader (readOrFail dev) pebId eraseSize 0 =
    match headerAt dev eraseSize pebId with
    | some bytes => .ok bytes
    | none => fail .eio := by
  unfold readSegmentHeader headerAt readOrFail
  simp only [if_true, Nat.add_zero]
  rw [Word.u64_of_lt (Word.u64_lt _)]

structure CollectedOf (createTime : UInt64) (map : MetadataMap) (l : List MetadataPebItem) : Prop where
  holds : map.Holds l
  created : ∀ item ∈ l, item.volumeCreationTimestamp = createTime

theorem collectPeb_collected (hone : OneCreation dev eraseSize createTime)
    (h : CollectedOf createTime map l) : ∃ map' more, collectPeb dev eraseSize pebId map = .ok map' ∧
      CollectedOf createTime map' (l ++ more) := by
  have hkeep : ∃ map' more, (.ok map : Mkfs MetadataMap) = .ok map' ∧
      CollectedOf createTime map' (l ++ more) := ⟨map, [], rfl, by rwa [List.append_nil]⟩
  unfold collectPeb processEraseBlock
  rw [readSegmentHeader_readOrFail]
  cases hread : headerAt dev eraseSize pebId with
  | none => exact hkeep
  | some hdr =>
    rw [Checked.ok_bind]
    by_cases hseg : isSsdfsSegmentHeader hdr = true
    · rw [if_neg (not_not.2 hseg)]
      cases htype : collectedPebType (PebHeader.ofBytes hdr).segType with
      | none => exact hkeep
      | some type =>
        have htime := hone pebId hdr hread hseg (by rw [htype]; rfl)
        rw [if_neg (by exact nofun)]
        unfold metadataMapAddPebDescriptor
        obtain ⟨larger, hresize, hlarger, hroom⟩ | ⟨hfail, -⟩ := resizeMetadataMap_holds h.holds
        · obtain ⟨map', hput, hholds⟩ := @MetadataMap.Holds.put _ _
            ⟨(PebHeader.ofBytes hdr).segId, (PebHeader.ofBytes hdr).lebId, UInt64.ofNat pebId, type,
              (PebHeader.ofBytes hdr).pebCreateTime, (PebHeader.ofBytes hdr).createTime⟩ hlarger hroom
          rw [hresize, Checked.ok_bind, htype]
          simp only
          rw [hput]
          refine ⟨map', _, rfl, hholds, List.forall_mem_append.2 ⟨h.created, ?_⟩⟩
          intro item hitem
          obtain rfl := List.mem_singleton.1 hitem
          exact htime
        · rw [hfail]
          exact hkeep
    · rw [if_pos hseg]
      exact hkeep

theorem collectPeb_first {hdr : Bytes} (hread : headerAt dev eraseSize 0 = some hdr)
    (hseg : isSsdfsSegmentHeader hdr = true) (htype : SegHdr.segType hdr = initialSnapshotSegTypeId) :
    ∃ map' item, collectPeb dev eraseSize 0 .init = .ok map' ∧
      CollectedOf (SegHdr.createTime hdr) map' [item] := by
  have hcollected : collectedPebType (PebHeader.ofBytes hdr).segType = some .initSnap := by
    unfold PebHeader.ofBytes
    rw [htype]
    rfl
  obtain ⟨map', hput, hholds⟩ := @MetadataMap.Holds.put { MetadataMap.init with capacity := 8 } []
    ⟨(PebHeader.ofBytes hdr).segId, (PebHeader.ofBytes hdr).lebId, UInt64.ofNat 0, .initSnap,
      (PebHeader.ofBytes hdr).pebCreateTime, (PebHeader.ofBytes hdr).createTime⟩
    ⟨rfl, Nat.zero_le 8, .inr ⟨0, by decide, rfl⟩⟩ (by decide)
  refine ⟨map', _, ?_, hholds, fun item hitem => ?_⟩
  · unfold collectPeb processEraseBlock metadataMapAddPebDescriptor
    have hresize : resizeMetadataMap .init = .ok { MetadataMap.init with capacity := 8 } := rfl
    rw [readSegmentHeader_readOrFail, hread]
    simp only [Checked.ok_bind]
    rw [if_neg (not_not.2 hseg), hcollected, if_neg (by exact nofun), hresize, Checked.ok_bind]
    simp only
    rw [hput]
  · obtain rfl := List.mem_singleton.1 hitem
    rfl

theorem forEach_collectPeb (hone : OneCreation dev eraseSize createTime) (pebs : List Nat)
    (h : CollectedOf createTime map l) : ∃ map' more,
      Checked.forEach (collectPeb dev eraseSize) pebs map = .ok map' ∧
        CollectedOf createTime map' (l ++ more) := by
  induction pebs generalizing map l with
  | nil => exact ⟨map, [], rfl, by rwa [List.append_nil]⟩
  | cons pebId pebs ih =>
    obtain ⟨map₁, more, hpeb, hmap₁⟩ := @collectPeb_collected _ _ pebId _ _ _ hone h
    obtain ⟨map', more', hpebs, hmap'⟩ := ih hmap₁
    refine ⟨map', more ++ more', ?_, by rwa [← List.append_assoc]⟩
    unfold Checked.forEach
    rw [hpeb]
    exact hpebs

theorem collectPebRange_collected (hone : OneCreation dev eraseSize createTime) (peb : PebPortion) :
    ∃ map l, collectPebRange dev eraseSize peb = .ok map ∧ CollectedOf createTime map l := by
  obtain ⟨map, l, hmap, hcollected⟩ := forEach_collectPeb hone (processPebRange peb)
    (⟨MetadataMap.init_holds, nofun⟩ : CollectedOf createTime .init [])
  exact ⟨map, l, hmap, hcollected⟩

theorem collectPebRange_first {hdr : Bytes} {count : Nat}
    (hone : OneCreation dev eraseSize (SegHdr.createTime hdr)) (hread : headerAt dev eraseSize 0 = some hdr)
    (hseg : isSsdfsSegmentHeader hdr = true) (htype : SegHdr.segType hdr = initialSnapshotSegTypeId) :
    ∃ map item l, collectPebRange dev eraseSize ⟨0, count + 1⟩ = .ok map ∧
      CollectedOf (SegHdr.createTime hdr) map (item :: l) := by
  obtain ⟨map₁, item, hfirst, hmap₁⟩ := collectPeb_first hread hseg htype
  obtain ⟨map, l, hrest, hmap⟩ := forEach_collectPeb hone
    ((List.range count).map fun i => Word.u64 (0 + (i + 1))) hmap₁
  refine ⟨map, item, l, ?_, hmap⟩
  unfold collectPebRange processPebRange
  simp only
  rw [List.range_succ_eq_map, List.map_cons, List.map_map]
  unfold Checked.forEach
  have hzero : Word.u64 (0 + 0) = 0 := rfl
  rw [hzero, hfirst]
  exact hrest

theorem collectMetadata_ok {pebsPerThread pebsCount capacity : Nat} (Q : Nat → MetadataMap → Prop)
    (h : ∀ i < capacity, ∃ map, collectPebRange dev eraseSize
      (initPebEnvironment i pebsPerThread pebsCount) = .ok map ∧ Q i map) :
    ∃ maps, collectMetadata dev eraseSize pebsPerThread pebsCount capacity = .ok maps ∧
      maps.length = capacity ∧ ∀ i map, maps[i]? = some map → Q i map := by
  apply Checked.forRange_ok (fun n (maps : List MetadataMap) =>
    maps.length = n ∧ ∀ i map, maps[i]? = some map → Q i map)
  · exact ⟨rfl, nofun⟩
  · rintro n hn maps ⟨hlength, hmaps⟩
    obtain ⟨map, hmap, hQ⟩ := h n hn
    refine ⟨maps ++ [map], by rw [hmap]; rfl, by rw [List.length_append, hlength]; rfl, ?_⟩
    intro i map' hget
    obtain hlt | hge := Nat.lt_or_ge i maps.length
    · rw [List.getElem?_append_left hlt] at hget
      exact hmaps i map' hget
    · rw [List.getElem?_append_right hge, List.getElem?_singleton] at hget
      split at hget
      case isTrue hzero =>
        cases hget
        have heq : i = n := by omega
        exact heq ▸ hQ
      case isFalse => cases hget

end

section

variable {point : CreationPoint} {array : CreationArray} {item : MetadataPebItem}
  {items : List MetadataPebItem}

theorem addItem_found {point' : CreationPoint} {index : SegType}
    (h : point.addItem item index = .ok point') :
    point'.foundMetadata = point.foundMetadata ||| metadataPebMapPrepared ∧
      point'.volumeCreationTimestamp = point.volumeCreationTimestamp := by
  obtain ⟨_, -, h⟩ := Checked.bind_eq_ok.1 h
  obtain ⟨_, -, h⟩ := Checked.bind_eq_ok.1 h
  cases h
  exact ⟨rfl, rfl⟩

theorem processMetadataMapItem_single
    (htime : item.volumeCreationTimestamp = point.volumeCreationTimestamp)
    (h : processMetadataMapItem item ⟨.useBuffer, [point]⟩ = .ok array) : ∃ point',
      array = ⟨.useBuffer, [point']⟩ ∧
      point'.foundMetadata = point.foundMetadata ||| metadataPebMapPrepared ∧
      point'.volumeCreationTimestamp = point.volumeCreationTimestamp := by
  have hfind : findOrAddCreationPoint item.volumeCreationTimestamp ⟨.useBuffer, [point]⟩ =
      .ok (⟨.useBuffer, [point]⟩, 0) := by
    have hindex : findCreationPoint item.volumeCreationTimestamp ⟨.useBuffer, [point]⟩ = some 0 := by
      unfold findCreationPoint
      simp only
      rw [List.findIdx?_cons, if_pos (decide_eq_true htime.symm)]
    unfold findOrAddCreationPoint
    rw [hindex]
  unfold processMetadataMapItem at h
  rw [hfind, Checked.ok_bind] at h
  simp only [List.getElem?_cons_zero] at h
  split at h
  case h_1 index point' _ hpoint =>
    cases hpoint
    obtain ⟨point', hadd, h⟩ := Checked.bind_eq_ok.1 h
    cases h
    obtain ⟨hfound, htime'⟩ := addItem_found hadd
    exact ⟨point', rfl, hfound, htime'⟩
  case h_2 => cases h
  case h_3 => cases h

theorem forEach_item_single
    (htimes : ∀ item ∈ items, item.volumeCreationTimestamp = point.volumeCreationTimestamp)
    (hprepared : point.foundMetadata ||| metadataPebMapPrepared = point.foundMetadata)
    (h : Checked.forEach processMetadataMapItem items ⟨.useBuffer, [point]⟩ = .ok array) : ∃ point',
      array = ⟨.useBuffer, [point']⟩ ∧ point'.foundMetadata = point.foundMetadata := by
  induction items generalizing point with
  | nil =>
    cases h
    exact ⟨point, rfl, rfl⟩
  | cons item items ih =>
    obtain ⟨array', hitem, h⟩ := Checked.bind_eq_ok.1 h
    obtain ⟨point', rfl, hfound, htime⟩ := processMetadataMapItem_single (htimes item List.mem_cons_self) hitem
    rw [hprepared] at hfound
    obtain ⟨point'', harray, hfound'⟩ := ih
      (fun it hit => (htimes it (List.mem_cons_of_mem item hit)).trans htime.symm) (hfound ▸ hprepared) h
    exact ⟨point'', harray, hfound'.trans hfound⟩

theorem mergeMetadataMaps_single {maps : List MetadataMap}
    (htimes : ∀ map ∈ maps, ∀ item ∈ map.items,
      item.volumeCreationTimestamp = point.volumeCreationTimestamp)
    (hsome : ∃ map ∈ maps, map.items ≠ [])
    (h : mergeMetadataMaps maps ⟨.useBuffer, [point]⟩ = .ok array) : ∃ point',
      array = ⟨.useBuffer, [point']⟩ ∧
      point'.foundMetadata = point.foundMetadata ||| metadataPebMapPrepared := by
  have hall : ∀ item ∈ maps.flatMap MetadataMap.items,
      item.volumeCreationTimestamp = point.volumeCreationTimestamp := by
    intro item hitem
    obtain ⟨map, hmap, hitem⟩ := List.mem_flatMap.1 hitem
    exact htimes map hmap item hitem
  rw [mergeMetadataMaps_eq] at h
  cases hitems : maps.flatMap MetadataMap.items with
  | nil =>
    obtain ⟨map, hmap, hne⟩ := hsome
    exact absurd (List.flatMap_eq_nil_iff.1 hitems map hmap) hne
  | cons item items =>
    rw [hitems] at h hall
    obtain ⟨array', hitem, h⟩ := Checked.bind_eq_ok.1 h
    obtain ⟨point₁, rfl, hfound, htime⟩ := processMetadataMapItem_single (hall item List.mem_cons_self) hitem
    obtain ⟨point', harray, hfound'⟩ := forEach_item_single
      (fun it hit => (hall it (List.mem_cons_of_mem item hit)).trans htime.symm)
      (by rw [hfound, UInt64.or_assoc, UInt64.or_self]) h
    exact ⟨point', harray, hfound'.trans hfound⟩

end

section

variable {env : FsckDetection} {fuel eraseSize : Nat} {point : CreationPoint} {createTime : UInt64}

theorem pebsPerThread_eq_zero_iff {n c : Nat} (hn : n < 18446744073709551616) (hc : 0 < c)
    (hlt : c < 4294967296) : pebsPerThread n c = 0 ↔ n = 0 ∨ 18446744073709551616 < n + c := by
  obtain hwrap | hle := Nat.lt_or_ge 18446744073709551616 (n + c)
  · exact iff_of_true (pebsPerThread_wrapped hn hlt hwrap) (.inr hwrap)
  · rw [pebsPerThread_eq hc hle, Nat.div_eq_zero_iff_lt hc]
    omega

theorem executeWholeVolumeSearch_eq {dev : Nat → Nat → Option Bytes} {fsSize capacity : Nat}
    (herase : 0 < eraseSize) (hcapacity : 0 < capacity) (array : CreationArray) :
    executeWholeVolumeSearch dev eraseSize fsSize capacity array =
      (collectMetadata dev eraseSize (pebsPerThread (fsSize / eraseSize) capacity) (fsSize / eraseSize)
        capacity >>= fun maps => mergeMetadataMaps maps array) := by
  unfold executeWholeVolumeSearch
  rw [Checked.quot_of_ne (Nat.ne_of_gt herase), Checked.ok_bind, Checked.quot_of_ne (Nat.ne_of_gt hcapacity)]
  rfl

theorem shiftOne_pos {bits : Nat} (h : Checked.shiftOne SearchResult bits = .ok eraseSize) : 0 < eraseSize := by
  unfold Checked.shiftOne at h
  split at h
  · cases h
    exact Nat.two_pow_pos bits
  · cases h

theorem isDeviceContainsSsdfsVolume_eq (h : DetectionSucceeds env fuel eraseSize point) (force : Bool) :
    isDeviceContainsSsdfsVolume env fuel force =
      if force then
        completeVolumeSearch env.dev eraseSize env.fsSize.toNat env.threadsCapacity.toNat point
      else .ok .deviceHasFileSystem := by
  obtain ⟨⟨logErasesize, logPagesize, pageSize, hvalid, herase, hpage⟩, hsteps⟩ := h
  obtain ⟨hdr, -, -, -, hpoint⟩ := detectMetadata_done hsteps
  unfold isDeviceContainsSsdfsVolume
  rw [hvalid]
  simp only
  rw [herase, Checked.ok_bind, hpage, Checked.ok_bind, hsteps, Checked.ok_bind]
  simp only
  have hclassify : classifyDetection ⟨.useBuffer, [point]⟩ = .ok .deviceHasFileSystem := by
    rw [hpoint]
    rfl
  rw [hclassify]

theorem initPebEnvironment_zero {t n : Nat} (hn : n < 18446744073709551616) :
    initPebEnvironment 0 t n = ⟨0, min n t⟩ := by
  have hzero : Word.u64 (Word.sext32 0 * t) = 0 := by
    have hsext : Word.sext32 0 = 0 := rfl
    rw [hsext, Nat.zero_mul]
    rfl
  unfold initPebEnvironment
  simp only
  rw [hzero, Word.sub64_of_le (Nat.zero_le n) hn, Nat.sub_zero]

theorem completeVolumeSearch_idle {dev : Nat → Nat → Option Bytes} {fsSize capacity : Nat}
    (herase : 0 < eraseSize) (hcapacity : 0 < capacity)
    (hidle : pebsPerThread (fsSize / eraseSize) capacity = 0) :
    completeVolumeSearch dev eraseSize fsSize capacity point =
      classifyDetection ⟨.useBuffer, [point]⟩ := by
  obtain ⟨maps, hmaps, -, hinit⟩ := @collectMetadata_ok dev eraseSize 0 (fsSize / eraseSize) capacity
    (fun _ map => map = .init) fun i _ => ⟨.init, by
      unfold collectPebRange processPebRange initPebEnvironment
      simp only [Nat.min_zero, List.range_zero, List.map_nil]
      rfl, rfl⟩
  have hnone : maps.flatMap MetadataMap.items = [] := by
    apply List.flatMap_eq_nil_iff.2
    intro map hmap
    obtain ⟨i, hi, hget⟩ := List.mem_iff_getElem.1 hmap
    rw [hinit i map (by rw [List.getElem?_eq_getElem hi, hget])]
    rfl
  unfold completeVolumeSearch
  rw [executeWholeVolumeSearch_eq herase hcapacity, hidle, hmaps, Checked.ok_bind, mergeMetadataMaps_eq,
    hnone]
  rfl

theorem completeVolumeSearch_found {hdr : Bytes} {fsSize capacity : Nat} {state : DetectionState}
    (herase : 0 < eraseSize) (hcapacity : 0 < capacity) (hsize : fsSize < 18446744073709551616)
    (hone : OneCreation env.dev eraseSize (SegHdr.createTime hdr))
    (hread : headerAt env.dev eraseSize 0 = some hdr) (hseg : isSsdfsSegmentHeader hdr = true)
    (htype : SegHdr.segType hdr = initialSnapshotSegTypeId)
    (htime : point.volumeCreationTimestamp = SegHdr.createTime hdr)
    (hfound : point.foundMetadata = allCriticalMetadataFound) (hpebs : 0 < fsSize / eraseSize)
    (hbusy : 0 < pebsPerThread (fsSize / eraseSize) capacity)
    (h : completeVolumeSearch env.dev eraseSize fsSize capacity point = .ok state) :
    state ≠ .deviceHasFileSystem := by
  have hlt : fsSize / eraseSize < 18446744073709551616 :=
    Nat.lt_of_le_of_lt (Nat.div_le_self _ _) hsize
  obtain ⟨maps, hmaps, hlength, hcollected⟩ := @collectMetadata_ok env.dev eraseSize
    (pebsPerThread (fsSize / eraseSize) capacity) (fsSize / eraseSize) capacity
    (fun i map => ∃ l, CollectedOf (SegHdr.createTime hdr) map l ∧ (i = 0 → l ≠ [])) fun i hi => by
      cases i with
      | zero =>
        obtain ⟨count, hcount⟩ := Nat.exists_eq_succ_of_ne_zero
          (Nat.ne_of_gt (Nat.lt_min.2 ⟨hpebs, hbusy⟩))
        obtain ⟨map, item, l, hmap, hl⟩ := @collectPebRange_first _ _ _ count hone hread hseg htype
        rw [initPebEnvironment_zero hlt, hcount]
        exact ⟨map, hmap, item :: l, hl, fun _ => List.cons_ne_nil _ _⟩
      | succ i =>
        obtain ⟨map, l, hmap, hl⟩ := collectPebRange_collected hone
          (initPebEnvironment (i + 1) (pebsPerThread (fsSize / eraseSize) capacity) (fsSize / eraseSize))
        exact ⟨map, hmap, l, hl, fun hzero => absurd hzero (Nat.succ_ne_zero i)⟩
  have htimes : ∀ map ∈ maps, ∀ item ∈ map.items,
      item.volumeCreationTimestamp = point.volumeCreationTimestamp := by
    intro map hmap item hitem
    obtain ⟨i, hi, hget⟩ := List.mem_iff_getElem.1 hmap
    obtain ⟨l, hl, -⟩ := hcollected i map (by rw [List.getElem?_eq_getElem hi, hget])
    rw [hl.holds.items] at hitem
    exact (hl.created item hitem).trans htime.symm
  have hsome : ∃ map ∈ maps, map.items ≠ [] := by
    have hfirst : 0 < maps.length := hlength ▸ hcapacity
    obtain ⟨l, hl, hne⟩ := hcollected 0 maps[0] (List.getElem?_eq_getElem hfirst)
    refine ⟨maps[0], List.getElem_mem hfirst, ?_⟩
    rw [hl.holds.items]
    exact hne rfl
  unfold completeVolumeSearch at h
  rw [executeWholeVolumeSearch_eq herase hcapacity, hmaps, Checked.ok_bind] at h
  cases hmerge : mergeMetadataMaps maps ⟨.useBuffer, [point]⟩ with
  | error e =>
    rw [hmerge] at h
    cases e with
    | code e =>
      cases h
      exact nofun
    | abort | trap | stray | fuel => cases h
  | ok array =>
    rw [hmerge] at h
    obtain ⟨point', rfl, hprepared⟩ := mergeMetadataMaps_single htimes hsome hmerge
    rw [hfound] at hprepared
    change classifyDetection ⟨.useBuffer, [point']⟩ = .ok state at h
    unfold classifyDetection at h
    simp only [List.getLast?_singleton] at h
    rw [hprepared, if_neg (by decide), if_neg (by decide)] at h
    cases h
    exact nofun

/-- The search of the whole volume keeps the state that was detected only if no thread gets a PEB. -/
theorem detection_sameState_iff (h : DetectionSucceeds env fuel eraseSize point)
    (hone : OneCreation env.dev eraseSize createTime) :
    (∃ state, isDeviceContainsSsdfsVolume env fuel false = .ok state ∧
      isDeviceContainsSsdfsVolume env fuel true = .ok state) ↔
    0 < env.threadsCapacity.toNat ∧ (env.fsSize.toNat / eraseSize = 0 ∨
      18446744073709551616 < env.fsSize.toNat / eraseSize + env.threadsCapacity.toNat) := by
  have hsize := env.fsSize.toNat_lt
  have hthreads := env.threadsCapacity.toNat_lt
  obtain ⟨_, _, _, -, hshift, -⟩ := h.valid
  have herase := shiftOne_pos hshift
  have hlt : env.fsSize.toNat / eraseSize < 18446744073709551616 :=
    Nat.lt_of_le_of_lt (Nat.div_le_self _ _) hsize
  obtain ⟨hdr, hread, hseg, htype, hpoint⟩ := detectMetadata_done h.steps
  have htime : SegHdr.createTime hdr = createTime := hone 0 hdr hread hseg (by
    unfold PebHeader.ofBytes
    rw [htype]
    rfl)
  subst htime
  have hplain := isDeviceContainsSsdfsVolume_eq h false
  have hforce := isDeviceContainsSsdfsVolume_eq h true
  rw [if_neg (by decide)] at hplain
  rw [if_pos rfl] at hforce
  obtain hzero | hcapacity := Nat.eq_zero_or_pos env.threadsCapacity.toNat
  · refine iff_of_false ?_ fun hc => absurd hzero (Nat.ne_of_gt hc.1)
    rintro ⟨state, -, htrue⟩
    rw [hforce, hzero] at htrue
    unfold completeVolumeSearch executeWholeVolumeSearch at htrue
    rw [Checked.quot_of_ne (Nat.ne_of_gt herase)] at htrue
    cases htrue
  · rw [and_iff_right hcapacity, ← pebsPerThread_eq_zero_iff hlt hcapacity hthreads]
    constructor
    · rintro ⟨state, hfalse, htrue⟩
      cases hplain.symm.trans hfalse
      apply Nat.eq_zero_of_not_pos
      intro hbusy
      have hpebs : 0 < env.fsSize.toNat / eraseSize := by
        apply Nat.pos_of_ne_zero
        intro hnone
        exact Nat.ne_of_gt hbusy ((pebsPerThread_eq_zero_iff hlt hcapacity hthreads).2 (.inl hnone))
      rw [hforce] at htrue
      exact completeVolumeSearch_found herase hcapacity hsize hone hread hseg htype
        (by rw [hpoint]) (by rw [hpoint]) hpebs hbusy htrue rfl
    · intro hidle
      refine ⟨.deviceHasFileSystem, hplain, ?_⟩
      rw [hforce, completeVolumeSearch_idle herase hcapacity hidle, hpoint]
      rfl

end

/-- The header of an initial snapshot segment on pages of 4 KiB, with logs of 32 pages. -/
def snapshotHeader : Bytes :=
  poke (poke (poke (poke (poke (fun _ => 0) 4 0 superMagic.toNat) 2 4 segmentHdrMagic.toNat)
    1 0x10 12) 2 0x410 32) 2 0x412 initialSnapshotSegTypeId

def snapshotDevice (offset _size : Nat) : Option Bytes :=
  some (if offset = reservedVbrSize then snapshotHeader else fun _ => 0)

def foundSearches : MetadataSearches := ⟨fun _ => .ok (), .ok (), .ok (), .ok ()⟩

/-- A device of two erase blocks of 128 KiB. -/
def snapshotDetection (threadsCapacity : UInt32) : FsckDetection :=
  ⟨snapshotDevice, .ok (17, 12), foundSearches, 262144, threadsCapacity⟩

theorem snapshotDetection_succeeds (threadsCapacity : UInt32) :
    ∃ point, DetectionSucceeds (snapshotDetection threadsCapacity) 0 131072 point := by
  obtain ⟨⟨e, point⟩, hsteps⟩ : ∃ r, detectMetadata snapshotDevice 131072 0 foundSearches = .ok r :=
    Checked.exists_ok (by decide +kernel)
  have hdone : (detectMetadata snapshotDevice 131072 0 foundSearches).map (fun r => r.1) = .ok none := by
    decide +kernel
  rw [hsteps] at hdone
  cases hdone
  exact ⟨point, ⟨17, 12, 4096, rfl, rfl, rfl⟩, hsteps⟩

theorem snapshotDevice_once : OneCreation snapshotDevice 131072 0 := by
  have hsnapshot : SegHdr.createTime snapshotHeader = 0 := by decide +kernel
  have hblank : ¬isSsdfsSegmentHeader (fun _ => 0) = true := by decide +kernel
  intro pebId hdr hread hseg _
  have hcase : hdr = snapshotHeader ∨ hdr = fun _ => 0 := by
    rw [← Option.some.inj hread]
    exact ite_eq_or_eq _ _ _
  obtain rfl | rfl := hcase
  · exact hsnapshot
  · exact absurd hseg hblank

theorem detection_sameState_none : ∃ point, DetectionSucceeds (snapshotDetection 1) 0 131072 point ∧
    ¬∃ state, isDeviceContainsSsdfsVolume (snapshotDetection 1) 0 false = .ok state ∧
      isDeviceContainsSsdfsVolume (snapshotDetection 1) 0 true = .ok state := by
  obtain ⟨point, hpoint⟩ := snapshotDetection_succeeds 1
  refine ⟨point, hpoint, fun h => ?_⟩
  obtain ⟨-, hnone | hwrap⟩ := (detection_sameState_iff hpoint snapshotDevice_once).1 h
  · exact absurd hnone (by decide)
  · exact absurd hwrap (by decide)

/-- The additional search turns a file system into some metadata. -/
theorem detection_differs : (∃ point, DetectionSucceeds (snapshotDetection 1) 0 131072 point) ∧
    OneCreation (snapshotDetection 1).dev 131072 0 ∧
    isDeviceContainsSsdfsVolume (snapshotDetection 1) 0 false = .ok .deviceHasFileSystem ∧
    isDeviceContainsSsdfsVolume (snapshotDetection 1) 0 true = .ok .deviceHasSomeMetadata :=
  ⟨snapshotDetection_succeeds 1, snapshotDevice_once, by decide +kernel, by decide +kernel⟩

end Ssdfs
