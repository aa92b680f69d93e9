import Ssdfs.Lib.Insertion
import Ssdfs.Maptbl.Tables

namespace Ssdfs

structure MetadataPebItem where
  segId : UInt64
  lebId : UInt64
  pebId : UInt64
  type : PebType
  pebCreationTimestamp : UInt64
  volumeCreationTimestamp : UInt64
  deriving Repr, DecidableEq

/-- `array` is the memory of `capacity` items, the first `count` of which are in use. -/
structure MetadataMap where
  array : Nat → MetadataPebItem
  capacity : Nat
  count : Nat

def MetadataPebItem.blank : MetadataPebItem := ⟨0, 0, 0, .unknown, 0, 0⟩
def MetadataMap.init : MetadataMap := ⟨fun _ => .blank, 0, 0⟩

def MetadataMap.items (map : MetadataMap) : List MetadataPebItem :=
  (List.range map.count).map map.array

def metadataMapCapacityMin : Nat := 8
def intMax : Nat := 2147483647

def MetadataMap.isExhausted (map : MetadataMap) : Bool :=
  map.capacity = 0 ∨ map.count ≥ map.capacity

/-- A capacity that does not fit into an `int` is a number of bytes that no allocation gives. -/
def resizeMetadataMap (map : MetadataMap) : Mkfs MetadataMap :=
  if map.isExhausted = false then .ok map
  else if map.capacity = 0 then .ok { map with capacity := metadataMapCapacityMin }
  else do
    failIf (map.capacity * 2 > intMax) .enomem
    .ok { map with capacity := map.capacity * 2 }

def MetadataMap.put (item : MetadataPebItem) (map : MetadataMap) : Mkfs MetadataMap :=
  if map.count < map.capacity then
    .ok { map with array := Function.update map.array map.count item, count := map.count + 1 }
  else .error .stray

structure PebHeader where
  segId : UInt64
  lebId : UInt64
  segType : SegType
  pebCreateTime : UInt64
  createTime : UInt64
  deriving Repr, DecidableEq

def collectedPebType : SegType → Option PebType
  | .initialSnapshot => some .initSnap
  | .sb => some .sbseg
  | .segbmap => some .segbmap
  | .maptbl => some .maptbl
  | .leafNode => some .lnode
  | .hybridNode => some .hnode
  | .indexNode => some .idxnode
  | .unknown | .userData => none

def metadataMapAddPebDescriptor (pebId : UInt64) (hdr : PebHeader) (map : MetadataMap) :
    Mkfs MetadataMap := do
  let map ← resizeMetadataMap map
  match collectedPebType hdr.segType with
  | none => fail .einval
  | some type =>
    map.put ⟨hdr.segId, hdr.lebId, pebId, type, hdr.pebCreateTime, hdr.createTime⟩

/-- The maps that a thread may end with. -/
inductive MetadataMap.Collected : MetadataMap → Prop
  | init : Collected .init
  | add {map map' : MetadataMap} {pebId : UInt64} {hdr : PebHeader} : Collected map →
      metadataMapAddPebDescriptor pebId hdr map = .ok map' → Collected map'

/-- The maps are indexed by the types of segments. -/
structure CreationPoint where
  foundMetadata : UInt64
  volumeCreationTimestamp : UInt64
  metadataMap : SegType → MetadataMap

def metadataPebMapPrepared : UInt64 := 32

/-- The greatest timestamp stands for a point that is not in use yet. -/
def CreationPoint.init : CreationPoint := ⟨0, 0xFFFFFFFFFFFFFFFF, fun _ => .init⟩

inductive CreationArrayState
  | notInitialized
  | useBuffer
  | allocated
  deriving Repr, DecidableEq

/-- In the state `useBuffer` the only point is the inline buffer. -/
structure CreationArray where
  state : CreationArrayState
  points : List CreationPoint

def findCreationPoint (createTime : UInt64) (array : CreationArray) : Option Nat :=
  match array.state with
  | .useBuffer | .allocated =>
    array.points.findIdx? fun point => point.volumeCreationTimestamp = createTime
  | .notInitialized => none

def insertCreationPoint (createTime : UInt64) (points : List CreationPoint) : Mkfs CreationArray := do
  failIf (points.length + 1 > intMax) .enomem
  .ok ⟨.allocated, insertBefore (fun point => createTime.toNat < point.volumeCreationTimestamp.toNat)
    { CreationPoint.init with volumeCreationTimestamp := createTime } points⟩

def addCreationPoint (createTime : UInt64) (array : CreationArray) : Mkfs CreationArray :=
  match array.state, array.points with
  | _, [] => fail .einval
  | .useBuffer, [point] =>
    if point.volumeCreationTimestamp ≥ 0xFFFFFFFFFFFFFFFF then
      .ok ⟨.useBuffer, [{ CreationPoint.init with volumeCreationTimestamp := createTime }]⟩
    else insertCreationPoint createTime [point]
  | .useBuffer, _ => .error .stray
  | .allocated, points => insertCreationPoint createTime points
  | .notInitialized, _ => fail .erange

def metadataMapIndex : PebType → Option SegType
  | .initSnap => some .initialSnapshot
  | .sbseg => some .sb
  | .segbmap => some .segbmap
  | .maptbl => some .maptbl
  | .lnode => some .leafNode
  | .hnode => some .hybridNode
  | .idxnode => some .indexNode
  | .unknown | .data | .max => none

def findOrAddCreationPoint (createTime : UInt64) (array : CreationArray) :
    Mkfs (CreationArray × Nat) :=
  match findCreationPoint createTime array with
  | some i => .ok (array, i)
  | none => do
    let array ← addCreationPoint createTime array
    match findCreationPoint createTime array with
    | some i => .ok (array, i)
    | none => fail .enoent

def CreationPoint.addItem (item : MetadataPebItem) (index : SegType) (point : CreationPoint) :
    Mkfs CreationPoint := do
  let map ← resizeMetadataMap (point.metadataMap index)
  let map ← map.put item
  .ok { point with
    metadataMap := Function.update point.metadataMap index map
    foundMetadata := point.foundMetadata ||| metadataPebMapPrepared }

def processMetadataMapItem (item : MetadataPebItem) (array : CreationArray) : Mkfs CreationArray := do
  let (array, i) ← findOrAddCreationPoint item.volumeCreationTimestamp array
  match metadataMapIndex item.type, array.points[i]? with
  | some index, some point => do
    let point ← point.addItem item index
    .ok { array with points := array.points.set i point }
  | none, _ => fail .einval
  | _, none => .error .stray

def processThreadMetadataMap (map : MetadataMap) (array : CreationArray) : Mkfs CreationArray :=
  Checked.forRange map.count (fun i => processMetadataMapItem (map.array i)) array

def mergeMetadataMaps (threads : List MetadataMap) (array : CreationArray) : Mkfs CreationArray :=
  Checked.forEach processThreadMetadataMap threads array

end Ssdfs
