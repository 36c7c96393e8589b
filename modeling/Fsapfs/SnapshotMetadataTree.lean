import Fsapfs.FileSystemBtree
import Fsapfs.NodeCache

namespace Fsapfs
open Program

structure SnapshotMetadata where
  volumeSuperblockBlockNumber : Nat
  name : List UInt8
  deriving Repr, DecidableEq

namespace SnapshotMetadata

def readKeyData (data : List UInt8) : Result Unit := requireData data 8

def readValueData (data : List UInt8) : Result SnapshotMetadata := do
  requireData data 50
  let volumeSuperblockBlockNumber ← loadLittleEndian32 data 8
  let nameSize ← loadLittleEndian16 data 48
  if nameSize = 0 ∨ nameSize > data.length - 50 then fail .valueOutOfBounds
  else do
    let name ← slice data 50 nameSize
    return { volumeSuperblockBlockNumber, name }

def read (entry : BtreeEntry) : Result SnapshotMetadata := do
  readKeyData entry.keyData
  readValueData entry.valueData

end SnapshotMetadata

structure SnapshotMetadataTree where
  objectMapBtree : ObjectMapBtree
  rootNodeBlockNumber : Nat
  nodeCache : NodeCache

namespace SnapshotMetadataTree

abbrev TreeCall := Call ErrorCode SnapshotMetadataTree

def create (libfcache : Libfcache) (objectMapBtree : ObjectMapBtree) (rootNodeBlockNumber : Nat)
    (capacity : Option Nat) : SnapshotMetadataTree where
  objectMapBtree := objectMapBtree
  rootNodeBlockNumber := rootNodeBlockNumber
  nodeCache := NodeCache.create libfcache capacity

def onCache {α : Type} (call : NodeCache.CacheCall α) : TreeCall α := fun tree =>
  ((call tree.nodeCache).1, { tree with nodeCache := (call tree.nodeCache).2 })

section nodes

variable (nodes : Nat → Result BtreeNode)

def readRootNode (blockNumber : Nat) : Result (Option BtreeNode) := do
  let node ← nodes blockNumber
  if node.objectType = 0 ∧ node.flags = 0 then return none
  else if FileSystemBtree.hasNoHeader node = false ∧
      (node.objectType ≠ 0x40000002 ∨ node.objectSubtype ≠ 0x00000010) then
    fail .unsupportedValue
  else if node.isRootNode = false then fail .unsupportedValue
  else if node.footer = none then fail .valueMissing
  else do
    node.requireFooter 4096 0 0
    return some node

def readSubNode (blockNumber : Nat) : Result BtreeNode := do
  let node ← nodes blockNumber
  if FileSystemBtree.hasNoHeader node = false ∧
      (node.objectType ≠ 0x40000003 ∨ node.objectSubtype ≠ 0x00000010) then
    fail .unsupportedValue
  else if node.isRootNode then fail .unsupportedValue
  else return node

/-- The number of the root node is that of its block, or an object identifier. -/
def rootNodePhysicalBlockNumber (tree : SnapshotMetadataTree) (transactionIdentifier : Nat) : Result Nat := do
  let descriptor ← ObjectMapBtree.getDescriptorByObjectIdentifier nodes tree.objectMapBtree
    tree.rootNodeBlockNumber transactionIdentifier
  match descriptor with
  | none => return tree.rootNodeBlockNumber
  | some descriptor => return descriptor.physicalAddress

/-- A root node that was read is put into the cache under the number of its block, and got from it under the
number it was asked for. -/
def storeRootNode (physicalBlockNumber rootNodeBlockNumber : Nat) (node : BtreeNode) :
    NodeCache.CacheCall (Option NodeReference) := do
  let cache ← Call.self
  let _ ← NodeCache.obtain { blockNumber := physicalBlockNumber, serial := cache.accesses.length, node }
  let cache ← Call.self
  match cache.getValue rootNodeBlockNumber with
  | none => Call.lift (fail .getFailed)
  | some value => do
      let reference ← NodeCache.obtain value
      return some reference

def getRootNode (transactionIdentifier : Nat) : TreeCall (Option NodeReference) := do
  let tree ← Call.self
  let physicalBlockNumber ← Call.lift (rootNodePhysicalBlockNumber nodes tree transactionIdentifier)
  if physicalBlockNumber > intMax then Call.lift (fail .valueOutOfBounds)
  else onCache do
    let cache ← Call.self
    match cache.getValue physicalBlockNumber with
    | some value => do
        let reference ← NodeCache.obtain value
        return some reference
    | none => do
        let rootNode ← Call.lift (readRootNode nodes physicalBlockNumber)
        match rootNode with
        | none => return none
        | some node => storeRootNode physicalBlockNumber tree.rootNodeBlockNumber node

def getSubNode (subNodeBlockNumber : Nat) : TreeCall NodeReference :=
  if subNodeBlockNumber > intMax then Call.lift (fail .valueOutOfBounds)
  else onCache (NodeCache.getNode subNodeBlockNumber (readSubNode nodes subNodeBlockNumber))

def getSubNodeBlockNumberFromEntry (tree : SnapshotMetadataTree) (entry : BtreeEntry)
    (transactionIdentifier : Nat) : Result (Option Nat) := do
  requireData entry.valueData 8
  let subNodeObjectIdentifier ← loadLittleEndian64 entry.valueData 0
  let descriptor ← ObjectMapBtree.getDescriptorByObjectIdentifier nodes tree.objectMapBtree
    subNodeObjectIdentifier transactionIdentifier
  return descriptor.map ObjectMapDescriptor.physicalAddress

end nodes

structure NodeAccess (ρ : Type) where
  getRootNode : Nat → TreeCall (Option ρ)
  getSubNode : Nat → TreeCall ρ
  useNode : ρ → TreeCall Unit
  node : ρ → BtreeNode

def cachedNodes (nodes : Nat → Result BtreeNode) : NodeAccess NodeReference where
  getRootNode := getRootNode nodes
  getSubNode := getSubNode nodes
  useNode reference := onCache (NodeCache.useNode reference)
  node reference := reference.value.node

section lookup

def findLeafEntry (objectIdentifier : Nat) : List BtreeEntry → Result (Option BtreeEntry)
  | [] => .ok none
  | entry :: entries => do
      let snapshotMetadataIdentifier ← readFileSystemIdentifier entry
      if keyIdentifier snapshotMetadataIdentifier = objectIdentifier then return some entry
      else findLeafEntry objectIdentifier entries

def findBranchEntry (objectIdentifier : Nat) : Option BtreeEntry → List BtreeEntry → Result (Option BtreeEntry)
  | previousEntry, [] => .ok previousEntry
  | previousEntry, entry :: entries => do
      let snapshotMetadataIdentifier ← readFileSystemIdentifier entry
      if keyIdentifier snapshotMetadataIdentifier ≥ objectIdentifier then
        if previousEntry = none ∨ keyIdentifier snapshotMetadataIdentifier = objectIdentifier then
          return some entry
        else return previousEntry
      else findBranchEntry objectIdentifier (some entry) entries

/-- A found entry of a branch may be no entry at all. -/
def getEntryFromNodeByIdentifier (node : BtreeNode) (objectIdentifier : Nat) :
    Result (Option (Option BtreeEntry)) :=
  if node.isLeafNode then do
    let entry ← findLeafEntry objectIdentifier node.entries
    return entry.map some
  else do
    let entry ← findBranchEntry objectIdentifier none node.entries
    return some entry

variable {ρ : Type} (access : NodeAccess ρ) (transactionIdentifier objectIdentifier : Nat)

/-- The value of a branch entry is taken for the block number of the sub node. -/
def getEntryUnderNode : Nat → ρ → TreeCall (Option BtreeEntry)
  | 0, _ => Call.lift (fail .valueOutOfBounds)
  | depth + 1, reference => do
      access.useNode reference
      let found ← Call.lift (getEntryFromNodeByIdentifier (access.node reference) objectIdentifier)
      match found with
      | none => return none
      | some entry =>
          if (access.node reference).isLeafNode then return entry
          else do
            let subNodeBlockNumber ← Call.lift (ObjectMapBtree.readSubNodeBlockNumber entry)
            let subNode ← access.getSubNode subNodeBlockNumber
            getEntryUnderNode depth subNode

def getEntryByIdentifier : TreeCall (Option BtreeEntry) := do
  let rootNode ← access.getRootNode transactionIdentifier
  match rootNode with
  | none => Call.lift (fail .getFailed)
  | some reference => getEntryUnderNode access objectIdentifier (maximumBtreeNodeRecursionDepth + 1) reference

def getMetadataByObjectIdentifier : TreeCall (Option SnapshotMetadata) := do
  let entry ← getEntryByIdentifier access transactionIdentifier objectIdentifier
  match entry with
  | none => return none
  | some entry => do
      let metadata ← Call.lift (SnapshotMetadata.read entry)
      return some metadata

end lookup

end SnapshotMetadataTree

/-- The array that snapshots are appended to, next to the tree they are read from. -/
structure SnapshotListing where
  tree : SnapshotMetadataTree
  snapshots : List SnapshotMetadata

namespace SnapshotListing
open SnapshotMetadataTree

abbrev ListingCall := Call ErrorCode SnapshotListing

def onTree {α : Type} (call : TreeCall α) : ListingCall α := fun listing =>
  ((call listing.tree).1, { listing with tree := (call listing.tree).2 })

def append (metadata : SnapshotMetadata) (listing : SnapshotListing) : SnapshotListing :=
  { listing with snapshots := listing.snapshots ++ [metadata] }

def clear (listing : SnapshotListing) : SnapshotListing := { listing with snapshots := [] }

def emptyOnError {α : Type} (call : ListingCall α) : ListingCall α := fun listing =>
  match call listing with
  | (.ok a, listing') => (.ok a, listing')
  | (.error failure, listing') => (.error failure, listing'.clear)

variable {ρ : Type} (access : NodeAccess ρ) (nodes : Nat → Result BtreeNode) (transactionIdentifier : Nat)

def appendLeafSnapshots : Bool → List BtreeEntry → ListingCall Bool
  | found, [] => pure found
  | found, entry :: entries => do
      let snapshotMetadataIdentifier ← Call.lift (readFileSystemIdentifier entry)
      if keyDataType snapshotMetadataIdentifier ≠ 1 then appendLeafSnapshots found entries
      else do
        let metadata ← Call.lift (SnapshotMetadata.read entry)
        Call.update (append metadata)
        appendLeafSnapshots true entries

/-- A key that is too short leaves the array to the callers, which empty it. -/
def getSnapshotsFromLeafNode (reference : ρ) : ListingCall Bool :=
  emptyOnError do
    onTree (access.useNode reference)
    if (access.node reference).isLeafNode then appendLeafSnapshots false (access.node reference).entries
    else Call.lift (fail .unsupportedValue)

/-- The entries of a branch are read one by one, each after what was done for the one before it. -/
def visitEntries (next : Nat → ListingCall Bool) (reference : ρ) : Bool → List BtreeEntry → ListingCall Bool
  | found, [] => pure found
  | found, entry :: entries => do
      onTree (access.useNode reference)
      Call.lift (requireData entry.keyData 8)
      let listing ← Call.self
      let blockNumber ← Call.lift
        (getSubNodeBlockNumberFromEntry nodes listing.tree entry transactionIdentifier)
      match blockNumber with
      | none => Call.lift (fail .getFailed)
      | some subNodeBlockNumber => do
          let result ← next subNodeBlockNumber
          visitEntries next reference (found || result) entries

def getSnapshotsFromBranchNode (next : Nat → ListingCall Bool) (reference : ρ) : ListingCall Bool :=
  emptyOnError
    (if (access.node reference).isLeafNode then Call.lift (fail .unsupportedValue)
    else visitEntries access nodes transactionIdentifier next reference false (access.node reference).entries)

def getSnapshotsFromNode (next : Nat → ListingCall Bool) (reference : ρ) : ListingCall Bool :=
  if (access.node reference).isLeafNode then getSnapshotsFromLeafNode access reference
  else getSnapshotsFromBranchNode access nodes transactionIdentifier next reference

def getSnapshotsLimit (subNodeBlockNumber : Nat) : ListingCall Bool := do
  let subNode ← onTree (access.getSubNode subNodeBlockNumber)
  if (access.node subNode).isLeafNode then getSnapshotsFromLeafNode access subNode
  else Call.lift (fail .valueOutOfBounds)

def getSnapshotsBody (next : Nat → ListingCall Bool) (subNodeBlockNumber : Nat) : ListingCall Bool := do
  let subNode ← onTree (access.getSubNode subNodeBlockNumber)
  getSnapshotsFromNode access nodes transactionIdentifier next subNode

def getSnapshotsFromSubNode : Nat → Nat → ListingCall Bool :=
  descend (getSnapshotsLimit access) (getSnapshotsBody access nodes transactionIdentifier)

def getSnapshotsWithin (next : Nat → ListingCall Bool) : ListingCall Bool :=
  emptyOnError do
    let rootNode ← onTree (access.getRootNode transactionIdentifier)
    match rootNode with
    | none => Call.lift (fail .getFailed)
    | some reference => getSnapshotsFromNode access nodes transactionIdentifier next reference

def getSnapshots : ListingCall Bool :=
  getSnapshotsWithin access nodes transactionIdentifier
    (getSnapshotsFromSubNode access nodes transactionIdentifier maximumBtreeNodeRecursionDepth)

end SnapshotListing

end Fsapfs
