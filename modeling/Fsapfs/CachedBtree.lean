import Fsapfs.NodeCache
import Fsapfs.RecordListing

namespace Fsapfs
open Program

/-- A file system tree with the cache that its nodes are got from. -/
structure CachedBtree where
  btree : FileSystemBtree
  nodeCache : NodeCache

namespace CachedBtree

abbrev CachedCall := Call ErrorCode CachedBtree

variable {α : Type}

def create (libfcache : Libfcache) (btree : FileSystemBtree) (capacity : Option Nat) : CachedBtree where
  btree := btree
  nodeCache := NodeCache.create libfcache capacity

def onCache (call : NodeCache.CacheCall α) : CachedCall α := fun tree =>
  ((call tree.nodeCache).1, { tree with nodeCache := (call tree.nodeCache).2 })

def learnEncoding (encoding : BranchChildOidEncoding) (tree : CachedBtree) : CachedBtree :=
  { tree with btree := tree.btree.learnEncoding encoding }

def attempt (call : CachedCall α) : CachedCall (Option α) := fun tree =>
  match call tree with
  | (.ok a, tree') => (.ok (some a), tree')
  | (.error (.error _), tree') => (.ok none, tree')
  | (.error failure, tree') => (.error failure, tree')

section nodes

variable (nodes : Nat → Result BtreeNode) (transactionIdentifier : Nat)

def obtainRootNode (rootNodeBlockNumber : Nat) : NodeCache.CacheCall (Option NodeReference) := do
  let cache ← Call.self
  match cache.getValue rootNodeBlockNumber with
  | some value => do
      let reference ← NodeCache.obtain value
      return some reference
  | none => do
      let rootNode ← Call.lift (FileSystemBtree.getRootNode nodes rootNodeBlockNumber)
      match rootNode with
      | none => return none
      | some node => do
          let reference ← NodeCache.obtain
            { blockNumber := rootNodeBlockNumber, serial := cache.accesses.length, node }
          return some reference

def getRootNode : CachedCall (Option NodeReference) := do
  let tree ← Call.self
  if tree.btree.rootNodeBlockNumber > intMax then Call.lift (fail .valueOutOfBounds)
  else onCache (obtainRootNode nodes tree.btree.rootNodeBlockNumber)

def getSubNode (subNodeBlockNumber : Nat) : CachedCall NodeReference :=
  if subNodeBlockNumber > intMax then Call.lift (fail .valueOutOfBounds)
  else onCache (NodeCache.getNode subNodeBlockNumber (FileSystemBtree.getSubNode nodes subNodeBlockNumber))

def entryCandidates (btree : FileSystemBtree) (node : BtreeNode) (entry : Option BtreeEntry) :
    Result (List (Nat × BranchChildOidEncoding)) :=
  if node.level = 0 then fail .valueOutOfBounds
  else
    match entry with
    | none => fail .invalidValue
    | some entry => do
        requireData entry.valueData 8
        let raw ← loadLittleEndian64 entry.valueData 0
        btree.candidates raw

/-- The first object identifier that leads to a node of the expected level; the nodes that are tried are got from
the cache. -/
def firstCandidate (expectedLevel : Nat) :
    List (Nat × BranchChildOidEncoding) → CachedCall (Option (Nat × BranchChildOidEncoding))
  | [] => pure none
  | (objectIdentifier, encoding) :: candidates => do
      let tree ← Call.self
      let descriptor ← Call.lift (ObjectMapBtree.getDescriptorByObjectIdentifier nodes tree.btree.objectMapBtree
        objectIdentifier transactionIdentifier)
      match descriptor with
      | none => firstCandidate expectedLevel candidates
      | some descriptor => do
          let subNode ← attempt (getSubNode nodes descriptor.physicalAddress)
          match subNode with
          | none => firstCandidate expectedLevel candidates
          | some subNode =>
              if subNode.value.node.level = expectedLevel then return some (descriptor.physicalAddress, encoding)
              else firstCandidate expectedLevel candidates

/-- The level of the node and the value of its entry are read before a candidate is tried. -/
def getSubNodeBlockNumberFromEntry (node : NodeReference) (entry : Option BtreeEntry) : CachedCall (Option Nat) := do
  onCache (NodeCache.useNode node)
  let tree ← Call.self
  let candidates ← Call.lift (entryCandidates tree.btree node.value.node entry)
  let found ← firstCandidate nodes transactionIdentifier (node.value.node.level - 1) candidates
  match found with
  | none => return none
  | some (blockNumber, encoding) => do
      Call.update (learnEncoding encoding)
      return some blockNumber

def requireSubNodeBlockNumber (node : NodeReference) (entry : Option BtreeEntry) : CachedCall Nat := do
  let blockNumber ← getSubNodeBlockNumberFromEntry nodes transactionIdentifier node entry
  match blockNumber with
  | none => Call.lift (fail .getFailed)
  | some blockNumber => return blockNumber

end nodes

end CachedBtree

/-- The array that records are appended to, next to the tree they are read from. -/
structure CachedListing (κ : Type) where
  tree : CachedBtree
  records : List κ

namespace CachedListing

variable {κ α : Type}

abbrev ListingCall (κ : Type) := Call ErrorCode (CachedListing κ)

def onTree (call : CachedBtree.CachedCall α) : ListingCall κ α := fun listing =>
  ((call listing.tree).1, { listing with tree := (call listing.tree).2 })

def append (record : κ) (listing : CachedListing κ) : CachedListing κ :=
  { listing with records := listing.records ++ [record] }

def clear (listing : CachedListing κ) : CachedListing κ := { listing with records := [] }

def emptyOnError (call : ListingCall κ α) : ListingCall κ α := fun listing =>
  match call listing with
  | (.ok a, listing') => (.ok a, listing')
  | (.error failure, listing') => (.error failure, listing'.clear)

def useNode (node : NodeReference) : ListingCall κ Unit := onTree (CachedBtree.onCache (NodeCache.useNode node))

section listing

variable (nodes : Nat → Result BtreeNode) (kind : FileSystemBtree.RecordKind κ) (identifier transactionIdentifier : Nat)

def appendLeafRecords : Bool → List BtreeEntry → ListingCall κ Bool
  | found, [] => pure found
  | found, entry :: entries => do
      let fileSystemIdentifier ← Call.lift (readFileSystemIdentifier entry)
      if keyIdentifier fileSystemIdentifier > identifier then return found
      else if fileSystemIdentifier ∈
          kind.dataTypes.map fun dataType => FileSystemBtree.lookupIdentifier dataType identifier then do
        let record ← Call.lift (kind.read entry)
        Call.update (append record)
        appendLeafRecords true entries
      else appendLeafRecords found entries

def getRecordsFromLeafNode (node : NodeReference) : ListingCall κ Bool :=
  emptyOnError
    (if node.value.node.isLeafNode then do
      useNode node
      appendLeafRecords kind identifier false node.value.node.entries
    else Call.lift (fail .unsupportedValue))

def visitEntry (next : Nat → ListingCall κ Bool) (node : NodeReference) (entry : Option BtreeEntry) :
    ListingCall κ Bool := do
  let subNodeBlockNumber ← onTree
    (CachedBtree.requireSubNodeBlockNumber nodes transactionIdentifier node entry)
  next subNodeBlockNumber

/-- The entries of a branch are read one by one, each after what was visited before it. -/
def visitBranchEntries (next : Nat → ListingCall κ Bool) (node : NodeReference) :
    Option BtreeEntry → Bool → List BtreeEntry → ListingCall κ Bool
  | previousEntry, found, [] => do
      let result ← visitEntry nodes transactionIdentifier next node previousEntry
      return found || result
  | previousEntry, found, entry :: entries => do
      useNode node
      let step ← Call.lift (kind.examine identifier entry)
      match step, previousEntry with
      | .stop, _ => do
          let result ← visitEntry nodes transactionIdentifier next node previousEntry
          return found || result
      | .visitPrevious, some previousEntry => do
          let result ← visitEntry nodes transactionIdentifier next node (some previousEntry)
          visitBranchEntries next node (some entry) (found || result) entries
      | _, _ => visitBranchEntries next node (some entry) found entries

def getRecordsFromBranchNode (next : Nat → ListingCall κ Bool) (node : NodeReference) : ListingCall κ Bool :=
  emptyOnError
    (if node.value.node.isLeafNode then Call.lift (fail .unsupportedValue)
    else
      visitBranchEntries nodes kind identifier transactionIdentifier next node none false node.value.node.entries)

def getRecordsFromNode (next : Nat → ListingCall κ Bool) (node : NodeReference) : ListingCall κ Bool :=
  if node.value.node.isLeafNode then getRecordsFromLeafNode kind identifier node
  else getRecordsFromBranchNode nodes kind identifier transactionIdentifier next node

def getRecordsLimit (subNodeBlockNumber : Nat) : ListingCall κ Bool := do
  let subNode ← onTree (CachedBtree.getSubNode nodes subNodeBlockNumber)
  if subNode.value.node.isLeafNode then getRecordsFromLeafNode kind identifier subNode
  else Call.lift (fail .valueOutOfBounds)

def getRecordsBody (next : Nat → ListingCall κ Bool) (subNodeBlockNumber : Nat) : ListingCall κ Bool := do
  let subNode ← onTree (CachedBtree.getSubNode nodes subNodeBlockNumber)
  getRecordsFromNode nodes kind identifier transactionIdentifier next subNode

def getRecordsFromSubNode : Nat → Nat → ListingCall κ Bool :=
  descend (getRecordsLimit nodes kind identifier) (getRecordsBody nodes kind identifier transactionIdentifier)

def getRecordsWithin (next : Nat → ListingCall κ Bool) : ListingCall κ Bool :=
  emptyOnError do
    let rootNode ← onTree (CachedBtree.getRootNode nodes)
    match rootNode with
    | none => return false
    | some node => getRecordsFromNode nodes kind identifier transactionIdentifier next node

def getRecords : ListingCall κ Bool :=
  getRecordsWithin nodes kind identifier transactionIdentifier
    (getRecordsFromSubNode nodes kind identifier transactionIdentifier maximumBtreeNodeRecursionDepth)

end listing

section members

variable (nodes : Nat → Result BtreeNode) (identifier transactionIdentifier : Nat)

def getDirectoryEntries : ListingCall DirectoryRecord Bool :=
  getRecords nodes FileSystemBtree.directoryRecords identifier transactionIdentifier

def getAttributes : ListingCall ExtendedAttribute Bool :=
  getRecords nodes FileSystemBtree.extendedAttributes identifier transactionIdentifier

def getFileExtents : ListingCall FileExtent Bool :=
  getRecords nodes FileSystemBtree.fileExtents identifier transactionIdentifier

end members

end CachedListing

end Fsapfs
