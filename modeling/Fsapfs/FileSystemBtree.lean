import Fsapfs.FileSystemRecords
import Fsapfs.ObjectMapBtree
import Fsapfs.Program.Descent

namespace Fsapfs
open Program

inductive BranchChildOidEncoding
  | unknown
  | absoluteOid
  | relativeToRootOid
  deriving Repr, DecidableEq

structure FileSystemBtree where
  objectMapBtree : ObjectMapBtree
  rootNodeBlockNumber : Nat
  rootNodeObjectIdentifier : Nat
  branchChildOidEncoding : BranchChildOidEncoding
  useCaseFolding : Bool
  deriving Repr, DecidableEq

namespace FileSystemBtree

abbrev TreeCall := Call ErrorCode FileSystemBtree

section nodes

variable (nodes : Nat → Result BtreeNode)

def hasNoHeader (node : BtreeNode) : Bool := node.flags &&& 0x0010 ≠ 0

/-- The root node; none if the block is not in use. -/
def getRootNode (rootNodeBlockNumber : Nat) : Result (Option BtreeNode) := do
  if rootNodeBlockNumber > intMax then fail .valueOutOfBounds
  else do
    let node ← nodes rootNodeBlockNumber
    if node.objectType = 0 ∧ node.flags = 0 then return none
    else if hasNoHeader node = false ∧
        ((node.objectType ≠ 0x00000002 ∧ node.objectType ≠ 0x10000002) ∨ node.objectSubtype ≠ 0x0000000e) then
      fail .unsupportedValue
    else if node.isRootNode = false ∨ node.hasFixedSizeEntries then fail .unsupportedValue
    else do
      node.requireFooter 4096 0 0
      return some node

def getSubNode (subNodeBlockNumber : Nat) : Result BtreeNode := do
  if subNodeBlockNumber > intMax then fail .valueOutOfBounds
  else do
    let node ← nodes subNodeBlockNumber
    if hasNoHeader node = false ∧
        ((node.objectType ≠ 0x00000003 ∧ node.objectType ≠ 0x10000003) ∨ node.objectSubtype ≠ 0x0000000e) then
      fail .unsupportedValue
    else if node.isRootNode ∨ node.hasFixedSizeEntries then fail .unsupportedValue
    else return node

/-- The object identifiers a branch value can stand for, in the order they are tried. -/
def candidates (btree : FileSystemBtree) (raw : Nat) : Result (List (Nat × BranchChildOidEncoding)) := do
  let relative ←
    if btree.rootNodeObjectIdentifier = 0 then Except.ok 0
    else if raw > 2 ^ 64 - 1 - btree.rootNodeObjectIdentifier then fail .valueOutOfBounds
    else Except.ok (btree.rootNodeObjectIdentifier + raw)
  if relative = 0 ∨ relative = raw then return [(raw, .absoluteOid)]
  else if btree.branchChildOidEncoding = .relativeToRootOid then
    return [(relative, .relativeToRootOid), (raw, .absoluteOid)]
  else return [(raw, .absoluteOid), (relative, .relativeToRootOid)]

/-- The first object identifier that leads to a node of the expected level. -/
def firstCandidate (btree : FileSystemBtree) (transactionIdentifier expectedLevel : Nat) :
    List (Nat × BranchChildOidEncoding) → Result (Option (Nat × BranchChildOidEncoding))
  | [] => .ok none
  | (objectIdentifier, encoding) :: candidates => do
      let descriptor ← ObjectMapBtree.getDescriptorByObjectIdentifier nodes btree.objectMapBtree
        objectIdentifier transactionIdentifier
      match descriptor with
      | none => firstCandidate btree transactionIdentifier expectedLevel candidates
      | some descriptor =>
          match getSubNode nodes descriptor.physicalAddress with
          | .ok subNode =>
              if subNode.level = expectedLevel then return some (descriptor.physicalAddress, encoding)
              else firstCandidate btree transactionIdentifier expectedLevel candidates
          | .error (.error _) => firstCandidate btree transactionIdentifier expectedLevel candidates
          | .error failure => .error failure

def resolveEntry (btree : FileSystemBtree) (node : BtreeNode) (entry : Option BtreeEntry)
    (transactionIdentifier : Nat) : Result (Option (Nat × BranchChildOidEncoding)) := do
  if node.level = 0 then fail .valueOutOfBounds
  else
    match entry with
    | none => fail .invalidValue
    | some entry => do
        requireData entry.valueData 8
        let raw ← loadLittleEndian64 entry.valueData 0
        let candidates ← candidates btree raw
        firstCandidate nodes btree transactionIdentifier (node.level - 1) candidates

def learnEncoding (encoding : BranchChildOidEncoding) (btree : FileSystemBtree) : FileSystemBtree :=
  if btree.branchChildOidEncoding = .unknown then { btree with branchChildOidEncoding := encoding } else btree

def getSubNodeBlockNumberFromEntry (node : BtreeNode) (entry : Option BtreeEntry)
    (transactionIdentifier : Nat) : TreeCall (Option Nat) := do
  let btree ← Call.self
  let found ← Call.lift (resolveEntry nodes btree node entry transactionIdentifier)
  match found with
  | none => return none
  | some (blockNumber, encoding) => do
      Call.update (learnEncoding encoding)
      return some blockNumber

/-- Every caller treats a sub node that cannot be resolved as an error. -/
def requireSubNodeBlockNumber (node : BtreeNode) (entry : Option BtreeEntry) (transactionIdentifier : Nat) :
    TreeCall Nat := do
  let blockNumber ← getSubNodeBlockNumberFromEntry nodes node entry transactionIdentifier
  match blockNumber with
  | none => Call.lift (fail .getFailed)
  | some blockNumber => return blockNumber

end nodes

def findLeafEntry (lookupIdentifier : Nat) : List BtreeEntry → Result (Option BtreeEntry)
  | [] => .ok none
  | entry :: entries => do
      let fileSystemIdentifier ← readFileSystemIdentifier entry
      if fileSystemIdentifier = lookupIdentifier then return some entry
      else findLeafEntry lookupIdentifier entries

def findBranchEntry (identifier dataType : Nat) : Option BtreeEntry → List BtreeEntry →
    Result (Option BtreeEntry)
  | previousEntry, [] => .ok previousEntry
  | previousEntry, entry :: entries => do
      let fileSystemIdentifier ← readFileSystemIdentifier entry
      if keyIdentifier fileSystemIdentifier ≥ identifier then
        if previousEntry = none ∨
            (keyIdentifier fileSystemIdentifier = identifier ∧ keyDataType fileSystemIdentifier ≤ dataType) then
          return some entry
        else return previousEntry
      else findBranchEntry identifier dataType (some entry) entries

def lookupIdentifier (dataType identifier : Nat) : Nat := dataType <<< 60 ||| identifier

/-- A found entry of a branch may be no entry at all. -/
def getEntryFromNodeByIdentifier (node : BtreeNode) (identifier dataType : Nat) :
    Result (Option (Option BtreeEntry)) :=
  if node.isLeafNode then do
    let entry ← findLeafEntry (lookupIdentifier dataType identifier) node.entries
    return entry.map some
  else do
    let entry ← findBranchEntry identifier dataType none node.entries
    return some entry

section lookup

variable (nodes : Nat → Result BtreeNode) (identifier dataType transactionIdentifier : Nat)

def getEntryFromSubTree (next : Nat → TreeCall (Option BtreeEntry)) (node : BtreeNode) :
    TreeCall (Option BtreeEntry) := do
  let found ← Call.lift (getEntryFromNodeByIdentifier node identifier dataType)
  match found with
  | none => return none
  | some entry =>
      if node.isLeafNode then return entry
      else do
        let subNodeBlockNumber ← requireSubNodeBlockNumber nodes node entry transactionIdentifier
        next subNodeBlockNumber

def getEntryFromSubNode : Nat → Nat → TreeCall (Option BtreeEntry) :=
  descend
    (fun subNodeBlockNumber => do
      let _ ← Call.lift (getSubNode nodes subNodeBlockNumber)
      Call.lift (fail .valueOutOfBounds))
    fun next subNodeBlockNumber => do
      let subNode ← Call.lift (getSubNode nodes subNodeBlockNumber)
      getEntryFromSubTree nodes identifier dataType transactionIdentifier next subNode

def getEntryByIdentifier : TreeCall (Option BtreeEntry) := do
  let btree ← Call.self
  let rootNode ← Call.lift (getRootNode nodes btree.rootNodeBlockNumber)
  match rootNode with
  | none => return none
  | some node =>
      getEntryFromSubTree nodes identifier dataType transactionIdentifier
        (getEntryFromSubNode nodes identifier dataType transactionIdentifier maximumBtreeNodeRecursionDepth)
        node

end lookup

def getInodeByIdentifier (nodes : Nat → Result BtreeNode) (identifier transactionIdentifier : Nat) :
    TreeCall (Option Inode) := do
  let entry ← getEntryByIdentifier nodes identifier 3 transactionIdentifier
  match entry with
  | none => return none
  | some entry => do
      let inode ← Call.lift (Inode.read entry)
      return some inode

end FileSystemBtree

end Fsapfs
