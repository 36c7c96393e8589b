import Fsapfs.BtreeNode

namespace Fsapfs
open Program

structure ObjectMapDescriptor where
  identifier : Nat
  transactionIdentifier : Nat
  flags : Nat
  size : Nat
  physicalAddress : Nat
  deriving Repr, DecidableEq

namespace ObjectMapDescriptor

def readKeyData (data : List UInt8) : Result (Nat × Nat) := do
  requireData data 16
  let identifier ← loadLittleEndian64 data 0
  let transactionIdentifier ← loadLittleEndian64 data 8
  return (identifier, transactionIdentifier)

def readValueData (data : List UInt8) : Result (Nat × Nat × Nat) := do
  requireData data 16
  let flags ← loadLittleEndian32 data 0
  let size ← loadLittleEndian32 data 4
  let physicalAddress ← loadLittleEndian64 data 8
  return (flags, size, physicalAddress)

def read (entry : BtreeEntry) : Result ObjectMapDescriptor := do
  let (identifier, transactionIdentifier) ← readKeyData entry.keyData
  let (flags, size, physicalAddress) ← readValueData entry.valueData
  return { identifier, transactionIdentifier, flags, size, physicalAddress }

end ObjectMapDescriptor

structure ObjectMapBtree where
  rootNodeBlockNumber : Nat
  deriving Repr, DecidableEq

namespace ObjectMapBtree

variable (nodes : Nat → Result BtreeNode)

def getRootNode (rootNodeBlockNumber : Nat) : Result BtreeNode := do
  if rootNodeBlockNumber > intMax then fail .valueOutOfBounds
  else do
    let node ← nodes rootNodeBlockNumber
    if node.objectType ≠ 0x40000002 ∨ node.objectSubtype ≠ 0x0000000b then fail .unsupportedValue
    else if node.isRootNode = false ∨ node.hasFixedSizeEntries = false then fail .unsupportedValue
    else do
      node.requireFooter 4096 16 16
      return node

def getSubNode (subNodeBlockNumber : Nat) : Result BtreeNode := do
  if subNodeBlockNumber > intMax then fail .valueOutOfBounds
  else do
    let node ← nodes subNodeBlockNumber
    if node.objectType ≠ 0x40000003 ∨ node.objectSubtype ≠ 0x0000000b then fail .unsupportedValue
    else if node.isRootNode ∨ node.hasFixedSizeEntries = false then fail .unsupportedValue
    else return node

/-- The entry last read in a node with its key, and the entry before it that is not after the key
looked for. -/
structure Scan where
  entry : Option BtreeEntry
  objectMapIdentifier : Nat
  objectMapTransaction : Nat
  previousEntry : Option BtreeEntry
  previousObjectMapIdentifier : Nat

def Scan.start : Scan where
  entry := none
  objectMapIdentifier := 0
  objectMapTransaction := 0
  previousEntry := none
  previousObjectMapIdentifier := 0

def scanEntries (objectIdentifier transactionIdentifier : Nat) : Scan → List BtreeEntry → Result Scan
  | scan, [] => .ok scan
  | scan, entry :: entries => do
      requireData entry.keyData 16
      let objectMapIdentifier ← loadLittleEndian64 entry.keyData 0
      let objectMapTransaction ← loadLittleEndian64 entry.keyData 8
      let reached : Scan := { scan with entry := some entry, objectMapIdentifier, objectMapTransaction }
      if objectMapIdentifier > objectIdentifier then return reached
      else if objectMapIdentifier = objectIdentifier ∧ objectMapTransaction > transactionIdentifier then
        return reached
      else
        scanEntries objectIdentifier transactionIdentifier
          { reached with previousEntry := some entry, previousObjectMapIdentifier := objectMapIdentifier } entries

/-- A found entry may be no entry at all: the result code alone says whether one was found. -/
def getEntryFromNodeByIdentifier (node : BtreeNode) (objectIdentifier transactionIdentifier : Nat) :
    Result (Option (Option BtreeEntry)) := do
  let scan ← scanEntries objectIdentifier transactionIdentifier Scan.start node.entries
  if node.isLeafNode then
    if scan.previousObjectMapIdentifier = objectIdentifier then return some scan.previousEntry
    else return none
  else if scan.previousEntry = none ∨
      (scan.objectMapIdentifier = objectIdentifier ∧ scan.objectMapTransaction ≤ transactionIdentifier) then
    return some scan.entry
  else return some scan.previousEntry

/-- The block number of the sub node; more data can follow it. -/
def readSubNodeBlockNumber (entry : Option BtreeEntry) : Result Nat :=
  match entry with
  | none => fail .valueMissing
  | some entry => do
      requireData entry.valueData 8
      loadLittleEndian64 entry.valueData 0

def getEntryUnderNode (objectIdentifier transactionIdentifier : Nat) :
    Nat → BtreeNode → Result (Option (Option BtreeEntry))
  | 0, _ => fail .valueOutOfBounds
  | depth + 1, node => do
      let found ← getEntryFromNodeByIdentifier node objectIdentifier transactionIdentifier
      match found with
      | none => return none
      | some entry =>
          if node.isLeafNode then return some entry
          else do
            let subNodeBlockNumber ← readSubNodeBlockNumber entry
            let subNode ← getSubNode nodes subNodeBlockNumber
            getEntryUnderNode objectIdentifier transactionIdentifier depth subNode

def getEntryByIdentifier (btree : ObjectMapBtree) (objectIdentifier transactionIdentifier : Nat) :
    Result (Option (Option BtreeEntry)) := do
  let node ← getRootNode nodes btree.rootNodeBlockNumber
  getEntryUnderNode nodes objectIdentifier transactionIdentifier (maximumBtreeNodeRecursionDepth + 1) node

def getDescriptorByObjectIdentifier (btree : ObjectMapBtree) (objectIdentifier transactionIdentifier : Nat) :
    Result (Option ObjectMapDescriptor) := do
  let found ← getEntryByIdentifier nodes btree objectIdentifier transactionIdentifier
  match found with
  | none => return none
  | some none => fail .valueMissing
  | some (some entry) => do
      let descriptor ← ObjectMapDescriptor.read entry
      return some descriptor

end ObjectMapBtree

end Fsapfs
