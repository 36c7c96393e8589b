import Fsapfs.FileSystemBtree

namespace Fsapfs
open Program

/-- The array that records are appended to, next to the tree they are read from. -/
structure Listing (κ : Type) where
  btree : FileSystemBtree
  records : List κ

namespace Listing

variable {κ α : Type}

abbrev ListingCall (κ : Type) := Call ErrorCode (Listing κ)

def onBtree (call : FileSystemBtree.TreeCall α) : ListingCall κ α := fun listing =>
  ((call listing.btree).1, { listing with btree := (call listing.btree).2 })

def append (record : κ) (listing : Listing κ) : Listing κ := { listing with records := listing.records ++ [record] }

def clear (listing : Listing κ) : Listing κ := { listing with records := [] }

def emptyOnError (call : ListingCall κ α) : ListingCall κ α := fun listing =>
  match call listing with
  | (.ok a, listing') => (.ok a, listing')
  | (.error failure, listing') => (.error failure, listing'.clear)

end Listing

namespace FileSystemBtree
open Listing

/-- What an entry of a branch means for a listing: it ends it, it is passed by, or the sub tree before
it can hold records. -/
inductive BranchStep
  | stop
  | pass
  | visitPrevious
  deriving Repr, DecidableEq

/-- A kind of records: what is read from the entries of branches and leaves. -/
structure RecordKind (κ : Type) where
  examine : Nat → BtreeEntry → Result BranchStep
  dataTypes : List Nat
  read : BtreeEntry → Result κ

section listing

variable {κ : Type} (nodes : Nat → Result BtreeNode) (kind : RecordKind κ) (identifier transactionIdentifier : Nat)

def appendLeafRecords : Bool → List BtreeEntry → ListingCall κ Bool
  | found, [] => pure found
  | found, entry :: entries => do
      let fileSystemIdentifier ← Call.lift (readFileSystemIdentifier entry)
      if keyIdentifier fileSystemIdentifier > identifier then return found
      else if fileSystemIdentifier ∈ kind.dataTypes.map fun dataType => lookupIdentifier dataType identifier then do
        let record ← Call.lift (kind.read entry)
        Call.update (append record)
        appendLeafRecords true entries
      else appendLeafRecords found entries

def getRecordsFromLeafNode (node : BtreeNode) : ListingCall κ Bool :=
  emptyOnError
    (if node.isLeafNode then appendLeafRecords kind identifier false node.entries
    else Call.lift (fail .unsupportedValue))

def visitEntry (next : Nat → ListingCall κ Bool) (node : BtreeNode) (entry : Option BtreeEntry) :
    ListingCall κ Bool := do
  let subNodeBlockNumber ← onBtree (requireSubNodeBlockNumber nodes node entry transactionIdentifier)
  next subNodeBlockNumber

def visitBranchEntries (next : Nat → ListingCall κ Bool) (node : BtreeNode) :
    Option BtreeEntry → Bool → List BtreeEntry → ListingCall κ Bool
  | previousEntry, found, [] => do
      let result ← visitEntry nodes transactionIdentifier next node previousEntry
      return found || result
  | previousEntry, found, entry :: entries => do
      let step ← Call.lift (kind.examine identifier entry)
      match step, previousEntry with
      | .stop, _ => do
          let result ← visitEntry nodes transactionIdentifier next node previousEntry
          return found || result
      | .visitPrevious, some previousEntry => do
          let result ← visitEntry nodes transactionIdentifier next node (some previousEntry)
          visitBranchEntries next node (some entry) (found || result) entries
      | _, _ => visitBranchEntries next node (some entry) found entries

def getRecordsFromBranchNode (next : Nat → ListingCall κ Bool) (node : BtreeNode) : ListingCall κ Bool :=
  emptyOnError
    (if node.isLeafNode then Call.lift (fail .unsupportedValue)
    else visitBranchEntries nodes kind identifier transactionIdentifier next node none false node.entries)

def getRecordsFromNode (next : Nat → ListingCall κ Bool) (node : BtreeNode) : ListingCall κ Bool :=
  if node.isLeafNode then getRecordsFromLeafNode kind identifier node
  else getRecordsFromBranchNode nodes kind identifier transactionIdentifier next node

def getRecordsFromSubNode : Nat → Nat → ListingCall κ Bool :=
  descend
    (fun subNodeBlockNumber => do
      let subNode ← Call.lift (getSubNode nodes subNodeBlockNumber)
      if subNode.isLeafNode then getRecordsFromLeafNode kind identifier subNode
      else Call.lift (fail .valueOutOfBounds))
    fun next subNodeBlockNumber => do
      let subNode ← Call.lift (getSubNode nodes subNodeBlockNumber)
      getRecordsFromNode nodes kind identifier transactionIdentifier next subNode

def getRecordsWithin (next : Nat → ListingCall κ Bool) : ListingCall κ Bool :=
  emptyOnError do
    let listing ← Call.self
    let rootNode ← Call.lift (getRootNode nodes listing.btree.rootNodeBlockNumber)
    match rootNode with
    | none => return false
    | some node => getRecordsFromNode nodes kind identifier transactionIdentifier next node

def getRecords : ListingCall κ Bool :=
  getRecordsWithin nodes kind identifier transactionIdentifier
    (getRecordsFromSubNode nodes kind identifier transactionIdentifier maximumBtreeNodeRecursionDepth)

end listing

def examineKey (dataType identifier : Nat) (entry : BtreeEntry) : Result BranchStep := do
  let fileSystemIdentifier ← readFileSystemIdentifier entry
  if keyIdentifier fileSystemIdentifier > identifier ∨
      (keyIdentifier fileSystemIdentifier = identifier ∧ keyDataType fileSystemIdentifier > dataType) then
    return .stop
  else if keyIdentifier fileSystemIdentifier = identifier ∧ keyDataType fileSystemIdentifier = dataType then
    return .visitPrevious
  else return .pass

/-- Only an extent that is not the first of its file makes the sub tree before it one to visit. -/
def examineFileExtentKey (identifier : Nat) (entry : BtreeEntry) : Result BranchStep := do
  let fileSystemIdentifier ← readFileSystemIdentifier entry
  if keyIdentifier fileSystemIdentifier > identifier ∨
      (keyIdentifier fileSystemIdentifier = identifier ∧ keyDataType fileSystemIdentifier > 13) then
    return .stop
  else if keyIdentifier fileSystemIdentifier = identifier ∧
      (keyDataType fileSystemIdentifier = 8 ∨ keyDataType fileSystemIdentifier = 13) then
    if entry.keyData.length < 16 then fail .valueOutOfBounds
    else do
      let fileExtentLogicalAddress ← loadLittleEndian64 entry.keyData 8
      if fileExtentLogicalAddress > 0 then return .visitPrevious else return .pass
  else return .pass

def directoryRecords : RecordKind DirectoryRecord where
  examine := examineKey 9
  dataTypes := [9]
  read := DirectoryRecord.read

def extendedAttributes : RecordKind ExtendedAttribute where
  examine := examineKey 4
  dataTypes := [4]
  read := ExtendedAttribute.read

def fileExtents : RecordKind FileExtent where
  examine := examineFileExtentKey
  dataTypes := [8, 13]
  read := FileExtent.read

section members

variable (nodes : Nat → Result BtreeNode) (identifier transactionIdentifier : Nat)

def getDirectoryEntries : ListingCall DirectoryRecord Bool :=
  getRecords nodes directoryRecords identifier transactionIdentifier

def getAttributes : ListingCall ExtendedAttribute Bool :=
  getRecords nodes extendedAttributes identifier transactionIdentifier

def getFileExtents : ListingCall FileExtent Bool :=
  getRecords nodes fileExtents identifier transactionIdentifier

end members

end FileSystemBtree

end Fsapfs
