import Fsapfs.DirectoryLookup
import Fsapfs.RecordListing

namespace Fsapfs
open Program

structure OpenFileEntry where
  inode : Inode
  directoryRecord : Option DirectoryRecord
  directoryEntries : Option (List DirectoryRecord)

/-- The file entries that were retrieved from a file system share its B-tree. -/
structure OpenFileSystem where
  btree : FileSystemBtree
  fileEntries : List OpenFileEntry

namespace OpenFileSystem

abbrev FileSystemCall := Call ErrorCode OpenFileSystem

def onBtree {α : Type} (call : FileSystemBtree.TreeCall α) : FileSystemCall α := fun fileSystem =>
  ((call fileSystem.btree).1, { fileSystem with btree := (call fileSystem.btree).2 })

def onArray {κ : Type} (call : Listing.ListingCall κ Bool) : FileSystemCall (List κ) := fun fileSystem =>
  ((call { btree := fileSystem.btree, records := [] }).1.map fun _ =>
      (call { btree := fileSystem.btree, records := [] }).2.records,
    { fileSystem with btree := (call { btree := fileSystem.btree, records := [] }).2.btree })

def fileEntryAt (number : Nat) : FileSystemCall OpenFileEntry := fun fileSystem =>
  match fileSystem.fileEntries[number]? with
  | some fileEntry => (.ok fileEntry, fileSystem)
  | none => (fail .invalidValue, fileSystem)

def append (inode : Inode) (directoryRecord : Option DirectoryRecord) (fileSystem : OpenFileSystem) :
    OpenFileSystem :=
  { fileSystem with
    fileEntries := fileSystem.fileEntries ++ [{ inode, directoryRecord, directoryEntries := none }] }

def initializeFileEntry (inode : Inode) (directoryRecord : Option DirectoryRecord) : FileSystemCall Nat := do
  let fileSystem ← Call.self
  Call.update (append inode directoryRecord)
  return fileSystem.fileEntries.length

def setDirectoryEntries (number : Nat) (directoryEntries : List DirectoryRecord) (fileSystem : OpenFileSystem) :
    OpenFileSystem :=
  { fileSystem with
    fileEntries := fileSystem.fileEntries.modify number fun fileEntry =>
      { fileEntry with directoryEntries := some directoryEntries } }

section calls

variable (nodes : Nat → Result BtreeNode) (transactionIdentifier : Nat)

def getFileEntryByIdentifier (identifier : Nat) : FileSystemCall (Option Nat) := do
  let inode ← onBtree (FileSystemBtree.getInodeByIdentifier nodes identifier transactionIdentifier)
  match inode with
  | none => return none
  | some inode => do
      let number ← initializeFileEntry inode none
      return some number

def getRootDirectory : FileSystemCall (Option Nat) := getFileEntryByIdentifier nodes transactionIdentifier 2

def requireInode (identifier : Nat) : FileSystemCall Inode := do
  let inode ← onBtree (FileSystemBtree.getInodeByIdentifier nodes identifier transactionIdentifier)
  match inode with
  | none => Call.lift (fail .getFailed)
  | some inode => return inode

def getParentFileEntry (number : Nat) : FileSystemCall (Option Nat) := do
  let fileEntry ← fileEntryAt number
  if fileEntry.inode.identifier > 2 then do
    let inode ← requireInode nodes transactionIdentifier fileEntry.inode.parentIdentifier
    let number ← initializeFileEntry inode none
    return some number
  else return none

def getDirectoryEntries (number : Nat) (fileEntry : OpenFileEntry) : FileSystemCall (List DirectoryRecord) := do
  let directoryEntries ← onArray
    (FileSystemBtree.getDirectoryEntries nodes fileEntry.inode.identifier transactionIdentifier)
  Call.update (setDirectoryEntries number directoryEntries)
  return directoryEntries

def requireDirectoryEntries (number : Nat) : FileSystemCall (List DirectoryRecord) := do
  let fileEntry ← fileEntryAt number
  match fileEntry.directoryEntries with
  | some directoryEntries => return directoryEntries
  | none => getDirectoryEntries nodes transactionIdentifier number fileEntry

def getNumberOfSubFileEntries (number : Nat) : FileSystemCall Nat := do
  let directoryEntries ← requireDirectoryEntries nodes transactionIdentifier number
  return directoryEntries.length

def entryByIndex (directoryEntries : List DirectoryRecord) (index : Int) : Result DirectoryRecord :=
  if index < 0 then fail .getFailed
  else
    match directoryEntries[index.toNat]? with
    | some directoryRecord => .ok directoryRecord
    | none => fail .getFailed

def getSubFileEntryByIndex (number : Nat) (index : Int) : FileSystemCall Nat := do
  let directoryEntries ← requireDirectoryEntries nodes transactionIdentifier number
  let directoryRecord ← Call.lift (entryByIndex directoryEntries index)
  let inode ← requireInode nodes transactionIdentifier directoryRecord.identifier
  initializeFileEntry inode (some directoryRecord)

variable {α : Type} (unicode : Unicode α)

def getFileEntryByPathFrom (identifier : Nat) (string : List α) : FileSystemCall (Option Nat) := do
  let found ← onBtree (FileSystemBtree.getInodeByPath unicode nodes transactionIdentifier identifier string)
  match found with
  | none => return none
  | some found => do
      let number ← initializeFileEntry found.1 found.2
      return some number

def getFileEntryByPath (string : List α) : FileSystemCall (Option Nat) :=
  getFileEntryByPathFrom nodes transactionIdentifier unicode 2 string

/-- The name is looked up as a path. -/
def getSubFileEntryByName (number : Nat) (string : List α) : FileSystemCall (Option Nat) := do
  let fileEntry ← fileEntryAt number
  getFileEntryByPathFrom nodes transactionIdentifier unicode fileEntry.inode.identifier string

end calls

end OpenFileSystem

end Fsapfs
