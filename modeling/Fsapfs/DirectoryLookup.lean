import Fsapfs.FileSystemBtree
import Fsapfs.Name

namespace Fsapfs.FileSystemBtree
open Program

structure DirectoryName (α : Type) where
  parentIdentifier : Nat
  string : List α
  nameHash : Nat

section search

variable {α : Type} (unicode : Unicode α) (name : DirectoryName α)

def findDirectoryRecord (useCaseFolding : Bool) : List BtreeEntry → Result (Option DirectoryRecord)
  | [] => .ok none
  | entry :: entries => do
      let fileSystemIdentifier ← readFileSystemIdentifier entry
      if fileSystemIdentifier = lookupIdentifier 9 name.parentIdentifier then do
        let key ← DirectoryRecord.readKeyData entry.keyData
        let order ← DirectoryRecord.compareName unicode key name.string name.nameHash useCaseFolding
        if order = .eq then do
          let directoryRecord ← DirectoryRecord.readValueData key entry.valueData
          return some directoryRecord
        else findDirectoryRecord useCaseFolding entries
      else findDirectoryRecord useCaseFolding entries

/-- The entry of a branch before the first one that comes after the name; the records are taken to be sorted
by case-sensitive name. -/
def findDirectoryBranchEntry : Option BtreeEntry → List BtreeEntry → Result (Option BtreeEntry)
  | previousEntry, [] => .ok previousEntry
  | previousEntry, entry :: entries => do
      let fileSystemIdentifier ← readFileSystemIdentifier entry
      if keyIdentifier fileSystemIdentifier > name.parentIdentifier ∨
          (keyIdentifier fileSystemIdentifier = name.parentIdentifier ∧ keyDataType fileSystemIdentifier > 9) then
        return previousEntry
      else if keyIdentifier fileSystemIdentifier = name.parentIdentifier ∧
          keyDataType fileSystemIdentifier = 9 then do
        let key ← DirectoryRecord.readKeyData entry.keyData
        let order ← DirectoryRecord.compareName unicode key name.string name.nameHash false
        if order = .lt then return previousEntry else findDirectoryBranchEntry (some entry) entries
      else findDirectoryBranchEntry (some entry) entries

variable (nodes : Nat → Result BtreeNode) (transactionIdentifier : Nat)

def getDirectoryRecordFromLeafNode (node : BtreeNode) : TreeCall (Option DirectoryRecord) :=
  if node.isLeafNode then do
    let btree ← Call.self
    Call.lift (findDirectoryRecord unicode name btree.useCaseFolding node.entries)
  else Call.lift (fail .unsupportedValue)

def getDirectoryRecordFromBranchNode (next : Nat → TreeCall (Option DirectoryRecord)) (node : BtreeNode) :
    TreeCall (Option DirectoryRecord) :=
  if node.isLeafNode then Call.lift (fail .unsupportedValue)
  else do
    let entry ← Call.lift (findDirectoryBranchEntry unicode name none node.entries)
    let subNodeBlockNumber ← requireSubNodeBlockNumber nodes node entry transactionIdentifier
    next subNodeBlockNumber

def getDirectoryRecordFromNode (next : Nat → TreeCall (Option DirectoryRecord)) (node : BtreeNode) :
    TreeCall (Option DirectoryRecord) :=
  if node.isLeafNode then getDirectoryRecordFromLeafNode unicode name node
  else getDirectoryRecordFromBranchNode unicode name nodes transactionIdentifier next node

def getDirectoryRecordFromSubNode : Nat → Nat → TreeCall (Option DirectoryRecord) :=
  descend
    (fun subNodeBlockNumber => do
      let subNode ← Call.lift (getSubNode nodes subNodeBlockNumber)
      if subNode.isLeafNode then getDirectoryRecordFromLeafNode unicode name subNode
      else Call.lift (fail .valueOutOfBounds))
    fun next subNodeBlockNumber => do
      let subNode ← Call.lift (getSubNode nodes subNodeBlockNumber)
      getDirectoryRecordFromNode unicode name nodes transactionIdentifier next subNode

def getDirectoryRecordFromRootNode (rootNode : BtreeNode) : TreeCall (Option DirectoryRecord) :=
  getDirectoryRecordFromNode unicode name nodes transactionIdentifier
    (getDirectoryRecordFromSubNode unicode name nodes transactionIdentifier maximumBtreeNodeRecursionDepth) rootNode

end search

section inode

variable {α : Type} (unicode : Unicode α) (nodes : Nat → Result BtreeNode) (transactionIdentifier : Nat)

def getDirectoryRecordByString (rootNode : BtreeNode) (parentIdentifier : Nat) (string : List α) :
    TreeCall (Option DirectoryRecord) := do
  let btree ← Call.self
  let nameHash ← Call.lift (calculateNameHash unicode.mappings unicode.encoding btree.useCaseFolding string)
  getDirectoryRecordFromRootNode unicode { parentIdentifier, string, nameHash } nodes transactionIdentifier rootNode

/-- A found inode is reported as an error; without one there is no entry to read it from. -/
def getInodeByName (parentIdentifier : Nat) (string : List α) : TreeCall (Option (Inode × DirectoryRecord)) := do
  if string.length > ssizeMax then Call.lift (fail .valueExceedsMaximum)
  else do
    let btree ← Call.self
    let rootNode ← Call.lift (getRootNode nodes btree.rootNodeBlockNumber)
    match rootNode with
    | none => return none
    | some rootNode => do
        let directoryRecord ← getDirectoryRecordByString unicode nodes transactionIdentifier rootNode parentIdentifier
          string
        match directoryRecord with
        | none => return none
        | some directoryRecord => do
            let entry ← getEntryByIdentifier nodes directoryRecord.identifier 3 transactionIdentifier
            match entry with
            | some _ => Call.lift (fail .getFailed)
            | none => Call.lift (fail .valueMissing)

/-- The units up to the separator or the end of the string, and those after it; the character that ends the
segment is left out, as one unit. -/
def nextSegment : Nat → List α → List α → Result (List α × List α)
  | _, segment, [] => .ok (segment, [])
  | 0, _, _ :: _ => .error .unfinished
  | fuel + 1, segment, unit :: string => do
      let (character, rest) ← unicode.encoding.next (unit :: string)
      let copied := (unit :: string).take ((unit :: string).length - rest.length)
      if character = 0x2f ∨ character = 0 then return ((segment ++ copied).dropLast, rest)
      else nextSegment fuel (segment ++ copied) rest

/-- Searches the segments of a path one in the other; the last record is the one of the path. -/
def getDirectoryRecordBySegments (rootNode : BtreeNode) :
    Nat → Nat → Option DirectoryRecord → List α → TreeCall (Option (Nat × Option DirectoryRecord))
  | _, lookupIdentifier, directoryRecord, [] => return some (lookupIdentifier, directoryRecord)
  | 0, _, _, _ :: _ => Call.lift (.error .unfinished)
  | fuel + 1, lookupIdentifier, _, unit :: string => do
      let (segment, rest) ← Call.lift (nextSegment unicode (unit :: string).length [] (unit :: string))
      if segment = [] then return none
      else do
        let found ← getDirectoryRecordByString unicode nodes transactionIdentifier rootNode lookupIdentifier segment
        match found with
        | none => return none
        | some directoryRecord =>
            getDirectoryRecordBySegments rootNode fuel directoryRecord.identifier (some directoryRecord) rest

def dropSeparator (string : List α) : List α :=
  match string with
  | [] => []
  | unit :: rest => if unicode.encoding.value unit = 0x2f then rest else unit :: rest

def getInodeWithRecord (lookupIdentifier : Nat) (directoryRecord : Option DirectoryRecord) :
    TreeCall (Option (Inode × Option DirectoryRecord)) := do
  let entry ← getEntryByIdentifier nodes lookupIdentifier 3 transactionIdentifier
  match entry with
  | none => Call.lift (fail .getFailed)
  | some entry => do
      let inode ← Call.lift (Inode.read entry)
      return some (inode, directoryRecord)

def getInodeByPath (parentIdentifier : Nat) (string : List α) :
    TreeCall (Option (Inode × Option DirectoryRecord)) := do
  if string.length > ssizeMax then Call.lift (fail .valueExceedsMaximum)
  else do
    let btree ← Call.self
    let rootNode ← Call.lift (getRootNode nodes btree.rootNodeBlockNumber)
    match rootNode with
    | none => return none
    | some rootNode => do
        let found ←
          if string.length = 0 ∨ string.length = 1 then pure (some (parentIdentifier, none))
          else
            getDirectoryRecordBySegments unicode nodes transactionIdentifier rootNode string.length parentIdentifier
              none (dropSeparator unicode string)
        match found with
        | none => return none
        | some (lookupIdentifier, directoryRecord) =>
            getInodeWithRecord nodes transactionIdentifier lookupIdentifier directoryRecord

end inode

end Fsapfs.FileSystemBtree
