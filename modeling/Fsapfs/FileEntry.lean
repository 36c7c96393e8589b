import Fsapfs.FileDataStream
import Fsapfs.SealedExtentTree

namespace Fsapfs
open Program

/-- What the file system B-tree gives: the file extents of a data stream in the order of their keys,
and the sealed extent tree of a sealed volume. -/
structure ExtentSource where
  getFileExtents : Nat → Result (List FileExtent)
  getSealedExtentTree : Result (Option SealedExtentTree)

def FileExtent.isSealed (extent : FileExtent) : Bool := extent.fileSystemDataType == .fileExtent2

/-- Looks a FILE_EXTENT2 up once, at its start, and cuts it to what is left of the sealed extent. -/
def resolveExtent (tree : SealedExtentTree) (extent : FileExtent) : Result FileExtent :=
  if extent.isSealed then do
    match ← tree.lookup extent.identifier extent.logicalOffset with
    | none => fail .valueMissing
    | some (physicalBlockNumber, maximumDataSize) =>
        return { extent with
          physicalBlockNumber
          dataSize := min maximumDataSize extent.dataSize }
  else return extent

/-- Where the extent after those before this list starts, or the end of the data. -/
def followingOffset (dataStreamSize : Nat) : List FileExtent → Nat
  | [] => dataStreamSize
  | next :: _ => next.logicalOffset

def resizeExtents (dataStreamSize : Nat) : List FileExtent → Result (List FileExtent)
  | [] => return []
  | extent :: extents =>
      if followingOffset dataStreamSize extents < extent.logicalOffset then fail .valueOutOfBounds
      else do
        let rest ← resizeExtents dataStreamSize extents
        return extent.resize (followingOffset dataStreamSize extents - extent.logicalOffset) :: rest

/-- A file entry whose data is not compressed. -/
structure FileEntry where
  ioHandle : IoHandle
  encryptionContext : Option EncryptionContext
  dataStreamIdentifier : Nat
  dataStreamSize : Nat
  inodeFlags : Nat
  fileExtents : Option (List FileExtent)
  dataStream : Option FileDataStream

namespace FileEntry

abbrev EntryCall := Call ErrorCode FileEntry

def isSparse (entry : FileEntry) : Bool := entry.inodeFlags &&& 0x00000200 ≠ 0

def setFileExtents (fileExtents : List FileExtent) (entry : FileEntry) : FileEntry :=
  { entry with fileExtents := some fileExtents }

def setDataStream (dataStream : FileDataStream) (entry : FileEntry) : FileEntry :=
  { entry with dataStream := some dataStream }

variable (source : ExtentSource)

def determineFileExtents (entry : FileEntry) : Result (List FileExtent) := do
  let records ← source.getFileExtents entry.dataStreamIdentifier
  let extents ← resizeExtents entry.dataStreamSize records
  if extents.any FileExtent.isSealed then do
    match ← source.getSealedExtentTree with
    | none => fail .valueMissing
    | some tree => extents.mapM (resolveExtent tree)
  else return extents

def getFileExtents : EntryCall Unit := do
  let entry ← Call.self
  if entry.fileExtents.isSome then Call.lift (fail .valueAlreadySet)
  else do
    let fileExtents ← Call.lift (entry.determineFileExtents source)
    Call.update (setFileExtents fileExtents)

def requireFileExtents : EntryCall (List FileExtent) := do
  let entry ← Call.self
  match entry.fileExtents with
  | some fileExtents => return fileExtents
  | none => do
      getFileExtents source
      let entry ← Call.self
      Call.lift (match entry.fileExtents with
        | some fileExtents => .ok fileExtents
        | none => .error .undefined)

def getDataStream : EntryCall Unit := do
  let entry ← Call.self
  if entry.dataStream.isSome then Call.lift (fail .valueAlreadySet)
  else do
    let fileExtents ← requireFileExtents source
    let dataStream ← Call.lift (FileDataStream.createFromFileExtents entry.ioHandle
      entry.encryptionContext fileExtents entry.dataStreamSize entry.isSparse)
    Call.update (setDataStream dataStream)

end FileEntry

end Fsapfs
