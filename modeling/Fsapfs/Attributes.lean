import Fsapfs.FileEntry

namespace Fsapfs
open Program

/-- Changes the items in order, each with the ones after it at hand: it stops at the first failure. -/
def updateEach {ε α : Type} (change : α → List α → Except (Program.Failure ε) α) :
    List α → Except (Program.Failure ε) Unit × List α
  | [] => (.ok (), [])
  | item :: items =>
      match change item items with
      | .error failure => (.error failure, item :: items)
      | .ok item' => ((updateEach change items).1, item' :: (updateEach change items).2)

/-- Value data of no bytes is data that is not set. -/
structure AttributeValues where
  flags : Nat
  valueData : List UInt8
  valueDataSize : Nat
  valueDataStreamIdentifier : Nat
  valueDataFileExtents : Option (List FileExtent)

inductive ValueDataStream
  | fileExtents (dataStream : FileDataStream)
  | data (valueData : List UInt8) (valueDataSize : Nat)

namespace AttributeValues

abbrev ValuesCall := Call ErrorCode AttributeValues

def setFileExtents (fileExtents : List FileExtent) (values : AttributeValues) : AttributeValues :=
  { values with valueDataFileExtents := some fileExtents }

/-- Leaves the extents as far as they were changed. -/
def replaceFileExtents (changed : Result Unit × List FileExtent) : ValuesCall Unit := do
  Call.update (setFileExtents changed.2)
  Call.lift changed.1

/-- Sizes an extent up to the next one, and cuts it at the used size; a last FILE_EXTENT2 may start
beyond the used size. -/
def sizeExtent (dataStreamSize : Nat) (extent : FileExtent) (extents : List FileExtent) :
    Result FileExtent := do
  let dataSize ←
    match extents with
    | next :: _ =>
        if next.logicalOffset < extent.logicalOffset then fail .valueOutOfBounds
        else Except.ok (next.logicalOffset - extent.logicalOffset)
    | [] =>
        if extent.logicalOffset > dataStreamSize then
          if extent.isSealed then Except.ok 0 else fail .valueOutOfBounds
        else Except.ok (dataStreamSize - extent.logicalOffset)
  if extent.logicalOffset ≥ dataStreamSize then return extent.resize 0
  else return extent.resize (min dataSize (dataStreamSize - extent.logicalOffset))

def resolveUsedExtent (tree : SealedExtentTree) (extent : FileExtent) : Result FileExtent :=
  if extent.dataSize = 0 then return extent else resolveExtent tree extent

def createFromData (valueData : List UInt8) (valueDataSize : Nat) : Result ValueDataStream :=
  if valueDataSize > 0 ∧ valueData = [] then fail .invalidValue
  else if valueDataSize > ssizeMax then fail .valueExceedsMaximum
  else return .data valueData valueDataSize

variable (source : ExtentSource)

def getFileExtents : ValuesCall Unit := do
  let values ← Call.self
  if values.valueDataFileExtents.isSome then Call.lift (fail .valueAlreadySet)
  else do
    let fileExtents ← Call.lift (source.getFileExtents values.valueDataStreamIdentifier)
    Call.update (setFileExtents fileExtents)

def requireFileExtents : ValuesCall Unit := do
  let values ← Call.self
  if values.valueDataFileExtents.isNone then getFileExtents source
  else return ()

def fileExtents : ValuesCall (List FileExtent) := do
  let values ← Call.self
  Call.lift (match values.valueDataFileExtents with
    | some fileExtents => .ok fileExtents
    | none => .error .undefined)

/-- Sizes the extents, removes those beyond the used size, and resolves the others. -/
def determineFileExtents : ValuesCall Unit := do
  let values ← Call.self
  let records ← fileExtents
  replaceFileExtents (updateEach (sizeExtent values.valueDataSize) records)
  let sized ← fileExtents
  let used := sized.filter (·.dataSize ≠ 0)
  Call.update (setFileExtents used)
  if records.any FileExtent.isSealed then do
    match ← Call.lift source.getSealedExtentTree with
    | none => Call.lift (fail .valueMissing)
    | some tree => replaceFileExtents (updateEach (fun extent _ => resolveUsedExtent tree extent) used)
  else return ()

def getDataStream (ioHandle : IoHandle) (encryptionContext : Option EncryptionContext) :
    ValuesCall (Option ValueDataStream) := do
  let values ← Call.self
  if values.flags &&& 0x0001 ≠ 0 then do
    requireFileExtents source
    determineFileExtents source
    let extents ← fileExtents
    let dataStream ← Call.lift (FileDataStream.createFromFileExtents ioHandle encryptionContext extents
      values.valueDataSize false)
    return some (.fileExtents dataStream)
  else if values.flags &&& 0x0002 ≠ 0 then do
    let dataStream ← Call.lift (createFromData values.valueData values.valueDataSize)
    return some dataStream
  else return none

end AttributeValues

end Fsapfs
