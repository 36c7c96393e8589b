import Fsapfs.DataBlockVector
import Fsapfs.DataStream
import Fsapfs.Program.Call

namespace Fsapfs
open Program

structure EncryptionContext where
  crypt : Nat → List UInt8 → Result (List UInt8)
  length : ∀ {sector : Nat} {data data' : List UInt8},
    crypt sector data = .ok data' → data'.length = data.length

structure FileSystemDataHandle where
  ioHandle : IoHandle
  encryptionContext : Option EncryptionContext
  fileExtents : Option (List FileExtent)

def readDataBlockAt (ioHandle : IoHandle) (encryptionContext : Option EncryptionContext)
    (fileIoHandle : DataStream) (dataSize fileOffset encryptionIdentifier : Nat) :
    Result (List UInt8) := do
  if dataSize = 0 then fail .valueMissing
  else if dataSize > ssizeMax then fail .valueOutOfBounds
  else if ioHandle.bytesPerSector = 0 then fail .valueMissing
  else do
    let data ← fileIoHandle.readExactly dataSize fileOffset
    match encryptionContext with
    | none => return data
    | some context =>
        context.crypt (encryptionIdentifier * dataSize % 2 ^ 64 / ioHandle.bytesPerSector) data

namespace FileSystemDataHandle

def encryptionIdentifier (handle : FileSystemDataHandle) (element : Element) : Result Nat :=
  let identifier := element.offset / element.size
  match handle.fileExtents with
  | none => .ok identifier
  | some fileExtents =>
      match fileExtents[element.fileIndex]? with
      | none => fail .getFailed
      | some extent =>
          .ok ((extent.encryptionIdentifier + identifier + 2 ^ 64 -
            extent.physicalBlockNumber % 2 ^ 64) % 2 ^ 64)

def readDataBlock (handle : FileSystemDataHandle) (fileIoHandle : DataStream) (element : Element) :
    Result (List UInt8) := do
  if element.size > ssizeMax then fail .valueExceedsMaximum
  else if element.size > memoryMaximumAllocationSize then fail .valueExceedsMaximum
  else if element.isSparse then
    if element.size = 0 then fail .valueMissing
    else return List.replicate element.size 0
  -- the division by the element size
  else if element.size = 0 then .error .undefined
  else do
    let encryptionIdentifier ← handle.encryptionIdentifier element
    readDataBlockAt handle.ioHandle handle.encryptionContext fileIoHandle element.size
      element.offset encryptionIdentifier

end FileSystemDataHandle

structure DataBlockDataHandle where
  currentOffset : Nat
  dataSize : Nat
  fileSystemDataHandle : FileSystemDataHandle
  dataBlockVector : List Segment

namespace DataBlockDataHandle

abbrev HandleCall := Call ErrorCode DataBlockDataHandle

def create (ioHandle : IoHandle) (encryptionContext : Option EncryptionContext)
    (fileExtents : List FileExtent) (isSparse : Bool) : Result DataBlockDataHandle := do
  let dataBlockVector ← DataBlockVector.create ioHandle fileExtents isSparse
  return {
    currentOffset := 0
    dataSize := vectorSize dataBlockVector
    fileSystemDataHandle := ⟨ioHandle, encryptionContext, some fileExtents⟩
    dataBlockVector }

variable (libfdata : Libfdata) (fileIoHandle : DataStream)

def getElementValueAtOffset (handle : DataBlockDataHandle) : Result (List UInt8 × Nat) :=
  match libfdata.elementAt handle.fileSystemDataHandle.ioHandle.blockSize handle.dataBlockVector
      handle.currentOffset with
  | none => fail .getFailed
  | some (element, dataBlockOffset) => do
      let data ← handle.fileSystemDataHandle.readDataBlock fileIoHandle element
      return (data, dataBlockOffset)

def setCurrentOffset (offset : Nat) (handle : DataBlockDataHandle) : DataBlockDataHandle :=
  { handle with currentOffset := offset }

def readBlocks : Nat → Nat → HandleCall (List UInt8)
  | _, 0 => return []
  | 0, _ + 1 => Call.lift (.error .unfinished)
  | fuel + 1, size + 1 => do
      let handle ← Call.self
      let (block, dataBlockOffset) ← Call.lift
        (handle.getElementValueAtOffset libfdata fileIoHandle)
      if dataBlockOffset ≥ block.length then Call.lift (fail .valueOutOfBounds)
      else do
        let data := (block.drop dataBlockOffset).take (size + 1)
        if handle.currentOffset + data.length > off64Max then Call.lift (.error .undefined)
        else do
          Call.update (setCurrentOffset (handle.currentOffset + data.length))
          if handle.currentOffset + data.length ≥ handle.dataSize then return data
          else do
            let rest ← readBlocks fuel (size + 1 - data.length)
            return data ++ rest

def readSegmentData (segmentIndex : Int) (segmentDataSize : Nat) : HandleCall (List UInt8) := do
  if segmentIndex < 0 then Call.lift (fail .valueOutOfBounds)
  else if segmentDataSize > ssizeMax then Call.lift (fail .valueExceedsMaximum)
  else do
    let handle ← Call.self
    if handle.currentOffset ≥ handle.dataSize then return []
    else readBlocks libfdata fileIoHandle segmentDataSize segmentDataSize

def seekSegmentOffset (segmentIndex segmentOffset : Int) : HandleCall Int := do
  if segmentIndex < 0 then Call.lift (fail .valueOutOfBounds)
  else if segmentOffset < 0 then Call.lift (fail .valueOutOfBounds)
  else do
    Call.update (setCurrentOffset segmentOffset.toNat)
    return segmentOffset

/-- A read of a libfdata stream that has one segment, on this handle: it seeks, then reads. -/
def readBufferAtOffset (streamSize : Nat) (offset size : Nat) : HandleCall (List UInt8) := do
  if offset ≥ streamSize then return []
  else do
    let _ ← seekSegmentOffset 0 offset
    readSegmentData libfdata fileIoHandle 0 (min size (streamSize - offset))

end DataBlockDataHandle

end Fsapfs
