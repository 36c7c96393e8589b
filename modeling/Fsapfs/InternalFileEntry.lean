import Fsapfs.ByteStream
import Fsapfs.Compression
import Fsapfs.FileSystemRecords
import Fsapfs.Program.Faults

namespace Fsapfs
open Program

structure CompressedDataHeader where
  compressionMethod : Nat
  uncompressedDataSize : Nat
  deriving DecidableEq

namespace CompressedDataHeader

/-- There is no header in data without the signature. -/
def readData (data : List UInt8) : Result (Option CompressedDataHeader) := do
  if data.length < 16 ∨ data.length > ssizeMax then fail .valueOutOfBounds
  else if data.take 4 ≠ [0x66, 0x70, 0x6d, 0x63] then return none
  else do
    let compressionMethod ← loadLittleEndian32 data 4
    let uncompressedDataSize ← loadLittleEndian64 data 8
    return some { compressionMethod, uncompressedDataSize }

end CompressedDataHeader

inductive AttributeKind
  | compressedData
  | resourceFork
  | symbolicLink
  deriving DecidableEq

def AttributeKind.name : AttributeKind → String
  | .compressedData => "com.apple.decmpfs"
  | .resourceFork => "com.apple.ResourceFork"
  | .symbolicLink => "com.apple.fs.symlink"

structure AttributeRecord where
  name : List UInt8
  flags : Nat
  valueData : List UInt8
  valueDataSize : Nat
  valueDataStreamIdentifier : Nat
  deriving DecidableEq

def AttributeRecord.values (record : AttributeRecord) : AttributeValues where
  flags := record.flags
  valueData := record.valueData
  valueDataSize := record.valueDataSize
  valueDataStreamIdentifier := record.valueDataStreamIdentifier
  valueDataFileExtents := none

def AttributeRecord.extendedAttribute (record : AttributeRecord) : ExtendedAttribute where
  name := record.name
  values := record.values

def ExtendedAttribute.record (extendedAttribute : ExtendedAttribute) : AttributeRecord where
  name := extendedAttribute.name
  flags := extendedAttribute.values.flags
  valueData := extendedAttribute.values.valueData
  valueDataSize := extendedAttribute.values.valueDataSize
  valueDataStreamIdentifier := extendedAttribute.values.valueDataStreamIdentifier

/-- The steps of a call that can fail: they read the B-tree, compare the name of an attribute, or read the start of a
data stream. -/
structure Steps where
  getAttributes : Result (List AttributeRecord)
  compareName : Nat → List UInt8 → String → Result Bool
  extents : ExtentSource
  readStream : ValueDataStream → Nat → Result (List UInt8)

structure AttributesArray where
  address : Nat
  entries : List ExtendedAttribute

/-- A pointer to an entry of the array that was allocated at an address. -/
structure Pointer where
  address : Nat
  index : Nat
  deriving DecidableEq

inductive EntryDataStream
  | fileExtents (dataStream : FileDataStream)
  | compressed (compressedDataStream : ValueDataStream) (uncompressedDataSize : Nat)
      (compressionMethod : CompressionMethod)

/-- The attribute values are the compressed data, resource fork and symbolic link attribute values; no two arrays get
one address. -/
structure InternalFileEntry where
  ioHandle : IoHandle
  encryptionContext : Option EncryptionContext
  dataStreamIdentifier : Nat
  dataStreamSize : Nat
  inodeFlags : Nat
  extendedAttributesArray : Option AttributesArray
  attributeValues : AttributeKind → Option Pointer
  compressedDataHeader : Option CompressedDataHeader
  dataSize : Nat
  fileExtents : Option (List FileExtent)
  dataStream : Option EntryDataStream
  symbolicLinkData : Option (List UInt8)
  nextAddress : Nat

namespace InternalFileEntry

abbrev InternalCall := Call ErrorCode InternalFileEntry

def unsetDataSize : Nat := 2 ^ 64 - 1

def create (ioHandle : IoHandle) (encryptionContext : Option EncryptionContext)
    (dataStreamIdentifier dataStreamSize inodeFlags : Nat) : InternalFileEntry where
  ioHandle := ioHandle
  encryptionContext := encryptionContext
  dataStreamIdentifier := dataStreamIdentifier
  dataStreamSize := dataStreamSize
  inodeFlags := inodeFlags
  extendedAttributesArray := none
  attributeValues _ := none
  compressedDataHeader := none
  dataSize := unsetDataSize
  fileExtents := none
  dataStream := none
  symbolicLinkData := none
  nextAddress := 0

def allocateAttributes (entry : InternalFileEntry) : InternalFileEntry :=
  { entry with
    extendedAttributesArray := some { address := entry.nextAddress, entries := [] }
    nextAddress := entry.nextAddress + 1 }

def freeAttributes (entry : InternalFileEntry) : InternalFileEntry := { entry with extendedAttributesArray := none }

def setAttributes (entries : List ExtendedAttribute) (entry : InternalFileEntry) : InternalFileEntry :=
  { entry with extendedAttributesArray := entry.extendedAttributesArray.map fun array => { array with entries } }

def setAttributeValues (kind : AttributeKind) (pointer : Pointer) (entry : InternalFileEntry) : InternalFileEntry :=
  { entry with attributeValues := fun kind' => if kind' = kind then some pointer else entry.attributeValues kind' }

def setCompressedDataHeader (header : Option CompressedDataHeader) (entry : InternalFileEntry) : InternalFileEntry :=
  { entry with compressedDataHeader := header }

def setDataSize (dataSize : Nat) (entry : InternalFileEntry) : InternalFileEntry := { entry with dataSize }

def setFileExtents (fileExtents : Option (List FileExtent)) (entry : InternalFileEntry) : InternalFileEntry :=
  { entry with fileExtents }

def setDataStream (dataStream : EntryDataStream) (entry : InternalFileEntry) : InternalFileEntry :=
  { entry with dataStream := some dataStream }

def setSymbolicLinkData (data : Option (List UInt8)) (entry : InternalFileEntry) : InternalFileEntry :=
  { entry with symbolicLinkData := data }

def attributeAt (entry : InternalFileEntry) (pointer : Pointer) : Option ExtendedAttribute :=
  match entry.extendedAttributesArray with
  | some array => if array.address = pointer.address then array.entries[pointer.index]? else none
  | none => none

def storeAttribute (pointer : Pointer) (extendedAttribute : ExtendedAttribute) (entry : InternalFileEntry) :
    InternalFileEntry :=
  { entry with
    extendedAttributesArray := entry.extendedAttributesArray.map fun array =>
      { array with entries := array.entries.set pointer.index extendedAttribute } }

def onAttribute {α : Type} (pointer : Pointer) (call : AttributeValues.ValuesCall α) : InternalCall α := fun entry =>
  match entry.attributeAt pointer with
  | none => (.error .undefined, entry)
  | some extendedAttribute =>
      ((call extendedAttribute.values).1,
        entry.storeAttribute pointer { extendedAttribute with values := (call extendedAttribute.values).2 })

def isSparse (entry : InternalFileEntry) : Bool := entry.inodeFlags &&& 0x00000200 ≠ 0

def uncompressed (entry : InternalFileEntry) : FileEntry where
  ioHandle := entry.ioHandle
  encryptionContext := entry.encryptionContext
  dataStreamIdentifier := entry.dataStreamIdentifier
  dataStreamSize := entry.dataStreamSize
  inodeFlags := entry.inodeFlags
  fileExtents := entry.fileExtents
  dataStream := none

def compressionMethod (method : Nat) : Result CompressionMethod :=
  match method with
  | 3 | 4 => .ok .deflate
  | 5 => .ok .unknown5
  | 7 | 8 => .ok .lzvn
  | 11 | 12 => .ok .lzfse
  | 13 | 14 => .ok .zbitmap
  | _ => fail .unsupportedValue

def usesResourceFork (method : Nat) : Bool := method == 4 || method == 8 || method == 12 || method == 14

def createFromCompressedDataStream (compressedDataStream : Option ValueDataStream) (uncompressedDataSize : Nat)
    (compressionMethod : CompressionMethod) : Result EntryDataStream :=
  match compressedDataStream with
  | none => fail .invalidValue
  | some compressedDataStream =>
      if compressionMethod = .none then fail .unsupportedValue
      else .ok (.compressed compressedDataStream uncompressedDataSize compressionMethod)

variable (steps : Steps)

def compareNames (index : Nat) (name : List UInt8) : List AttributeKind → Result (Option AttributeKind)
  | [] => .ok none
  | kind :: kinds => do
      if ← steps.compareName index name kind.name then return some kind
      else compareNames index name kinds

def kindOf (index : Nat) (name : List UInt8) : Result (Option AttributeKind) :=
  compareNames steps index name [.compressedData, .resourceFork, .symbolicLink]

def matchAttributes (address : Nat) : Nat → List (List UInt8) → InternalCall Unit
  | _, [] => return ()
  | index, name :: names => do
      match ← Call.lift (kindOf steps index name) with
      | some kind => do
          Call.update (setAttributeValues kind { address, index })
          matchAttributes address (index + 1) names
      | none => matchAttributes address (index + 1) names

/-- On an error the array is freed and the attribute values stay as they are. -/
def getExtendedAttributes : InternalCall Unit := do
  let entry ← Call.self
  if entry.extendedAttributesArray.isSome then Call.lift (fail .valueAlreadySet)
  else do
    Call.update allocateAttributes
    Call.onError freeAttributes do
      let records ← Call.lift steps.getAttributes
      Call.update (setAttributes (records.map AttributeRecord.extendedAttribute))
      matchAttributes steps entry.nextAddress 0 (records.map AttributeRecord.name)

def requireExtendedAttributes : InternalCall Unit := do
  let entry ← Call.self
  if entry.extendedAttributesArray.isNone then getExtendedAttributes steps
  else return ()

def attributeDataStream (kind : AttributeKind) : InternalCall (Option ValueDataStream) := do
  let entry ← Call.self
  match entry.attributeValues kind with
  | none => Call.lift (fail .invalidValue)
  | some pointer =>
      onAttribute pointer (AttributeValues.getDataStream steps.extents entry.ioHandle entry.encryptionContext)

/-- Reads the start of a stream; a stream that is not there, or that holds less, cannot be read. -/
def readValueData (dataStream : Option ValueDataStream) (size : Nat) : Result (List UInt8) :=
  match dataStream with
  | none => fail .readFailed
  | some dataStream => do
      let data ← steps.readStream dataStream size
      if data.length ≠ size then fail .readFailed
      else return data

/-- The data size in a compressed data header, or of the data stream where the data has none. -/
def readCompressedDataHeader (data : List UInt8) (dataStreamSize : Nat) : InternalCall Nat := do
  match ← Call.lift (CompressedDataHeader.readData data) with
  | some header => do
      Call.update (setCompressedDataHeader (some header))
      return header.uncompressedDataSize
  | none => do
      Call.update (setCompressedDataHeader none)
      return dataStreamSize

def determineDataSize : InternalCall Nat := do
  let entry ← Call.self
  match entry.attributeValues .compressedData with
  | none => return entry.dataStreamSize
  | some _ => do
      let dataStream ← attributeDataStream steps .compressedData
      let data ← Call.lift (readValueData steps dataStream 16)
      Call.update (setCompressedDataHeader (some { compressionMethod := 0, uncompressedDataSize := 0 }))
      Call.onError (setCompressedDataHeader none) (readCompressedDataHeader data entry.dataStreamSize)

def getDataSize : InternalCall Unit := do
  let entry ← Call.self
  if entry.compressedDataHeader.isSome then Call.lift (fail .valueAlreadySet)
  else if entry.dataSize ≠ unsetDataSize then Call.lift (fail .valueAlreadySet)
  else do
    requireExtendedAttributes steps
    let dataSize ← determineDataSize steps
    Call.update (setDataSize dataSize)

def requireDataSize : InternalCall Nat := do
  let entry ← Call.self
  if entry.dataSize = unsetDataSize then do
    getDataSize steps
    let entry ← Call.self
    return entry.dataSize
  else return entry.dataSize

def getFileExtents : InternalCall Unit := do
  let entry ← Call.self
  if entry.fileExtents.isSome then Call.lift (fail .valueAlreadySet)
  else do
    Call.update (setFileExtents (some []))
    Call.onError (setFileExtents none) do
      let fileExtents ← Call.lift (entry.uncompressed.determineFileExtents steps.extents)
      Call.update (setFileExtents (some fileExtents))

def theFileExtents : InternalCall (List FileExtent) := do
  let entry ← Call.self
  match entry.fileExtents with
  | some fileExtents => return fileExtents
  | none => Call.lift (.error .undefined)

def requireFileExtents : InternalCall (List FileExtent) := do
  let entry ← Call.self
  if entry.fileExtents.isNone then do
    getFileExtents steps
    theFileExtents
  else theFileExtents

def compressedEntryDataStream (header : CompressedDataHeader) (dataSize : Nat) : InternalCall EntryDataStream := do
  let method ← Call.lift (compressionMethod header.compressionMethod)
  let compressedDataStream ←
    attributeDataStream steps (if usesResourceFork header.compressionMethod then .resourceFork else .compressedData)
  Call.lift (createFromCompressedDataStream compressedDataStream dataSize method)

def fileEntryDataStream : InternalCall EntryDataStream := do
  let fileExtents ← requireFileExtents steps
  let entry ← Call.self
  let dataStream ← Call.lift (FileDataStream.createFromFileExtents entry.ioHandle entry.encryptionContext fileExtents
    entry.dataStreamSize entry.isSparse)
  return .fileExtents dataStream

def determineDataStream (dataSize : Nat) : InternalCall EntryDataStream := do
  let entry ← Call.self
  match entry.compressedDataHeader with
  | some header => compressedEntryDataStream steps header dataSize
  | none => fileEntryDataStream steps

def getDataStream : InternalCall Unit := do
  let entry ← Call.self
  if entry.dataStream.isSome then Call.lift (fail .valueAlreadySet)
  else do
    let dataSize ← requireDataSize steps
    let dataStream ← determineDataStream steps dataSize
    Call.update (setDataStream dataStream)

/-- Reads the symbolic link into memory that is allocated first and freed on an error. -/
def readSymbolicLink (pointer : Pointer) : InternalCall Unit := do
  let entry ← Call.self
  match entry.attributeAt pointer with
  | none => Call.lift (.error .undefined)
  | some extendedAttribute =>
      let size := extendedAttribute.values.valueDataSize
      if size = 0 ∨ size > memoryMaximumAllocationSize then Call.lift (fail .valueOutOfBounds)
      else do
        Call.update (setSymbolicLinkData (some []))
        let dataStream ← attributeDataStream steps .symbolicLink
        let data ← Call.lift (readValueData steps dataStream size)
        Call.update (setSymbolicLinkData (some data))

def getSymbolicLinkData : InternalCall Unit := do
  let entry ← Call.self
  if entry.symbolicLinkData.isSome then Call.lift (fail .valueAlreadySet)
  else
    Call.onError (setSymbolicLinkData none) do
      requireExtendedAttributes steps
      let entry ← Call.self
      match entry.attributeValues .symbolicLink with
      | some pointer => readSymbolicLink steps pointer
      | none => return ()

inductive Request
  | attributes
  | dataSize
  | fileExtents
  | dataStream
  | symbolicLink

inductive Answer
  | attributes (records : List AttributeRecord)
  | dataSize (dataSize : Nat)
  | fileExtents (fileExtents : List FileExtent)
  | dataStream (dataStream : EntryDataStream)
  | symbolicLink (data : Option (List UInt8))

def theAttributes : InternalCall (List AttributeRecord) := do
  let entry ← Call.self
  match entry.extendedAttributesArray with
  | some array => return array.entries.map ExtendedAttribute.record
  | none => Call.lift (.error .undefined)

def requireDataStream : InternalCall Unit := do
  let entry ← Call.self
  if entry.dataStream.isNone then getDataStream steps
  else return ()

def theDataStream : InternalCall EntryDataStream := do
  let entry ← Call.self
  match entry.dataStream with
  | some dataStream => return dataStream
  | none => Call.lift (.error .undefined)

def requireSymbolicLinkData : InternalCall Unit := do
  let entry ← Call.self
  if entry.symbolicLinkData.isNone then getSymbolicLinkData steps
  else return ()

def answer (request : Request) : InternalCall Answer := do
  match request with
  | .attributes => do
      requireExtendedAttributes steps
      let records ← theAttributes
      return .attributes records
  | .dataSize => do
      let dataSize ← requireDataSize steps
      return .dataSize dataSize
  | .fileExtents => do
      let fileExtents ← requireFileExtents steps
      return .fileExtents fileExtents
  | .dataStream => do
      requireDataStream steps
      let dataStream ← theDataStream
      return .dataStream dataStream
  | .symbolicLink => do
      requireSymbolicLinkData steps
      let entry ← Call.self
      return .symbolicLink entry.symbolicLinkData

def step (entry : InternalFileEntry) (operation : Steps × Request) : InternalFileEntry :=
  (answer operation.1 operation.2 entry).2

end InternalFileEntry

end Fsapfs
