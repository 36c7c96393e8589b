import Fsapfs.Attributes
import Fsapfs.BtreeNode

namespace Fsapfs
open Program

/-- The identifier in the key of a record; the record type takes up the upper four bits. -/
def keyIdentifier (fileSystemIdentifier : Nat) : Nat := fileSystemIdentifier &&& 0x0fffffffffffffff

def keyDataType (fileSystemIdentifier : Nat) : Nat := fileSystemIdentifier >>> 60

def readFileSystemIdentifier (entry : BtreeEntry) : Result Nat := do
  requireData entry.keyData 8
  loadLittleEndian64 entry.keyData 0

/-- The start of the value after one of this size: values are padded to eight bytes, the last one
perhaps not. -/
def nextValueOffset (dataSize valueDataOffset valueDataSize : Nat) : Nat :=
  let trailingDataSize := if valueDataSize % 8 > 0 then 8 - valueDataSize % 8 else 0
  if valueDataOffset + valueDataSize > dataSize - trailingDataSize then dataSize
  else valueDataOffset + valueDataSize + trailingDataSize

/-- Extended fields: their descriptors, then their values in the same order. -/
def readExtendedFields {α : Type} (data : List UInt8) (minimumSize : Nat)
    (field : α → Nat → List UInt8 → Result α) : Nat → Nat → Nat → α → Result α
  | 0, _, _, record => .ok record
  | number + 1, dataOffset, valueDataOffset, record => do
      if dataOffset > data.length - 4 then fail .valueOutOfBounds
      else do
        let extendedFieldType ← load data dataOffset
        let valueDataSize ← loadLittleEndian16 data (dataOffset + 2)
        if valueDataOffset > data.length then fail .valueOutOfBounds
        else if valueDataSize < minimumSize ∨ valueDataSize > data.length - valueDataOffset then
          fail .valueOutOfBounds
        else do
          let valueData ← slice data valueDataOffset valueDataSize
          let record ← field record extendedFieldType.toNat valueData
          readExtendedFields data minimumSize field number (dataOffset + 4)
            (nextValueOffset data.length valueDataOffset valueDataSize) record

/-- The extended fields after the fixed part of a value, if anything follows it. -/
def readTrailingFields {α : Type} (data : List UInt8) (dataOffset minimumSize : Nat)
    (field : α → Nat → List UInt8 → Result α) (record : α) : Result α :=
  if data.length ≤ dataOffset then .ok record
  else if dataOffset > data.length - 4 then fail .valueOutOfBounds
  else do
    let numberOfExtendedFields ← loadLittleEndian16 data dataOffset
    readExtendedFields data minimumSize field numberOfExtendedFields (dataOffset + 4)
      (dataOffset + 4 + numberOfExtendedFields * 4) record

/-- A name of no bytes is a name that is not set. -/
structure Inode where
  identifier : Nat
  parentIdentifier : Nat
  dataStreamIdentifier : Nat
  modificationTime : Nat
  creationTime : Nat
  inodeChangeTime : Nat
  accessTime : Nat
  flags : Nat
  numberOfLinks : Nat
  ownerIdentifier : Nat
  groupIdentifier : Nat
  fileMode : Nat
  name : List UInt8
  dataStreamSize : Nat
  deviceIdentifier : Nat
  deriving Repr, DecidableEq

namespace Inode

def readKeyData (data : List UInt8) : Result Nat := do
  requireData data 8
  let fileSystemIdentifier ← loadLittleEndian64 data 0
  return keyIdentifier fileSystemIdentifier

def readExtendedField (inode : Inode) (extendedFieldType : Nat) (valueData : List UInt8) : Result Inode :=
  if extendedFieldType ∈ [1, 2, 3, 5, 7, 10, 11, 13, 15] then return inode
  else if extendedFieldType = 4 then
    if inode.name ≠ [] then fail .valueAlreadySet
    else return { inode with name := valueData }
  else if extendedFieldType = 8 then
    if valueData.length < 40 then fail .valueOutOfBounds
    else do
      let dataStreamSize ← loadLittleEndian64 valueData 0
      return { inode with dataStreamSize }
  else if extendedFieldType = 14 then
    if valueData.length ≠ 4 then fail .valueOutOfBounds
    else do
      let deviceIdentifier ← loadLittleEndian32 valueData 0
      return { inode with deviceIdentifier }
  else fail .unsupportedValue

def readValueData (identifier : Nat) (data : List UInt8) : Result Inode := do
  requireData data 92
  let parentIdentifier ← loadLittleEndian64 data 0
  let dataStreamIdentifier ← loadLittleEndian64 data 8
  let modificationTime ← loadLittleEndian64 data 16
  let creationTime ← loadLittleEndian64 data 24
  let inodeChangeTime ← loadLittleEndian64 data 32
  let accessTime ← loadLittleEndian64 data 40
  let flags ← loadLittleEndian64 data 48
  let numberOfLinks ← loadLittleEndian32 data 56
  let ownerIdentifier ← loadLittleEndian32 data 72
  let groupIdentifier ← loadLittleEndian32 data 76
  let fileMode ← loadLittleEndian16 data 80
  readTrailingFields data 92 1 readExtendedField
    { identifier, parentIdentifier, dataStreamIdentifier, modificationTime, creationTime, inodeChangeTime,
      accessTime, flags, numberOfLinks, ownerIdentifier, groupIdentifier, fileMode
      name := []
      dataStreamSize := 0
      deviceIdentifier := 0 }

def read (entry : BtreeEntry) : Result Inode := do
  let identifier ← readKeyData entry.keyData
  readValueData identifier entry.valueData

end Inode

structure DirectoryRecord where
  name : List UInt8
  nameHash : Nat
  identifier : Nat
  addedTime : Nat
  deriving Repr, DecidableEq

namespace DirectoryRecord

/-- The name and its hash; a key that ends with the name has no hash. -/
def readKeyData (data : List UInt8) : Result (List UInt8 × Nat) := do
  requireData data 10
  let nameSizeField ← loadLittleEndian16 data 8
  if nameSizeField &&& 0x3ff < data.length - 10 then
    if data.length < 12 then fail .valueOutOfBounds
    else do
      let nameSizeAndHash ← loadLittleEndian32 data 8
      let nameSize := nameSizeAndHash &&& 0x3ff
      if nameSize = 0 ∨ nameSize > data.length - 12 then fail .valueOutOfBounds
      else do
        let name ← slice data 12 nameSize
        return (name, (nameSizeAndHash &&& 0xfffffc00) >>> 10)
  else do
    let nameSize := nameSizeField &&& 0x3ff
    if nameSize = 0 ∨ nameSize > data.length - 10 then fail .valueOutOfBounds
    else do
      let name ← slice data 10 nameSize
      return (name, 0)

def readExtendedField (directoryRecord : DirectoryRecord) (extendedFieldType : Nat) (_ : List UInt8) :
    Result DirectoryRecord :=
  if extendedFieldType = 1 then return directoryRecord else fail .unsupportedValue

def readValueData (key : List UInt8 × Nat) (data : List UInt8) : Result DirectoryRecord := do
  requireData data 18
  let identifier ← loadLittleEndian64 data 0
  let addedTime ← loadLittleEndian64 data 8
  readTrailingFields data 18 0 readExtendedField
    { name := key.1
      nameHash := key.2
      identifier, addedTime }

def read (entry : BtreeEntry) : Result DirectoryRecord := do
  let key ← readKeyData entry.keyData
  readValueData key entry.valueData

end DirectoryRecord

structure ExtendedAttribute where
  name : List UInt8
  values : AttributeValues

namespace ExtendedAttribute

def readKeyData (data : List UInt8) : Result (List UInt8) := do
  requireData data 10
  let nameSize ← loadLittleEndian16 data 8
  if nameSize = 0 ∨ nameSize > data.length - 10 then fail .valueOutOfBounds
  else slice data 10 nameSize

def readValueData (data : List UInt8) : Result AttributeValues := do
  requireData data 4
  let flags ← loadLittleEndian16 data 0
  let dataSize ← loadLittleEndian16 data 2
  let values : AttributeValues :=
    { flags
      valueData := []
      valueDataSize := 0
      valueDataStreamIdentifier := 0
      valueDataFileExtents := none }
  if dataSize ≠ 0 ∧ dataSize > data.length - 4 then fail .valueOutOfBounds
  else if flags &&& 0x0001 ≠ 0 then
    if dataSize ≠ 48 then fail .unsupportedValue
    else do
      let valueDataStreamIdentifier ← loadLittleEndian64 data 4
      let valueDataSize ← loadLittleEndian64 data 12
      return { values with valueDataStreamIdentifier, valueDataSize }
  else if flags &&& 0x0002 ≠ 0 ∧ dataSize > 0 then do
    let valueData ← slice data 4 dataSize
    return { values with valueData, valueDataSize := dataSize }
  else return values

def read (entry : BtreeEntry) : Result ExtendedAttribute := do
  let name ← readKeyData entry.keyData
  let values ← readValueData entry.valueData
  return { name, values }

end ExtendedAttribute

namespace FileExtent

def readKeyData (fileSystemDataType : FileExtentType) (data : List UInt8) : Result FileExtent := do
  requireData data 16
  let fileSystemIdentifier ← loadLittleEndian64 data 0
  let logicalAddress ← loadLittleEndian64 data 8
  return { fileSystemDataType
           identifier := keyIdentifier fileSystemIdentifier
           logicalOffset := logicalAddress &&& 0x00ffffffffffffff
           physicalBlockNumber := 0
           dataSize := 0
           encryptionIdentifier := 0 }

def readValueData (fileExtent : FileExtent) (data : List UInt8) : Result FileExtent :=
  match fileExtent.fileSystemDataType with
  | .fileExtent2 => do
      requireData data 35
      return fileExtent
  | .fileExtent => do
      requireData data 24
      let dataSizeAndFlags ← loadLittleEndian64 data 0
      let physicalBlockNumber ← loadLittleEndian64 data 8
      let encryptionIdentifier ← loadLittleEndian64 data 16
      return { fileExtent with
        dataSize := dataSizeAndFlags &&& 0x00ffffffffffffff
        physicalBlockNumber, encryptionIdentifier }

/-- The type is the upper four bits of the key. -/
def read (entry : BtreeEntry) : Result FileExtent := do
  let fileSystemIdentifier ← readFileSystemIdentifier entry
  let fileSystemDataType : FileExtentType :=
    if keyDataType fileSystemIdentifier = 13 then .fileExtent2 else .fileExtent
  let fileExtent ← readKeyData fileSystemDataType entry.keyData
  readValueData fileExtent entry.valueData

end FileExtent

end Fsapfs
