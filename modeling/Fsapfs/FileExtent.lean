import Fsapfs.Basic

namespace Fsapfs

inductive FileExtentType
  | fileExtent
  | fileExtent2
  deriving Repr, DecidableEq

structure FileExtent where
  fileSystemDataType : FileExtentType
  identifier : Nat
  logicalOffset : Nat
  physicalBlockNumber : Nat
  dataSize : Nat
  encryptionIdentifier : Nat
  deriving Repr, DecidableEq

structure IoHandle where
  bytesPerSector : Nat
  blockSize : Nat
  deriving Repr, DecidableEq

/-- Sets the size of an extent to what there is up to the next one, or up to the end of the data. -/
def FileExtent.resize (extent : FileExtent) (dataSize : Nat) : FileExtent := { extent with dataSize }

@[simp] theorem FileExtent.resize_logicalOffset (extent : FileExtent) (dataSize : Nat) :
    (extent.resize dataSize).logicalOffset = extent.logicalOffset := rfl

@[simp] theorem FileExtent.resize_physicalBlockNumber (extent : FileExtent) (dataSize : Nat) :
    (extent.resize dataSize).physicalBlockNumber = extent.physicalBlockNumber := rfl

@[simp] theorem FileExtent.resize_dataSize (extent : FileExtent) (dataSize : Nat) :
    (extent.resize dataSize).dataSize = dataSize := rfl

end Fsapfs
