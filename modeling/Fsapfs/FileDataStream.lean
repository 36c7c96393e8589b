import Fsapfs.DataBlockDataHandle
import Fsapfs.Program.Run

namespace Fsapfs
open Program

/-- The stream of one segment that reads through a data block data handle. -/
structure FileDataStream where
  size : Nat
  handle : DataBlockDataHandle

namespace FileDataStream

def createFromFileExtents (ioHandle : IoHandle) (encryptionContext : Option EncryptionContext)
    (fileExtents : List FileExtent) (dataStreamSize : Nat) (isSparse : Bool) :
    Result FileDataStream := do
  let handle ← DataBlockDataHandle.create ioHandle encryptionContext fileExtents isSparse
  return { size := dataStreamSize, handle }

variable (libfdata : Libfdata) (fileIoHandle : DataStream)

def readBufferAtOffset (stream : FileDataStream) (offset size : Nat) :
    Result (List UInt8) × FileDataStream :=
  match stream.handle.readBufferAtOffset libfdata fileIoHandle stream.size offset size with
  | (result, handle) => (result, { stream with handle })

def step (stream : FileDataStream) (read : Nat × Nat) : FileDataStream :=
  (stream.readBufferAtOffset libfdata fileIoHandle read.1 read.2).2

end FileDataStream

end Fsapfs
