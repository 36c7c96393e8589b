import Fsapfs.Deflate.Decompress

namespace Fsapfs
open Program

inductive CompressionMethod
  | none
  | deflate
  | lzfse
  | lzvn
  | zbitmap
  | unknown5
  deriving Repr, DecidableEq

/-- A decompressor: the data it produces for compressed data and a buffer size, and the buffer and
the size a call that does not return 1 leaves. -/
structure Codec where
  decompress : List UInt8 → Nat → Option (List UInt8)
  leaves : List UInt8 → List UInt8 → Nat → List UInt8 × Nat
  fits : ∀ {compressedData : List UInt8} {size : Nat} {data : List UInt8},
    decompress compressedData size = some data → data.length ≤ size

/-- The decompressor libfsapfs brings along, for builds without zlib. -/
def deflateCodec (leaves : List UInt8 → List UInt8 → Nat → List UInt8 × Nat) : Codec where
  decompress compressedData size :=
    match Deflate.decompressZlib compressedData size with
    | .ok output => some output.bytes
    | .error _ => .none
  leaves := leaves
  fits := by
    intro compressedData size data h
    split at h
    next output _ =>
      cases h
      exact output.fits
    next => cases h

structure Codecs where
  deflate : Codec
  lzfse : Codec
  lzvn : Codec
  zbitmap : Codec

/-- Copies data to the start of a buffer, given as the bytes written to it so far. -/
def overlay (data buffer : List UInt8) : List UInt8 := data ++ buffer.drop data.length

abbrev Decompression := Result Unit × List UInt8 × Nat

def Codec.run (codec : Codec) (compressedData buffer : List UInt8) (size : Nat) : Decompression :=
  match codec.decompress compressedData size with
  | some data => (.ok (), overlay data buffer, data.length)
  | .none => (fail .getFailed, codec.leaves compressedData buffer size)

def copyStored (compressedData buffer : List UInt8) (size : Nat) : Decompression :=
  if compressedData.length > ssizeMax then (fail .valueExceedsMaximum, buffer, size)
  else if size > ssizeMax then (fail .valueExceedsMaximum, buffer, size)
  else if compressedData.length - 1 > size then (fail .valueOutOfBounds, buffer, size)
  else (.ok (), overlay compressedData.tail buffer, compressedData.length - 1)

def decompressMarked (marker : UInt8) (codec : Codec) (compressedData buffer : List UInt8)
    (size : Nat) : Decompression :=
  if compressedData.head? = some marker then copyStored compressedData buffer size
  else codec.run compressedData buffer size

def decompressData (codecs : Codecs) (compressionMethod : CompressionMethod)
    (compressedData buffer : List UInt8) (size : Nat) : Decompression :=
  match compressionMethod with
  | .deflate => decompressMarked 0xff codecs.deflate compressedData buffer size
  | .lzfse => codecs.lzfse.run compressedData buffer size
  | .lzvn => decompressMarked 0x06 codecs.lzvn compressedData buffer size
  | .zbitmap => decompressMarked 0xff codecs.zbitmap compressedData buffer size
  | .none => (fail .unsupportedValue, buffer, size)
  | .unknown5 => (fail .unsupportedValue, buffer, size)

def storedData (compressedData : List UInt8) (size : Nat) : Option (List UInt8) :=
  if compressedData.length ≤ ssizeMax ∧ size ≤ ssizeMax ∧ compressedData.length - 1 ≤ size then
    some compressedData.tail
  else .none

def markedData (marker : UInt8) (codec : Codec) (compressedData : List UInt8) (size : Nat) :
    Option (List UInt8) :=
  if compressedData.head? = some marker then storedData compressedData size
  else codec.decompress compressedData size

/-- The data compressed data stands for, in a buffer of the given size. -/
def uncompressed (codecs : Codecs) (compressionMethod : CompressionMethod)
    (compressedData : List UInt8) (size : Nat) : Option (List UInt8) :=
  match compressionMethod with
  | .deflate => markedData 0xff codecs.deflate compressedData size
  | .lzfse => codecs.lzfse.decompress compressedData size
  | .lzvn => markedData 0x06 codecs.lzvn compressedData size
  | .zbitmap => markedData 0xff codecs.zbitmap compressedData size
  | .none => .none
  | .unknown5 => .none

/-- A call that returns 1 leaves the data at the start of the buffer, and its size. -/
def Decompresses (decompression : Decompression) (buffer : List UInt8) :
    Option (List UInt8) → Prop
  | some data => decompression = (.ok (), overlay data buffer, data.length)
  | .none => ∃ code, decompression.1 = fail code

theorem codec_run (codec : Codec) (compressedData buffer : List UInt8) (size : Nat) :
    Decompresses (codec.run compressedData buffer size) buffer (codec.decompress compressedData size) := by
  unfold Codec.run
  cases codec.decompress compressedData size with
  | some data => rfl
  | none => exact ⟨_, rfl⟩

theorem copyStored_decompresses (compressedData buffer : List UInt8) (size : Nat) :
    Decompresses (copyStored compressedData buffer size) buffer (storedData compressedData size) := by
  unfold copyStored storedData
  split_ifs <;> first | omega | exact ⟨_, rfl⟩ | simp [Decompresses]

theorem decompressMarked_decompresses (marker : UInt8) (codec : Codec)
    (compressedData buffer : List UInt8) (size : Nat) :
    Decompresses (decompressMarked marker codec compressedData buffer size) buffer
      (markedData marker codec compressedData size) := by
  unfold decompressMarked markedData
  split
  · exact copyStored_decompresses compressedData buffer size
  · exact codec_run codec compressedData buffer size

theorem decompressData_decompresses (codecs : Codecs) (compressionMethod : CompressionMethod)
    (compressedData buffer : List UInt8) (size : Nat) :
    Decompresses (decompressData codecs compressionMethod compressedData buffer size) buffer
      (uncompressed codecs compressionMethod compressedData size) := by
  cases compressionMethod with
  | none => exact ⟨_, rfl⟩
  | deflate => exact decompressMarked_decompresses 0xff codecs.deflate compressedData buffer size
  | lzfse => exact codec_run codecs.lzfse compressedData buffer size
  | lzvn => exact decompressMarked_decompresses 0x06 codecs.lzvn compressedData buffer size
  | zbitmap => exact decompressMarked_decompresses 0xff codecs.zbitmap compressedData buffer size
  | unknown5 => exact ⟨_, rfl⟩

end Fsapfs
