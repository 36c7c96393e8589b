import Fsapfs.ByteStream
import Fsapfs.Compression
import Fsapfs.DataStream
import Fsapfs.Program.Call

namespace Fsapfs
open Program

structure CompressedDataHandle where
  currentSegmentOffset : Nat
  compressedDataStream : DataStream
  uncompressedDataSize : Nat
  compressionMethod : CompressionMethod
  currentCompressedBlockIndex : Nat
  /-- The bytes written to the buffer so far: it is allocated without clearing it. -/
  segmentData : List UInt8
  segmentDataSize : Nat
  numberOfCompressedBlocks : Nat
  compressedBlockOffsets : Option (List Nat)

namespace CompressedDataHandle

abbrev HandleCall := Call ErrorCode CompressedDataHandle

def blockSize : Nat := 65536

def create (compressedDataStream : DataStream) (uncompressedDataSize : Nat)
    (compressionMethod : CompressionMethod) : Result CompressedDataHandle :=
  if compressionMethod = .none then fail .unsupportedValue
  else .ok {
    currentSegmentOffset := 0
    compressedDataStream := compressedDataStream
    uncompressedDataSize := uncompressedDataSize
    compressionMethod := compressionMethod
    currentCompressedBlockIndex := 2 ^ 32 - 1
    segmentData := []
    segmentDataSize := 0
    numberOfCompressedBlocks := 0
    compressedBlockOffsets := none }

structure Descriptors where
  numberOfCompressedBlocks : Nat
  compressedBlockOffset : Nat
  header : List UInt8
  compressedDescriptorsOffset : Nat
  compressedBlockDescriptorSize : Nat

def readDescriptorsHeader (stream : DataStream) (compressionMethod : CompressionMethod)
    (numberOfCompressedBlocks : Nat) (header : List UInt8) : Result Descriptors := do
  match compressionMethod with
  | .deflate => do
      let compressedDescriptorsOffset ← loadBigEndian32 header 0
      if compressedDescriptorsOffset ≠ 0x100 then fail .valueOutOfBounds
      else do
        let data ← stream.readExactly (0x100 + 16 - 4) 4
        let data := header ++ data
        let numberOfCompressedBlocks ← loadLittleEndian32 data 260
        let compressedBlockOffset ← loadLittleEndian32 data 264
        return {
          numberOfCompressedBlocks
          compressedBlockOffset
          header := data.take 268
          compressedDescriptorsOffset := 0x100 + 4
          compressedBlockDescriptorSize := 8 }
  | .lzvn | .lzfse | .zbitmap => do
      let compressedBlockOffset ← loadLittleEndian32 header 0
      if compressedBlockOffset ≤ 4 ∨ compressedBlockOffset ≥ stream.size then fail .valueOutOfBounds
      else return {
        numberOfCompressedBlocks := compressedBlockOffset / 4
        compressedBlockOffset
        header
        compressedDescriptorsOffset := 0
        compressedBlockDescriptorSize := 4 }
  | .none | .unknown5 =>
      return {
        numberOfCompressedBlocks
        compressedBlockOffset := 0
        header := []
        compressedDescriptorsOffset := 0
        compressedBlockDescriptorSize := 0 }

/-- The offsets of further blocks: each at most a block and its marker after the previous one. -/
def readBlockOffsets (data : List UInt8) (descriptors : Descriptors) :
    Nat → Nat → Nat → Result (List Nat)
  | 0, _, _ => .ok []
  | count + 1, segmentDataOffset, previousCompressedBlockOffset => do
      let value ← loadLittleEndian32 data segmentDataOffset
      let compressedBlockOffset := (value + descriptors.compressedDescriptorsOffset) % 2 ^ 32
      if previousCompressedBlockOffset > compressedBlockOffset ∨
          compressedBlockOffset - previousCompressedBlockOffset > blockSize + 1 then
        fail .valueOutOfBounds
      else do
        let offsets ← readBlockOffsets data descriptors count
          (segmentDataOffset + descriptors.compressedBlockDescriptorSize) compressedBlockOffset
        return compressedBlockOffset :: offsets

def readDescriptors (stream : DataStream) (descriptors : Descriptors) : Result (List Nat) := do
  let segmentDataOffset := descriptors.header.length
  -- without blocks the subtraction wraps
  let readSize := (descriptors.numberOfCompressedBlocks + 2 ^ 64 - 1) *
    descriptors.compressedBlockDescriptorSize % 2 ^ 64
  let data ← stream.readExactly readSize segmentDataOffset
  if descriptors.compressedBlockOffset ≤ descriptors.compressedBlockDescriptorSize ∨
      descriptors.compressedBlockOffset ≥ stream.size then
    fail .valueOutOfBounds
  else do
    let compressedBlockOffset :=
      (descriptors.compressedBlockOffset + descriptors.compressedDescriptorsOffset) % 2 ^ 32
    -- a DEFLATE descriptor is an offset and a size, and the size comes after the first offset
    let skip := descriptors.compressedBlockDescriptorSize - 4
    let offsets ← readBlockOffsets (descriptors.header ++ data) descriptors
      (descriptors.numberOfCompressedBlocks - 1) (segmentDataOffset + skip) compressedBlockOffset
    return compressedBlockOffset :: offsets

def checkLastOffset (stream : DataStream) (offsets : List Nat) : Result (List Nat) := do
  let previousCompressedBlockOffset ← load offsets (offsets.length - 1)
  if previousCompressedBlockOffset > stream.size ∨
      stream.size - previousCompressedBlockOffset > blockSize + 1 then
    fail .valueOutOfBounds
  else return offsets ++ [stream.size % 2 ^ 32]

/-- The footer of a DEFLATE stream is taken to be empty: only builds with debug output read its size. -/
def readFooter (stream : DataStream) (compressionMethod : CompressionMethod) : Result Unit :=
  match compressionMethod with
  | .deflate => do
      let _ ← stream.readExactly 0 0
      return ()
  | .unknown5 =>
      if stream.size > ssizeMax then fail .valueOutOfBounds
      else do
        let _ ← stream.readExactly ((stream.size + 2 ^ 64 - 16) % 2 ^ 64) 16
        return ()
  | .none | .lzfse | .lzvn | .zbitmap => .ok ()

def setNumberOfCompressedBlocks (numberOfCompressedBlocks : Nat) (handle : CompressedDataHandle) :
    CompressedDataHandle :=
  { handle with numberOfCompressedBlocks }

def setCompressedBlockOffsets (offsets : List Nat) (handle : CompressedDataHandle) :
    CompressedDataHandle :=
  { handle with compressedBlockOffsets := some offsets }

def getCompressedBlockOffsets : HandleCall Unit := do
  let handle ← Call.self
  let stream := handle.compressedDataStream
  if handle.compressedBlockOffsets.isSome then Call.lift (fail .valueAlreadySet)
  else do
    let header ← Call.lift (stream.readExactly 4 0)
    if header = [0x66, 0x70, 0x6d, 0x63] then
      if stream.size > blockSize + 1 then Call.lift (fail .valueOutOfBounds)
      else do
        Call.update (setNumberOfCompressedBlocks 1)
        let offsets ← Call.lift (checkLastOffset stream [16])
        Call.lift (readFooter stream handle.compressionMethod)
        Call.update (setCompressedBlockOffsets offsets)
    else do
      let descriptors ← Call.lift (readDescriptorsHeader stream handle.compressionMethod
        handle.numberOfCompressedBlocks header)
      Call.update (setNumberOfCompressedBlocks descriptors.numberOfCompressedBlocks)
      if handle.compressionMethod = .deflate ∧
          descriptors.numberOfCompressedBlocks > (2 ^ 32 - 1) / 8 then
        Call.lift (fail .valueOutOfBounds)
      else if descriptors.numberOfCompressedBlocks > memoryMaximumAllocationSize / 4 - 1 then
        Call.lift (fail .valueOutOfBounds)
      else do
        let offsets ← Call.lift (readDescriptors stream descriptors)
        let offsets ← Call.lift (checkLastOffset stream offsets)
        Call.lift (readFooter stream handle.compressionMethod)
        Call.update (setCompressedBlockOffsets offsets)

def setSegmentData (segmentData : List UInt8) (segmentDataSize : Nat) (handle : CompressedDataHandle) :
    CompressedDataHandle :=
  { handle with segmentData, segmentDataSize }

def setCurrentCompressedBlockIndex (index : Nat) (handle : CompressedDataHandle) :
    CompressedDataHandle :=
  { handle with currentCompressedBlockIndex := index }

def setCurrentSegmentOffset (offset : Nat) (handle : CompressedDataHandle) : CompressedDataHandle :=
  { handle with currentSegmentOffset := offset }

def advance (size : Nat) : HandleCall Unit := do
  let handle ← Call.self
  if handle.currentSegmentOffset + size > off64Max then Call.lift (.error .undefined)
  else Call.update (setCurrentSegmentOffset (handle.currentSegmentOffset + size))

/-- The uncompressed offset of the end of a block, computed in 32 bits. -/
def uncompressedBlockOffset (compressedBlockIndex : Nat) : Nat :=
  (compressedBlockIndex + 1) * blockSize % 2 ^ 32

def readCompressedBlock (stream : DataStream) (offsets : List Nat) (compressedBlockIndex : Nat) :
    Result (List UInt8) := do
  let dataStreamOffset ← load offsets compressedBlockIndex
  let endOffset ← load offsets (compressedBlockIndex + 1)
  stream.readExactly ((endOffset + 2 ^ 64 - dataStreamOffset) % 2 ^ 64) dataStreamOffset

def loadBlock (codecs : Codecs) (compressedBlockIndex : Nat) : HandleCall Unit := do
  let handle ← Call.self
  if compressedBlockIndex ≥ handle.numberOfCompressedBlocks then Call.lift (fail .valueOutOfBounds)
  else if handle.currentCompressedBlockIndex = compressedBlockIndex then return ()
  else do
    let offsets := handle.compressedBlockOffsets.getD []
    let compressedData ← Call.lift
      (readCompressedBlock handle.compressedDataStream offsets compressedBlockIndex)
    let (result, segmentData, segmentDataSize) :=
      decompressData codecs handle.compressionMethod compressedData handle.segmentData blockSize
    Call.update (setSegmentData segmentData segmentDataSize)
    Call.lift result
    if uncompressedBlockOffset compressedBlockIndex < handle.uncompressedDataSize ∧
        segmentDataSize ≠ blockSize then
      Call.lift (fail .valueOutOfBounds)
    else Call.update (setCurrentCompressedBlockIndex compressedBlockIndex)

/-- The loop of a read, with the bytes it copies: the fuel bounds the number of blocks. -/
def readBlocks (codecs : Codecs) : Nat → Nat → Nat → Nat → HandleCall (List UInt8)
  | _, _, _, 0 => return []
  | 0, _, _, _ + 1 => Call.lift (.error .unfinished)
  | fuel + 1, compressedBlockIndex, dataOffset, size + 1 => do
      loadBlock codecs compressedBlockIndex
      let handle ← Call.self
      if dataOffset ≥ handle.segmentDataSize then Call.lift (fail .valueOutOfBounds)
      else do
        let readSize := min (handle.segmentDataSize - dataOffset) (size + 1)
        let data ← Call.lift (slice handle.segmentData dataOffset readSize)
        -- the index is below a 32-bit number of blocks: its increment does not wrap
        let rest ← readBlocks codecs fuel (compressedBlockIndex + 1) 0 (size + 1 - readSize)
        return data ++ rest

def prepareBlockOffsets : HandleCall Unit := do
  let handle ← Call.self
  if handle.compressedBlockOffsets.isNone then getCompressedBlockOffsets
  else return ()

def readData (codecs : Codecs) (segmentDataSize : Nat) : HandleCall (List UInt8) := do
  let handle ← Call.self
  if handle.currentSegmentOffset ≥ handle.uncompressedDataSize then return []
  else if handle.compressionMethod = .unknown5 then do
    let readSize := min segmentDataSize (handle.uncompressedDataSize - handle.currentSegmentOffset)
    advance readSize
    return List.replicate readSize 0
  else do
    let compressedBlockIndex := handle.currentSegmentOffset / blockSize % 2 ^ 32
    let dataOffset := handle.currentSegmentOffset % blockSize
    let data ← readBlocks codecs segmentDataSize compressedBlockIndex dataOffset segmentDataSize
    advance data.length
    return data

def readSegmentData (codecs : Codecs) (segmentIndex : Int) (segmentDataSize : Nat) :
    HandleCall (List UInt8) := do
  if segmentIndex ≠ 0 then Call.lift (fail .valueOutOfBounds)
  else if segmentDataSize > ssizeMax then Call.lift (fail .valueExceedsMaximum)
  else do
    prepareBlockOffsets
    readData codecs segmentDataSize

def seekSegmentOffset (segmentIndex segmentOffset : Int) : HandleCall Int := do
  if segmentIndex ≠ 0 then Call.lift (fail .valueOutOfBounds)
  else if segmentOffset < 0 then Call.lift (fail .valueOutOfBounds)
  else do
    Call.update (setCurrentSegmentOffset segmentOffset.toNat)
    return segmentOffset

end CompressedDataHandle

end Fsapfs
