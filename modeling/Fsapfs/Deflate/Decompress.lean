import Fsapfs.ByteStream
import Fsapfs.HuffmanTree
import Fsapfs.Deflate.Adler32

namespace Fsapfs.Deflate
open Program Coding

abbrev Reader := StateT BitStream Result

/-- The uncompressed data written so far, from the start of a buffer of the given size. -/
structure Output (capacity : Nat) where
  bytes : List UInt8
  fits : bytes.length ≤ capacity
  deriving DecidableEq

def codeSizesSequence : List Nat := [16, 17, 18, 0, 8, 7, 9, 6, 10, 5, 11, 4, 12, 3, 13, 2, 14, 1, 15]

def literalCodesBase : List Nat :=
  [3, 4, 5, 6, 7, 8, 9, 10, 11, 13, 15, 17, 19, 23, 27, 31,
    35, 43, 51, 59, 67, 83, 99, 115, 131, 163, 195, 227, 258]

def literalCodesNumberOfExtraBits : List Nat :=
  [0, 0, 0, 0, 0, 0, 0, 0, 1, 1, 1, 1, 2, 2, 2, 2, 3, 3, 3, 3, 4, 4, 4, 4, 5, 5, 5, 5, 0]

def distanceCodesBase : List Nat :=
  [1, 2, 3, 4, 5, 7, 9, 13, 17, 25, 33, 49, 65, 97, 129, 193,
    257, 385, 513, 769, 1025, 1537, 2049, 3073, 4097, 6145, 8193, 12289, 16385, 24577]

def distanceCodesNumberOfExtraBits : List Nat :=
  [0, 0, 0, 0, 1, 1, 2, 2, 3, 3, 4, 4, 5, 5, 6, 6, 7, 7, 8, 8, 9, 9, 10, 10, 11, 11, 12, 12, 13, 13]

variable {capacity : Nat}

def Output.empty (capacity : Nat) : Output capacity := ⟨[], Nat.zero_le _⟩

def Output.write (output : Output capacity) (data : List UInt8) : Result (Output capacity) :=
  if h : output.bytes.length + data.length ≤ capacity then
    .ok ⟨output.bytes ++ data, by rwa [List.length_append]⟩
  else .error .undefined

def Output.lookBack (output : Output capacity) (compressionOffset : Nat) : Result UInt8 :=
  if compressionOffset > output.bytes.length then .error .undefined
  else load output.bytes (output.bytes.length - compressionOffset)

def Output.copy (compressionOffset : Nat) : Nat → Output capacity → Result (Output capacity)
  | 0, output => .ok output
  | compressionSize + 1, output => do
      let byte ← output.lookBack compressionOffset
      let output ← output.write [byte]
      output.copy compressionOffset compressionSize

def readCodeSizes (numberOfCodeSizes : Nat) (codeSizeArray : List Nat) : Reader (List Nat) :=
  (List.range numberOfCodeSizes).foldlM (fun codeSizeArray codeSizeIndex => do
    let codeSize ← BitStream.getValue 3
    let codeSizeSequence ← (load codeSizesSequence codeSizeIndex : Result Nat)
    (store codeSizeArray codeSizeSequence codeSize : Result (List Nat))) codeSizeArray

def clearCodeSizes (numberOfCodeSizes : Nat) (codeSizeArray : List Nat) : Result (List Nat) :=
  (List.range (19 - numberOfCodeSizes)).foldlM (fun codeSizeArray index => do
    let codeSizeSequence ← load codeSizesSequence (numberOfCodeSizes + index)
    store codeSizeArray codeSizeSequence 0) codeSizeArray

def readRepetition (codeSizeArray : List Nat) (codeSizeIndex symbol : Nat) : Reader (Nat × Nat) :=
  if symbol = 16 then
    if codeSizeIndex = 0 then (fail .valueOutOfBounds : Result (Nat × Nat))
    else do
      let codeSize ← (load codeSizeArray (codeSizeIndex - 1) : Result Nat)
      let timesToRepeat ← BitStream.getValue 2
      return (codeSize, timesToRepeat + 3)
  else if symbol = 17 then do
    let timesToRepeat ← BitStream.getValue 3
    return (0, timesToRepeat + 3)
  else if symbol = 18 then do
    let timesToRepeat ← BitStream.getValue 7
    return (0, timesToRepeat + 11)
  else (fail .valueOutOfBounds : Result (Nat × Nat))

def storeRepeated (codeSizeArray : List Nat) (codeSizeIndex codeSize timesToRepeat : Nat) :
    Result (List Nat) :=
  (List.range timesToRepeat).foldlM (fun codeSizeArray index =>
    store codeSizeArray (codeSizeIndex + index) codeSize) codeSizeArray

def readSymbolCodeSizes (codesTree : HuffmanTree) (numberOfCodeSizes : Nat) :
    Nat → List Nat → Nat → Reader (List Nat)
  | 0, _, _ => (.error .unfinished : Result (List Nat))
  | fuel + 1, codeSizeArray, codeSizeIndex =>
      if codeSizeIndex < numberOfCodeSizes then do
        let symbol ← codesTree.getSymbolFromBitStream
        if symbol < 16 then do
          let codeSizeArray ← (store codeSizeArray codeSizeIndex symbol : Result (List Nat))
          readSymbolCodeSizes codesTree numberOfCodeSizes fuel codeSizeArray (codeSizeIndex + 1)
        else do
          let (codeSize, timesToRepeat) ← readRepetition codeSizeArray codeSizeIndex symbol
          if codeSizeIndex + timesToRepeat > numberOfCodeSizes then
            (fail .valueOutOfBounds : Result (List Nat))
          else do
            let codeSizeArray ←
              (storeRepeated codeSizeArray codeSizeIndex codeSize timesToRepeat : Result (List Nat))
            readSymbolCodeSizes codesTree numberOfCodeSizes fuel codeSizeArray
              (codeSizeIndex + timesToRepeat)
      else return codeSizeArray

/-- A tree built from no codes is an error to every caller in this module. -/
def buildTree (tree : HuffmanTree) (codeSizes : List Nat) : Result HuffmanTree := do
  match ← tree.build codeSizes with
  | some tree => .ok tree
  | none => fail .initializeFailed

def buildDynamicHuffmanTrees (literalsTree distancesTree : HuffmanTree) :
    Reader (HuffmanTree × HuffmanTree) := do
  let value ← BitStream.getValue 14
  let numberOfLiteralCodes := value % 32 + 257
  let numberOfDistanceCodes := (value >>> 5) % 32 + 1
  let numberOfCodeSizes := value >>> 10 + 4
  if numberOfLiteralCodes > 286 then (fail .valueOutOfBounds : Result (HuffmanTree × HuffmanTree))
  else if numberOfDistanceCodes > 30 then (fail .valueOutOfBounds : Result (HuffmanTree × HuffmanTree))
  else do
    -- The array is not initialized in C; every entry that is used is stored first.
    let codeSizeArray ← readCodeSizes numberOfCodeSizes (List.replicate 316 0)
    let codeSizeArray ← (clearCodeSizes numberOfCodeSizes codeSizeArray : Result (List Nat))
    let codesTree ← (HuffmanTree.create 19 15 : Result HuffmanTree)
    let codeSizes ← (slice codeSizeArray 0 19 : Result (List Nat))
    let codesTree ← (buildTree codesTree codeSizes : Result HuffmanTree)
    let total := numberOfLiteralCodes + numberOfDistanceCodes
    let codeSizeArray ← readSymbolCodeSizes codesTree total (total + 1) codeSizeArray 0
    let endOfBlock ← (load codeSizeArray 256 : Result Nat)
    if endOfBlock = 0 then (fail .valueMissing : Result (HuffmanTree × HuffmanTree))
    else do
      let codeSizes ← (slice codeSizeArray 0 numberOfLiteralCodes : Result (List Nat))
      let literalsTree ← (buildTree literalsTree codeSizes : Result HuffmanTree)
      let codeSizes ← (slice codeSizeArray numberOfLiteralCodes numberOfDistanceCodes : Result (List Nat))
      let distancesTree ← (buildTree distancesTree codeSizes : Result HuffmanTree)
      return (literalsTree, distancesTree)

def fixedCodeSize (symbol : Nat) : Nat :=
  if symbol < 144 then 8
  else if symbol < 256 then 9
  else if symbol < 280 then 7
  else if symbol < 288 then 8
  else 5

def buildFixedHuffmanTrees (literalsTree distancesTree : HuffmanTree) :
    Result (HuffmanTree × HuffmanTree) := do
  let codeSizeArray := (List.range 318).map fixedCodeSize
  let literalsTree ← buildTree literalsTree (← slice codeSizeArray 0 288)
  let distancesTree ← buildTree distancesTree (← slice codeSizeArray 288 30)
  return (literalsTree, distancesTree)

def readExtended (bases numbersOfExtraBits : List Nat) (symbol : Nat) : Reader Nat := do
  let numberOfExtraBits ← (load numbersOfExtraBits symbol : Result Nat)
  let extraBits ← BitStream.getValue numberOfExtraBits
  let base ← (load bases symbol : Result Nat)
  return base + extraBits

def decodeHuffmanLoop (literalsTree distancesTree : HuffmanTree) :
    Nat → Output capacity → Reader (Output capacity)
  | 0, _ => (.error .unfinished : Result (Output capacity))
  | fuel + 1, output => do
      let symbol ← literalsTree.getSymbolFromBitStream
      if symbol < 256 then
        if output.bytes.length ≥ capacity then (fail .valueTooSmall : Result (Output capacity))
        else do
          let output ← (output.write [UInt8.ofNat symbol] : Result (Output capacity))
          decodeHuffmanLoop literalsTree distancesTree fuel output
      else if symbol > 256 ∧ symbol < 286 then do
        let compressionSize ←
          readExtended literalCodesBase literalCodesNumberOfExtraBits (symbol - 257)
        let symbol ← distancesTree.getSymbolFromBitStream
        let compressionOffset ← readExtended distanceCodesBase distanceCodesNumberOfExtraBits symbol
        if compressionOffset > output.bytes.length then
          (fail .valueOutOfBounds : Result (Output capacity))
        else if output.bytes.length + compressionSize > capacity then
          (fail .valueTooSmall : Result (Output capacity))
        else do
          let output ← (output.copy compressionOffset compressionSize : Result (Output capacity))
          decodeHuffmanLoop literalsTree distancesTree fuel output
      else if symbol ≠ 256 then (fail .getFailed : Result (Output capacity))
      else return output

-- Every round reads a symbol of at least one bit, so there are at most as many as bits in the stream.
def decodeHuffman (literalsTree distancesTree : HuffmanTree) (output : Output capacity) :
    Reader (Output capacity) := do
  if capacity > ssizeMax then (fail .valueExceedsMaximum : Result (Output capacity))
  else do
    let stream ← get
    decodeHuffmanLoop literalsTree distancesTree (8 * stream.byteStream.length + 1) output

def readBlockHeader : Reader (Nat × Nat) := do
  let value ← BitStream.getValue 3
  return (value % 2, value >>> 1)

def skipToByte : Reader Unit := do
  let stream ← get
  if stream.bitBufferSize % 8 > 0 then do
    let _ ← BitStream.getValue (stream.bitBufferSize % 8)
    return ()
  else return ()

def copyStoredData (blockSize : Nat) (output : Output capacity) : Reader (Output capacity) := do
  let stream ← get
  if blockSize > stream.byteStream.length - stream.byteStreamOffset then
    (fail .valueTooSmall : Result (Output capacity))
  else if blockSize > capacity - output.bytes.length then
    (fail .valueTooSmall : Result (Output capacity))
  else do
    let data ← (slice stream.byteStream stream.byteStreamOffset blockSize : Result (List UInt8))
    let output ← (output.write data : Result (Output capacity))
    set { stream with
      byteStreamOffset := stream.byteStreamOffset + blockSize
      bitBuffer := 0
      bitBufferSize := 0 }
    return output

def readStoredBlock (output : Output capacity) : Reader (Output capacity) := do
  skipToByte
  let value ← BitStream.getValue 32
  let blockSizeCopy := (value >>> 16) ^^^ 0xffff
  let blockSize := value % 65536
  if blockSize ≠ blockSizeCopy then (fail .valueMismatch : Result (Output capacity))
  else if blockSize = 0 then return output
  else copyStoredData blockSize output

def readBlock (blockType : Nat) (fixedTrees : Option (HuffmanTree × HuffmanTree))
    (output : Output capacity) : Reader (Output capacity) := do
  if capacity > ssizeMax then (fail .valueExceedsMaximum : Result (Output capacity))
  else if blockType = 0 then readStoredBlock output
  else if blockType = 1 then
    match fixedTrees with
    | some (literalsTree, distancesTree) => decodeHuffman literalsTree distancesTree output
    | none => (fail .invalidValue : Result (Output capacity))
  else if blockType = 2 then do
    let literalsTree ← (HuffmanTree.create 288 15 : Result HuffmanTree)
    let distancesTree ← (HuffmanTree.create 30 15 : Result HuffmanTree)
    let (literalsTree, distancesTree) ← buildDynamicHuffmanTrees literalsTree distancesTree
    decodeHuffman literalsTree distancesTree output
  else (fail .unsupportedValue : Result (Output capacity))

/-- The fixed trees are built at the first block that needs them. -/
def prepareFixedTrees (blockType : Nat) (fixedTrees : Option (HuffmanTree × HuffmanTree)) :
    Result (Option (HuffmanTree × HuffmanTree)) := do
  if blockType = 1 ∧ fixedTrees = none then
    let literalsTree ← HuffmanTree.create 288 15
    let distancesTree ← HuffmanTree.create 30 15
    return some (← buildFixedHuffmanTrees literalsTree distancesTree)
  else return fixedTrees

def readBlocks : Nat → Option (HuffmanTree × HuffmanTree) → Output capacity → Reader (Output capacity)
  | 0, _, _ => (.error .unfinished : Result (Output capacity))
  | fuel + 1, fixedTrees, output => do
      let stream ← get
      if stream.byteStreamOffset < stream.byteStream.length then do
        let (lastBlockFlag, blockType) ← readBlockHeader
        let fixedTrees ← (prepareFixedTrees blockType fixedTrees : Result _)
        let output ← readBlock blockType fixedTrees output
        if lastBlockFlag ≠ 0 then return output
        else readBlocks fuel fixedTrees output
      else return output

def decompress (compressedData : List UInt8) (uncompressedDataSize : Nat) :
    Result (Output uncompressedDataSize) := do
  if compressedData.length > ssizeMax then fail .valueExceedsMaximum
  else if uncompressedDataSize > ssizeMax then fail .valueExceedsMaximum
  else if 0 ≥ compressedData.length then fail .valueTooSmall
  else do
    let bitStream ← BitStream.create compressedData 0 .byteBackToFront
    let (output, _) ← readBlocks (8 * compressedData.length + 1) none (Output.empty _) bitStream
    return output

def readDataHeader (compressedData : List UInt8) : Result Nat :=
  if compressedData.length > ssizeMax then fail .valueExceedsMaximum
  else if compressedData.length < 2 then fail .valueTooSmall
  else do
    let compressionData ← load compressedData 0
    let flags ← load compressedData 1
    if flags.toNat &&& 0x20 ≠ 0 ∧ (compressedData.length < 6 ∨ 2 > compressedData.length - 6) then
      fail .valueTooSmall
    else if compressionData.toNat % 16 ≠ 8 then fail .unsupportedValue
    else if 1 <<< (compressionData.toNat >>> 4 + 8) > 32768 then fail .unsupportedValue
    else .ok (if flags.toNat &&& 0x20 ≠ 0 then 6 else 2)

/-- Whole bytes in the bit buffer are given back to the byte stream. -/
def unreadBytes (stream : BitStream) : BitStream :=
  { stream with
    byteStreamOffset := stream.byteStreamOffset - stream.bitBufferSize / 8
    bitBufferSize := stream.bitBufferSize % 8 }

def compareChecksums (bitStream : BitStream) (output : Output capacity) : Result (Output capacity) := do
  if bitStream.byteStream.length - bitStream.byteStreamOffset ≥ 4 then do
    let bitStream := unreadBytes bitStream
    let storedChecksum ← loadBigEndian32 bitStream.byteStream bitStream.byteStreamOffset
    let calculatedChecksum ← calculateAdler32 output.bytes 1
    if storedChecksum ≠ calculatedChecksum then fail .checksumMismatch
    else return output
  else return output

def decompressZlib (compressedData : List UInt8) (uncompressedDataSize : Nat) :
    Result (Output uncompressedDataSize) := do
  if compressedData.length > ssizeMax then fail .valueExceedsMaximum
  else if uncompressedDataSize > ssizeMax then fail .valueExceedsMaximum
  else do
    let compressedDataOffset ← readDataHeader compressedData
    if compressedDataOffset ≥ compressedData.length then fail .valueTooSmall
    else do
      let bitStream ← BitStream.create compressedData compressedDataOffset .byteBackToFront
      let (output, bitStream) ←
        readBlocks (8 * compressedData.length + 1) none (Output.empty _) bitStream
      compareChecksums bitStream output

end Fsapfs.Deflate
