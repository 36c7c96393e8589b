import Fsapfs.Deflate.Decompress
import Fsapfs.Deflate.Format

namespace Fsapfs.Deflate
open Program Coding

/-- The code sizes a caller in this module can build a tree from. -/
def Usable (codeSizes : List Nat) : Prop :=
  HuffmanTree.Acceptable 15 codeSizes ∧ ∃ codeSize ∈ codeSizes, codeSize ≠ 0

instance (codeSizes : List Nat) : Decidable (Usable codeSizes) := inferInstanceAs (Decidable (_ ∧ _))

def require (condition : Prop) [Decidable condition] : BitReader Unit :=
  if condition then pure () else reject

def extend (capacity : Nat) (output data : List UInt8) : Option (List UInt8) :=
  if output.length + data.length ≤ capacity then some (output ++ data) else none

def codeLengthValues (numberOfCodeSizes : Nat) : BitReader (List Nat) :=
  (List.range numberOfCodeSizes).foldlM (fun sizes index => do
    let size ← takeBits 3
    pure (sizes.set (codeSizesSequence.getD index 0) size)) (List.replicate 19 0)

def clearedSizes (numberOfCodeSizes : Nat) (sizes : List Nat) : List Nat :=
  (List.range (19 - numberOfCodeSizes)).foldl (fun sizes index =>
    sizes.set (codeSizesSequence.getD (numberOfCodeSizes + index) 0) 0) sizes

def repetition (sizes : List Nat) (symbol : Nat) : BitReader (Nat × Nat) :=
  if symbol = 16 then do
    let size ← offer sizes.getLast?
    let times ← takeBits 2
    pure (size, times + 3)
  else if symbol = 17 then do
    let times ← takeBits 3
    pure (0, times + 3)
  else if symbol = 18 then do
    let times ← takeBits 7
    pure (0, times + 11)
  else reject

def symbolSizes (codeLengths : List Nat) (total : Nat) : Nat → List Nat → BitReader (List Nat)
  | 0, _ => reject
  | fuel + 1, sizes =>
      if sizes.length < total then do
        let symbol ← decodeSymbol codeLengths 15
        if symbol < 16 then symbolSizes codeLengths total fuel (sizes ++ [symbol])
        else do
          let (size, times) ← repetition sizes symbol
          if sizes.length + times > total then reject
          else symbolSizes codeLengths total fuel (sizes ++ List.replicate times size)
      else pure sizes

def sizesAfterHeader (literalCodes distanceCodes numberOfCodeSizes : Nat) :
    BitReader (List Nat × List Nat) := do
  let values ← codeLengthValues numberOfCodeSizes
  require (Usable (clearedSizes numberOfCodeSizes values))
  let sizes ← symbolSizes (clearedSizes numberOfCodeSizes values) (literalCodes + distanceCodes)
    (literalCodes + distanceCodes + 1) []
  if sizes.getD 256 0 = 0 then reject
  else do
    require (Usable (sizes.take literalCodes))
    require (Usable (sizes.drop literalCodes))
    pure (sizes.take literalCodes, sizes.drop literalCodes)

def dynamicSizes : BitReader (List Nat × List Nat) := do
  let value ← takeBits 14
  if value % 32 + 257 > 286 then reject
  else if value >>> 5 % 32 + 1 > 30 then reject
  else sizesAfterHeader (value % 32 + 257) (value >>> 5 % 32 + 1) (value >>> 10 + 4)

def extended (bases numbersOfExtraBits : List Nat) (symbol : Nat) : BitReader Nat := do
  let numberOfExtraBits ← offer numbersOfExtraBits[symbol]?
  let extraBits ← takeBits numberOfExtraBits
  let base ← offer bases[symbol]?
  pure (base + extraBits)

def tokensLoop (literals distances : List Nat) (capacity : Nat) :
    Nat → List UInt8 → BitReader (List UInt8)
  | 0, _ => reject
  | fuel + 1, output => do
      let symbol ← decodeSymbol literals 15
      if symbol < 256 then do
        let output ← offer (extend capacity output [UInt8.ofNat symbol])
        tokensLoop literals distances capacity fuel output
      else if symbol > 256 ∧ symbol < 286 then do
        let size ← extended literalCodesBase literalCodesNumberOfExtraBits (symbol - 257)
        let symbol ← decodeSymbol distances 15
        let distance ← extended distanceCodesBase distanceCodesNumberOfExtraBits symbol
        if distance > output.length then reject
        else if output.length + size > capacity then reject
        else tokensLoop literals distances capacity fuel (copyMatch distance size output)
      else if symbol ≠ 256 then reject
      else pure output

def tokens (literals distances : List Nat) (capacity : Nat) (output : List UInt8) :
    BitReader (List UInt8) := fun bits =>
  tokensLoop literals distances capacity (bits.length + 1) output bits

def storedBlock (capacity : Nat) (output : List UInt8) : BitReader (List UInt8) := do
  alignByte
  let value ← takeBits 32
  require (value % 65536 = (value >>> 16) ^^^ 0xffff)
  let data ← takeBytes (value % 65536)
  offer (extend capacity output data)

def fixedLiterals : List Nat := (List.range 288).map fixedCodeSize

def fixedDistances : List Nat := List.replicate 30 5

def block (capacity blockType : Nat) (output : List UInt8) : BitReader (List UInt8) :=
  if blockType = 0 then storedBlock capacity output
  else if blockType = 1 then tokens fixedLiterals fixedDistances capacity output
  else if blockType = 2 then do
    let (literals, distances) ← dynamicSizes
    tokens literals distances capacity output
  else reject

def blockThen (capacity : Nat) (output : List UInt8) (next : List UInt8 → BitReader (List UInt8)) :
    BitReader (List UInt8) := do
  let value ← takeBits 3
  let output ← block capacity (value >>> 1) output
  if value % 2 ≠ 0 then pure output else next output

/-- Blocks are read until the last one, or until no whole byte is left. -/
def blocksLoop (capacity : Nat) : Nat → List UInt8 → BitReader (List UInt8)
  | 0, _ => reject
  | fuel + 1, output => fun bits =>
      if bits.length < 8 then some (output, bits)
      else blockThen capacity output (blocksLoop capacity fuel) bits

theorem blocksLoop_succ (capacity fuel : Nat) (output : List UInt8) (bits : List Bool) :
    blocksLoop capacity (fuel + 1) output bits = if bits.length < 8 then some (output, bits)
      else blockThen capacity output (blocksLoop capacity fuel) bits := rfl

theorem sequential_require (condition : Prop) [Decidable condition] : Sequential (require condition) := by
  rw [require]
  split_ifs
  · exact sequential_pure ()
  · exact sequential_reject

theorem sequential_extended (bases numbersOfExtraBits : List Nat) (symbol : Nat) :
    Sequential (extended bases numbersOfExtraBits symbol) :=
  (sequential_offer _).bind fun _ => (sequential_takeBits _).bind fun _ =>
    (sequential_offer _).bind fun _ => sequential_pure _

theorem sequential_repetition (sizes : List Nat) (symbol : Nat) : Sequential (repetition sizes symbol) := by
  rw [repetition]
  split_ifs
  · exact (sequential_offer _).bind fun _ => (sequential_takeBits _).bind fun _ => sequential_pure _
  · exact (sequential_takeBits _).bind fun _ => sequential_pure _
  · exact (sequential_takeBits _).bind fun _ => sequential_pure _
  · exact sequential_reject

theorem sequential_symbolSizes (codeLengths : List Nat) (total fuel : Nat) (sizes : List Nat) :
    Sequential (symbolSizes codeLengths total fuel sizes) := by
  induction fuel generalizing sizes with
  | zero => exact sequential_reject
  | succ fuel ih =>
      rw [symbolSizes]
      split_ifs
      · refine (sequential_decodeSymbol _ _).bind fun symbol => ?_
        split_ifs
        · exact ih _
        · refine (sequential_repetition _ _).bind fun ⟨size, times⟩ => ?_
          dsimp only
          split_ifs
          · exact sequential_reject
          · exact ih _
      · exact sequential_pure _

theorem sequential_sizesAfterHeader (literalCodes distanceCodes numberOfCodeSizes : Nat) :
    Sequential (sizesAfterHeader literalCodes distanceCodes numberOfCodeSizes) := by
  refine (sequential_foldlM (fun _ _ => (sequential_takeBits 3).bind fun _ => sequential_pure _) _ _).bind
    fun values => (sequential_require _).bind fun _ => (sequential_symbolSizes _ _ _ _).bind fun sizes => ?_
  split_ifs
  · exact sequential_reject
  · exact (sequential_require _).bind fun _ => (sequential_require _).bind fun _ => sequential_pure _

theorem sequential_dynamicSizes : Sequential dynamicSizes := by
  refine (sequential_takeBits 14).bind fun value => ?_
  split_ifs
  · exact sequential_reject
  · exact sequential_reject
  · exact sequential_sizesAfterHeader _ _ _

theorem sequential_tokensLoop (literals distances : List Nat) (capacity fuel : Nat) (output : List UInt8) :
    Sequential (tokensLoop literals distances capacity fuel output) := by
  induction fuel generalizing output with
  | zero => exact sequential_reject
  | succ fuel ih =>
      refine (sequential_decodeSymbol _ _).bind fun symbol => ?_
      split_ifs
      · exact (sequential_offer _).bind fun _ => ih _
      · refine (sequential_extended _ _ _).bind fun size => (sequential_decodeSymbol _ _).bind fun symbol =>
          (sequential_extended _ _ _).bind fun distance => ?_
        split_ifs
        · exact sequential_reject
        · exact sequential_reject
        · exact ih _
      · exact sequential_reject
      · exact sequential_pure _

theorem tokensLoop_fuel (literals distances : List Nat) (capacity : Nat) {fuel fuel' : Nat}
    (output : List UInt8) {bits : List Bool} (enough : bits.length < fuel) (enough' : bits.length < fuel') :
    tokensLoop literals distances capacity fuel output bits =
      tokensLoop literals distances capacity fuel' output bits := by
  induction fuel generalizing fuel' output bits with
  | zero => omega
  | succ fuel ih =>
      obtain ⟨fuel', rfl⟩ : ∃ n, fuel' = n + 1 := ⟨fuel' - 1, by omega⟩
      refine bind_congr fun symbol rest read => ?_
      have shorter := (decodeFrom_symbol read).2
      split_ifs
      · refine bind_congr fun written after offered => ?_
        have := (sequential_offer _).consumes _ _ _ offered
        exact ih written (by omega) (by omega)
      · generalize symbol - 257 = lengthCode
        refine bind_congr fun size afterSize readSize => bind_congr fun symbol afterSymbol readSymbol =>
          bind_congr fun distance afterDistance readDistance => ?_
        have := (sequential_extended _ _ _).consumes _ _ _ readSize
        have := (sequential_decodeSymbol _ _).consumes _ _ _ readSymbol
        have := (sequential_extended _ _ _).consumes _ _ _ readDistance
        split_ifs
        · rfl
        · rfl
        · exact ih _ (by omega) (by omega)
      · rfl
      · rfl

theorem sequential_tokens (literals distances : List Nat) (capacity : Nat) (output : List UInt8) :
    Sequential (tokens literals distances capacity output) where
  consumes bits a rest read := (sequential_tokensLoop _ _ _ _ _).consumes bits a rest read
  stable bits a rest more read whole := by
    have longer := tokensLoop_fuel literals distances capacity output (Nat.lt_succ_self bits.length)
      (show bits.length < (bits ++ more).length + 1 by rw [List.length_append]; omega)
    exact (sequential_tokensLoop _ _ _ _ _).stable bits a rest more (longer ▸ read) whole

theorem sequential_storedBlock (capacity : Nat) (output : List UInt8) :
    Sequential (storedBlock capacity output) :=
  sequential_alignByte.bind fun _ => (sequential_takeBits 32).bind fun _ =>
    (sequential_require _).bind fun _ => (sequential_takeBytes _).bind fun _ => sequential_offer _

theorem sequential_block (capacity blockType : Nat) (output : List UInt8) :
    Sequential (block capacity blockType output) := by
  rw [block]
  split_ifs
  · exact sequential_storedBlock _ _
  · exact sequential_tokens _ _ _ _
  · exact sequential_dynamicSizes.bind fun _ => sequential_tokens _ _ _ _
  · exact sequential_reject

end Fsapfs.Deflate
