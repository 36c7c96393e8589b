import Fsapfs.Coding.CanonicalCode

/-!
# The DEFLATE compressed data format

Blocks, their encodings and their expansions, as RFC 1951 describes them.
-/

namespace Fsapfs.Deflate
open Coding

/-- The values a length or distance code stands for, and the number of bits that select among them. -/
structure CodeRange where
  extraBits : Nat
  first : Nat
  last : Nat
  deriving Repr, DecidableEq

def lengthRanges : List CodeRange :=
  [⟨0, 3, 3⟩, ⟨0, 4, 4⟩, ⟨0, 5, 5⟩, ⟨0, 6, 6⟩, ⟨0, 7, 7⟩, ⟨0, 8, 8⟩, ⟨0, 9, 9⟩, ⟨0, 10, 10⟩,
    ⟨1, 11, 12⟩, ⟨1, 13, 14⟩, ⟨1, 15, 16⟩, ⟨1, 17, 18⟩, ⟨2, 19, 22⟩, ⟨2, 23, 26⟩, ⟨2, 27, 30⟩,
    ⟨2, 31, 34⟩, ⟨3, 35, 42⟩, ⟨3, 43, 50⟩, ⟨3, 51, 58⟩, ⟨3, 59, 66⟩, ⟨4, 67, 82⟩, ⟨4, 83, 98⟩,
    ⟨4, 99, 114⟩, ⟨4, 115, 130⟩, ⟨5, 131, 162⟩, ⟨5, 163, 194⟩, ⟨5, 195, 226⟩, ⟨5, 227, 257⟩,
    ⟨0, 258, 258⟩]

def distanceRanges : List CodeRange :=
  [⟨0, 1, 1⟩, ⟨0, 2, 2⟩, ⟨0, 3, 3⟩, ⟨0, 4, 4⟩, ⟨1, 5, 6⟩, ⟨1, 7, 8⟩, ⟨2, 9, 12⟩, ⟨2, 13, 16⟩,
    ⟨3, 17, 24⟩, ⟨3, 25, 32⟩, ⟨4, 33, 48⟩, ⟨4, 49, 64⟩, ⟨5, 65, 96⟩, ⟨5, 97, 128⟩, ⟨6, 129, 192⟩,
    ⟨6, 193, 256⟩, ⟨7, 257, 384⟩, ⟨7, 385, 512⟩, ⟨8, 513, 768⟩, ⟨8, 769, 1024⟩, ⟨9, 1025, 1536⟩,
    ⟨9, 1537, 2048⟩, ⟨10, 2049, 3072⟩, ⟨10, 3073, 4096⟩, ⟨11, 4097, 6144⟩, ⟨11, 6145, 8192⟩,
    ⟨12, 8193, 12288⟩, ⟨12, 12289, 16384⟩, ⟨13, 16385, 24576⟩, ⟨13, 24577, 32768⟩]

structure Ranged (ranges : List CodeRange) where
  code : Nat
  value : Nat
  range : CodeRange
  found : ranges[code]? = some range
  inside : range.first ≤ value ∧ value ≤ range.last

inductive Token
  | literal (byte : UInt8)
  | reference (length : Ranged lengthRanges) (distance : Ranged distanceRanges)

def copyMatch (distance : Nat) : Nat → List UInt8 → List UInt8
  | 0, output => output
  | size + 1, output => copyMatch distance size (output ++ [output.getD (output.length - distance) 0])

/-- A reference may not reach back before the start of the output. -/
def Token.expand (output : List UInt8) : Token → Option (List UInt8)
  | .literal byte => some (output ++ [byte])
  | .reference length distance =>
      if distance.value ≤ output.length then some (copyMatch distance.value length.value output) else none

def expandTokens (output : List UInt8) : List Token → Option (List UInt8)
  | [] => some output
  | token :: tokens => do expandTokens (← token.expand output) tokens

/-- Code lengths that a prefix-free code exists for. -/
structure CodeLengths where
  lengths : List Nat
  bounded : ∀ l ∈ lengths, l ≤ 15
  prefixFree : kraftSum 15 lengths ≤ 2 ^ 15

def Ranged.extraBits {ranges : List CodeRange} (ranged : Ranged ranges) : List Bool :=
  natBits ranged.range.extraBits (ranged.value - ranged.range.first)

def Token.code (literals distances : List Nat) : Token → List Bool
  | .literal byte => codeword literals byte.toNat
  | .reference length distance =>
      codeword literals (257 + length.code) ++ length.extraBits ++
        (codeword distances distance.code ++ distance.extraBits)

def Token.Codable (literals distances : List Nat) : Token → Prop
  | .literal byte => literals.getD byte.toNat 0 ≠ 0
  | .reference length distance =>
      literals.getD (257 + length.code) 0 ≠ 0 ∧ distances.getD distance.code 0 ≠ 0

instance (literals distances : List Nat) : DecidablePred (Token.Codable literals distances)
  | .literal byte => inferInstanceAs (Decidable (literals.getD byte.toNat 0 ≠ 0))
  | .reference _ _ => inferInstanceAs (Decidable (_ ∧ _))

def tokensCode (literals distances : List Nat) (tokens : List Token) : List Bool :=
  tokens.flatMap (Token.code literals distances) ++ codeword literals 256

inductive Run
  | length (value : Fin 16)
  | previous (extra : Fin 4)
  | zeros (extra : Fin 8)
  | manyZeros (extra : Fin 128)

def Run.symbol : Run → Nat
  | .length value => value
  | .previous _ => 16
  | .zeros _ => 17
  | .manyZeros _ => 18

def Run.extraBits : Run → List Bool
  | .length _ => []
  | .previous extra => natBits 2 extra
  | .zeros extra => natBits 3 extra
  | .manyZeros extra => natBits 7 extra

def Run.expand (sizes : List Nat) : Run → Option (List Nat)
  | .length value => some (sizes ++ [value.val])
  | .previous extra => sizes.getLast?.map fun size => sizes ++ List.replicate (extra + 3) size
  | .zeros extra => some (sizes ++ List.replicate (extra + 3) 0)
  | .manyZeros extra => some (sizes ++ List.replicate (extra + 11) 0)

def expandRuns (sizes : List Nat) : List Run → Option (List Nat)
  | [] => some sizes
  | run :: runs => do expandRuns (← run.expand sizes) runs

def Run.code (codeLengths : List Nat) (run : Run) : List Bool :=
  codeword codeLengths run.symbol ++ run.extraBits

def codeLengthOrder : List Nat := [16, 17, 18, 0, 8, 7, 9, 6, 10, 5, 11, 4, 12, 3, 13, 2, 14, 1, 15]

structure DynamicHeader where
  codeLengths : CodeLengths
  transmitted : Nat
  literals : CodeLengths
  distances : CodeLengths
  runs : List Run
  nineteen : codeLengths.lengths.length = 19
  narrow : ∀ l ∈ codeLengths.lengths, l < 8
  transmittedRange : 4 ≤ transmitted ∧ transmitted ≤ 19
  omitted : ∀ s ∈ codeLengthOrder.drop transmitted, codeLengths.lengths.getD s 0 = 0
  literalRange : 257 ≤ literals.lengths.length ∧ literals.lengths.length ≤ 286
  distanceRange : 1 ≤ distances.lengths.length ∧ distances.lengths.length ≤ 32
  endOfBlock : literals.lengths.getD 256 0 ≠ 0
  codable : ∀ run ∈ runs, codeLengths.lengths.getD run.symbol 0 ≠ 0
  described : expandRuns [] runs = some (literals.lengths ++ distances.lengths)

def DynamicHeader.code (header : DynamicHeader) : List Bool :=
  natBits 5 (header.literals.lengths.length - 257) ++
    natBits 5 (header.distances.lengths.length - 1) ++
    natBits 4 (header.transmitted - 4) ++
    (codeLengthOrder.take header.transmitted).flatMap
      (fun s => natBits 3 (header.codeLengths.lengths.getD s 0)) ++
    header.runs.flatMap (Run.code header.codeLengths.lengths)

inductive Block
  | stored (padding : List Bool) (data : List UInt8)
  | fixed (tokens : List Token)
  | dynamic (header : DynamicHeader) (tokens : List Token)

def standardLiterals : List Nat :=
  List.replicate 144 8 ++ List.replicate 112 9 ++ List.replicate 24 7 ++ List.replicate 8 8

def standardDistances : List Nat := List.replicate 32 5

def Block.type : Block → Nat
  | .stored _ _ => 0
  | .fixed _ => 1
  | .dynamic _ _ => 2

def Block.body : Block → List Bool
  | .stored padding data =>
      padding ++ natBits 16 data.length ++ natBits 16 (2 ^ 16 - (data.length + 1)) ++ bytesBits data
  | .fixed tokens => tokensCode standardLiterals standardDistances tokens
  | .dynamic header tokens =>
      header.code ++ tokensCode header.literals.lengths header.distances.lengths tokens

def Block.code (last : Bool) (block : Block) : List Bool :=
  natBits 3 (last.toNat + 2 * block.type) ++ block.body

def Block.Valid (phase : Nat) : Block → Prop
  | .stored padding data =>
      padding.length < 8 ∧ (phase + 3 + padding.length) % 8 = 0 ∧ data.length < 2 ^ 16
  | .fixed tokens => ∀ token ∈ tokens, token.Codable standardLiterals standardDistances
  | .dynamic header tokens =>
      ∀ token ∈ tokens, token.Codable header.literals.lengths header.distances.lengths

instance (phase : Nat) : DecidablePred (Block.Valid phase)
  | .stored _ _ => inferInstanceAs (Decidable (_ ∧ _ ∧ _))
  | .fixed tokens => inferInstanceAs (Decidable (∀ token ∈ tokens, _))
  | .dynamic _ tokens => inferInstanceAs (Decidable (∀ token ∈ tokens, _))

def Block.expand (output : List UInt8) : Block → Option (List UInt8)
  | .stored _ data => some (output ++ data)
  | .fixed tokens => expandTokens output tokens
  | .dynamic _ tokens => expandTokens output tokens

def expandBlocks (output : List UInt8) : List Block → Option (List UInt8)
  | [] => some output
  | block :: blocks => do expandBlocks (← block.expand output) blocks

def frontCode (blocks : List Block) : List Bool := blocks.flatMap (Block.code false)

def ValidFrom (phase : Nat) : List Block → Prop
  | [] => True
  | block :: blocks => block.Valid phase ∧ ValidFrom (phase + (block.code false).length) blocks

instance decidableValidFrom : ∀ phase blocks, Decidable (ValidFrom phase blocks)
  | _, [] => isTrue trivial
  | phase, block :: blocks =>
      have := decidableValidFrom (phase + (block.code false).length) blocks
      inferInstanceAs (Decidable (_ ∧ _))

/-- Blocks up to one with the last block flag, and what they expand to. -/
structure DeflateStream where
  front : List Block
  final : Block
  expansion : List UInt8
  valid : ValidFrom 0 (front ++ [final])
  expands : expandBlocks [] (front ++ [final]) = some expansion

def DeflateStream.blocks (stream : DeflateStream) : List Block := stream.front ++ [stream.final]

def DeflateStream.code (stream : DeflateStream) : List Bool :=
  frontCode stream.front ++ stream.final.code true

/-- The data is the code of the stream, filled up to whole bytes. -/
def DeflateStream.Encodes (stream : DeflateStream) (data : List UInt8) : Prop :=
  ∃ padding, padding.length < 8 ∧ bytesBits data = stream.code ++ padding

end Fsapfs.Deflate
