import Fsapfs.Deflate.Headers

namespace Fsapfs.Deflate
open Program Coding

variable {capacity phase : Nat}

def Block.Supported : Block → Prop
  | .stored _ _ => True
  | .fixed _ => True
  | .dynamic header _ => header.Supported

instance : DecidablePred Block.Supported
  | .stored _ _ => isTrue trivial
  | .fixed _ => isTrue trivial
  | .dynamic header _ => inferInstanceAs (Decidable header.Supported)

theorem complement_xor {n v : Nat} (small : v < 2 ^ n) : (2 ^ n - (v + 1)) ^^^ (2 ^ n - 1) = v := by
  apply Nat.eq_of_testBit_eq
  intro i
  rw [Nat.testBit_xor, Nat.testBit_two_pow_sub_succ small, Nat.testBit_two_pow_sub_one]
  by_cases inside : i < n
  · simp [inside]
  · have high := Nat.testBit_lt_two_pow (small.trans_le (Nat.pow_le_pow_right (by omega) (not_lt.mp inside)))
    simp [inside, high]

theorem storedBlock_reads {padding : List Bool} {data output : List UInt8} (short : padding.length < 8)
    (aligned : (phase + padding.length) % 8 = 0) (small : data.length < 2 ^ 16) :
    Reads phase (storedBlock capacity output)
      (padding ++ natBits 16 data.length ++ natBits 16 (2 ^ 16 - (data.length + 1)) ++ bytesBits data)
      (fitting capacity (output ++ data)) := by
  have low : (data.length + 2 ^ 16 * (2 ^ 16 - (data.length + 1))) % 65536 = data.length := by omega
  have high : (data.length + 2 ^ 16 * (2 ^ 16 - (data.length + 1))) >>> 16 =
      2 ^ 16 - (data.length + 1) := by
    rw [Nat.shiftRight_eq_div_pow]
    omega
  rw [List.append_assoc, List.append_assoc, ← List.append_assoc (natBits 16 data.length),
    ← natBits_add_mul 16 16 _ _ small]
  refine (reads_alignByte phase padding short aligned).bind ?_
  refine (reads_natBits _ 32 _ (by omega)).bind ?_
  refine Reads.require_bind ?_ ?_
  · rw [low, high]
    exact (complement_xor small).symm
  · rw [low]
    refine (reads_takeBytes _ data).bind_last ?_
    have offered : extend capacity output data = fitting capacity (output ++ data) := by
      rw [extend, fitting, List.length_append]
    rw [offered]
    exact Reads.offer _ _

theorem standardLiterals_eq : standardLiterals = fixedLiterals := by decide +kernel

def fixedLiteralLengths : CodeLengths where
  lengths := fixedLiterals
  bounded := fixedCodeSizes_usable.1.1.1
  prefixFree := by decide +kernel

def fixedDistanceLengths : CodeLengths where
  lengths := fixedDistances
  bounded := fixedCodeSizes_usable.2.1.1
  prefixFree := by decide +kernel

theorem standardDistances_codeword {s : Nat} (small : s < 30) :
    codeword standardDistances s = codeword fixedDistances s := by
  have all : ∀ s < 30, codeword standardDistances s = codeword fixedDistances s := by decide +kernel
  exact all s small

theorem distance_code_lt (distance : Ranged distanceRanges) : distance.code < 30 :=
  (List.getElem?_eq_some_iff.mp distance.found).1

theorem fixedTokens_code (tokens : List Token) :
    tokensCode standardLiterals standardDistances tokens =
      tokensCode fixedLiterals fixedDistances tokens := by
  have each : Token.code standardLiterals standardDistances = Token.code fixedLiterals fixedDistances := by
    funext token
    rw [standardLiterals_eq]
    cases token with
    | literal byte => rfl
    | reference length distance =>
        rw [Token.code, Token.code, standardDistances_codeword (distance_code_lt distance)]
  rw [tokensCode, each, standardLiterals_eq, tokensCode]

theorem fixedTokens_codable (token : Token) : token.Codable fixedLiterals fixedDistances := by
  have literals : ∀ s < 288, fixedLiterals.getD s 0 ≠ 0 := by decide +kernel
  have distances : ∀ s < 30, fixedDistances.getD s 0 ≠ 0 := by decide +kernel
  cases token with
  | literal byte => exact literals _ (by have := byte.toNat_lt; omega)
  | reference length distance =>
      have known : length.code < 29 := (List.getElem?_eq_some_iff.mp length.found).1
      exact ⟨literals _ (by omega), distances _ (distance_code_lt distance)⟩

theorem block_reads {b : Block} {output expansion : List UInt8} (valid : b.Valid phase)
    (within : output.length ≤ capacity) (expands : b.expand output = some expansion) :
    Reads (phase + 3) (block capacity b.type output) b.body
      (if b.Supported then fitting capacity expansion else none) := by
  cases b with
  | stored padding data =>
      cases expands
      obtain ⟨short, aligned, small⟩ := valid
      rw [if_pos (show (Block.stored padding data).Supported from trivial)]
      exact storedBlock_reads short aligned small
  | fixed tokens =>
      rw [if_pos (show (Block.fixed tokens).Supported from trivial), Block.body, fixedTokens_code]
      exact tokens_reads fixedLiteralLengths fixedDistanceLengths (fun token _ => fixedTokens_codable token) (by decide +kernel) within expands
  | dynamic header tokens =>
      have header_reads := reads_dynamicSizes (phase + 3) header
      by_cases supported : header.Supported
      · rw [if_pos supported] at header_reads
        rw [if_pos (show Block.Supported (.dynamic header tokens) from supported)]
        exact header_reads.bind (tokens_reads _ _ valid header.endOfBlock within expands)
      · rw [if_neg supported] at header_reads
        rw [if_neg (show ¬Block.Supported (.dynamic header tokens) from supported)]
        exact header_reads.bind_none.append_none _

theorem Block.type_lt (b : Block) : b.type < 3 := by
  cases b <;> simp [Block.type]

def Block.Produced (capacity : Nat) (b : Block) (expansion : List UInt8) : Prop :=
  b.Supported ∧ expansion.length ≤ capacity

theorem blockThen_reads {b : Block} {output expansion : List UInt8} {last : Bool} {rest : List Bool}
    {next : List UInt8 → BitReader (List UInt8)} (valid : b.Valid phase)
    (within : output.length ≤ capacity) (expands : b.expand output = some expansion)
    (follow : Follows phase (b.code last) rest) :
    (¬b.Produced capacity expansion → blockThen capacity output next (b.code last ++ rest) = none) ∧
      (b.Produced capacity expansion → blockThen capacity output next (b.code last ++ rest) =
        if last then some (expansion, rest) else next expansion rest) := by
  have type := b.type_lt
  have bit : last.toNat < 2 := last.toNat_lt
  have header := reads_natBits phase 3 (last.toNat + 2 * b.type) (by omega)
  have typeRead : (last.toNat + 2 * b.type) >>> 1 = b.type := by
    rw [Nat.shiftRight_eq_div_pow]
    omega
  have lastRead : ((last.toNat + 2 * b.type) % 2 ≠ 0) ↔ last = true := by
    cases last <;> simp
  have body := block_reads valid within expands
  rw [Follows, Block.code, List.length_append, natBits_length] at follow
  have headerRead := header (b.body ++ rest) (by
    simp only [Follows, natBits_length, List.length_append]
    omega)
  have bodyRead := body rest (by rw [Follows]; omega)
  rw [Block.code, List.append_assoc, blockThen, bind_of_some headerRead, typeRead]
  constructor
  · intro rejected
    refine bind_of_none (bodyRead.trans ?_)
    by_cases supported : b.Supported
    · rw [if_pos supported, fitting, if_neg fun fits => rejected ⟨supported, fits⟩]
      rfl
    · rw [if_neg supported]
      rfl
  · rintro ⟨supported, fits⟩
    rw [if_pos supported, fitting, if_pos fits] at bodyRead
    rw [bind_of_some bodyRead]
    simp only [lastRead]
    cases last <;> rfl

theorem Block.code_length (last : Bool) (b : Block) :
    (b.code last).length = 3 + b.body.length := by
  rw [Block.code, List.length_append, natBits_length]

theorem Block.code_long (last : Bool) (b : Block) : 8 ≤ (b.code last).length := by
  rw [Block.code_length]
  cases b with
  | stored padding data =>
      simp only [Block.body, List.length_append, natBits_length]
      omega
  | fixed tokens =>
      have endOfBlock : (codeword standardLiterals 256).length = 7 := by decide +kernel
      simp only [Block.body, tokensCode, List.length_append]
      omega
  | dynamic header tokens =>
      simp only [Block.body, DynamicHeader.code, List.length_append, natBits_length]
      omega

theorem Block.expand_length {b : Block} {output expansion : List UInt8}
    (expands : b.expand output = some expansion) : output.length ≤ expansion.length := by
  cases b with
  | stored padding data =>
      cases expands
      rw [List.length_append]
      exact Nat.le_add_right _ _
  | fixed tokens => exact expandTokens_length expands
  | dynamic header tokens => exact expandTokens_length expands

theorem expandBlocks_length {blocks : List Block} {output expansion : List UInt8}
    (expands : expandBlocks output blocks = some expansion) : output.length ≤ expansion.length := by
  induction blocks generalizing output with
  | nil => exact (congrArg List.length (Option.some.inj expands)).le
  | cons b blocks ih =>
      obtain ⟨middle, first, rest⟩ := Option.bind_eq_some_iff.mp expands
      exact (Block.expand_length first).trans (ih rest)

theorem blocksLoop_block {b : Block} {output expansion : List UInt8} {last : Bool} {rest : List Bool}
    (fuel : Nat) (valid : b.Valid phase) (within : output.length ≤ capacity)
    (expands : b.expand output = some expansion) (follow : Follows phase (b.code last) rest) :
    (¬b.Produced capacity expansion →
      blocksLoop capacity (fuel + 1) output (b.code last ++ rest) = none) ∧
    (b.Produced capacity expansion →
      blocksLoop capacity (fuel + 1) output (b.code last ++ rest) =
        if last then some (expansion, rest) else blocksLoop capacity fuel expansion rest) := by
  have long := b.code_long last
  rw [blocksLoop_succ, if_neg (by rw [List.length_append]; omega)]
  exact blockThen_reads valid within expands follow

theorem blocksLoop_reads {front : List Block} {final : Block} {output expansion : List UInt8}
    {rest : List Bool} {fuel : Nat} (valid : ValidFrom phase (front ++ [final]))
    (within : output.length ≤ capacity) (expands : expandBlocks output (front ++ [final]) = some expansion)
    (follow : Follows phase (frontCode front ++ final.code true) rest) (enough : front.length < fuel) :
    blocksLoop capacity fuel output (frontCode front ++ final.code true ++ rest) =
      if (∀ b ∈ front ++ [final], b.Supported) ∧ expansion.length ≤ capacity then some (expansion, rest)
      else none := by
  obtain ⟨fuel, rfl⟩ : ∃ n, fuel = n + 1 := ⟨fuel - 1, by omega⟩
  induction front generalizing output phase fuel with
  | nil =>
      obtain ⟨middle, first, last⟩ := Option.bind_eq_some_iff.mp expands
      cases last
      obtain ⟨rejected, produced⟩ := blocksLoop_block fuel valid.1 within first follow
      split_ifs with accepted
      · exact produced ⟨accepted.1 final (by simp), accepted.2⟩
      · exact rejected fun both => accepted ⟨by simpa using both.1, both.2⟩
  | cons b front ih =>
      obtain ⟨fuel, rfl⟩ : ∃ n, fuel = n + 1 := ⟨fuel - 1, by simp at enough; omega⟩
      obtain ⟨middle, first, later⟩ := Option.bind_eq_some_iff.mp expands
      have longer := expandBlocks_length later
      have split : frontCode (b :: front) ++ final.code true ++ rest =
          b.code false ++ (frontCode front ++ final.code true ++ rest) := by
        simp [frontCode]
      have follows : Follows phase (b.code false) (frontCode front ++ final.code true ++ rest) := by
        simp only [Follows, frontCode, List.flatMap_cons, List.length_append] at follow ⊢
        omega
      obtain ⟨rejected, produced⟩ := blocksLoop_block (fuel + 1) valid.1 within first follows
      rw [split]
      by_cases here : b.Produced capacity middle
      · have followsLater : Follows (phase + (b.code false).length) (frontCode front ++ final.code true)
            rest := by
          simp only [Follows, List.length_append] at follows ⊢
          omega
        refine (produced here).trans ((ih valid.2 here.2 later followsLater fuel
          (by simp at enough; omega)).trans ?_)
        simp only [List.cons_append, List.forall_mem_cons, here.1, true_and]
      · rw [if_neg fun accepted => here ⟨accepted.1 b (by simp), longer.trans accepted.2⟩]
        exact rejected here

theorem DeflateStream.blocksRead {stream : DeflateStream} {padding : List Bool} {fuel : Nat}
    (enough : stream.front.length < fuel)
    (whole : (stream.code.length + padding.length) % 8 = 0) :
    blocksLoop capacity fuel [] (stream.code ++ padding) =
      if (∀ b ∈ stream.blocks, b.Supported) ∧ stream.expansion.length ≤ capacity then
        some (stream.expansion, padding)
      else none :=
  blocksLoop_reads stream.valid (Nat.zero_le _) stream.expands
    (by rw [Follows, Nat.zero_add]; exact whole) enough

theorem frontCode_length (front : List Block) : front.length ≤ (frontCode front).length := by
  induction front with
  | nil => simp
  | cons b front ih =>
      have long := b.code_long false
      rw [frontCode, List.flatMap_cons, List.length_append, List.length_cons]
      rw [frontCode] at ih
      omega

/-- A valid stream is expanded exactly when each dynamic block in it has the trees the code builds. -/
theorem decompress_expands_iff (stream : DeflateStream) (data : List UInt8) (capacity : Nat)
    (encodes : stream.Encodes data) (room : stream.expansion.length ≤ capacity) :
    (∃ output, decompress data capacity = .ok output ∧ output.bytes = stream.expansion) ↔
      data.length ≤ ssizeMax ∧ capacity ≤ ssizeMax ∧ ∀ b ∈ stream.blocks, b.Supported := by
  obtain ⟨padding, _, bits⟩ := encodes
  have length := congrArg List.length bits
  rw [bytesBits_length, List.length_append] at length
  have few := frontCode_length stream.front
  have frontPart : (frontCode stream.front).length ≤ stream.code.length := by
    rw [DeflateStream.code, List.length_append]
    exact Nat.le_add_right _ _
  have long : 8 ≤ stream.code.length := by
    have := stream.final.code_long true
    rw [DeflateStream.code, List.length_append]
    omega
  have nonempty : data ≠ [] := by
    rintro rfl
    simp at length
    omega
  rw [decompress_iff, Deflate.blocksRead, bits, DeflateStream.blocksRead (by omega) (by omega)]
  by_cases supported : ∀ b ∈ stream.blocks, b.Supported
  · rw [if_pos ⟨supported, room⟩]
    exact ⟨fun ⟨short, small, _⟩ => ⟨short, small, supported⟩,
      fun ⟨short, small, _⟩ => ⟨short, small, nonempty, padding, rfl⟩⟩
  · rw [if_neg fun accepted => supported accepted.1]
    constructor
    · rintro ⟨_, _, _, rest, read⟩
      cases read
    · rintro ⟨_, _, supported'⟩
      exact absurd supported' supported

def repeated : Token :=
  .reference { code := 0, value := 3, range := ⟨0, 3, 3⟩, found := rfl, inside := by decide }
    { code := 0, value := 1, range := ⟨0, 1, 1⟩, found := rfl, inside := by decide }

def alternating : Token :=
  .reference { code := 0, value := 3, range := ⟨0, 3, 3⟩, found := rfl, inside := by decide }
    { code := 1, value := 2, range := ⟨0, 2, 2⟩, found := rfl, inside := by decide }

def letterHeader : DynamicHeader where
  codeLengths := ⟨[0, 2, 2, 0, 0, 0, 0, 0, 0, 0, 0, 0, 0, 0, 0, 0, 0, 0, 1], by decide, by decide⟩
  transmitted := 18
  literals :=
    ⟨List.replicate 100 0 ++ [1] ++ List.replicate 155 0 ++ [2, 2], by decide +kernel, by decide +kernel⟩
  distances := ⟨[1, 1], by decide, by decide⟩
  runs := [.manyZeros 89, .length 1, .manyZeros 127, .manyZeros 6, .length 2, .length 2, .length 1, .length 1]
  nineteen := rfl
  narrow := by decide
  transmittedRange := by decide
  omitted := by decide
  literalRange := by decide +kernel
  distanceRange := by decide
  endOfBlock := by decide +kernel
  codable := by decide
  described := by decide +kernel

def threeBlocks : DeflateStream where
  front := [.fixed [.literal 97, repeated], .stored (List.replicate 7 false) [98, 99]]
  final := .dynamic letterHeader [.literal 100, alternating]
  expansion := [97, 97, 97, 97, 98, 99, 100, 99, 100, 99]
  valid := by decide +kernel
  expands := by decide +kernel

def threeBlocksData : List UInt8 :=
  [74, 4, 2, 0, 0, 2, 0, 253, 255, 98, 99, 13, 193, 129, 0, 0, 0, 0, 128, 32, 217, 252, 25, 190, 60]

theorem threeBlocks_expanded :
    ∃ output, decompress threeBlocksData 10 = .ok output ∧
      output.bytes = [97, 97, 97, 97, 98, 99, 100, 99, 100, 99] :=
  (decompress_expands_iff threeBlocks threeBlocksData 10
    ⟨[false], by decide, by decide +kernel⟩ (by decide)).mpr
      ⟨by decide, by decide, by decide +kernel⟩

def literalOnlyHeader : DynamicHeader where
  codeLengths := ⟨[2, 2, 0, 0, 0, 0, 0, 0, 0, 0, 0, 0, 0, 0, 0, 0, 0, 0, 1], by decide, by decide⟩
  transmitted := 18
  literals :=
    ⟨List.replicate 97 0 ++ [1] ++ List.replicate 158 0 ++ [1], by decide +kernel, by decide +kernel⟩
  distances := ⟨[0], by decide, by decide⟩
  runs := [.manyZeros 86, .length 1, .manyZeros 127, .manyZeros 9, .length 1, .length 0]
  nineteen := rfl
  narrow := by decide
  transmittedRange := by decide
  omitted := by decide
  literalRange := by decide +kernel
  distanceRange := by decide
  endOfBlock := by decide +kernel
  codable := by decide
  described := by decide +kernel

def literalOnlyStream : DeflateStream where
  front := []
  final := .dynamic literalOnlyHeader [.literal 97]
  expansion := [97]
  valid := by decide +kernel
  expands := rfl

theorem literalOnlyStream_rejected :
    literalOnlyStream.Encodes [5, 192, 129, 8, 0, 0, 0, 0, 32, 214, 253, 37, 78] ∧
      literalOnlyStream.expansion.length ≤ 1 ∧
      decompress [5, 192, 129, 8, 0, 0, 0, 0, 32, 214, 253, 37, 78] 1 =
        .error (.error .initializeFailed) :=
  ⟨⟨[false], by decide, by decide +kernel⟩, by decide, by decide +kernel⟩

end Fsapfs.Deflate
