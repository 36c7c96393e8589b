import Fsapfs.Deflate.Safety

namespace Fsapfs.Deflate
open Program Coding

variable {capacity phase : Nat}

theorem Reads.offer_bind {α β : Type} {offered : Option α} {a : α} {next : α → BitReader β}
    {code : List Bool} {value : Option β} (some : offered = some a) (read : Reads phase (next a) code value) :
    Reads phase (offer offered >>= next) code value := by
  intro rest whole
  rw [Coding.offer_bind some]
  exact read rest whole

theorem Reads.require_bind {β : Type} {condition : Prop} [Decidable condition] {next : Unit → BitReader β}
    {code : List Bool} {value : Option β} (held : condition) (read : Reads phase (next ()) code value) :
    Reads phase (require condition >>= next) code value := by
  intro rest whole
  rw [Deflate.require_bind, if_pos held]
  exact read rest whole

theorem Reads.require_none {β : Type} {condition : Prop} [Decidable condition] {next : Unit → BitReader β}
    (failed : ¬condition) (code : List Bool) : Reads phase (require condition >>= next) code none := by
  intro rest _
  rw [Deflate.require_bind, if_neg failed]
  rfl

theorem codesUsed_codeLengths (codes : CodeLengths) : codesUsed codes.lengths 15 ≤ 2 ^ 15 :=
  codesUsed_eq_kraftSum codes.bounded ▸ codes.prefixFree

theorem codeword_length (lengths : List Nat) (s : Nat) :
    (codeword lengths s).length = lengths.getD s 0 := by
  rw [codeword, List.length_reverse, natBits_length]

theorem reads_codeword (codes : CodeLengths) {s : Nat} (used : codes.lengths.getD s 0 ≠ 0) :
    Reads phase (decodeSymbol codes.lengths 15) (codeword codes.lengths s) (some s) := by
  have inside : s < codes.lengths.length := by
    by_contra outside
    rw [List.getD_eq_default _ _ (by omega)] at used
    exact used rfl
  rw [List.getD_eq_getElem _ _ inside] at used
  exact reads_decodeSymbol phase (List.getElem?_eq_getElem inside) (by omega)
    (codes.bounded _ (List.getElem_mem inside)) (codesUsed_codeLengths codes)

theorem usable_iff (codes : CodeLengths) : Usable codes.lengths ↔ ∃ l ∈ codes.lengths, l ≠ 0 :=
  ⟨fun usable => usable.2, fun used => ⟨⟨codes.bounded, codesUsed_codeLengths codes⟩, used⟩⟩

theorem usable_of_getD (codes : CodeLengths) {s : Nat} (used : codes.lengths.getD s 0 ≠ 0) :
    Usable codes.lengths := by
  have inside : s < codes.lengths.length := by
    by_contra outside
    rw [List.getD_eq_default _ _ (by omega)] at used
    exact used rfl
  rw [List.getD_eq_getElem _ _ inside] at used
  exact (usable_iff codes).mpr ⟨_, List.getElem_mem inside, used⟩

theorem reads_extended {ranges : List CodeRange} (ranged : Ranged ranges)
    (fit : ∀ range ∈ ranges, range.last - range.first < 2 ^ range.extraBits) :
    Reads phase (extended (ranges.map CodeRange.first) (ranges.map CodeRange.extraBits) ranged.code)
      ranged.extraBits (some ranged.value) := by
  have small := fit _ (List.mem_of_getElem? ranged.found)
  have inside := ranged.inside
  refine Reads.offer_bind (a := ranged.range.extraBits) (by simp [ranged.found]) ?_
  have read := (reads_natBits phase ranged.range.extraBits (ranged.value - ranged.range.first) (by omega))
  refine read.bind_last ?_
  refine Reads.offer_bind (a := ranged.range.first) (by simp [ranged.found]) ?_
  have value : ranged.range.first + (ranged.value - ranged.range.first) = ranged.value := by omega
  rw [value]
  exact Reads.pure _ _

theorem reads_length (length : Ranged lengthRanges) :
    Reads phase (extended literalCodesBase literalCodesNumberOfExtraBits length.code) length.extraBits
      (some length.value) :=
  reads_extended length (by decide)

theorem reads_distance (distance : Ranged distanceRanges) :
    Reads phase (extended distanceCodesBase distanceCodesNumberOfExtraBits distance.code)
      distance.extraBits (some distance.value) :=
  reads_extended distance (by decide)

theorem copyMatch_length (distance size : Nat) (output : List UInt8) :
    (copyMatch distance size output).length = output.length + size := by
  induction size generalizing output with
  | zero => rfl
  | succ size ih =>
      rw [copyMatch, ih, List.length_append, List.length_singleton]
      omega

theorem expandTokens_length {tokens : List Token} {output expansion : List UInt8}
    (expands : expandTokens output tokens = some expansion) : output.length ≤ expansion.length := by
  induction tokens generalizing output with
  | nil => exact (congrArg List.length (Option.some.inj expands)).le
  | cons token tokens ih =>
      obtain ⟨middle, first, rest⟩ := Option.bind_eq_some_iff.mp expands
      have later := ih rest
      cases token with
      | literal byte =>
          cases first
          simp only [List.length_append] at later
          omega
      | reference length distance =>
          simp only [Token.expand] at first
          split_ifs at first
          cases first
          rw [copyMatch_length] at later
          omega

def fitting (capacity : Nat) (expansion : List UInt8) : Option (List UInt8) :=
  if expansion.length ≤ capacity then some expansion else none

theorem tokensCode_cons (literals distances : List Nat) (token : Token) (tokens : List Token) :
    tokensCode literals distances (token :: tokens) =
      token.code literals distances ++ tokensCode literals distances tokens := by
  simp [tokensCode]

theorem tokensCode_length {literals distances : List Nat} {tokens : List Token}
    (codable : ∀ token ∈ tokens, token.Codable literals distances) :
    tokens.length ≤ (tokensCode literals distances tokens).length := by
  induction tokens with
  | nil => simp
  | cons token tokens ih =>
      have rest := ih fun token member => codable token (List.mem_cons_of_mem _ member)
      have used := codable token List.mem_cons_self
      have positive : 0 < (token.code literals distances).length := by
        cases token with
        | literal byte =>
            simp only [Token.Codable] at used
            rw [Token.code, codeword_length]
            omega
        | reference length distance =>
            obtain ⟨used, _⟩ := used
            rw [Token.code, List.length_append, List.length_append, codeword_length]
            omega
      rw [tokensCode_cons, List.length_append, List.length_cons]
      omega

theorem tokensLoop_reads {literals distances : CodeLengths} {tokens : List Token}
    {output expansion : List UInt8} {fuel : Nat}
    (codable : ∀ token ∈ tokens, token.Codable literals.lengths distances.lengths)
    (endOfBlock : literals.lengths.getD 256 0 ≠ 0) (within : output.length ≤ capacity)
    (enough : tokens.length < fuel) (expands : expandTokens output tokens = some expansion) :
    Reads phase (tokensLoop literals.lengths distances.lengths capacity fuel output)
      (tokensCode literals.lengths distances.lengths tokens) (fitting capacity expansion) := by
  obtain ⟨fuel, rfl⟩ : ∃ n, fuel = n + 1 := ⟨fuel - 1, by omega⟩
  induction tokens generalizing output fuel phase with
  | nil =>
      cases expands
      rw [fitting, if_pos within, tokensCode, List.flatMap_nil, List.nil_append]
      exact (reads_codeword literals endOfBlock).bind_last (Reads.pure _ _)
  | cons token tokens ih =>
      obtain ⟨fuel, rfl⟩ : ∃ n, fuel = n + 1 := ⟨fuel - 1, by simp at enough; omega⟩
      obtain ⟨middle, first, rest⟩ := Option.bind_eq_some_iff.mp expands
      have used := codable token List.mem_cons_self
      have later : ∀ phase, middle.length ≤ capacity →
          Reads phase (tokensLoop literals.lengths distances.lengths capacity (fuel + 1) middle)
            (tokensCode literals.lengths distances.lengths tokens) (fitting capacity expansion) :=
        fun phase fits => ih (fun token member => codable token (List.mem_cons_of_mem _ member)) fits rest
          fuel (by simp at enough ⊢; omega)
      have longer := expandTokens_length rest
      rw [tokensCode_cons]
      cases token with
      | literal byte =>
          cases first
          have small := byte.toNat_lt
          refine (reads_codeword literals used).bind ?_
          rw [if_pos (by simpa using small), UInt8.ofNat_toNat]
          by_cases fits : (output ++ [byte]).length ≤ capacity
          · exact Reads.offer_bind (extend_of_fits _ _ (by simpa using fits)) (later _ fits)
          · rw [fitting, if_neg (by omega)]
            have full : extend capacity output [byte] = none := if_neg (by simpa using fits)
            rw [full]
            exact (Reads.offer _ none).bind_none.append_none _
      | reference length distance =>
          simp only [Token.expand] at first
          split_ifs at first with behind
          cases first
          have known := (List.getElem?_eq_some_iff.mp length.found).1
          rw [show lengthRanges.length = 29 from rfl] at known
          rw [Token.code, List.append_assoc, List.append_assoc, List.append_assoc]
          refine (reads_codeword literals used.1).bind ?_
          rw [if_neg (by omega), if_pos (by omega), Nat.add_sub_cancel_left]
          refine (reads_length length).bind ((reads_codeword distances used.2).bind
            ((reads_distance distance).bind ?_))
          rw [if_neg (by omega)]
          rw [copyMatch_length] at longer
          by_cases fits : output.length + length.value ≤ capacity
          · rw [if_neg (by omega)]
            exact later _ (by rw [copyMatch_length]; exact fits)
          · rw [if_pos (by omega), fitting, if_neg (by omega)]
            exact Reads.reject _ _

theorem tokens_reads (literals distances : CodeLengths) {tokens : List Token}
    {output expansion : List UInt8}
    (codable : ∀ token ∈ tokens, token.Codable literals.lengths distances.lengths)
    (endOfBlock : literals.lengths.getD 256 0 ≠ 0) (within : output.length ≤ capacity)
    (expands : expandTokens output tokens = some expansion) :
    Reads phase (Deflate.tokens literals.lengths distances.lengths capacity output)
      (tokensCode literals.lengths distances.lengths tokens) (fitting capacity expansion) := by
  intro rest whole
  have long := tokensCode_length codable
  exact tokensLoop_reads codable endOfBlock within (by simp; omega) expands rest whole

end Fsapfs.Deflate
