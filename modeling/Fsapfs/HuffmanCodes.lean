import Fsapfs.BitSlices
import Fsapfs.HuffmanTree

namespace Fsapfs.HuffmanTree
open Program Coding

theorem codeword_length (codeSizes : List Nat) (symbol : Nat) :
    (codeword codeSizes symbol).length = codeSizes.getD symbol 0 := by
  simp [codeword]

/-- The symbols of a number of calls, each with how many bits its call took from the stream. -/
def getSymbols (tree : HuffmanTree) : Nat → BitStream → Result (List (Nat × Nat) × BitStream)
  | 0, stream => .ok ([], stream)
  | n + 1, stream => do
      let (symbol, after) ← tree.getSymbolFromBitStream stream
      let (symbols, last) ← getSymbols tree n after
      .ok ((symbol, stream.pending.length - after.pending.length) :: symbols, last)

theorem getSymbol_reads {tree : HuffmanTree} {codeSizes : List Nat} (represents : tree.Represents codeSizes)
    (acceptable : Acceptable tree.maximumCodeSize codeSizes) {symbol : Nat} (used : codeSizes.getD symbol 0 ≠ 0)
    {stream : BitStream} (ready : stream.Ready) {rest : List Bool}
    (bits : stream.pending = codeword codeSizes symbol ++ rest) : ∃ after,
    tree.getSymbolFromBitStream stream = .ok (symbol, after) ∧ after.Ready ∧ after.pending = rest := by
  obtain ⟨codeSize, found⟩ : ∃ codeSize, codeSizes[symbol]? = some codeSize := by
    cases found : codeSizes[symbol]? with
    | none => simp [List.getD, found] at used
    | some codeSize => exact ⟨codeSize, rfl⟩
  have positive : 0 < codeSize := by
    rw [List.getD, found] at used
    exact Nat.pos_of_ne_zero used
  have within := acceptable.1 _ (List.mem_of_getElem? found)
  have phase : ∃ phase, Follows phase (codeword codeSizes symbol) rest := by
    refine ⟨7 * ((codeword codeSizes symbol).length + rest.length), ?_⟩
    unfold Follows
    omega
  obtain ⟨phase, follows⟩ := phase
  have decoded := reads_decodeSymbol phase found positive within acceptable.2 rest follows
  rw [← bits] at decoded
  have loop := @getSymbolLoop_decodes BitStream.Ready BitStream.pending (fun _ => BitStream.getValue_one) tree codeSizes
    represents tree.maximumCodeSize 0 0 (Nat.zero_add _) (by simp) stream ready
  obtain ⟨⟨value, after⟩, run, same, ready'⟩ := loop.value (by
    have read : decodeFrom codeSizes tree.maximumCodeSize 0 0 stream.pending = some (symbol, rest) := decoded
    simp [read])
  cases same.symm.trans decoded
  exact ⟨after, run, ready', rfl⟩

theorem getSymbols_reads {tree : HuffmanTree} {codeSizes : List Nat} (represents : tree.Represents codeSizes)
    (acceptable : Acceptable tree.maximumCodeSize codeSizes) {symbols : List Nat}
    (used : ∀ symbol ∈ symbols, codeSizes.getD symbol 0 ≠ 0) {stream : BitStream} (ready : stream.Ready)
    {rest : List Bool} (bits : stream.pending = symbols.flatMap (codeword codeSizes) ++ rest) : ∃ after,
    tree.getSymbols symbols.length stream =
        .ok (symbols.map fun symbol => (symbol, codeSizes.getD symbol 0), after) ∧
      after.Ready ∧ after.pending = rest := by
  induction symbols generalizing stream with
  | nil => exact ⟨stream, rfl, ready, bits⟩
  | cons symbol symbols ih =>
      rw [List.flatMap_cons, List.append_assoc] at bits
      obtain ⟨middle, first, ready', left⟩ :=
        getSymbol_reads represents acceptable (used symbol (List.mem_cons_self ..)) ready bits
      obtain ⟨after, others, ready'', last⟩ :=
        ih (fun other member => used other (List.mem_cons_of_mem _ member)) ready' left
      have consumed : stream.pending.length - middle.pending.length = codeSizes.getD symbol 0 := by
        rw [bits, left, List.length_append, Nat.add_sub_cancel, codeword_length]
      refine ⟨after, ?_, ready'', last⟩
      rw [List.length_cons, getSymbols, first, ok_bind]
      dsimp only
      rw [others, ok_bind, consumed]
      rfl

/-- A tree is refused just where the code sizes use more than all codes and empty just where they use none; the symbols
of any other tree are read back from their canonical codes. -/
theorem build_decodes {tree : HuffmanTree} {codeSizes : List Nat} (positive : 0 < tree.maximumCodeSize)
    (few : tree.symbols.length ≤ 1024) (room : codeSizes.length ≤ tree.symbols.length)
    (bounded : ∀ codeSize ∈ codeSizes, codeSize ≤ tree.maximumCodeSize) :
    (kraftSum tree.maximumCodeSize codeSizes > 2 ^ tree.maximumCodeSize →
        ∃ code, tree.build codeSizes = fail code) ∧
      (tree.build codeSizes = .ok none ↔ ∀ codeSize ∈ codeSizes, codeSize = 0) ∧
      ∀ built, tree.build codeSizes = .ok (some built) → ∀ symbols : List Nat,
        (∀ symbol ∈ symbols, codeSizes.getD symbol 0 ≠ 0) → ∀ (stream : BitStream) (rest : List Bool), stream.Ready →
        stream.pending = symbols.flatMap (codeword codeSizes) ++ rest → ∃ after,
          built.getSymbols symbols.length stream =
            .ok (symbols.map fun symbol => (symbol, codeSizes.getD symbol 0), after) ∧
          after.Ready ∧ after.pending = rest := by
  have outcome := build_outcome positive (room.trans (few.trans (by simp [int16Max]))) room
  have used := codesUsed_eq_kraftSum bounded
  refine ⟨fun excess => ?_, ⟨fun empty => ?_, fun zeros => ?_⟩, fun built run symbols nonzero stream rest ready bits => ?_⟩
  · rcases outcome_returns outcome with ⟨built, _, acceptable, _⟩ | ⟨failed, _⟩
    · have fits := acceptable.2
      omega
    · exact failed
  · exact (outcome.of_ok empty).2
  · have none : kraftSum tree.maximumCodeSize codeSizes = 0 := by
      rw [kraftSum, List.filter_eq_nil_iff.mpr (by simpa using zeros)]
      rfl
    have acceptable : Acceptable tree.maximumCodeSize codeSizes := ⟨bounded, by rw [used, none]; exact Nat.zero_le _⟩
    obtain ⟨built, run, _, represents⟩ := outcome.value (not_not_intro acceptable)
    cases built with
    | none => exact run
    | some built =>
        obtain ⟨codeSize, member, nonzero⟩ := represents.1
        exact absurd (zeros codeSize member) nonzero
  · obtain ⟨acceptable, _, represents, size⟩ := outcome.of_ok run
    rw [← size] at acceptable
    exact getSymbols_reads represents acceptable nonzero ready bits

/-- The codes 0, 10 and 11 read from one byte. -/
theorem build_decodes_sample : ∃ after,
    getSymbols { maximumCodeSize := 2, symbols := [1, 0, 2], codeSizeCounts := [0, 1, 2] } 3
      ⟨[0x1a], 0, .byteBackToFront, 0, 0⟩ = .ok ([(1, 1), (0, 2), (2, 2)], after) ∧
    after.Ready ∧ after.pending = [false, false, false] :=
  (@build_decodes { maximumCodeSize := 2, symbols := [0, 0, 0], codeSizeCounts := [0, 0, 0] } [2, 1, 2] (by decide)
    (by decide) (by decide) (by decide)).2.2 _ rfl [1, 0, 2] (by decide) ⟨[0x1a], 0, .byteBackToFront, 0, 0⟩ _
    ⟨by decide, by decide⟩ (by decide)

end Fsapfs.HuffmanTree
