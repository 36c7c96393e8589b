import Fsapfs.Deflate.Simulation

namespace Fsapfs.Deflate
open Program Coding BitStream

variable {capacity : Nat}

def blocksRead (capacity : Nat) (data : List UInt8) (bits : List Bool) :
    Option (List UInt8 × List Bool) :=
  blocksLoop capacity (8 * data.length + 1) [] bits

theorem readBlocks_outcome (small : capacity ≤ ssizeMax) {data : List UInt8} {offset : Nat}
    {stream : BitStream} (buffered : stream.Buffered)
    (bytes : stream.byteStream = data) (bits : stream.bits = bytesBits (data.drop offset)) :
    Simulates SameBytes (readBlocks (8 * data.length + 1) none (Output.empty capacity) stream)
      (blocksRead capacity data (bytesBits (data.drop offset))) := by
  have enough := buffered.bits_le
  rw [bytes] at enough
  rw [← bits]
  exact readBlocks_simulates small (by simp) buffered (by omega) (by omega)

theorem decompress_outcome (data : List UInt8) (capacity : Nat) :
    Outcome (decompress data capacity)
      (fun output => data.length ≤ ssizeMax ∧ capacity ≤ ssizeMax ∧ data ≠ [] ∧
        ∃ rest, blocksRead capacity data (bytesBits data) = some (output.bytes, rest))
      (ssizeMax < data.length ∨ ssizeMax < capacity ∨ data = [] ∨
        blocksRead capacity data (bytesBits data) = none) := by
  rw [decompress]
  split_ifs with long large empty
  · exact Or.inl long
  · exact Or.inr (Or.inl large)
  · exact Or.inr (Or.inr (Or.inl (List.length_eq_zero_iff.mp (by omega))))
  have nonempty : data ≠ [] := fun none => empty (by simp [none])
  obtain ⟨stream, eq, buffered, bytes, bits⟩ := create_buffered (show data.length ≤ ssizeMax by omega)
    (Nat.zero_le data.length)
  have small : capacity ≤ ssizeMax := by omega
  have run := readBlocks_outcome small buffered bytes bits
  rw [List.drop_zero] at run
  rw [eq, ok_bind]
  refine Outcome.bind (run.mono (fun _ h => h) fun rejected => Or.inr (Or.inr (Or.inr rejected)))
    fun ⟨output, after⟩ held => ?_
  obtain ⟨out, read, rfl, _⟩ := held
  exact ⟨by omega, by omega, nonempty, after.bits, read⟩

theorem decompress_iff (data : List UInt8) (capacity : Nat) (expansion : List UInt8) :
    (∃ output, decompress data capacity = .ok output ∧ output.bytes = expansion) ↔
      data.length ≤ ssizeMax ∧ capacity ≤ ssizeMax ∧ data ≠ [] ∧
        ∃ rest, blocksRead capacity data (bytesBits data) = some (expansion, rest) := by
  have outcome := decompress_outcome data capacity
  constructor
  · rintro ⟨output, ok, rfl⟩
    exact outcome.of_ok ok
  · rintro ⟨short, small, nonempty, rest, read⟩
    have accepted : ¬(ssizeMax < data.length ∨ ssizeMax < capacity ∨ data = [] ∨
        blocksRead capacity data (bytesBits data) = none) := by
      simp [read, nonempty]
      omega
    obtain ⟨output, ok, _, _, _, rest', read'⟩ := outcome.value accepted
    rw [read] at read'
    exact ⟨output, ok, (congrArg Prod.fst (Option.some.inj read')).symm⟩

theorem readDataHeader_outcome (data : List UInt8) :
    Outcome (readDataHeader data) (fun offset => data.length ≤ ssizeMax ∧ offset ≤ data.length) True := by
  rw [readDataHeader]
  split_ifs with long short
  · trivial
  · trivial
  rw [load_of_lt (show 0 < data.length by omega), ok_bind, load_of_lt (show 1 < data.length by omega),
    ok_bind]
  generalize data[1].toNat &&& 32 = dictionary
  split_ifs with missing method window preset
  · trivial
  · trivial
  · trivial
  · refine ⟨by omega, ?_⟩
    by_contra longer
    exact missing ⟨preset, by omega⟩
  · exact ⟨by omega, by omega⟩

theorem calculateAdler32_outcome (data : List UInt8) (initialValue : Nat) :
    Outcome (calculateAdler32 data initialValue)
      (fun checksum => calculateAdler32 data initialValue = .ok checksum) True := by
  rw [calculateAdler32]
  split_ifs
  · trivial
  · rfl

/-- Of the bytes that are left whole, if there are four, the first four are the checksum of the output. -/
def Checksummed (output : List UInt8) (rest : List Bool) : Prop :=
  32 ≤ rest.length → ∃ trailer more : List UInt8, trailer.length = 4 ∧
    rest.drop (rest.length % 8) = bytesBits (trailer ++ more) ∧ calculateAdler32 output 1 = .ok (bigEndian trailer)

theorem compareChecksums_outcome (output : Output capacity) {stream : BitStream}
    (buffered : stream.Buffered) :
    Outcome (compareChecksums stream output) (fun checked => checked = output ∧ Checksummed output.bytes stream.bits)
      (32 ≤ stream.bits.length) := by
  have length := stream.bits_length
  have offset := buffered.offset
  have size := buffered.size
  rw [compareChecksums]
  split_ifs with more
  · have unread : unreadBytes stream = stream := by
      rw [unreadBytes, Nat.div_eq_of_lt size, Nat.mod_eq_of_lt size]
      rfl
    have loaded : loadBigEndian32 stream.byteStream stream.byteStreamOffset =
        .ok (bigEndian ((stream.byteStream.drop stream.byteStreamOffset).take 4)) := by
      rw [loadBigEndian32, slice_of_le (by omega), ok_bind]
      rfl
    have whole : stream.bits.drop (stream.bits.length % 8) =
        bytesBits (stream.byteStream.drop stream.byteStreamOffset) := by
      rw [length, Nat.add_mul_mod_self_left, Nat.mod_eq_of_lt size, BitStream.bits]
      exact List.drop_left' (natBits_length _ _)
    rw [unread]
    dsimp only
    rw [loaded, ok_bind]
    refine ((calculateAdler32_outcome output.bytes 1).mono (fun _ h => h) fun _ => by omega).bind
      fun checksum calculated => ?_
    split_ifs with differs
    · rw [outcome_fail]
      omega
    · refine ⟨rfl, fun _ => ⟨_, (stream.byteStream.drop stream.byteStreamOffset).drop 4, ?_, ?_,
        calculated.trans (congrArg _ (not_not.mp differs).symm)⟩⟩
      · rw [List.length_take, List.length_drop]
        omega
      · rw [whole, List.take_append_drop]
  · exact ⟨rfl, fun long => by omega⟩

theorem decompressZlib_outcome {data : List UInt8} {offset : Nat} (header : readDataHeader data = .ok offset)
    (small : capacity ≤ ssizeMax) :
    Outcome (decompressZlib data capacity)
      (fun output => offset < data.length ∧ ∃ rest,
        blocksRead capacity data (bytesBits (data.drop offset)) = some (output.bytes, rest) ∧
          Checksummed output.bytes rest)
      (data.length ≤ offset ∨ blocksRead capacity data (bytesBits (data.drop offset)) = none ∨
        ∃ out rest, blocksRead capacity data (bytesBits (data.drop offset)) = some (out, rest) ∧
          32 ≤ rest.length) := by
  obtain ⟨short, within⟩ := (readDataHeader_outcome data).of_ok header
  rw [decompressZlib, if_neg (by omega), if_neg (by omega), header, ok_bind]
  split_ifs with exhausted
  · exact Or.inl exhausted
  obtain ⟨stream, eq, buffered, bytes, bits⟩ := create_buffered short within
  have run := readBlocks_outcome small buffered bytes bits
  rw [eq, ok_bind]
  refine Outcome.bind (run.mono (fun _ h => h) fun rejected => Or.inr (Or.inl rejected))
    fun ⟨output, after⟩ held => ?_
  obtain ⟨out, read, rfl, buffered⟩ := held
  refine (compareChecksums_outcome output buffered).mono ?_ fun more =>
    Or.inr (Or.inr ⟨_, _, read, more⟩)
  rintro checked ⟨rfl, checksummed⟩
  exact ⟨by omega, after.bits, read, checksummed⟩

theorem decompressZlib_returns (data : List UInt8) (capacity : Nat) :
    Outcome (decompressZlib data capacity) (fun _ => True) True := by
  rcases outcome_returns (readDataHeader_outcome data) with ⟨offset, header, short, _⟩ | ⟨⟨code, failed⟩, _⟩
  · by_cases small : capacity ≤ ssizeMax
    · exact (decompressZlib_outcome header small).mono (fun _ _ => trivial) fun _ => trivial
    · rw [decompressZlib, if_neg (by omega), if_pos (by omega)]
      trivial
  · rw [decompressZlib, failed]
    split_ifs
    · trivial
    · trivial
    · trivial

/-- Neither decompressor leaves the bounds of a buffer or a table or runs forever, on any input. -/
theorem decompressors_safe (data : List UInt8) (capacity : Nat) :
    ((∃ output, decompress data capacity = .ok output ∧ output.bytes.length ≤ capacity) ∨
      ∃ code, decompress data capacity = .error (.error code)) ∧
    ((∃ output, decompressZlib data capacity = .ok output ∧ output.bytes.length ≤ capacity) ∨
      ∃ code, decompressZlib data capacity = .error (.error code)) := by
  constructor
  · rcases outcome_returns (decompress_outcome data capacity) with ⟨output, ok, _⟩ | ⟨failed, _⟩
    · exact Or.inl ⟨output, ok, output.fits⟩
    · exact Or.inr failed
  · rcases outcome_returns (decompressZlib_returns data capacity) with ⟨output, ok, _⟩ | ⟨failed, _⟩
    · exact Or.inl ⟨output, ok, output.fits⟩
    · exact Or.inr failed

end Fsapfs.Deflate
