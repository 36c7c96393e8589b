import Fsapfs.Deflate.Adler32Sums
import Fsapfs.Deflate.Expansion

namespace Fsapfs.Deflate
open Program Coding

variable {capacity phase : Nat}

def adlerStep (sums : Nat × Nat) (byte : UInt8) : Nat × Nat :=
  let low := (sums.1 + byte.toNat) % 65521
  (low, (sums.2 + low) % 65521)

def adler32 (data : List UInt8) : Nat :=
  let sums := data.foldl adlerStep (1, 0)
  sums.2 * 65536 + sums.1

def bigEndian32 (value : Nat) : List UInt8 :=
  [UInt8.ofNat (value / 2 ^ 24), UInt8.ofNat (value / 2 ^ 16), UInt8.ofNat (value / 2 ^ 8), UInt8.ofNat value]

/-- A zlib stream without a preset dictionary: two header bytes, DEFLATE data and a checksum. -/
structure ZlibStream where
  stream : DeflateStream
  compression : UInt8
  flags : UInt8
  body : List UInt8
  method : compression.toNat % 16 = 8
  window : compression.toNat / 16 ≤ 7
  check : (compression.toNat * 256 + flags.toNat) % 31 = 0
  noDictionary : flags.toNat &&& 0x20 = 0
  encodes : stream.Encodes body

def ZlibStream.bytes (z : ZlibStream) : List UInt8 :=
  z.compression :: z.flags :: (z.body ++ bigEndian32 (adler32 z.stream.expansion))

def ProducedAll (capacity : Nat) (output : List UInt8) (blocks : List Block) : Prop :=
  (∀ b ∈ blocks, b.Supported) ∧ ∃ expansion, expandBlocks output blocks = some expansion ∧
    expansion.length ≤ capacity

/-- A cut after some of the blocks, with less than a byte of the next one, or after all of them. -/
def AcceptedBits (capacity : Nat) (output : List UInt8) (front : List Block) (final : Block) (k : Nat) :
    Prop :=
  (∃ done todo, front = done ++ todo ∧ (frontCode done).length ≤ k ∧ k < (frontCode done).length + 8 ∧
    ProducedAll capacity output done) ∨
  ((frontCode front ++ final.code true).length ≤ k ∧ ProducedAll capacity output (front ++ [final]))

theorem producedAll_nil {output : List UInt8} (within : output.length ≤ capacity) :
    ProducedAll capacity output [] := ⟨by simp, output, rfl, within⟩

theorem producedAll_cons {output middle : List UInt8} {b : Block} {blocks : List Block}
    (expands : b.expand output = some middle) :
    ProducedAll capacity output (b :: blocks) ↔
      b.Produced capacity middle ∧ ProducedAll capacity middle blocks := by
  constructor
  · rintro ⟨supported, expansion, all, fits⟩
    rw [expandBlocks, expands] at all
    have longer := expandBlocks_length all
    exact ⟨⟨supported b List.mem_cons_self, longer.trans fits⟩,
      fun c member => supported c (List.mem_cons_of_mem _ member), expansion, all, fits⟩
  · rintro ⟨here, supported, expansion, all, fits⟩
    refine ⟨List.forall_mem_cons.mpr ⟨here.1, supported⟩, expansion, ?_, fits⟩
    rw [expandBlocks, expands]
    exact all

theorem blocksLoop_short {fuel : Nat} {output : List UInt8} {bits : List Bool} (short : bits.length < 8) :
    blocksLoop capacity (fuel + 1) output bits = some (output, bits) := by
  rw [blocksLoop_succ, if_pos short]

theorem blocksLoop_cutBlock {b : Block} {output expansion : List UInt8} {last : Bool} {k fuel : Nat}
    (valid : b.Valid phase) (within : output.length ≤ capacity) (expands : b.expand output = some expansion)
    (long : 8 ≤ k) (cut : k < (b.code last).length) (whole : (phase + k) % 8 = 0) :
    blocksLoop capacity (fuel + 1) output ((b.code last).take k) = none := by
  have length := b.code_length last
  have type := b.type_lt
  have bit : last.toNat < 2 := last.toNat_lt
  have front : (b.code last).take k = natBits 3 (last.toNat + 2 * b.type) ++ b.body.take (k - 3) := by
    rw [Block.code, List.take_append, natBits_length, List.take_of_length_le (by simp; omega)]
  have takeLength : (b.body.take (k - 3)).length = k - 3 := by
    rw [List.length_take]
    omega
  have typeRead : (last.toNat + 2 * b.type) >>> 1 = b.type := by
    rw [Nat.shiftRight_eq_div_pow]
    omega
  have header := reads_natBits phase 3 (last.toNat + 2 * b.type) (by omega) (b.body.take (k - 3)) (by
    rw [Follows, natBits_length, takeLength]
    omega)
  have body := (block_reads valid within expands).cut (sequential_block _ _ _)
    (List.take_append_drop (k - 3) b.body).symm
    (by rw [ne_eq, List.drop_eq_nil_iff]; omega) (by rw [takeLength]; omega)
  rw [blocksLoop_succ, if_neg (by rw [List.length_take]; omega), front, blockThen, bind_of_some header,
    typeRead, bind_of_none body]

theorem frontCode_cons (b : Block) (blocks : List Block) :
    frontCode (b :: blocks) = b.code false ++ frontCode blocks := List.flatMap_cons

theorem acceptedBits_nil {output expansion : List UInt8} {final : Block} {k : Nat} (long : 8 ≤ k)
    (expands : final.expand output = some expansion) :
    AcceptedBits capacity output [] final k ↔
      (final.code true).length ≤ k ∧ final.Produced capacity expansion := by
  have single : ProducedAll capacity output [final] ↔ final.Produced capacity expansion := by
    rw [producedAll_cons expands]
    exact ⟨fun both => both.1, fun here => ⟨here, producedAll_nil here.2⟩⟩
  constructor
  · rintro (⟨done, todo, split, _, upper, _⟩ | ⟨reached, produced⟩)
    · obtain ⟨rfl, rfl⟩ := List.append_eq_nil_iff.mp split.symm
      simp only [frontCode, List.flatMap_nil, List.length_nil] at upper
      omega
    · exact ⟨by simpa [frontCode] using reached, single.mp produced⟩
  · rintro ⟨reached, produced⟩
    exact Or.inr ⟨by simpa [frontCode] using reached, single.mpr produced⟩

theorem acceptedBits_cons {output expansion : List UInt8} {b final : Block} {front : List Block} {k : Nat}
    (long : 8 ≤ k) (expands : b.expand output = some expansion) :
    AcceptedBits capacity output (b :: front) final k ↔
      (b.code false).length ≤ k ∧ b.Produced capacity expansion ∧
        AcceptedBits capacity expansion front final (k - (b.code false).length) := by
  constructor
  · rintro (⟨done, todo, split, lower, upper, produced⟩ | ⟨reached, produced⟩)
    · cases done with
      | nil =>
          simp only [frontCode, List.flatMap_nil, List.length_nil] at upper
          omega
      | cons c done =>
          obtain ⟨rfl, rest⟩ := List.cons.inj split
          rw [frontCode_cons, List.length_append] at lower upper
          obtain ⟨here, later⟩ := (producedAll_cons expands).mp produced
          exact ⟨by omega, here, Or.inl ⟨done, todo, rest, by omega, by omega, later⟩⟩
    · rw [frontCode_cons, List.append_assoc, List.length_append] at reached
      obtain ⟨here, later⟩ := (producedAll_cons expands).mp produced
      exact ⟨by omega, here, Or.inr ⟨by omega, later⟩⟩
  · rintro ⟨reached, here, ⟨done, todo, rfl, lower, upper, produced⟩ | ⟨more, produced⟩⟩
    · refine Or.inl ⟨b :: done, todo, rfl, ?_, ?_, (producedAll_cons expands).mpr ⟨here, produced⟩⟩
      · rw [frontCode_cons, List.length_append]
        omega
      · rw [frontCode_cons, List.length_append]
        omega
    · refine Or.inr ⟨?_, (producedAll_cons expands).mpr ⟨here, produced⟩⟩
      rw [frontCode_cons, List.append_assoc, List.length_append]
      omega

/-- What the reader of blocks makes of the first `k` bits: a value, with few bits left, or a rejection. -/
structure CutOutcome (reading : Option (List UInt8 × List Bool)) (codeLength k : Nat) (accepted : Prop) :
    Prop where
  value : accepted → ∃ out rest, reading = some (out, rest) ∧
    (rest.length < 8 ∨ rest.length + codeLength = k)
  rejection : ¬accepted → reading = none

theorem cutOutcome_short {front : List Block} {final : Block} {output : List UInt8} {bits : List Bool}
    {codeLength k fuel : Nat} (within : output.length ≤ capacity) (short : k < 8)
    (length : bits.length ≤ k) :
    CutOutcome (blocksLoop capacity (fuel + 1) output bits) codeLength k
      (AcceptedBits capacity output front final k) where
  value _ := ⟨_, _, blocksLoop_short (by omega), Or.inl (by omega)⟩
  rejection refused := absurd (Or.inl ⟨[], front, rfl, Nat.zero_le _, by simpa [frontCode] using short,
    producedAll_nil within⟩) refused

theorem blocksLoop_cut {front : List Block} {final : Block} {output expansion : List UInt8}
    {tail : List Bool} {k fuel : Nat} (valid : ValidFrom phase (front ++ [final]))
    (within : output.length ≤ capacity) (expands : expandBlocks output (front ++ [final]) = some expansion)
    (whole : (phase + k) % 8 = 0) (inside : k ≤ (frontCode front ++ final.code true ++ tail).length)
    (enough : k < fuel) :
    CutOutcome (blocksLoop capacity fuel output ((frontCode front ++ final.code true ++ tail).take k))
      (frontCode front ++ final.code true).length k (AcceptedBits capacity output front final k) := by
  obtain ⟨fuel, rfl⟩ : ∃ n, fuel = n + 1 := ⟨fuel - 1, by omega⟩
  induction front generalizing output phase k fuel with
  | nil =>
      by_cases short : k < 8
      · exact cutOutcome_short within short (List.length_take_le _ _)
      obtain ⟨middle, first, last⟩ := Option.bind_eq_some_iff.mp expands
      cases last
      rw [acceptedBits_nil (by omega) first]
      simp only [frontCode, List.flatMap_nil, List.nil_append, List.length_append] at inside ⊢
      by_cases cut : k < (final.code true).length
      · rw [List.take_append_of_le_length cut.le]
        exact ⟨fun accepted => by omega,
          fun _ => blocksLoop_cutBlock valid.1 within first (by omega) cut whole⟩
      · have tailLength : (tail.take (k - (final.code true).length)).length =
            k - (final.code true).length := by
          rw [List.length_take]
          omega
        have follow : Follows phase (final.code true) (tail.take (k - (final.code true).length)) := by
          rw [Follows]
          omega
        obtain ⟨rejected, produced⟩ := blocksLoop_block fuel valid.1 within first follow
        rw [List.take_append, List.take_of_length_le (by omega)]
        exact ⟨fun accepted => ⟨_, _, produced accepted.2, Or.inr (by omega)⟩,
          fun refused => rejected fun here => refused ⟨by omega, here⟩⟩
  | cons b front ih =>
      by_cases short : k < 8
      · exact cutOutcome_short within short (List.length_take_le _ _)
      obtain ⟨fuel, rfl⟩ : ∃ n, fuel = n + 1 := ⟨fuel - 1, by omega⟩
      have long := b.code_long false
      obtain ⟨middle, first, later⟩ := Option.bind_eq_some_iff.mp expands
      rw [acceptedBits_cons (by omega) first]
      have bits : frontCode (b :: front) ++ final.code true ++ tail =
          b.code false ++ (frontCode front ++ final.code true ++ tail) := by simp [frontCode]
      have length : (frontCode (b :: front) ++ final.code true).length =
          (b.code false).length + (frontCode front ++ final.code true).length := by
        simp [frontCode]
      rw [bits] at inside ⊢
      rw [List.length_append] at inside
      rw [length]
      by_cases cut : k < (b.code false).length
      · rw [List.take_append_of_le_length cut.le]
        exact ⟨fun accepted => by omega,
          fun _ => blocksLoop_cutBlock valid.1 within first (by omega) cut whole⟩
      have follow : Follows phase (b.code false)
          ((frontCode front ++ final.code true ++ tail).take (k - (b.code false).length)) := by
        rw [Follows, List.length_take]
        omega
      obtain ⟨rejected, produced⟩ := blocksLoop_block (fuel + 1) valid.1 within first follow
      rw [List.take_append, List.take_of_length_le (by omega)]
      by_cases here : b.Produced capacity middle
      · have wholeRest : (phase + (b.code false).length + (k - (b.code false).length)) % 8 = 0 := by omega
        have next := ih valid.2 here.2 later wholeRest (by omega) fuel (by omega)
        rw [produced here, if_neg Bool.false_ne_true]
        refine ⟨fun accepted => ?_, fun refused => next.rejection fun accepted =>
          refused ⟨by omega, here, accepted⟩⟩
        obtain ⟨out, rest, read, few⟩ := next.value accepted.2.2
        exact ⟨out, rest, read, by omega⟩
      · rw [rejected here]
        exact ⟨fun accepted => absurd accepted.2.1 here, fun _ => rfl⟩

theorem readDataHeader_zlib (z : ZlibStream) {rest : List UInt8} (short : rest.length + 2 ≤ ssizeMax) :
    readDataHeader (z.compression :: z.flags :: rest) = .ok 2 := by
  have window : ¬1 <<< (z.compression.toNat >>> 4 + 8) > 32768 := by
    have small : z.compression.toNat >>> 4 ≤ 7 := by
      rw [Nat.shiftRight_eq_div_pow]
      exact z.window
    rw [Nat.one_shiftLeft, not_lt]
    exact Nat.pow_le_pow_right (by omega) (show z.compression.toNat >>> 4 + 8 ≤ 15 by omega)
  have method := z.method
  have noDictionary := z.noDictionary
  rw [readDataHeader, if_neg (by simp only [List.length_cons]; omega),
    if_neg (by simp only [List.length_cons]; omega), load_of_lt (by simp), ok_bind, load_of_lt (by simp),
    ok_bind]
  simp only [List.getElem_cons_zero, List.getElem_cons_succ, noDictionary, ne_eq, not_true_eq_false,
    false_and, if_false, method]
  rw [if_neg window]

theorem decompressZlib_ok {data : List UInt8} {output : Output capacity}
    (ok : decompressZlib data capacity = .ok output) :
    data.length ≤ ssizeMax ∧ capacity ≤ ssizeMax ∧ ∃ offset, readDataHeader data = .ok offset ∧
      offset < data.length ∧ ∃ rest,
        blocksRead capacity data (bytesBits (data.drop offset)) = some (output.bytes, rest) ∧
          Checksummed output.bytes rest := by
  have run := ok
  rw [decompressZlib] at run
  split_ifs at run with long large
  · cases run
  · cases run
  rcases outcome_returns (readDataHeader_outcome data) with ⟨offset, header, _⟩ | ⟨⟨code, failed⟩, _⟩
  · exact ⟨by omega, by omega, offset, header, (decompressZlib_outcome header (by omega)).of_ok ok⟩
  · rw [failed] at run
    cases run

theorem foldl_adlerStep {words : AdlerWords} (reduced : words.Reduced) (data : List UInt8) :
    data.foldl adlerStep (words.lowerWord, words.upperWord) =
      ((adler words data).lowerWord, (adler words data).upperWord) := by
  induction data generalizing words with
  | nil => rw [reduced.adler_nil, List.foldl_nil]
  | cons byte data ih =>
      have step : adlerStep (words.lowerWord, words.upperWord) byte =
          ((adler words [byte]).lowerWord, (adler words [byte]).upperWord) := by
        simp [adlerStep, adler, lowerSum, upperSum]
      rw [List.foldl_cons, step, ih (adler_reduced words [byte]), ← adler_append, List.singleton_append]

theorem calculateAdler32_adler32 {data : List UInt8} (short : data.length ≤ ssizeMax) :
    calculateAdler32 data 1 = .ok (adler32 data) := by
  have reduced : (unpack 1).Reduced := ⟨by decide, by decide⟩
  have sums := foldl_adlerStep reduced data
  rw [calculateAdler32_ok short reduced, pack_eq (adler_reduced _ _), adler32,
    show ((1, 0) : Nat × Nat) = ((unpack 1).lowerWord, (unpack 1).upperWord) from rfl, sums]

/-- Blocks without the last block flag are read, up to an output and the bits behind them. -/
inductive ReadsBlocks (capacity : Nat) : List UInt8 → List Bool → List UInt8 → List Bool → Prop
  | nil {output : List UInt8} {bits : List Bool} : ReadsBlocks capacity output bits output bits
  | cons {output next out : List UInt8} {bits body after rest : List Bool} {value : Nat} :
      takeBits 3 bits = some (value, body) → value % 2 = 0 →
      block capacity (value >>> 1) output body = some (next, after) →
      ReadsBlocks capacity next after out rest → ReadsBlocks capacity output bits out rest

def ReadsLastBlock (capacity : Nat) (output : List UInt8) (bits : List Bool) (out : List UInt8) (rest : List Bool) : Prop :=
  ∃ value body, takeBits 3 bits = some (value, body) ∧ value % 2 = 1 ∧
    block capacity (value >>> 1) output body = some (out, rest)

theorem blocksLoop_read {fuel : Nat} {output out : List UInt8} {bits rest : List Bool}
    (read : blocksLoop capacity fuel output bits = some (out, rest)) :
    ∃ before left, ReadsBlocks capacity output bits before left ∧
      ((left.length < 8 ∧ out = before ∧ rest = left) ∨ ReadsLastBlock capacity before left out rest) := by
  induction fuel generalizing output bits with
  | zero => cases read
  | succ fuel ih =>
      rw [blocksLoop_succ] at read
      split_ifs at read with short
      · cases read
        exact ⟨_, _, .nil, Or.inl ⟨short, rfl, rfl⟩⟩
      · obtain ⟨⟨value, body⟩, header, read⟩ := Option.bind_eq_some_iff.mp read
        obtain ⟨⟨next, after⟩, blockRead, read⟩ := Option.bind_eq_some_iff.mp read
        dsimp only at read blockRead
        split_ifs at read with last
        · cases read
          exact ⟨output, bits, .nil, Or.inr ⟨value, body, header, by omega, blockRead⟩⟩
        · obtain ⟨before, left, front, ends⟩ := ih read
          exact ⟨before, left, .cons header (not_not.mp last) blockRead front, ends⟩

/-- Success, on any input, says that the blocks up to the last one, or up to where no whole byte is left, were
expanded, and that the next four bytes, if there are four, are the checksum of the output. -/
theorem decompressZlib_success {data : List UInt8} {output : Output capacity}
    (ok : decompressZlib data capacity = .ok output) :
    ∃ offset before left rest, readDataHeader data = .ok offset ∧
      ReadsBlocks capacity [] (bytesBits (data.drop offset)) before left ∧
      ((left.length < 8 ∧ output.bytes = before ∧ rest = left) ∨
        ReadsLastBlock capacity before left output.bytes rest) ∧
      (32 ≤ rest.length → ∃ trailer more : List UInt8, trailer.length = 4 ∧
        rest.drop (rest.length % 8) = bytesBits (trailer ++ more) ∧ bigEndian trailer = adler32 output.bytes) := by
  obtain ⟨-, small, offset, header, -, rest, read, checksummed⟩ := decompressZlib_ok ok
  obtain ⟨before, left, front, ends⟩ := blocksLoop_read read
  refine ⟨offset, before, left, rest, header, front, ends, fun more => ?_⟩
  obtain ⟨trailer, others, length, bits, calculated⟩ := checksummed more
  rw [calculateAdler32_adler32 (output.fits.trans small)] at calculated
  exact ⟨trailer, others, length, bits, (Except.ok.inj calculated).symm⟩

/-- The prefixes of a zlib stream that are decompressed as if they were complete. -/
def ZlibStream.AcceptedCut (z : ZlibStream) (capacity n : Nat) : Prop :=
  n ≤ ssizeMax ∧ capacity ≤ ssizeMax ∧ 2 < n ∧
    AcceptedBits capacity [] z.stream.front z.stream.final (8 * (n - 2))

theorem ZlibStream.blocksRead_cut (z : ZlibStream) (capacity n : Nat) (long : 2 < n)
    (proper : n < z.bytes.length) :
    CutOutcome (blocksRead capacity (z.bytes.take n) (bytesBits ((z.bytes.take n).drop 2)))
      z.stream.code.length (8 * (n - 2))
      (AcceptedBits capacity [] z.stream.front z.stream.final (8 * (n - 2))) ∧
    8 * (n - 2) < z.stream.code.length + 32 := by
  obtain ⟨padding, paddingShort, bits⟩ := z.encodes
  let trailer := bigEndian32 (adler32 z.stream.expansion)
  have trailerLength : trailer.length = 4 := rfl
  have length := congrArg List.length bits
  rw [bytesBits_length, List.length_append] at length
  have total : z.bytes.length = z.body.length + 4 + 2 := by
    simp [ZlibStream.bytes, bigEndian32]
  have cutBits : bytesBits ((z.bytes.take n).drop 2) =
      (frontCode z.stream.front ++ z.stream.final.code true ++ (padding ++ bytesBits trailer)).take
        (8 * (n - 2)) := by
    have rest : (z.bytes.take n).drop 2 = (z.body ++ trailer).take (n - 2) := by
      rw [List.drop_take]
      rfl
    rw [rest, ← bytesBits_take, bytesBits_append, bits, DeflateStream.code]
    simp only [List.append_assoc]
  have taken : (z.bytes.take n).length = n := by
    rw [List.length_take]
    omega
  constructor
  · rw [blocksRead, cutBits, taken]
    refine blocksLoop_cut z.stream.valid (Nat.zero_le _) z.stream.expands (by omega) ?_ (by omega)
    rw [DeflateStream.code] at length
    simp only [List.length_append, bytesBits_length, trailerLength] at length ⊢
    omega
  · omega

/-- A truncated stream is rejected unless the cut hides the rest of it from the block loop. -/
theorem truncated_rejected_iff (z : ZlibStream) (capacity n : Nat) (proper : n < z.bytes.length) :
    (∀ output, decompressZlib (z.bytes.take n) capacity ≠ .ok output) ↔ ¬z.AcceptedCut capacity n := by
  have taken : (z.bytes.take n).length = n := by
    rw [List.length_take]
    omega
  have header (long : 2 ≤ n) (short : n ≤ ssizeMax) : readDataHeader (z.bytes.take n) = .ok 2 := by
    obtain ⟨m, rfl⟩ := Nat.exists_eq_add_of_le' long
    refine readDataHeader_zlib z ?_
    rw [← taken] at short
    exact short
  rw [← not_exists, not_iff_not]
  constructor
  · rintro ⟨output, ok⟩
    obtain ⟨short, small, offset, headerOk, inside, rest, read, -⟩ := decompressZlib_ok ok
    rw [taken] at short inside
    have long : 2 ≤ n := by
      by_contra few
      rw [readDataHeader, if_neg (by omega), if_pos (by omega)] at headerOk
      cases headerOk
    rw [header long short] at headerOk
    cases headerOk
    refine ⟨short, small, inside, ?_⟩
    by_contra refused
    rw [((z.blocksRead_cut capacity n inside proper).1.rejection refused)] at read
    cases read
  · rintro ⟨short, small, long, accepted⟩
    obtain ⟨cut, few⟩ := z.blocksRead_cut capacity n long proper
    obtain ⟨out, rest, read, restFew⟩ := cut.value accepted
    obtain ⟨output, ok, _⟩ := (decompressZlib_outcome (header (by omega) short) small).value (by
      rw [taken, read]
      rintro (exhausted | none | ⟨_, _, same, many⟩)
      · omega
      · cases none
      · cases same
        omega)
    exact ⟨output, ok⟩

def storedZlib : ZlibStream where
  stream :=
    { front := []
      final := .stored (List.replicate 5 false) [97]
      expansion := [97]
      valid := by decide +kernel
      expands := rfl }
  compression := 0x78
  flags := 0x01
  body := [0x01, 0x01, 0x00, 0xfe, 0xff, 0x61]
  method := by decide
  window := by decide
  check := by decide
  noDictionary := by decide
  encodes := ⟨[], by decide, by decide +kernel⟩

theorem storedZlib_truncated :
    5 < storedZlib.bytes.length ∧
      ∀ output, decompressZlib (storedZlib.bytes.take 5) 1 ≠ .ok output := by
  have expands : storedZlib.stream.final.expand [] = some [97] := rfl
  have refused : ¬storedZlib.AcceptedCut 1 5 := by
    rintro ⟨_, _, _, accepted⟩
    have reached := ((acceptedBits_nil (by omega) expands).mp accepted).1
    exact absurd reached (by decide +kernel)
  exact ⟨by decide +kernel, (truncated_rejected_iff storedZlib 1 5 (by decide +kernel)).mpr refused⟩

theorem storedZlib_trailer_missing :
    8 < storedZlib.bytes.length ∧
      decompressZlib (storedZlib.bytes.take 8) 1 = .ok ⟨[97], by decide⟩ :=
  ⟨by decide +kernel, by decide +kernel⟩

end Fsapfs.Deflate
