import Fsapfs.Deflate.Reading

namespace Fsapfs.Deflate
open Program Coding BitStream

variable {capacity : Nat}

def SameBytes (output : Output capacity) (bytes : List UInt8) : Prop := output.bytes = bytes

theorem write_of_fits (output : Output capacity) (data : List UInt8)
    (fits : output.bytes.length + data.length ≤ capacity) :
    ∃ written, output.write data = .ok written ∧ written.bytes = output.bytes ++ data :=
  ⟨_, dif_pos fits, rfl⟩

theorem extend_of_fits (output data : List UInt8) (fits : output.length + data.length ≤ capacity) :
    extend capacity output data = some (output ++ data) := if_pos fits

theorem copy_of_fits {distance : Nat} (positive : 0 < distance) (size : Nat) (output : Output capacity)
    (behind : distance ≤ output.bytes.length) (fits : output.bytes.length + size ≤ capacity) :
    ∃ copied, output.copy distance size = .ok copied ∧
      copied.bytes = copyMatch distance size output.bytes := by
  induction size generalizing output with
  | zero => exact ⟨output, rfl, rfl⟩
  | succ size ih =>
      have inside : output.bytes.length - distance < output.bytes.length := by omega
      obtain ⟨written, eq, bytes⟩ := write_of_fits output
        [output.bytes[output.bytes.length - distance]] (by simp; omega)
      have length : written.bytes.length = output.bytes.length + 1 := by simp [bytes]
      obtain ⟨copied, copyEq, copyBytes⟩ := ih written (by omega) (by omega)
      refine ⟨copied, ?_, ?_⟩
      · rw [Output.copy, Output.lookBack, if_neg (by omega), load_of_lt inside, ok_bind, eq, ok_bind, copyEq]
      · rw [copyBytes, bytes, copyMatch, List.getD_eq_getElem _ _ inside]

theorem readExtended_simulates (bases numbersOfExtraBits : List Nat) (symbol : Nat)
    (inBases : symbol < bases.length) (inNumbers : symbol < numbersOfExtraBits.length)
    (narrow : ∀ n ∈ numbersOfExtraBits, n ≤ 25) {stream : BitStream} (buffered : stream.Buffered) :
    Simulates Eq (readExtended bases numbersOfExtraBits symbol stream)
      (extended bases numbersOfExtraBits symbol stream.bits) := by
  rw [readExtended, extended, lift_ok_bind (load_of_lt inNumbers),
    offer_bind (List.getElem?_eq_getElem inNumbers)]
  refine (getValue_simulates buffered (Or.inl (narrow _ (List.getElem_mem inNumbers)))).bind
    fun extraBits value after _ same buffered => ?_
  subst same
  rw [lift_ok_bind (load_of_lt inBases), offer_bind (List.getElem?_eq_getElem inBases)]
  exact ⟨_, rfl, rfl, buffered⟩

theorem distance_positive {symbol value : Nat} {bits rest : List Bool}
    (read : extended distanceCodesBase distanceCodesNumberOfExtraBits symbol bits = some (value, rest)) :
    0 < value := by
  obtain ⟨_, _, _, read⟩ := bind_eq_some.mp read
  obtain ⟨extra, _, _, read⟩ := bind_eq_some.mp read
  obtain ⟨base, _, found, last⟩ := bind_eq_some.mp read
  obtain ⟨listed, member, same⟩ := Option.map_eq_some_iff.mp found
  have eq : listed = base := congrArg Prod.fst same
  have values : base + extra = value := congrArg Prod.fst (Option.some.inj last)
  have positive : ∀ base ∈ distanceCodesBase, 0 < base := by decide
  have := positive listed (List.mem_of_getElem? member)
  omega

theorem decodeSymbol_lt {codeSizes : List Nat} {limit symbol : Nat} {bits rest : List Bool}
    (read : decodeSymbol codeSizes limit bits = some (symbol, rest)) :
    symbol < codeSizes.length ∧ rest.length < bits.length := by
  obtain ⟨⟨_, _, _, found⟩, shorter⟩ := decodeFrom_symbol read
  exact ⟨(List.getElem?_eq_some_iff.mp found).1, shorter⟩

structure TreeOf (codeSizes : List Nat) (tree : HuffmanTree) : Prop where
  represents : tree.Represents codeSizes
  maximum : tree.maximumCodeSize = 15

theorem TreeOf.getSymbol {codeSizes : List Nat} {tree : HuffmanTree} (built : TreeOf codeSizes tree)
    {stream : BitStream} (buffered : stream.Buffered) :
    Simulates Eq (tree.getSymbolFromBitStream stream) (decodeSymbol codeSizes 15 stream.bits) :=
  built.maximum ▸ HuffmanTree.getSymbol_simulates built.represents buffered

theorem simulates_fail {α β : Type} {related : α → β → Prop} {code : ErrorCode} {stream : BitStream} :
    Simulates related ((liftM (fail code : Result α) : Reader α) stream) none := rfl

theorem decodeHuffmanLoop_simulates {literals distances : List Nat}
    {literalsTree distancesTree : HuffmanTree} (literalsBuilt : TreeOf literals literalsTree)
    (distancesBuilt : TreeOf distances distancesTree) (few : distances.length ≤ 30)
    {fuel fuel' : Nat} {output : Output capacity} {stream : BitStream} (buffered : stream.Buffered)
    (enough : stream.bits.length < fuel) (enough' : stream.bits.length < fuel') :
    Simulates SameBytes (decodeHuffmanLoop literalsTree distancesTree fuel output stream)
      (tokensLoop literals distances capacity fuel' output.bytes stream.bits) := by
  induction fuel generalizing fuel' output stream with
  | zero => omega
  | succ fuel ih =>
      obtain ⟨fuel', rfl⟩ : ∃ n, fuel' = n + 1 := ⟨fuel' - 1, by omega⟩
      refine (literalsBuilt.getSymbol buffered).bind fun symbol _ after read same buffered => ?_
      subst same
      obtain ⟨_, shorter⟩ := decodeSymbol_lt read
      by_cases literal : symbol < 256
      · rw [if_pos literal, if_pos literal]
        by_cases full : output.bytes.length ≥ capacity
        · rw [if_pos full]
          have rejected : offer (extend capacity output.bytes [UInt8.ofNat symbol]) after.bits = none := by
            rw [extend, if_neg (by simp; omega)]
            rfl
          rw [bind_of_none rejected]
          exact simulates_fail
        · obtain ⟨written, eq, bytes⟩ := write_of_fits output
            [UInt8.ofNat symbol] (by simp; omega)
          rw [if_neg full, lift_ok_bind eq, offer_bind (extend_of_fits _ _ (by simp; omega)),
            ← bytes]
          exact ih buffered (by omega) (by omega)
      rw [if_neg literal, if_neg literal]
      by_cases reference : symbol > 256 ∧ symbol < 286
      · rw [if_pos reference, if_pos reference]
        have known : symbol - 257 < 29 := by omega
        generalize symbol - 257 = lengthCode at known ⊢
        have sizeRead := readExtended_simulates literalCodesBase literalCodesNumberOfExtraBits
          lengthCode known known (by decide) buffered
        refine Simulates.bind sizeRead fun size _ afterSize readSize same buffered => ?_
        subst same
        refine (distancesBuilt.getSymbol buffered).bind fun symbol _ afterSymbol read same buffered => ?_
        subst same
        obtain ⟨inside, shorter'⟩ := decodeSymbol_lt read
        have known : symbol < 30 := by omega
        refine (readExtended_simulates distanceCodesBase distanceCodesNumberOfExtraBits symbol
          known known (by decide) buffered).bind fun distance _ afterDistance readDistance same buffered => ?_
        subst same
        have consumed := (sequential_extended _ _ _).consumes _ _ _ readSize
        have consumed' := (sequential_extended _ _ _).consumes _ _ _ readDistance
        split_ifs with far full
        · exact simulates_fail
        · exact simulates_fail
        · obtain ⟨copied, eq, bytes⟩ := copy_of_fits (distance_positive readDistance) size output
            (by omega) (by omega)
          rw [lift_ok_bind eq, ← bytes]
          exact ih buffered (by omega) (by omega)
      · rw [if_neg reference, if_neg reference]
        by_cases last : symbol = 256
        · rw [if_neg (not_not.mpr last), if_neg (not_not.mpr last)]
          exact ⟨_, rfl, rfl, buffered⟩
        · rw [if_pos last, if_pos last]
          exact simulates_fail

theorem decodeHuffman_simulates {literals distances : List Nat}
    {literalsTree distancesTree : HuffmanTree} (literalsBuilt : TreeOf literals literalsTree)
    (distancesBuilt : TreeOf distances distancesTree) (few : distances.length ≤ 30)
    (small : capacity ≤ ssizeMax) {output : Output capacity} {stream : BitStream}
    (buffered : stream.Buffered) :
    Simulates SameBytes (decodeHuffman literalsTree distancesTree output stream)
      (tokens literals distances capacity output.bytes stream.bits) := by
  have enough := buffered.bits_le
  rw [decodeHuffman, if_neg (by omega)]
  exact decodeHuffmanLoop_simulates literalsBuilt distancesBuilt few buffered (by omega) (by omega)

theorem skipToByte_simulates {stream : BitStream} (buffered : stream.Buffered) :
    Simulates (fun _ _ => True) (skipToByte stream) (alignByte stream.bits) := by
  have size := buffered.size
  have residue := buffered.bits_mod
  have remaining : (stream.bits.length) % 8 = stream.bitBufferSize % 8 := by omega
  rw [skipToByte, get_bind, alignByte, remaining]
  split_ifs with some
  · have read := getValue_simulates (n := stream.bitBufferSize % 8) buffered (Or.inl (by omega))
    have enough : stream.bitBufferSize % 8 ≤ stream.bits.length := by
      have := stream.bits_length
      omega
    rw [takeBits, if_pos enough] at read
    refine Outcome.bind (read.mono (fun _ h => h) (fun h => by cases h)) fun p held => ?_
    obtain ⟨value, taken, _, buffered⟩ := held
    have rest : stream.bits.drop (stream.bitBufferSize % 8) = p.2.bits :=
      congrArg Prod.snd (Option.some.inj taken)
    exact ⟨(), by rw [rest], trivial, buffered⟩
  · have none : stream.bitBufferSize % 8 = 0 := by omega
    rw [none]
    exact ⟨(), rfl, trivial, buffered⟩

theorem emptied {stream : BitStream} (buffered : stream.Buffered) (whole : stream.bits.length % 8 = 0) :
    stream.bitBufferSize = 0 ∧
      stream.bits = bytesBits (stream.byteStream.drop stream.byteStreamOffset) := by
  have none : stream.bitBufferSize = 0 := by rw [← buffered.bits_mod, whole]
  exact ⟨none, by rw [bits, none]; rfl⟩

theorem require_bind {β : Type} (condition : Prop) [Decidable condition] (next : Unit → BitReader β)
    (bits : List Bool) : (require condition >>= next) bits = if condition then next () bits else none := by
  rw [require]
  split_ifs
  · rfl
  · rfl

theorem copyStoredData_simulates (blockSize : Nat) {output : Output capacity} {stream : BitStream}
    (buffered : stream.Buffered) (whole : stream.bits.length % 8 = 0) :
    Simulates SameBytes (copyStoredData blockSize output stream)
      ((takeBytes blockSize >>= fun data => offer (extend capacity output.bytes data)) stream.bits) := by
  obtain ⟨_, remaining⟩ := emptied buffered whole
  have offset := buffered.offset
  have fits := output.fits
  have taken := takeBytes_bytesBits blockSize (stream.byteStream.drop stream.byteStreamOffset)
  rw [List.length_drop, ← remaining] at taken
  rw [copyStoredData, get_bind]
  by_cases short : blockSize > stream.byteStream.length - stream.byteStreamOffset
  · rw [if_pos short, bind_of_none (taken.trans (if_neg (by omega)))]
    exact simulates_fail
  rw [if_neg short, bind_of_some (taken.trans (if_pos (by omega)))]
  have length : ((stream.byteStream.drop stream.byteStreamOffset).take blockSize).length = blockSize := by
    simp only [List.length_take, List.length_drop]
    omega
  by_cases full : blockSize > capacity - output.bytes.length
  · rw [if_pos full, extend, if_neg (by omega)]
    exact simulates_fail
  · obtain ⟨written, eq, bytes⟩ := write_of_fits output
      ((stream.byteStream.drop stream.byteStreamOffset).take blockSize) (by omega)
    rw [if_neg full, lift_ok_bind (slice_of_le (by omega)), lift_ok_bind eq, extend, if_pos (by omega),
      ← bytes]
    refine ⟨_, ?_, rfl, ⟨⟨buffered.storage, ?_, Nat.one_pos, Nat.zero_le _⟩, by simp⟩⟩
    · simp [offer, bits, natBits, List.drop_drop]
    · simp only
      omega

theorem readStoredBlock_simulates {output : Output capacity} {stream : BitStream}
    (buffered : stream.Buffered) :
    Simulates SameBytes (readStoredBlock output stream)
      (storedBlock capacity output.bytes stream.bits) := by
  refine (skipToByte_simulates buffered).bind fun _ _ aligned alignRead _ alignedBuffered => ?_
  have rest : stream.bits.drop (stream.bits.length % 8) = aligned.bits :=
    congrArg Prod.snd (Option.some.inj alignRead)
  have wholeBytes : aligned.bits.length % 8 = 0 := by
    rw [← rest, List.length_drop]
    omega
  obtain ⟨emptyBuffer, _⟩ := emptied alignedBuffered wholeBytes
  refine (getValue_simulates alignedBuffered (Or.inr ⟨rfl, emptyBuffer⟩)).bind
    fun value _ after read same afterBuffered => ?_
  subst same
  rw [require_bind]
  by_cases mismatch : value % 65536 = (value >>> 16) ^^^ 0xffff
  · rw [if_neg (not_not.mpr mismatch), if_pos mismatch]
    by_cases empty : value % 65536 = 0
    · rw [if_pos empty, empty]
      have fits := output.fits
      refine ⟨output.bytes, ?_, rfl, afterBuffered⟩
      change offer (extend capacity output.bytes []) after.bits = _
      simp [extend, fits, offer]
    · rw [if_neg empty]
      exact copyStoredData_simulates _ afterBuffered (by
        have := (takeBits_length read).1
        omega)
  · rw [if_pos mismatch, if_neg mismatch]
    exact simulates_fail

structure Front (array sizes : List Nat) : Prop where
  length : array.length = 316
  take : array.take sizes.length = sizes

theorem Front.set {array sizes : List Nat} (front : Front array sizes) (index value : Nat) :
    Front (array.set index value) (sizes.set index value) where
  length := by rw [List.length_set, front.length]
  take := by rw [List.length_set, List.take_set, front.take]

theorem Front.getElem? {array sizes : List Nat} (front : Front array sizes) {index : Nat}
    (inside : index < sizes.length) : array[index]? = sizes[index]? := by
  rw [← List.getElem?_take_of_lt inside, front.take]

theorem codeSizesSequence_lt {index : Nat} (inside : index < 19) :
    load (ε := ErrorCode) codeSizesSequence index = .ok (codeSizesSequence.getD index 0) ∧
      codeSizesSequence.getD index 0 < 19 := by
  have length : index < codeSizesSequence.length := inside
  have small : ∀ s ∈ codeSizesSequence, s < 19 := by decide
  rw [load_of_lt length, List.getD_eq_getElem _ _ length]
  exact ⟨rfl, small _ (List.getElem_mem length)⟩

theorem readCodeSizes_simulates {numberOfCodeSizes : Nat} (few : numberOfCodeSizes ≤ 19)
    {stream : BitStream} (buffered : stream.Buffered) :
    Simulates (fun array sizes => Front array sizes ∧ sizes.length = 19)
      (readCodeSizes numberOfCodeSizes (List.replicate 316 0) stream)
      (codeLengthValues numberOfCodeSizes stream.bits) := by
  refine Simulates.foldlM_range (fun _ array sizes => Front array sizes ∧ sizes.length = 19)
    ⟨⟨List.length_replicate, by rw [List.length_replicate, List.take_replicate]; rfl⟩,
      List.length_replicate⟩ buffered fun i array sizes stream inside held buffered => ?_
  obtain ⟨loaded, small⟩ := codeSizesSequence_lt (show i < 19 by omega)
  refine (getValue_simulates buffered (Or.inl (by omega))).bind fun size _ after _ same buffered => ?_
  subst same
  rw [lift_ok_bind loaded, lift_ok (store_of_lt _ (by rw [held.1.length]; omega))]
  exact ⟨_, rfl, ⟨held.1.set _ _, by rw [List.length_set, held.2]⟩, buffered⟩

theorem clearCodeSizes_ok (numberOfCodeSizes : Nat) {array sizes : List Nat} (front : Front array sizes) :
    ∃ cleared, clearCodeSizes numberOfCodeSizes array = .ok cleared ∧
      Front cleared (clearedSizes numberOfCodeSizes sizes) := by
  refine Outcome.value (outcome_foldlM_range (fun i array => Front array ((List.range i).foldl
    (fun sizes index => sizes.set (codeSizesSequence.getD (numberOfCodeSizes + index) 0) 0) sizes))
    front fun i array inside held => ?_) id
  obtain ⟨loaded, small⟩ := codeSizesSequence_lt (show numberOfCodeSizes + i < 19 by omega)
  rw [loaded, ok_bind, store_of_lt _ (by rw [held.length]; omega), outcome_ok, List.range_succ,
    List.foldl_append]
  exact held.set _ _

theorem buildTree_outcome {tree : HuffmanTree} {codeSizes : List Nat} (maximum : tree.maximumCodeSize = 15)
    (few : codeSizes.length ≤ 1024) (room : codeSizes.length ≤ tree.symbols.length) :
    Outcome (buildTree tree codeSizes) (fun built => Usable codeSizes ∧ TreeOf codeSizes built)
      (¬Usable codeSizes) := by
  have small : codeSizes.length ≤ int16Max := few.trans (by decide)
  rw [buildTree]
  refine ((HuffmanTree.build_outcome (by omega) small room).mono (fun _ h => h) ?_).bind
    fun built held => ?_
  · intro refused usable
    exact refused (maximum ▸ usable.1)
  · rw [maximum] at held
    cases built with
    | none => exact fun usable => usable.2.elim fun size member => member.2 (held.2 size member.1)
    | some built => exact ⟨⟨held.1, held.2.1⟩, held.2.2.1, held.2.2.2⟩

theorem Simulates.require {α : Type} {result : Result α} {condition : Prop} [Decidable condition]
    {post : α → Prop} (outcome : Outcome result (fun a => condition ∧ post a) (¬condition))
    {stream : BitStream} (buffered : stream.Buffered) :
    Simulates (fun a (_ : Unit) => condition ∧ post a) ((liftM result : Reader α) stream)
      (Deflate.require condition stream.bits) := by
  rcases outcome_returns outcome with ⟨a, ok, held⟩ | ⟨⟨code, failed⟩, refused⟩
  · rw [lift_ok ok, Deflate.require, if_pos held.1]
    exact ⟨(), rfl, held, buffered⟩
  · rw [failed, Deflate.require, if_neg refused]
    exact simulates_fail

theorem Front.push {array sizes : List Nat} (front : Front array sizes) (room : sizes.length < 316)
    (value : Nat) : Front (array.set sizes.length value) (sizes ++ [value]) where
  length := by rw [List.length_set, front.length]
  take := by
    have inside : sizes.length < (array.set sizes.length value).length := by
      rw [List.length_set, front.length]
      exact room
    rw [List.length_append, List.length_singleton, HuffmanTree.take_succ_of_lt inside,
      List.getElem_set_self, List.take_set_of_le le_rfl, front.take]

theorem storeRepeated_ok (value times : Nat) {array sizes : List Nat} (front : Front array sizes)
    (room : sizes.length + times ≤ 316) :
    ∃ stored, storeRepeated array sizes.length value times = .ok stored ∧
      Front stored (sizes ++ List.replicate times value) := by
  refine Outcome.value (outcome_foldlM_range (fun i array =>
    Front array (sizes ++ List.replicate i value)) (by simpa using front) fun i array inside held => ?_) id
  have length : (sizes ++ List.replicate i value).length = sizes.length + i := by simp
  have pushed := held.push (by omega) value
  rw [length, List.append_assoc, ← List.replicate_succ'] at pushed
  rw [store_of_lt _ (by rw [held.length]; omega), outcome_ok]
  exact pushed

theorem readRepetition_simulates {array sizes : List Nat} (front : Front array sizes) (symbol : Nat)
    {stream : BitStream} (buffered : stream.Buffered) :
    Simulates Eq (readRepetition array sizes.length symbol stream) (repetition sizes symbol stream.bits) := by
  rw [readRepetition, repetition]
  split_ifs with previous first zeros manyZeros
  · rw [List.length_eq_zero_iff.mp first]
    exact simulates_fail
  · have inside : sizes.length - 1 < sizes.length := by omega
    have last : array[sizes.length - 1]? = some sizes[sizes.length - 1] := by
      rw [front.getElem? inside, List.getElem?_eq_getElem inside]
    rw [lift_ok_bind (load_of_getElem? last), offer_bind (a := sizes[sizes.length - 1]) (by
      rw [List.getLast?_eq_getElem?, List.getElem?_eq_getElem inside])]
    refine (getValue_simulates buffered (Or.inl (by omega))).bind fun times _ after _ same buffered => ?_
    subst same
    exact ⟨_, rfl, rfl, buffered⟩
  · refine (getValue_simulates buffered (Or.inl (by omega))).bind fun times _ after _ same buffered => ?_
    subst same
    exact ⟨_, rfl, rfl, buffered⟩
  · refine (getValue_simulates buffered (Or.inl (by omega))).bind fun times _ after _ same buffered => ?_
    subst same
    exact ⟨_, rfl, rfl, buffered⟩
  · exact simulates_fail

theorem repetition_positive {sizes : List Nat} {symbol size times : Nat} {bits rest : List Bool}
    (read : repetition sizes symbol bits = some ((size, times), rest)) : 0 < times := by
  have positive {n k v : Nat} {bits : List Bool} (read : (takeBits n >>= fun times =>
      (pure (v, times + (k + 1)) : BitReader (Nat × Nat))) bits = some ((size, times), rest)) : 0 < times := by
    obtain ⟨taken, _, _, last⟩ := bind_eq_some.mp read
    have : taken + (k + 1) = times := congrArg (fun p => p.1.2) (Option.some.inj last)
    omega
  rw [repetition] at read
  split_ifs at read
  · obtain ⟨_, _, _, read⟩ := bind_eq_some.mp read
    exact positive read
  · exact positive read
  · exact positive read
  · cases read

theorem readSymbolCodeSizes_simulates {codesTree : HuffmanTree} {codeLengths : List Nat} {total : Nat}
    (built : TreeOf codeLengths codesTree) (few : total ≤ 316) (fuel : Nat) {array sizes : List Nat}
    (front : Front array sizes) (within : sizes.length ≤ total) (enough : total < sizes.length + fuel)
    {stream : BitStream} (buffered : stream.Buffered) :
    Simulates (fun array sizes => Front array sizes ∧ sizes.length = total)
      (readSymbolCodeSizes codesTree total fuel array sizes.length stream)
      (symbolSizes codeLengths total fuel sizes stream.bits) := by
  induction fuel generalizing array sizes stream with
  | zero => omega
  | succ fuel ih =>
      rw [readSymbolCodeSizes, symbolSizes]
      split_ifs with more
      · refine (built.getSymbol buffered).bind fun symbol _ after _ same buffered => ?_
        subst same
        by_cases plain : symbol < 16
        · rw [if_pos plain, if_pos plain, lift_ok_bind (store_of_lt _ (by rw [front.length]; omega))]
          have next := ih (front.push (by omega) symbol) (by simp; omega) (by simp; omega) buffered
          rwa [List.length_append, List.length_singleton] at next
        · rw [if_neg plain, if_neg plain]
          refine (readRepetition_simulates front symbol buffered).bind fun repeated _ after read same buffered => ?_
          subst same
          obtain ⟨size, times⟩ := repeated
          have positive := repetition_positive read
          dsimp only
          by_cases excess : sizes.length + times > total
          · rw [if_pos excess, if_pos excess]
            exact simulates_fail
          · obtain ⟨stored, eq, front⟩ := storeRepeated_ok size times front (by omega)
            rw [if_neg excess, if_neg excess, lift_ok_bind eq]
            have next := ih front (by simp; omega) (by simp; omega) buffered
            rwa [List.length_append, List.length_replicate] at next
      · exact ⟨sizes, rfl, ⟨front, by omega⟩, buffered⟩

theorem clearedSizes_length (numberOfCodeSizes : Nat) (sizes : List Nat) :
    (clearedSizes numberOfCodeSizes sizes).length = sizes.length := by
  rw [clearedSizes]
  induction 19 - numberOfCodeSizes with
  | zero => rfl
  | succ n ih => rw [List.range_succ, List.foldl_append, List.foldl_cons, List.foldl_nil,
      List.length_set, ih]

theorem create_ok {numberOfSymbols : Nat} (few : numberOfSymbols ≤ 1024) :
    ∃ tree, HuffmanTree.create numberOfSymbols 15 = .ok tree ∧ tree.maximumCodeSize = 15 ∧
      tree.symbols.length = numberOfSymbols := by
  refine ⟨⟨15, List.replicate numberOfSymbols 0, List.replicate 16 0⟩, ?_, rfl, List.length_replicate⟩
  rw [HuffmanTree.create, if_neg (by omega), if_neg (by omega)]

def TreesOf (trees : HuffmanTree × HuffmanTree) (sizes : List Nat × List Nat) : Prop :=
  TreeOf sizes.1 trees.1 ∧ TreeOf sizes.2 trees.2 ∧ sizes.2.length ≤ 30

theorem buildDynamicHuffmanTrees_simulates {literalsTree distancesTree : HuffmanTree}
    (literalsMaximum : literalsTree.maximumCodeSize = 15)
    (literalsRoom : literalsTree.symbols.length = 288)
    (distancesMaximum : distancesTree.maximumCodeSize = 15)
    (distancesRoom : distancesTree.symbols.length = 30)
    {stream : BitStream} (buffered : stream.Buffered) :
    Simulates TreesOf (buildDynamicHuffmanTrees literalsTree distancesTree stream)
      (dynamicSizes stream.bits) := by
  refine (getValue_simulates buffered (Or.inl (by omega))).bind fun value _ after read same buffered => ?_
  subst same
  have valueSmall := (takeBits_length read).2
  have shifted : value >>> 10 = value / 1024 := Nat.shiftRight_eq_div_pow value 10
  dsimp only
  by_cases manyLiterals : value % 32 + 257 > 286
  · rw [if_pos manyLiterals, if_pos manyLiterals]
    exact simulates_fail
  rw [if_neg manyLiterals, if_neg manyLiterals]
  by_cases manyDistances : value >>> 5 % 32 + 1 > 30
  · rw [if_pos manyDistances, if_pos manyDistances]
    exact simulates_fail
  rw [if_neg manyDistances, if_neg manyDistances]
  have literalRange : 257 ≤ value % 32 + 257 := by omega
  have few : value >>> 10 + 4 ≤ 19 := by omega
  generalize value % 32 + 257 = literalCodes at manyLiterals literalRange ⊢
  generalize value >>> 5 % 32 + 1 = distanceCodes at manyDistances ⊢
  refine (readCodeSizes_simulates few buffered).bind fun array values after _ held buffered => ?_
  obtain ⟨cleared, clearEq, front⟩ := clearCodeSizes_ok (value >>> 10 + 4) held.1
  obtain ⟨codesTree, createEq, codesMaximum, codesRoom⟩ := create_ok (show 19 ≤ 1024 by omega)
  have length : (clearedSizes (value >>> 10 + 4) values).length = 19 := by
    rw [clearedSizes_length, held.2]
  have clearedLength := front.length
  have codesSlice : slice (ε := ErrorCode) cleared 0 19 =
      .ok (clearedSizes (value >>> 10 + 4) values) := by
    rw [slice_of_le (by omega), List.drop_zero, ← length, front.take]
  rw [lift_ok_bind clearEq, lift_ok_bind createEq, lift_ok_bind codesSlice]
  refine (Simulates.require (buildTree_outcome codesMaximum (by omega) (by omega)) buffered).bind
    fun codesTree _ after _ built buffered => ?_
  have empty : Front cleared [] := ⟨clearedLength, rfl⟩
  refine (readSymbolCodeSizes_simulates built.2 (by omega) _ empty (by simp) (by simp) buffered).bind
    fun array sizes after _ held buffered => ?_
  obtain ⟨front, total⟩ := held
  have arrayLength := front.length
  have endOfBlock : array[256]? = some (sizes.getD 256 0) := by
    have inside : 256 < sizes.length := by omega
    rw [front.getElem? inside, List.getD_eq_getElem _ _ inside, List.getElem?_eq_getElem inside]
  rw [lift_ok_bind (load_of_getElem? endOfBlock)]
  by_cases missing : sizes.getD 256 0 = 0
  · rw [if_pos missing, if_pos missing]
    exact simulates_fail
  rw [if_neg missing, if_neg missing]
  have literalsSlice : slice (ε := ErrorCode) array 0 literalCodes = .ok (sizes.take literalCodes) := by
    rw [slice_of_le (by omega), List.drop_zero, ← front.take, List.take_take, Nat.min_eq_left (by omega)]
  have distancesSlice : slice (ε := ErrorCode) array literalCodes distanceCodes =
      .ok (sizes.drop literalCodes) := by
    rw [slice_of_le (by omega), List.take_drop, ← total, front.take]
  rw [lift_ok_bind literalsSlice]
  refine (Simulates.require (buildTree_outcome literalsMaximum (by simp; omega) (by simp; omega))
    buffered).bind fun literalsTree _ after _ literalsBuilt buffered => ?_
  rw [lift_ok_bind distancesSlice]
  refine (Simulates.require (buildTree_outcome distancesMaximum (by simp; omega) (by simp; omega))
    buffered).bind fun distancesTree _ after _ distancesBuilt buffered => ?_
  exact ⟨_, rfl, ⟨literalsBuilt.2, distancesBuilt.2, by simp only [List.length_drop]; omega⟩, buffered⟩

theorem fixedCodeSizes_usable : Usable fixedLiterals ∧ Usable fixedDistances := by
  decide +kernel

theorem fixedLiterals_length : fixedLiterals.length = 288 := by
  rw [fixedLiterals, List.length_map, List.length_range]

theorem fixedDistances_length : fixedDistances.length = 30 := List.length_replicate

theorem prepareFixedTrees_ok (blockType : Nat) {fixedTrees : Option (HuffmanTree × HuffmanTree)}
    (held : ∀ trees, fixedTrees = some trees → TreesOf trees (fixedLiterals, fixedDistances)) :
    ∃ prepared, prepareFixedTrees blockType fixedTrees = .ok prepared ∧
      (blockType = 1 → ∃ trees, prepared = some trees) ∧
      ∀ trees, prepared = some trees → TreesOf trees (fixedLiterals, fixedDistances) := by
  rw [prepareFixedTrees]
  split_ifs with first
  · obtain ⟨literalsTree, literalsEq, literalsMaximum, literalsRoom⟩ := create_ok (show 288 ≤ 1024 by omega)
    obtain ⟨distancesTree, distancesEq, distancesMaximum, distancesRoom⟩ :=
      create_ok (show 30 ≤ 1024 by omega)
    obtain ⟨literalsTree', literalsBuild, _, literalsBuilt⟩ := (buildTree_outcome literalsMaximum
      (by rw [fixedLiterals_length]; omega) (by rw [fixedLiterals_length]; omega)).value
        (not_not.mpr fixedCodeSizes_usable.1)
    obtain ⟨distancesTree', distancesBuild, _, distancesBuilt⟩ := (buildTree_outcome distancesMaximum
      (by rw [fixedDistances_length]; omega) (by rw [fixedDistances_length]; omega)).value
        (not_not.mpr fixedCodeSizes_usable.2)
    have literalsSlice : slice (ε := ErrorCode) ((List.range 318).map fixedCodeSize) 0 288 =
      .ok fixedLiterals := by decide +kernel
    have distancesSlice : slice (ε := ErrorCode) ((List.range 318).map fixedCodeSize) 288 30 =
      .ok fixedDistances := by decide +kernel
    refine ⟨some (literalsTree', distancesTree'), ?_, fun _ => ⟨_, rfl⟩, ?_⟩
    · rw [literalsEq, ok_bind, distancesEq, ok_bind, buildFixedHuffmanTrees, literalsSlice, ok_bind,
        literalsBuild, ok_bind, distancesSlice, ok_bind, distancesBuild]
      rfl
    · rintro trees ⟨rfl⟩
      exact ⟨literalsBuilt, distancesBuilt, fixedDistances_length.le⟩
  · refine ⟨fixedTrees, rfl, fun fixed => ?_, held⟩
    exact Option.ne_none_iff_exists'.mp fun none => first ⟨fixed, none⟩

theorem readBlock_simulates (small : capacity ≤ ssizeMax) {blockType : Nat}
    {fixedTrees : Option (HuffmanTree × HuffmanTree)}
    (prepared : blockType = 1 → ∃ trees, fixedTrees = some trees)
    (held : ∀ trees, fixedTrees = some trees → TreesOf trees (fixedLiterals, fixedDistances))
    {output : Output capacity} {stream : BitStream} (buffered : stream.Buffered) :
    Simulates SameBytes (readBlock blockType fixedTrees output stream)
      (block capacity blockType output.bytes stream.bits) := by
  unfold readBlock block
  rw [if_neg (by omega)]
  split_ifs with stored fixed dynamic
  · exact readStoredBlock_simulates buffered
  · obtain ⟨⟨literalsTree, distancesTree⟩, rfl⟩ := prepared fixed
    obtain ⟨literalsBuilt, distancesBuilt, few⟩ := held _ rfl
    exact decodeHuffman_simulates literalsBuilt distancesBuilt few small buffered
  · obtain ⟨literalsTree, literalsEq, literalsMaximum, literalsRoom⟩ := create_ok (show 288 ≤ 1024 by omega)
    obtain ⟨distancesTree, distancesEq, distancesMaximum, distancesRoom⟩ :=
      create_ok (show 30 ≤ 1024 by omega)
    rw [lift_ok_bind literalsEq, lift_ok_bind distancesEq]
    refine (buildDynamicHuffmanTrees_simulates literalsMaximum literalsRoom distancesMaximum distancesRoom
      buffered).bind fun ⟨_, _⟩ ⟨_, _⟩ after _ built buffered => ?_
    exact decodeHuffman_simulates built.1 built.2.1 built.2.2 small buffered
  · exact simulates_fail

theorem readBlockHeader_simulates {stream : BitStream} (buffered : stream.Buffered) :
    Simulates (fun header value => header = (value % 2, value >>> 1)) (readBlockHeader stream)
      (takeBits 3 stream.bits) := by
  refine Outcome.bind (getValue_simulates buffered (Or.inl (by omega))) fun p read => ?_
  obtain ⟨value, read, same, buffered⟩ := read
  exact ⟨value, read, by rw [same], buffered⟩

theorem readBlocks_simulates (small : capacity ≤ ssizeMax) {fuel fuel' : Nat}
    {fixedTrees : Option (HuffmanTree × HuffmanTree)}
    (held : ∀ trees, fixedTrees = some trees → TreesOf trees (fixedLiterals, fixedDistances))
    {output : Output capacity} {stream : BitStream} (buffered : stream.Buffered)
    (enough : stream.bits.length < fuel) (enough' : stream.bits.length < fuel') :
    Simulates SameBytes (readBlocks fuel fixedTrees output stream)
      (blocksLoop capacity fuel' output.bytes stream.bits) := by
  induction fuel generalizing fuel' fixedTrees output stream with
  | zero => omega
  | succ fuel ih =>
      obtain ⟨fuel', rfl⟩ : ∃ n, fuel' = n + 1 := ⟨fuel' - 1, by omega⟩
      have length := stream.bits_length
      have size := buffered.size
      have offset := buffered.offset
      rw [readBlocks, get_bind, blocksLoop_succ]
      by_cases more : stream.byteStreamOffset < stream.byteStream.length
      · rw [if_pos more, if_neg (by omega)]
        refine (readBlockHeader_simulates buffered).bind fun ⟨lastBlockFlag, blockType⟩ value after read
          header buffered => ?_
        obtain ⟨rfl, rfl⟩ := Prod.mk.inj header
        obtain ⟨prepared, eq, present, held⟩ := prepareFixedTrees_ok (value >>> 1) held
        dsimp only
        rw [lift_ok_bind eq]
        refine (readBlock_simulates small present held buffered).bind
          fun output _ afterBlock readBody same buffered => ?_
        subst same
        have consumed := (takeBits_length read).1
        have consumed' := (sequential_block _ _ _).consumes _ _ _ readBody
        split_ifs
        · exact ⟨_, rfl, rfl, buffered⟩
        · exact ih held buffered (by omega) (by omega)
      · rw [if_neg more, if_pos (by omega)]
        exact ⟨_, rfl, rfl, buffered⟩

end Fsapfs.Deflate
