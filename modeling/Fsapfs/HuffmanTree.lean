import Fsapfs.BitStream
import Fsapfs.Coding.CanonicalCode
import Mathlib.Tactic.Zify

namespace Fsapfs
open Program Coding

structure HuffmanTree where
  maximumCodeSize : Nat
  symbols : List Nat
  codeSizeCounts : List Nat
  deriving Repr, DecidableEq

namespace HuffmanTree

def create (numberOfSymbols maximumCodeSize : Nat) : Result HuffmanTree :=
  if numberOfSymbols > 1024 then fail .valueOutOfBounds
  else if maximumCodeSize > 32 then fail .valueOutOfBounds
  else .ok ⟨maximumCodeSize, List.replicate numberOfSymbols 0, List.replicate (maximumCodeSize + 1) 0⟩

def countCodeSizes (maximumCodeSize : Nat) (codeSizes : List Nat) : Result (List Nat) :=
  (List.range codeSizes.length).foldlM (fun counts symbol => do
    let codeSize ← load codeSizes symbol
    if codeSize > maximumCodeSize then fail .valueOutOfBounds
    else do
      let count ← load counts codeSize
      store counts codeSize (count + 1)) (List.replicate (maximumCodeSize + 1) 0)

def checkLeftValue (maximumCodeSize : Nat) (counts : List Nat) : Result Int :=
  (List.range maximumCodeSize).foldlM (fun left index => do
    let count ← load counts (index + 1)
    if 2 * left - count < 0 then fail .valueOutOfBounds else .ok (2 * left - count)) 1

def symbolOffsets (maximumCodeSize : Nat) (counts : List Nat) : Result (List Nat) :=
  (List.range (maximumCodeSize - 1)).foldlM (fun offsets index => do
    let offset ← load offsets (index + 1)
    let count ← load counts (index + 1)
    store offsets (index + 2) (offset + count)) (List.replicate (maximumCodeSize + 1) 0)

def fillSymbols (codeSizes offsets symbols : List Nat) : Result (List Nat × List Nat) :=
  (List.range codeSizes.length).foldlM (fun (offsets, symbols) symbol => do
    let codeSize ← load codeSizes symbol
    if codeSize = 0 then .ok (offsets, symbols)
    else do
      let codeOffset ← load offsets codeSize
      if codeOffset > codeSizes.length then fail .valueOutOfBounds
      else do
        let offsets ← store offsets codeSize (codeOffset + 1)
        let symbols ← store symbols codeOffset symbol
        .ok (offsets, symbols)) (offsets, symbols)

/-- The code sizes are those the caller's array and number span; `none` is an empty tree. -/
def build (tree : HuffmanTree) (codeSizes : List Nat) : Result (Option HuffmanTree) :=
  if tree.maximumCodeSize = 0 then fail .valueOutOfBounds
  else if codeSizes.length > int16Max then fail .valueOutOfBounds
  else do
    let counts ← countCodeSizes tree.maximumCodeSize codeSizes
    let unused ← load counts 0
    if unused = codeSizes.length then .ok none
    else do
      let _ ← checkLeftValue tree.maximumCodeSize counts
      let offsets ← symbolOffsets tree.maximumCodeSize counts
      let (_, symbols) ← fillSymbols codeSizes offsets tree.symbols
      .ok (some { tree with symbols, codeSizeCounts := counts })

def symbolAt (tree : HuffmanTree) (index : Int) : Result Nat :=
  if index < 0 then .error .undefined else load tree.symbols index.toNat

-- The codes stay below 2 ^ 15 in every tree of the library, so `int` arithmetic is exact.
def getSymbolLoop (tree : HuffmanTree) : Nat → Nat → Int → Int → Int → StateT BitStream Result Nat
  | 0, _, _, _, _ => fun _ => fail .valueOutOfBounds
  | remaining + 1, bitIndex, huffmanCode, firstHuffmanCode, firstIndex => do
      let value ← BitStream.getValue 1
      let count ← (load tree.codeSizeCounts bitIndex : Result Nat)
      if 2 * huffmanCode + value - count < firstHuffmanCode then
        (tree.symbolAt (firstIndex + (2 * huffmanCode + value - firstHuffmanCode)) : Result Nat)
      else
        getSymbolLoop tree remaining (bitIndex + 1) (2 * huffmanCode + value)
          (2 * (firstHuffmanCode + count)) (firstIndex + count)

def getSymbolFromBitStream (tree : HuffmanTree) : StateT BitStream Result Nat :=
  getSymbolLoop tree tree.maximumCodeSize 1 0 0 0

/-- The code sizes a tree can be built from: bounded, and not over-subscribed. -/
def Acceptable (maximumCodeSize : Nat) (codeSizes : List Nat) : Prop :=
  (∀ codeSize ∈ codeSizes, codeSize ≤ maximumCodeSize) ∧
    codesUsed codeSizes maximumCodeSize ≤ 2 ^ maximumCodeSize

instance (maximumCodeSize : Nat) (codeSizes : List Nat) :
    Decidable (Acceptable maximumCodeSize codeSizes) := inferInstanceAs (Decidable (_ ∧ _))

structure Represents (tree : HuffmanTree) (codeSizes : List Nat) : Prop where
  counts : ∀ l, 0 < l → l ≤ tree.maximumCodeSize → tree.codeSizeCounts[l]? = some (codeSizes.count l)
  symbols : ∀ l k s, 0 < l → l ≤ tree.maximumCodeSize → (symbolsOfLength codeSizes l)[k]? = some s →
    tree.symbols[firstIndex codeSizes l + k]? = some s

theorem take_succ_of_lt {codeSizes : List Nat} {i : Nat} (inside : i < codeSizes.length) :
    codeSizes.take (i + 1) = codeSizes.take i ++ [codeSizes[i]] := by
  rw [List.take_add_one, List.getElem?_eq_getElem inside]
  rfl

theorem countCodeSizes_outcome (maximumCodeSize : Nat) (codeSizes : List Nat) :
    Outcome (countCodeSizes maximumCodeSize codeSizes)
      (fun counts => (∀ codeSize ∈ codeSizes, codeSize ≤ maximumCodeSize) ∧
        ∀ l, l ≤ maximumCodeSize → counts[l]? = some (codeSizes.count l))
      (¬∀ codeSize ∈ codeSizes, codeSize ≤ maximumCodeSize) := by
  refine (outcome_foldlM_range (fun i counts => counts.length = maximumCodeSize + 1 ∧
    (∀ codeSize ∈ codeSizes.take i, codeSize ≤ maximumCodeSize) ∧
      ∀ l, l ≤ maximumCodeSize → counts[l]? = some ((codeSizes.take i).count l)) ?_ ?_).mono ?_ id
  · exact ⟨by simp, by simp, fun l small => by simp [List.getElem?_replicate]; omega⟩
  · rintro i counts inside ⟨length, bounded, counted⟩
    simp only [load_of_lt inside, bind, Except.bind]
    split_ifs with large
    · exact fun all => Nat.not_lt.mpr (all _ (List.getElem_mem inside)) large
    · have found : counts[codeSizes[i]]? = some _ := counted _ (by omega)
      simp only [load_of_getElem? found]
      rw [store_of_lt _ (by omega), outcome_ok, take_succ_of_lt inside]
      refine ⟨by simpa using length, ?_, fun l small => ?_⟩
      · intro codeSize member
        rcases List.mem_append.mp member with before | last
        · exact bounded codeSize before
        · rw [List.mem_singleton.mp last]
          omega
      · rw [List.getElem?_set, List.count_append, List.count_singleton]
        by_cases same : codeSizes[i] = l
        · subst same
          simp [show codeSizes[i] < counts.length by omega]
        · simp [same, counted l small]
  · intro counts held
    rw [List.take_length] at held
    exact held.2

theorem checkLeftValue_outcome {maximumCodeSize : Nat} {codeSizes counts : List Nat}
    (counted : ∀ l, l ≤ maximumCodeSize → counts[l]? = some (codeSizes.count l)) :
    Outcome (checkLeftValue maximumCodeSize counts)
      (fun _ => codesUsed codeSizes maximumCodeSize ≤ 2 ^ maximumCodeSize)
      (¬codesUsed codeSizes maximumCodeSize ≤ 2 ^ maximumCodeSize) := by
  refine (outcome_foldlM_range (fun l left => left = 2 ^ l - (codesUsed codeSizes l : Int) ∧ 0 ≤ left)
    ?_ ?_).mono ?_ id
  · simp
  · rintro l left inside ⟨value, positive⟩
    have found : counts[l + 1]? = some _ := counted (l + 1) inside
    have used := codesUsed_succ codeSizes l
    have next : 2 * left - (codeSizes.count (l + 1) : Int) =
        2 ^ (l + 1) - (codesUsed codeSizes (l + 1) : Int) := by
      rw [value, used, pow_succ]
      push_cast
      ring
    simp only [load_of_getElem? found, bind, Except.bind]
    split_ifs with excess
    · intro fit
      have within := codesUsed_fit (l := l + 1) inside fit
      zify at within
      omega
    · exact ⟨next, by omega⟩
  · rintro left ⟨value, positive⟩
    zify
    omega

theorem symbolOffsets_outcome {maximumCodeSize : Nat} {codeSizes counts : List Nat} {refused : Prop}
    (positive : 0 < maximumCodeSize)
    (counted : ∀ l, l ≤ maximumCodeSize → counts[l]? = some (codeSizes.count l)) :
    Outcome (symbolOffsets maximumCodeSize counts)
      (fun offsets => offsets.length = maximumCodeSize + 1 ∧
        ∀ l, 0 < l → l ≤ maximumCodeSize → offsets[l]? = some (firstIndex codeSizes l)) refused := by
  refine (outcome_foldlM_range (fun i offsets => offsets.length = maximumCodeSize + 1 ∧
    ∀ l, 0 < l → l ≤ i + 1 → offsets[l]? = some (firstIndex codeSizes l)) ?_ ?_).mono ?_ id
  · refine ⟨by simp, fun l lower upper => ?_⟩
    obtain rfl : l = 1 := by omega
    simp [positive, firstIndex, lengthCount]
  · rintro i offsets inside ⟨length, held⟩
    have found : offsets[i + 1]? = some _ := held (i + 1) (by omega) le_rfl
    have count : counts[i + 1]? = some _ := counted (i + 1) (by omega)
    simp only [load_of_getElem? found, load_of_getElem? count, bind, Except.bind]
    rw [store_of_lt _ (by omega), outcome_ok]
    refine ⟨by simpa using length, fun l lower upper => ?_⟩
    rw [List.getElem?_set]
    by_cases last : i + 2 = l
    · subst last
      rw [if_pos rfl, if_pos (by omega), firstIndex_succ codeSizes (i + 1) (by omega)]
    · rw [if_neg last]
      exact held l lower (by omega)
  · rintro offsets ⟨length, held⟩
    exact ⟨length, fun l lower upper => held l lower (by omega)⟩

theorem symbolPosition_le (codeSizes : List Nat) {l : Nat} (positive : 0 < l) :
    firstIndex codeSizes l + codeSizes.count l ≤ codeSizes.length := by
  rw [← firstIndex_succ codeSizes l positive]
  exact firstIndex_le codeSizes (l + 1)

theorem symbolPosition_ne (codeSizes : List Nat) {i k l m : Nat} (positive : 0 < m) (lower : 0 < l)
    (earlier : k < (codeSizes.take i).count l) (rankLess : (codeSizes.take i).count m < codeSizes.count m) :
    firstIndex codeSizes l + k ≠ firstIndex codeSizes m + (codeSizes.take i).count m := by
  have total := (List.take_sublist i codeSizes).count_le l
  rcases Nat.lt_trichotomy l m with less | same | greater
  · have separate := firstIndex_separate codeSizes lower less
    omega
  · subst same
    omega
  · have separate := firstIndex_separate codeSizes positive greater
    omega

/-- The counting sort puts every symbol at the index its code size and rank give it. -/
theorem fillSymbols_outcome {maximumCodeSize : Nat} {codeSizes offsets symbols : List Nat}
    {refused : Prop} (bounded : ∀ codeSize ∈ codeSizes, codeSize ≤ maximumCodeSize)
    (room : codeSizes.length ≤ symbols.length) (length : offsets.length = maximumCodeSize + 1)
    (starts : ∀ l, 0 < l → l ≤ maximumCodeSize → offsets[l]? = some (firstIndex codeSizes l)) :
    Outcome (fillSymbols codeSizes offsets symbols)
      (fun p => ∀ l k s, 0 < l → l ≤ maximumCodeSize → (symbolsOfLength codeSizes l)[k]? = some s →
        p.2[firstIndex codeSizes l + k]? = some s) refused := by
  refine (outcome_foldlM_range (fun i p => p.1.length = maximumCodeSize + 1 ∧
    codeSizes.length ≤ p.2.length ∧
    (∀ l, 0 < l → l ≤ maximumCodeSize →
      p.1[l]? = some (firstIndex codeSizes l + (codeSizes.take i).count l)) ∧
    ∀ l k s, 0 < l → l ≤ maximumCodeSize → (symbolsOfLength (codeSizes.take i) l)[k]? = some s →
      p.2[firstIndex codeSizes l + k]? = some s) ?_ ?_).mono ?_ id
  · exact ⟨length, room, by simpa using starts, by simp [symbolsOfLength]⟩
  · rintro i ⟨offsets, symbols⟩ inside ⟨length, room, next, placed⟩
    simp only at length room next placed
    have last : codeSizes[i]? = some codeSizes[i] := List.getElem?_eq_getElem inside
    have before : (codeSizes.take i).length = i := by simp; omega
    have rankLess := count_take_lt last
    have small := bounded _ (List.getElem_mem inside)
    simp only [load_of_lt inside, bind, Except.bind]
    split_ifs with unused
    · refine ⟨length, room, fun l lower upper => ?_, fun l k s lower upper found => ?_⟩
      · rw [take_succ_of_lt inside, List.count_append, List.count_singleton, unused]
        simpa [lower.ne] using next l lower upper
      · rw [take_succ_of_lt inside, symbolsOfLength_snoc, if_neg (by omega), List.append_nil] at found
        exact placed l k s lower upper found
    · have found : offsets[codeSizes[i]]? = some _ := next _ (by omega) small
      have within := symbolPosition_le codeSizes (show 0 < codeSizes[i] by omega)
      simp only [load_of_getElem? found]
      rw [if_neg (by omega), store_of_lt _ (by omega), store_of_lt _ (by omega)]
      refine ⟨by simpa using length, by simpa using room, fun l lower upper => ?_,
        fun l k s lower upper found => ?_⟩
      · rw [take_succ_of_lt inside, List.count_append, List.count_singleton, List.getElem?_set]
        by_cases same : codeSizes[i] = l
        · subst same
          simp [show codeSizes[i] < offsets.length by omega, Nat.add_assoc]
        · simp [same, next l lower upper]
      · rw [take_succ_of_lt inside, symbolsOfLength_snoc, before] at found
        rw [List.getElem?_set]
        by_cases earlier : k < (codeSizes.take i).count l
        · have apart := symbolPosition_ne codeSizes (i := i) (by omega) lower earlier rankLess
          rw [List.getElem?_append_left (by rwa [symbolsOfLength_length])] at found
          rw [if_neg apart.symm]
          exact placed l k s lower upper found
        · rw [List.getElem?_append_right (by rw [symbolsOfLength_length]; omega),
            symbolsOfLength_length] at found
          by_cases same : codeSizes[i] = l
          · subst same
            rw [if_pos rfl] at found
            obtain ⟨single, value⟩ := List.getElem?_eq_some_iff.mp found
            simp only [List.length_singleton, Nat.lt_one_iff] at single
            have k_eq : k = (codeSizes.take i).count codeSizes[i] := by omega
            simp only [List.getElem_singleton] at value
            rw [k_eq, if_pos rfl, if_pos (by omega), value]
          · simp [same] at found
  · intro p held
    rw [List.take_length] at held
    exact held.2.2.2

theorem build_outcome {tree : HuffmanTree} {codeSizes : List Nat} (positive : 0 < tree.maximumCodeSize)
    (few : codeSizes.length ≤ int16Max) (room : codeSizes.length ≤ tree.symbols.length) :
    Outcome (tree.build codeSizes)
      (fun built => Acceptable tree.maximumCodeSize codeSizes ∧
        match built with
        | none => ∀ codeSize ∈ codeSizes, codeSize = 0
        | some built => (∃ codeSize ∈ codeSizes, codeSize ≠ 0) ∧ built.Represents codeSizes ∧
            built.maximumCodeSize = tree.maximumCodeSize)
      (¬Acceptable tree.maximumCodeSize codeSizes) := by
  rw [build, if_neg (by omega), if_neg (by omega)]
  refine Outcome.bind ((countCodeSizes_outcome _ codeSizes).mono (fun _ h => h)
    (fun large acceptable => large acceptable.1)) ?_
  rintro counts ⟨bounded, counted⟩
  rw [load_of_getElem? (counted 0 (Nat.zero_le _)), ok_bind]
  split_ifs with empty
  · have zeros : ∀ codeSize ∈ codeSizes, codeSize = 0 := fun codeSize member =>
      (List.count_eq_length.mp empty codeSize member).symm
    refine ⟨⟨bounded, ?_⟩, zeros⟩
    rw [codesUsed_eq_kraftSum bounded, kraftSum, List.filter_eq_nil_iff.mpr (by simpa using zeros)]
    simp
  · refine Outcome.bind ((checkLeftValue_outcome counted).mono (fun _ h => h)
      (fun excess acceptable => excess acceptable.2)) fun _ fit => ?_
    refine Outcome.bind (symbolOffsets_outcome positive counted) ?_
    rintro offsets ⟨length, starts⟩
    refine Outcome.bind (fillSymbols_outcome bounded room length starts) fun p placed => ?_
    refine ⟨⟨bounded, fit⟩, ?_, ⟨fun l _ upper => counted l upper, placed⟩, rfl⟩
    by_contra none
    push Not at none
    exact empty (List.count_eq_length.mpr fun codeSize member => (none codeSize member).symm)

theorem getSymbolLoop_decodes {good : BitStream → Prop} {view : BitStream → List Bool}
    (bits : ∀ stream, good stream → Outcome (BitStream.getValue 1 stream)
      (fun p => takeBits 1 (view stream) = some (p.1, view p.2) ∧ good p.2) (takeBits 1 (view stream) = none))
    {tree : HuffmanTree} {codeSizes : List Nat} (represents : tree.Represents codeSizes) (remaining l : Nat)
    (code : Nat) (limit : l + remaining = tree.maximumCodeSize) (free : codesUsed codeSizes l ≤ code)
    {stream : BitStream} (held : good stream) :
    Outcome (tree.getSymbolLoop remaining (l + 1) code (firstCode codeSizes (l + 1))
        (firstIndex codeSizes (l + 1)) stream)
      (fun p => decodeFrom codeSizes remaining l code (view stream) = some (p.1, view p.2) ∧ good p.2)
      (decodeFrom codeSizes remaining l code (view stream) = none) := by
  induction remaining generalizing l code stream with
  | zero => exact rfl
  | succ remaining ih =>
      refine Outcome.bind ((bits stream held).mono (fun _ h => h) fun rejected => ?_) ?_
      · exact bind_of_none rejected
      rintro ⟨value, after⟩ ⟨read, held⟩
      dsimp only at read held ⊢
      rw [decodeFrom, bind_of_some read]
      have used := codesUsed_succ codeSizes l
      have first := firstCode_succ codeSizes l
      have index := firstIndex_succ codeSizes (l + 1) (by omega)
      rw [BitStream.lift_ok_bind (load_of_getElem? (represents.counts (l + 1) (by omega) (by omega)))]
      by_cases short : 2 * code + value < codesUsed codeSizes (l + 1)
      · have inside : 2 * code + value - firstCode codeSizes (l + 1) <
            (symbolsOfLength codeSizes (l + 1)).length := by
          rw [symbolsOfLength_length]
          omega
        have placed := represents.symbols (l + 1) _ _ (by omega) (by omega)
          (List.getElem?_eq_getElem inside)
        have position : (firstIndex codeSizes (l + 1) + (2 * (code : Int) + value -
            firstCode codeSizes (l + 1))).toNat = firstIndex codeSizes (l + 1) +
              (2 * code + value - firstCode codeSizes (l + 1)) := by omega
        rw [if_pos (by omega), if_pos short, List.getElem?_eq_getElem inside,
          BitStream.lift_ok (by
            rw [symbolAt, if_neg (by omega), position, load_of_getElem? placed])]
        exact ⟨rfl, held⟩
      · rw [if_neg (by omega), if_neg short]
        have next := ih (l + 1) (2 * code + value) (by omega) (by omega) held
        have firstNext : ((firstCode codeSizes (l + 1 + 1) : Nat) : Int) =
            2 * (firstCode codeSizes (l + 1) + codeSizes.count (l + 1) : Int) := by
          rw [firstCode_succ]
          omega
        rw [firstNext, index] at next
        push_cast at next
        exact next

theorem getSymbol_simulates {tree : HuffmanTree} {codeSizes : List Nat}
    (represents : tree.Represents codeSizes) {stream : BitStream} (buffered : stream.Buffered) :
    BitStream.Simulates Eq (tree.getSymbolFromBitStream stream)
      (decodeSymbol codeSizes tree.maximumCodeSize stream.bits) := by
  have bits : ∀ stream : BitStream, stream.Buffered → Outcome (BitStream.getValue 1 stream)
      (fun p => takeBits 1 stream.bits = some (p.1, p.2.bits) ∧ p.2.Buffered) (takeBits 1 stream.bits = none) := by
    intro stream buffered
    refine (BitStream.getValue_simulates buffered (Or.inl (by omega))).mono (fun p read => ?_) fun rejected => rejected
    obtain ⟨_, taken, rfl, buffered⟩ := read
    exact ⟨taken, buffered⟩
  refine (getSymbolLoop_decodes bits represents tree.maximumCodeSize 0 0 (by omega) (by simp) buffered).mono ?_ ?_
  · exact fun p read => ⟨p.1, read.1, rfl, read.2⟩
  · exact fun rejected => rejected

end HuffmanTree
end Fsapfs
