import Fsapfs.Deflate.Tokens

namespace Fsapfs.Deflate
open Program Coding

variable {phase : Nat}

theorem reads_foldlM_range {α : Type} {step : α → Nat → BitReader α} {code : Nat → List Bool}
    (states : Nat → α) (n : Nat)
    (advance : ∀ i phase, i < n → Reads phase (step (states i) i) (code i) (some (states (i + 1)))) :
    Reads phase ((List.range n).foldlM step (states 0)) ((List.range n).flatMap code)
      (some (states n)) := by
  induction n generalizing phase with
  | zero => exact Reads.pure _ _
  | succ n ih =>
      rw [List.range_succ, List.foldlM_append, List.flatMap_append]
      refine (ih fun i phase less => advance i phase (Nat.lt_succ_of_lt less)).bind ?_
      simpa using advance n _ (Nat.lt_succ_self n)

/-- The code lengths after the first `n` of them are stored, in their order in the header. -/
def storedSizes (lengths : List Nat) (n : Nat) : List Nat :=
  (List.range n).foldl (fun sizes index =>
    sizes.set (codeSizesSequence.getD index 0) (lengths.getD (codeSizesSequence.getD index 0) 0))
    (List.replicate 19 0)

theorem storedSizes_succ (lengths : List Nat) (n : Nat) :
    storedSizes lengths (n + 1) = (storedSizes lengths n).set (codeSizesSequence.getD n 0)
      (lengths.getD (codeSizesSequence.getD n 0) 0) := by
  rw [storedSizes, List.range_succ, List.foldl_append]
  rfl

theorem storedSizes_length (lengths : List Nat) (n : Nat) : (storedSizes lengths n).length = 19 := by
  induction n with
  | zero => exact List.length_replicate
  | succ n ih => rw [storedSizes_succ, List.length_set, ih]

theorem storedSizes_getElem? {lengths : List Nat} {n s : Nat} (small : s < 19)
    (reached : ∃ i < n, codeSizesSequence.getD i 0 = s) :
    (storedSizes lengths n)[s]? = some (lengths.getD s 0) := by
  induction n with
  | zero => simp at reached
  | succ n ih =>
      rw [storedSizes_succ, List.getElem?_set, storedSizes_length]
      by_cases here : codeSizesSequence.getD n 0 = s
      · rw [if_pos here, here, if_pos small]
      · rw [if_neg here]
        obtain ⟨i, less, found⟩ := reached
        refine ih ⟨i, ?_, found⟩
        rcases Nat.lt_succ_iff_lt_or_eq.mp less with before | same
        · exact before
        · exact absurd (same ▸ found) here

theorem storedSizes_all {lengths : List Nat} (length : lengths.length = 19) :
    storedSizes lengths 19 = lengths := by
  have complete : ∀ s < 19, ∃ i < 19, codeSizesSequence.getD i 0 = s := by decide
  apply List.ext_getElem?
  intro s
  by_cases small : s < 19
  · rw [storedSizes_getElem? small (complete s small), List.getElem?_eq_getElem (by omega),
      List.getD_eq_getElem _ _ (by omega)]
  · rw [List.getElem?_eq_none (by rw [storedSizes_length]; omega), List.getElem?_eq_none (by omega)]

theorem clearedSizes_stored {lengths : List Nat} {n : Nat} (length : lengths.length = 19) (few : n ≤ 19)
    (omitted : ∀ i, n ≤ i → i < 19 → lengths.getD (codeSizesSequence.getD i 0) 0 = 0) :
    clearedSizes n (storedSizes lengths n) = lengths := by
  have cleared : ∀ k, n + k ≤ 19 → (List.range k).foldl (fun sizes index =>
      sizes.set (codeSizesSequence.getD (n + index) 0) 0) (storedSizes lengths n) =
        storedSizes lengths (n + k) := by
    intro k
    induction k with
    | zero => exact fun _ => rfl
    | succ k ih =>
        intro within
        rw [List.range_succ, List.foldl_append, ih (by omega), ← Nat.add_assoc, storedSizes_succ,
          omitted (n + k) (by omega) (by omega)]
        rfl
  rw [clearedSizes, cleared _ (by omega), Nat.add_sub_cancel' few, storedSizes_all length]

theorem take_eq_map_range {xs : List Nat} {n : Nat} (few : n ≤ xs.length) :
    xs.take n = (List.range n).map fun i => xs.getD i 0 := by
  apply List.ext_getElem (by simp [few])
  intro i left right
  have inside : i < xs.length := by simp at left; omega
  simp [List.getElem_take, List.getElem?_eq_getElem inside]

theorem reads_codeLengthValues {lengths : List Nat} {n : Nat} (few : n ≤ 19)
    (narrow : ∀ l ∈ lengths, l < 8) :
    Reads phase (codeLengthValues n)
      ((codeLengthOrder.take n).flatMap fun s => natBits 3 (lengths.getD s 0))
      (some (storedSizes lengths n)) := by
  rw [take_eq_map_range few, List.flatMap_map]
  refine reads_foldlM_range (storedSizes lengths) n fun i phase less => ?_
  refine (reads_natBits _ 3 _ ?_).bind_last ?_
  · rw [List.getD_eq_getElem?_getD]
    cases found : lengths[codeLengthOrder.getD i 0]? with
    | none => simp
    | some l => exact narrow l (List.mem_of_getElem? found)
  · rw [storedSizes_succ]
    exact Reads.pure _ _

theorem Run.expand_length {run : Run} {sizes middle : List Nat} (expands : run.expand sizes = some middle) :
    sizes.length < middle.length := by
  cases run with
  | length value =>
      cases expands
      simp
  | previous extra =>
      obtain ⟨_, _, rfl⟩ := Option.map_eq_some_iff.mp expands
      simp
  | zeros extra =>
      cases expands
      simp
  | manyZeros extra =>
      cases expands
      simp

theorem expandRuns_length {runs : List Run} {sizes final : List Nat}
    (expands : expandRuns sizes runs = some final) : sizes.length + runs.length ≤ final.length := by
  induction runs generalizing sizes with
  | nil => exact (congrArg List.length (Option.some.inj expands)).le
  | cons run runs ih =>
      obtain ⟨middle, first, rest⟩ := Option.bind_eq_some_iff.mp expands
      have longer := Run.expand_length first
      have later := ih rest
      rw [List.length_cons]
      omega

theorem reads_times (n k v : Nat) (extra : Fin (2 ^ n)) :
    Reads phase (takeBits n >>= fun times => (pure (v, times + k) : BitReader (Nat × Nat)))
      (natBits n extra) (some (v, extra + k)) :=
  (reads_natBits phase n extra extra.isLt).bind_last (Reads.pure _ _)

theorem symbolSizes_run {codes : CodeLengths} {total fuel : Nat} {run : Run} {sizes middle : List Nat}
    {code : List Bool} {value : Option (List Nat)} (used : codes.lengths.getD run.symbol 0 ≠ 0)
    (expands : run.expand sizes = some middle) (within : middle.length ≤ total)
    (rest : ∀ phase, Reads phase (symbolSizes codes.lengths total fuel middle) code value) :
    Reads phase (symbolSizes codes.lengths total (fuel + 1) sizes) (run.code codes.lengths ++ code)
      value := by
  have longer := Run.expand_length expands
  rw [symbolSizes, if_pos (by omega), Run.code, List.append_assoc]
  refine (reads_codeword codes used).bind ?_
  have repeated {size times : Nat} (eq : middle = sizes ++ List.replicate times size)
      (large : ¬run.symbol < 16)
      (read : ∀ phase, Reads phase (repetition sizes run.symbol) run.extraBits (some (size, times))) :
      Reads (phase + (codeword codes.lengths run.symbol).length)
        (if run.symbol < 16 then symbolSizes codes.lengths total fuel (sizes ++ [run.symbol])
        else repetition sizes run.symbol >>= fun repeated =>
          if sizes.length + repeated.2 > total then reject
          else symbolSizes codes.lengths total fuel (sizes ++ List.replicate repeated.2 repeated.1))
        (run.extraBits ++ code) value := by
    subst eq
    rw [List.length_append, List.length_replicate] at within
    rw [if_neg large]
    refine (read _).bind ?_
    dsimp only
    rw [if_neg (by omega)]
    exact rest _
  cases run with
  | length size =>
      cases expands
      rw [Run.symbol, if_pos size.isLt]
      exact rest _
  | previous extra =>
      obtain ⟨size, last, rfl⟩ := Option.map_eq_some_iff.mp expands
      refine repeated rfl (by simp [Run.symbol]) fun phase => ?_
      exact Reads.offer_bind last (reads_times 2 3 size extra)
  | zeros extra =>
      cases expands
      exact repeated rfl (by simp [Run.symbol]) fun phase => reads_times 3 3 0 extra
  | manyZeros extra =>
      cases expands
      exact repeated rfl (by simp [Run.symbol]) fun phase => reads_times 7 11 0 extra

theorem symbolSizes_reads {codes : CodeLengths} {runs : List Run} {sizes final : List Nat} {fuel : Nat}
    (used : ∀ run ∈ runs, codes.lengths.getD run.symbol 0 ≠ 0) (enough : runs.length < fuel)
    (expands : expandRuns sizes runs = some final) :
    Reads phase (symbolSizes codes.lengths final.length fuel sizes)
      (runs.flatMap (Run.code codes.lengths)) (some final) := by
  induction runs generalizing sizes fuel phase with
  | nil =>
      obtain ⟨fuel, rfl⟩ : ∃ n, fuel = n + 1 := ⟨fuel - 1, by omega⟩
      cases expands
      rw [symbolSizes, if_neg (lt_irrefl _)]
      exact Reads.pure _ _
  | cons run runs ih =>
      obtain ⟨fuel, rfl⟩ : ∃ n, fuel = n + 1 := ⟨fuel - 1, by omega⟩
      obtain ⟨middle, first, rest⟩ := Option.bind_eq_some_iff.mp expands
      have later := expandRuns_length rest
      refine symbolSizes_run (used run List.mem_cons_self) first (by omega) fun phase => ?_
      exact ih (fun run member => used run (List.mem_cons_of_mem _ member)) (by simp at enough; omega) rest

/-- What the decompressor requires of a dynamic block beyond the format. -/
def DynamicHeader.Supported (header : DynamicHeader) : Prop :=
  header.distances.lengths.length ≤ 30 ∧ ∃ l ∈ header.distances.lengths, l ≠ 0

instance (header : DynamicHeader) : Decidable header.Supported := inferInstanceAs (Decidable (_ ∧ _))

theorem usable_codeLengths (header : DynamicHeader) : Usable header.codeLengths.lengths := by
  have described := header.described
  have range := header.literalRange
  cases runs : header.runs with
  | nil =>
      rw [runs] at described
      have lengths := congrArg List.length (Option.some.inj described)
      rw [List.length_append, List.length_nil] at lengths
      omega
  | cons run rest => exact usable_of_getD _ (header.codable run (by simp [runs]))

theorem DynamicHeader.fields (header : DynamicHeader) :
    natBits 5 (header.literals.lengths.length - 257) ++
      natBits 5 (header.distances.lengths.length - 1) ++ natBits 4 (header.transmitted - 4) =
    natBits 14 (header.literals.lengths.length - 257 + 2 ^ 5 *
      (header.distances.lengths.length - 1 + 2 ^ 5 * (header.transmitted - 4))) := by
  have literalRange := header.literalRange
  have distanceRange := header.distanceRange
  rw [natBits_add_mul 5 9 _ _ (by omega), natBits_add_mul 5 4 _ _ (by omega), List.append_assoc]

theorem reads_sizesAfterHeader (header : DynamicHeader) :
    Reads phase (sizesAfterHeader header.literals.lengths.length header.distances.lengths.length
        header.transmitted)
      ((codeLengthOrder.take header.transmitted).flatMap
          (fun s => natBits 3 (header.codeLengths.lengths.getD s 0)) ++
        header.runs.flatMap (Run.code header.codeLengths.lengths))
      (if ∃ l ∈ header.distances.lengths, l ≠ 0 then
        some (header.literals.lengths, header.distances.lengths) else none) := by
  have literalRange := header.literalRange
  have runsFew := expandRuns_length header.described
  rw [List.length_nil, Nat.zero_add, List.length_append] at runsFew
  have cleared : clearedSizes header.transmitted
      (storedSizes header.codeLengths.lengths header.transmitted) = header.codeLengths.lengths := by
    refine clearedSizes_stored header.nineteen header.transmittedRange.2 fun i lower upper => ?_
    refine header.omitted _ (List.mem_of_getElem? (i := i - header.transmitted) ?_)
    rw [List.getElem?_drop, Nat.add_sub_cancel' lower, List.getElem?_eq_getElem (by exact upper),
      List.getD_eq_getElem _ _ (by exact upper)]
    rfl
  refine (reads_codeLengthValues header.transmittedRange.2 header.narrow).bind ?_
  rw [cleared]
  refine Reads.require_bind (usable_codeLengths header) ?_
  rw [← List.length_append] at runsFew ⊢
  refine (symbolSizes_reads header.codable (by omega) header.described).bind_last ?_
  have endOfBlock : (header.literals.lengths ++ header.distances.lengths).getD 256 0 ≠ 0 := by
    rw [List.getD_append _ _ _ _ (by omega)]
    exact header.endOfBlock
  rw [if_neg endOfBlock, List.take_left' rfl, List.drop_left' rfl]
  refine Reads.require_bind (usable_of_getD _ header.endOfBlock) ?_
  by_cases used : ∃ l ∈ header.distances.lengths, l ≠ 0
  · rw [if_pos used]
    exact Reads.require_bind ((usable_iff header.distances).mpr used) (Reads.pure _ _)
  · rw [if_neg used]
    exact Reads.require_none (fun usable => used usable.2) _

theorem reads_dynamicSizes (phase : Nat) (header : DynamicHeader) :
    Reads phase dynamicSizes header.code
      (if header.Supported then some (header.literals.lengths, header.distances.lengths) else none) := by
  have literalRange := header.literalRange
  have distanceRange := header.distanceRange
  have transmittedRange := header.transmittedRange
  rw [DynamicHeader.code, header.fields, List.append_assoc]
  refine (reads_natBits phase 14 _ (by omega)).bind ?_
  have literals : (header.literals.lengths.length - 257 + 2 ^ 5 * (header.distances.lengths.length - 1 +
      2 ^ 5 * (header.transmitted - 4))) % 32 + 257 = header.literals.lengths.length := by omega
  have distances : (header.literals.lengths.length - 257 + 2 ^ 5 * (header.distances.lengths.length - 1 +
      2 ^ 5 * (header.transmitted - 4))) >>> 5 % 32 + 1 = header.distances.lengths.length := by
    rw [Nat.shiftRight_eq_div_pow]
    omega
  have transmitted : (header.literals.lengths.length - 257 + 2 ^ 5 * (header.distances.lengths.length - 1 +
      2 ^ 5 * (header.transmitted - 4))) >>> 10 + 4 = header.transmitted := by
    rw [Nat.shiftRight_eq_div_pow]
    omega
  rw [literals, distances, transmitted, if_neg (by omega)]
  by_cases many : header.distances.lengths.length > 30
  · rw [if_pos many, if_neg (fun supported => by have := supported.1; omega)]
    exact Reads.reject _ _
  · rw [if_neg many]
    have within : header.distances.lengths.length ≤ 30 := by omega
    simpa only [DynamicHeader.Supported, within, true_and] using reads_sizesAfterHeader header

end Fsapfs.Deflate
