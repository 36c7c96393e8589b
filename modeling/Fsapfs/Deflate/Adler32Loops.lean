import Fsapfs.Deflate.Adler32Sums

/-! The loops of the calculation as they stand, on values that must fit in 32 bits. -/

namespace Fsapfs.Deflate
open Program

/-- A 32-bit value, undefined where the number does not fit. -/
def exactly (value : Nat) : Result Nat :=
  if value < 2 ^ 32 then .ok value else .error .undefined

def difference (value value' : Nat) : Result Nat :=
  if value' ≤ value then .ok (value - value') else .error .undefined

def repeatSteps {σ : Type} (step : σ → Result σ) : Nat → σ → Result σ
  | 0, s => .ok s
  | n + 1, s => step s >>= repeatSteps step n

structure AdlerLoop extends AdlerWords where
  dataOffset : Nat

def addNext (data : List UInt8) (loop : AdlerLoop) : Result AdlerLoop := do
  let byte ← load data loop.dataOffset
  let lowerWord ← exactly (loop.lowerWord + byte.toNat)
  let upperWord ← exactly (loop.upperWord + lowerWord)
  .ok ⟨⟨lowerWord, upperWord⟩, loop.dataOffset + 1⟩

def addSixteen (data : List UInt8) : AdlerLoop → Result AdlerLoop :=
  repeatSteps (addNext data) 16

def foldExactly (word : Nat) : Result Nat := do
  let shifted ← exactly ((word >>> 16) <<< 4)
  let reduced ← difference shifted (word >>> 16)
  exactly (word % 65536 + reduced)

def foldAgain (word : Nat) : Result Nat :=
  if word > 65521 then foldExactly word else .ok word

def subtractModulus (word : Nat) : Result Nat :=
  if word ≥ 65521 then difference word 65521 else .ok word

def reduceExactly (word : Nat) : Result Nat := do
  let word ← foldExactly word
  let word ← foldAgain word
  subtractModulus word

def reduceLoop (loop : AdlerLoop) : Result AdlerLoop := do
  let lowerWord ← reduceExactly loop.lowerWord
  let upperWord ← reduceExactly loop.upperWord
  .ok ⟨⟨lowerWord, upperWord⟩, loop.dataOffset⟩

def blockLoop (data : List UInt8) : Nat → Nat → AdlerLoop → Result (Nat × AdlerLoop)
  | 0, _, _ => .error .unfinished
  | fuel + 1, dataSize, loop =>
      if dataSize ≥ 0x15b0 then do
        let loop ← repeatSteps (addSixteen data) 347 loop
        let loop ← reduceLoop loop
        blockLoop data fuel (dataSize - 0x15b0) loop
      else .ok (dataSize, loop)

def sixteenLoop (data : List UInt8) : Nat → Nat → AdlerLoop → Result (Nat × AdlerLoop)
  | 0, _, _ => .error .unfinished
  | fuel + 1, dataSize, loop =>
      if dataSize > 16 then do
        let loop ← addSixteen data loop
        sixteenLoop data fuel (dataSize - 16) loop
      else .ok (dataSize, loop)

def addRest (data : List UInt8) (dataSize : Nat) (loop : AdlerLoop) : Result AdlerLoop :=
  if dataSize > 0 then do
    let (dataSize, loop) ← sixteenLoop data (dataSize + 1) dataSize loop
    let loop ← repeatSteps (addNext data) dataSize loop
    reduceLoop loop
  else .ok loop

/-- The calculation, undefined where a value of 32 bits would overflow or a byte outside the data would be read. -/
def calculateAdler32Exactly (data : List UInt8) (initialValue : Nat) : Result Nat :=
  if data.length > ssizeMax then fail .valueExceedsMaximum
  else do
    let (dataSize, loop) ← blockLoop data (data.length + 1) data.length ⟨unpack initialValue, 0⟩
    let loop ← addRest data dataSize loop
    let upperWord ← exactly (loop.upperWord <<< 16)
    .ok (upperWord ||| loop.lowerWord)

theorem exactly_ok {value : Nat} (small : value < 2 ^ 32) : exactly value = .ok value := if_pos small

theorem difference_ok {value value' : Nat} (less : value' ≤ value) : difference value value' = .ok (value - value') :=
  if_pos less

section repeat_steps

variable {σ : Type} (step : σ → Result σ)

theorem repeatSteps_add (m n : Nat) (s : σ) :
    repeatSteps step (m + n) s = repeatSteps step m s >>= repeatSteps step n := by
  induction m generalizing s with
  | zero => rw [Nat.zero_add]; rfl
  | succ m ih =>
      rw [Nat.succ_add, repeatSteps, repeatSteps]
      cases step s with
      | error failure => rfl
      | ok s' => exact ih s'

theorem repeatSteps_mul (m n : Nat) (s : σ) : repeatSteps (repeatSteps step n) m s = repeatSteps step (m * n) s := by
  induction m generalizing s with
  | zero => rw [Nat.zero_mul]; rfl
  | succ m ih =>
      rw [Nat.succ_mul, Nat.add_comm (m * n) n, repeatSteps_add step n]
      change (repeatSteps step n s >>= repeatSteps (repeatSteps step n) m) = _
      cases repeatSteps step n s with
      | error failure => rfl
      | ok s' => exact ih s'

end repeat_steps

theorem repeatSteps_addNext {words : AdlerWords} {front block back : List UInt8}
    (lower : lowerSum words.lowerWord block < 2 ^ 32)
    (upper : upperSum words.lowerWord words.upperWord block < 2 ^ 32) :
    repeatSteps (addNext (front ++ block ++ back)) block.length ⟨words, front.length⟩ =
      .ok ⟨⟨lowerSum words.lowerWord block, upperSum words.lowerWord words.upperWord block⟩,
        (front ++ block).length⟩ := by
  induction block generalizing words front with
  | nil => simp [repeatSteps]
  | cons byte block ih =>
      rw [lowerSum_cons] at lower ⊢
      rw [upperSum_cons] at upper ⊢
      have here := exactly_ok ((le_lowerSum _ _).trans_lt lower)
      have there := exactly_ok ((le_upperSum _ _ _).trans_lt upper)
      have read : load (ε := ErrorCode) (front ++ byte :: block ++ back) front.length = .ok byte :=
        load_of_getElem? (by simp)
      have next : addNext (front ++ byte :: block ++ back) ⟨words, front.length⟩ =
          .ok ⟨⟨words.lowerWord + byte.toNat, words.upperWord + (words.lowerWord + byte.toNat)⟩,
            (front ++ [byte]).length⟩ := by
        simp only [addNext, read, here, there, ok_bind, List.length_append, List.length_singleton]
      have rest := @ih ⟨words.lowerWord + byte.toNat, words.upperWord + (words.lowerWord + byte.toNat)⟩
        (front ++ [byte]) lower upper
      simp only [List.append_assoc, List.cons_append, List.nil_append] at rest next ⊢
      rw [List.length_cons, repeatSteps, next, ok_bind]
      exact rest

theorem foldExactly_ok {word : Nat} (small : word < 2 ^ 32) :
    foldExactly word = .ok (word % 65536 + 15 * (word / 65536)) := by
  have shifted : (word >>> 16) <<< 4 = 16 * (word / 65536) := by
    rw [Nat.shiftLeft_eq, Nat.shiftRight_eq_div_pow, Nat.mul_comm]
  rw [foldExactly, shifted, Nat.shiftRight_eq_div_pow, exactly_ok (by omega), ok_bind, difference_ok (by omega), ok_bind,
    exactly_ok (by omega)]
  congr 1
  omega

theorem subtractModulus_ok {word : Nat} (small : word < 2 * 65521) : subtractModulus word = .ok (word % 65521) := by
  rw [subtractModulus]
  split_ifs with excess
  · rw [difference_ok excess, Nat.mod_eq_sub_mod excess, Nat.mod_eq_of_lt (by omega)]
  · rw [Nat.mod_eq_of_lt (Nat.not_le.mp excess)]

theorem reduceExactly_ok {word : Nat} (small : word < 2 ^ 32) : reduceExactly word = .ok (word % 65521) := by
  rw [reduceExactly, foldExactly_ok small, ok_bind, foldAgain]
  split_ifs with wide
  · rw [foldExactly_ok (by omega), ok_bind, subtractModulus_ok (by omega)]
    exact congrArg Except.ok (by omega)
  · rw [ok_bind, subtractModulus_ok (by omega)]
    exact congrArg Except.ok (by omega)

theorem addBlock_ok {words : AdlerWords} (reduced : words.Reduced) {front block back : List UInt8}
    (short : block.length ≤ 0x15b0) :
    (repeatSteps (addNext (front ++ block ++ back)) block.length ⟨words, front.length⟩ >>= reduceLoop) =
      .ok ⟨adler words block, (front ++ block).length⟩ := by
  obtain ⟨lower, upper⟩ := reduced.fits short
  rw [repeatSteps_addNext lower upper, ok_bind, reduceLoop, reduceExactly_ok lower, ok_bind, reduceExactly_ok upper]
  rfl

theorem blockLoop_ok {fuel : Nat} {words : AdlerWords} (reduced : words.Reduced) {front data : List UInt8}
    (enough : data.length < fuel) : ∃ middle back, data = middle ++ back ∧ back.length < 0x15b0 ∧
      blockLoop (front ++ data) fuel data.length ⟨words, front.length⟩ =
        .ok (back.length, ⟨adler words middle, (front ++ middle).length⟩) := by
  induction fuel generalizing words front data with
  | zero => exact absurd enough (Nat.not_lt_zero _)
  | succ fuel ih =>
      rw [blockLoop]
      split_ifs with whole
      · obtain ⟨block, rest, rfl, length⟩ : ∃ block rest, data = block ++ rest ∧ block.length = 0x15b0 :=
          ⟨data.take 0x15b0, data.drop 0x15b0, (List.take_append_drop _ _).symm, List.length_take_of_le whole⟩
        have size : (block ++ rest).length - 0x15b0 = rest.length := by
          rw [List.length_append, length, Nat.add_sub_cancel_left]
        obtain ⟨middle, back, rfl, small, run⟩ := @ih (adler words block) (adler_reduced words block) (front ++ block)
          rest (by rw [List.length_append] at enough; omega)
        have added := @addBlock_ok words reduced front block (middle ++ back) length.le
        obtain ⟨added, first, second⟩ := bind_eq_ok.mp added
        have sixteens : repeatSteps (addSixteen (front ++ (block ++ (middle ++ back)))) 347 ⟨words, front.length⟩ =
            .ok added := by
          rw [addSixteen, repeatSteps_mul, ← List.append_assoc, ← first, length]
        refine ⟨block ++ middle, back, by rw [List.append_assoc], small, ?_⟩
        rw [sixteens, ok_bind, second, ok_bind, size, adler_append, ← List.append_assoc, run, List.append_assoc front]
      · exact ⟨[], data, rfl, Nat.not_le.mp whole, by rw [reduced.adler_nil, List.append_nil]⟩

theorem sixteenLoop_ok {data : List UInt8} {fuel dataSize : Nat} {loop loop' : AdlerLoop} (enough : dataSize < fuel)
    (added : repeatSteps (addNext data) dataSize loop = .ok loop') : ∃ dataSize' middle,
      sixteenLoop data fuel dataSize loop = .ok (dataSize', middle) ∧
      repeatSteps (addNext data) dataSize' middle = .ok loop' := by
  induction fuel generalizing dataSize loop with
  | zero => exact absurd enough (Nat.not_lt_zero _)
  | succ fuel ih =>
      rw [sixteenLoop]
      split_ifs with more
      · obtain ⟨dataSize, rfl⟩ : ∃ n, dataSize = 16 + n := ⟨dataSize - 16, by omega⟩
        rw [repeatSteps_add] at added
        obtain ⟨middle, first, rest⟩ := bind_eq_ok.mp added
        have sixteen : addSixteen data loop = .ok middle := first
        rw [sixteen, ok_bind, Nat.add_sub_cancel_left]
        exact ih (by omega) rest
      · exact ⟨dataSize, loop, rfl, added⟩

theorem addRest_ok {words : AdlerWords} (reduced : words.Reduced) {front back : List UInt8}
    (short : back.length < 0x15b0) :
    addRest (front ++ back) back.length ⟨words, front.length⟩ = .ok ⟨adler words back, (front ++ back).length⟩ := by
  rw [addRest]
  split_ifs with more
  · have added := @addBlock_ok words reduced front back [] short.le
    rw [List.append_nil] at added
    obtain ⟨loop, first, second⟩ := bind_eq_ok.mp added
    obtain ⟨dataSize, middle, rows, rest⟩ := sixteenLoop_ok (Nat.lt_succ_self back.length) first
    rw [rows, ok_bind]
    change (repeatSteps (addNext (front ++ back)) dataSize middle >>= reduceLoop) = _
    rw [rest, ok_bind, second]
  · obtain rfl := List.length_eq_zero_iff.mp (Nat.eq_zero_of_not_pos more)
    rw [reduced.adler_nil, List.append_nil]

theorem calculateAdler32Exactly_ok {data : List UInt8} (size : data.length ≤ ssizeMax) {initialValue : Nat}
    (reduced : (unpack initialValue).Reduced) :
    calculateAdler32Exactly data initialValue = .ok (pack (adler (unpack initialValue) data)) := by
  obtain ⟨front, back, rfl, small, blocks⟩ := @blockLoop_ok (data.length + 1) _ reduced [] data (Nat.lt_succ_self _)
  have rest := @addRest_ok _ (adler_reduced (unpack initialValue) front) front back small
  have upper := (adler_reduced (unpack initialValue) (front ++ back)).upper
  have shifted : (adler (unpack initialValue) (front ++ back)).upperWord <<< 16 < 2 ^ 32 := by
    rw [Nat.shiftLeft_eq]
    omega
  rw [calculateAdler32Exactly, if_neg (Nat.not_lt.mpr size)]
  simp only [List.nil_append, List.length_nil] at blocks
  rw [blocks, ok_bind]
  dsimp only
  rw [rest, ok_bind, ← adler_append]
  dsimp only
  rw [exactly_ok shifted]
  rfl

/-- The checksum is Adler-32 by its definition, computed without overflow, and of data in parts the checksum of the
last part from that of the first. -/
theorem calculateAdler32_eq {data : List UInt8} (size : data.length ≤ ssizeMax) {initialValue : Nat}
    (lower : initialValue % 65536 < 65521) (upper : initialValue / 65536 < 65521) :
    calculateAdler32 data initialValue =
        .ok ((upperSum (initialValue % 65536) (initialValue / 65536) data % 65521) <<< 16 |||
          lowerSum (initialValue % 65536) data % 65521) ∧
      calculateAdler32Exactly data initialValue = calculateAdler32 data initialValue ∧
      ∀ front back, data = front ++ back → ∃ middle, calculateAdler32 front initialValue = .ok middle ∧
        calculateAdler32 back middle = calculateAdler32 data initialValue := by
  have words : unpack initialValue = ⟨initialValue % 65536, initialValue / 65536⟩ := by
    rw [unpack, Nat.shiftRight_eq_div_pow, Nat.mod_eq_of_lt (upper.trans (by simp))]
  have reduced : (unpack initialValue).Reduced := by
    rw [words]
    exact ⟨lower, upper⟩
  have whole := calculateAdler32_ok size reduced
  refine ⟨?_, (calculateAdler32Exactly_ok size reduced).trans whole.symm, ?_⟩
  · rw [whole, words]
    rfl
  · rintro front back rfl
    rw [List.length_append] at size
    have first := calculateAdler32_ok (Nat.le_of_add_right_le size) reduced
    have middle := adler_reduced (unpack initialValue) front
    refine ⟨_, first, ?_⟩
    rw [calculateAdler32_ok (Nat.le_of_add_left_le size) (by rwa [unpack_pack middle]), unpack_pack middle, whole,
      adler_append]

theorem calculateAdler32_sample : calculateAdler32 [0x61, 0x62, 0x63] 1 = .ok 0x024d0127 := by
  have size : [0x61, 0x62, 0x63].length ≤ ssizeMax := by simp [ssizeMax]
  exact (calculateAdler32_eq size (by decide) (by decide)).1

end Fsapfs.Deflate
