import Fsapfs.Deflate.Adler32
import Mathlib.Data.Nat.ModEq
import Mathlib.Tactic.Linarith
import Mathlib.Tactic.Ring

namespace Fsapfs.Deflate
open Program

def lowerSum (lower : Nat) (data : List UInt8) : Nat :=
  lower + (data.map UInt8.toNat).sum

def upperSum (lower upper : Nat) (data : List UInt8) : Nat :=
  upper + ((List.range data.length).map fun i => lowerSum lower (data.take (i + 1))).sum

@[simp] theorem lowerSum_nil (lower : Nat) : lowerSum lower [] = lower := rfl

@[simp] theorem upperSum_nil (lower upper : Nat) : upperSum lower upper [] = upper := rfl

@[simp] theorem lowerSum_cons (lower : Nat) (byte : UInt8) (data : List UInt8) :
    lowerSum lower (byte :: data) = lowerSum (lower + byte.toNat) data := by
  simp [lowerSum, Nat.add_assoc]

@[simp] theorem upperSum_cons (lower upper : Nat) (byte : UInt8) (data : List UInt8) :
    upperSum lower upper (byte :: data) =
      upperSum (lower + byte.toNat) (upper + (lower + byte.toNat)) data := by
  simp [upperSum, List.range_succ_eq_map, Function.comp_def, Nat.add_assoc]

theorem lowerSum_append (lower : Nat) (front back : List UInt8) :
    lowerSum lower (front ++ back) = lowerSum (lowerSum lower front) back := by
  simp [lowerSum, Nat.add_assoc]

theorem upperSum_append (lower upper : Nat) (front back : List UInt8) :
    upperSum lower upper (front ++ back) = upperSum (lowerSum lower front) (upperSum lower upper front) back := by
  induction front generalizing lower upper with
  | nil => simp
  | cons byte front ih => simp [ih]

theorem le_lowerSum (lower : Nat) (data : List UInt8) : lower ≤ lowerSum lower data := Nat.le_add_right _ _

theorem le_upperSum (lower upper : Nat) (data : List UInt8) : upper ≤ upperSum lower upper data := Nat.le_add_right _ _

theorem lowerSum_le (lower : Nat) (data : List UInt8) : lowerSum lower data ≤ lower + 255 * data.length := by
  induction data generalizing lower with
  | nil => simp
  | cons byte data ih =>
      have small : byte.toNat < 256 := byte.toNat_lt
      have rest := ih (lower + byte.toNat)
      simp only [lowerSum_cons, List.length_cons]
      omega

theorem upperSum_eq (lower upper : Nat) (data : List UInt8) :
    upperSum lower upper data = upper + data.length * lower + upperSum 0 0 data := by
  induction data generalizing lower upper with
  | nil => simp
  | cons byte data ih =>
      rw [upperSum_cons, upperSum_cons, ih, ih (0 + byte.toNat), List.length_cons]
      ring

theorem upperSum_le (data : List UInt8) : 2 * upperSum 0 0 data ≤ 255 * (data.length * (data.length + 1)) := by
  induction data with
  | nil => simp
  | cons byte data ih =>
      have small : byte.toNat ≤ 255 := Nat.le_of_lt_succ byte.toNat_lt
      have more : (data.length + 1) * byte.toNat ≤ (data.length + 1) * 255 := Nat.mul_le_mul_left _ small
      rw [upperSum_cons, upperSum_eq, List.length_cons]
      linarith

theorem lowerSum_modEq {p lower lower' : Nat} (same : lower ≡ lower' [MOD p]) (data : List UInt8) :
    lowerSum lower data ≡ lowerSum lower' data [MOD p] :=
  same.add_right _

theorem upperSum_modEq {p lower lower' upper upper' : Nat} (same : lower ≡ lower' [MOD p])
    (same' : upper ≡ upper' [MOD p]) (data : List UInt8) :
    upperSum lower upper data ≡ upperSum lower' upper' data [MOD p] := by
  rw [upperSum_eq lower, upperSum_eq lower']
  exact (same'.add (same.mul_left _)).add_right _

/-- The words of Adler-32 after data, by its definition. -/
def adler (words : AdlerWords) (data : List UInt8) : AdlerWords where
  lowerWord := lowerSum words.lowerWord data % 65521
  upperWord := upperSum words.lowerWord words.upperWord data % 65521

theorem adler_append (words : AdlerWords) (front back : List UInt8) :
    adler words (front ++ back) = adler (adler words front) back := by
  have lower := (Nat.mod_modEq (lowerSum words.lowerWord front) 65521).symm
  have upper := (Nat.mod_modEq (upperSum words.lowerWord words.upperWord front) 65521).symm
  simp only [adler, lowerSum_append, upperSum_append, AdlerWords.mk.injEq]
  exact ⟨lowerSum_modEq lower back, upperSum_modEq lower upper back⟩

structure AdlerWords.Reduced (words : AdlerWords) : Prop where
  lower : words.lowerWord < 65521
  upper : words.upperWord < 65521

theorem adler_reduced (words : AdlerWords) (data : List UInt8) : (adler words data).Reduced :=
  ⟨Nat.mod_lt _ (by simp), Nat.mod_lt _ (by simp)⟩

theorem AdlerWords.Reduced.adler_nil {words : AdlerWords} (reduced : words.Reduced) : adler words [] = words := by
  simp [adler, Nat.mod_eq_of_lt reduced.lower, Nat.mod_eq_of_lt reduced.upper]

theorem AdlerWords.Reduced.fits {words : AdlerWords} (reduced : words.Reduced) {block : List UInt8}
    (short : block.length ≤ 0x15b0) :
    lowerSum words.lowerWord block < 2 ^ 32 ∧ upperSum words.lowerWord words.upperWord block < 2 ^ 32 := by
  have lower := reduced.lower
  have upper := reduced.upper
  constructor
  · have bound := lowerSum_le words.lowerWord block
    omega
  · have bound := upperSum_le block
    have weighted : block.length * words.lowerWord ≤ 0x15b0 * 65520 :=
      Nat.mul_le_mul short (Nat.le_of_lt_succ lower)
    have triangle : block.length * (block.length + 1) ≤ 0x15b0 * (0x15b0 + 1) :=
      Nat.mul_le_mul short (Nat.succ_le_succ short)
    rw [upperSum_eq]
    omega

theorem foldWord_eq {word : Nat} (small : word < 2 ^ 32) : foldWord word = word % 65536 + 15 * (word / 65536) := by
  unfold foldWord
  rw [Nat.shiftLeft_eq, Nat.shiftRight_eq_div_pow]
  omega

theorem reduceWord_eq {word : Nat} (small : word < 2 ^ 32) : reduceWord word = word % 65521 := by
  have first := foldWord_eq small
  have middle : foldWord word < 2 ^ 32 := by omega
  have second := foldWord_eq middle
  unfold reduceWord
  by_cases wide : foldWord word > 65521
  · simp only [wide, if_true]
    split <;> omega
  · simp only [wide, if_false]
    split <;> omega

theorem foldl_addByte {words : AdlerWords} {data : List UInt8} (lower : lowerSum words.lowerWord data < 2 ^ 32)
    (upper : upperSum words.lowerWord words.upperWord data < 2 ^ 32) :
    data.foldl addByte words =
      ⟨lowerSum words.lowerWord data, upperSum words.lowerWord words.upperWord data⟩ := by
  induction data generalizing words with
  | nil => rfl
  | cons byte data ih =>
      rw [lowerSum_cons] at lower
      rw [upperSum_cons] at upper
      have first : addByte words byte = ⟨words.lowerWord + byte.toNat, words.upperWord + (words.lowerWord + byte.toNat)⟩ := by
        have here := (le_lowerSum _ _).trans_lt lower
        have there := (le_upperSum _ _ _).trans_lt upper
        simp only [addByte, Nat.mod_eq_of_lt here, Nat.mod_eq_of_lt there]
      rw [List.foldl_cons, first, ih lower upper, lowerSum_cons, upperSum_cons]

theorem addBytes_eq {words : AdlerWords} (reduced : words.Reduced) {block : List UInt8}
    (short : block.length ≤ 0x15b0) : addBytes words block = adler words block := by
  obtain ⟨lower, upper⟩ := reduced.fits short
  simp only [addBytes, foldl_addByte lower upper, reduceWord_eq lower, reduceWord_eq upper, adler]

theorem addBlocks_eq {fuel : Nat} {words : AdlerWords} (reduced : words.Reduced) {data : List UInt8}
    (enough : data.length ≤ fuel) : ∃ front back, data = front ++ back ∧ back.length < 0x15b0 ∧
      addBlocks fuel words data = (adler words front, back) := by
  induction fuel generalizing words data with
  | zero => exact ⟨[], data, rfl, by omega, by rw [addBlocks, reduced.adler_nil]⟩
  | succ fuel ih =>
      rw [addBlocks]
      split_ifs with whole
      · have short : (data.take 0x15b0).length ≤ 0x15b0 := List.length_take_le _ _
        obtain ⟨front, back, split, small, run⟩ := ih (adler_reduced words (data.take 0x15b0))
          (show (data.drop 0x15b0).length ≤ fuel by rw [List.length_drop]; omega)
        refine ⟨data.take 0x15b0 ++ front, back, ?_, small, ?_⟩
        · rw [List.append_assoc, ← split, List.take_append_drop]
        · rw [addBytes_eq reduced short, run, adler_append]
      · exact ⟨[], data, rfl, Nat.not_le.mp whole, by rw [reduced.adler_nil]⟩

def unpack (value : Nat) : AdlerWords := ⟨value % 65536, (value >>> 16) % 65536⟩

def pack (words : AdlerWords) : Nat := words.upperWord <<< 16 ||| words.lowerWord

theorem pack_eq {words : AdlerWords} (reduced : words.Reduced) :
    pack words = words.upperWord * 65536 + words.lowerWord := by
  have lower : words.lowerWord < 2 ^ 16 := reduced.lower.trans (by simp)
  rw [pack, ← Nat.shiftLeft_add_eq_or_of_lt lower, Nat.shiftLeft_eq]

theorem unpack_pack {words : AdlerWords} (reduced : words.Reduced) : unpack (pack words) = words := by
  have lower := reduced.lower
  have upper := reduced.upper
  cases words
  simp only [unpack, pack_eq reduced, Nat.shiftRight_eq_div_pow, AdlerWords.mk.injEq] at *
  omega

theorem calculateAdler32_ok {data : List UInt8} (size : data.length ≤ ssizeMax) {initialValue : Nat}
    (reduced : (unpack initialValue).Reduced) :
    calculateAdler32 data initialValue = .ok (pack (adler (unpack initialValue) data)) := by
  obtain ⟨front, back, rfl, small, run⟩ := addBlocks_eq reduced (le_refl data.length)
  have whole : (if back.length > 0 then addBytes (adler (unpack initialValue) front) back
      else adler (unpack initialValue) front) = adler (unpack initialValue) (front ++ back) := by
    have middle := adler_reduced (unpack initialValue) front
    rw [adler_append]
    split_ifs with more
    · exact addBytes_eq middle small.le
    · rw [List.length_eq_zero_iff.mp (Nat.eq_zero_of_not_pos more), middle.adler_nil]
  have upper := (adler_reduced (unpack initialValue) (front ++ back)).upper
  have shifted : (adler (unpack initialValue) (front ++ back)).upperWord <<< 16 < 2 ^ 32 := by
    rw [Nat.shiftLeft_eq]
    omega
  have start : addBlocks _ ⟨initialValue % 65536, (initialValue >>> 16) % 65536⟩ _ = _ := run
  unfold calculateAdler32
  rw [if_neg (Nat.not_lt.mpr size)]
  simp only [start, whole, Nat.mod_eq_of_lt shifted]
  rfl

end Fsapfs.Deflate
