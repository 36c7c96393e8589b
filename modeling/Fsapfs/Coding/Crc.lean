import Fsapfs.Coding.Bits
import Mathlib.Algebra.GroupWithZero.Nat

namespace Fsapfs.Coding

section crc

variable (polynomial : Nat)

/-- One shift of a reflected remainder, whose lowest bit is the coefficient of the highest power. -/
def crcShift (remainder : Nat) : Nat :=
  if remainder.testBit 0 then polynomial ^^^ (remainder >>> 1) else remainder >>> 1

def crcBit (remainder : Nat) (bit : Bool) : Nat := crcShift polynomial (remainder ^^^ bit.toNat)

def crcBits (remainder : Nat) (bits : List Bool) : Nat := bits.foldl (crcBit polynomial) remainder

@[simp] theorem crcBits_nil (remainder : Nat) : crcBits polynomial remainder [] = remainder := rfl

@[simp] theorem crcBits_cons (remainder : Nat) (bit : Bool) (bits : List Bool) :
    crcBits polynomial remainder (bit :: bits) = crcBits polynomial (crcBit polynomial remainder bit) bits := rfl

@[simp] theorem crcBits_append (remainder : Nat) (front back : List Bool) :
    crcBits polynomial remainder (front ++ back) = crcBits polynomial (crcBits polynomial remainder front) back :=
  List.foldl_append

theorem crcShift_xor (a b : Nat) :
    crcShift polynomial (a ^^^ b) = crcShift polynomial a ^^^ crcShift polynomial b := by
  unfold crcShift
  rw [Nat.testBit_xor, Nat.shiftRight_xor_distrib]
  cases a.testBit 0 <;> cases b.testBit 0
  · simp
  · simp [Nat.xor_left_comm]
  · simp [Nat.xor_assoc]
  · have cancelled : polynomial ^^^ a >>> 1 ^^^ (polynomial ^^^ b >>> 1) = a >>> 1 ^^^ b >>> 1 := by
      rw [Nat.xor_comm polynomial, Nat.xor_assoc, Nat.xor_xor_cancel_left]
    simp [cancelled]

theorem iterate_crcShift_xor (n a b : Nat) :
    (crcShift polynomial)^[n] (a ^^^ b) = (crcShift polynomial)^[n] a ^^^ (crcShift polynomial)^[n] b := by
  induction n generalizing a b with
  | zero => rfl
  | succ n ih => simp only [Function.iterate_succ_apply, crcShift_xor, ih]

theorem crcShift_shiftLeft (a : Nat) : crcShift polynomial (a <<< 1) = a := by
  simp [crcShift, Nat.shiftLeft_shiftRight]

theorem iterate_crcShift_shiftLeft (n a : Nat) : (crcShift polynomial)^[n] (a <<< n) = a := by
  induction n generalizing a with
  | zero => rfl
  | succ n ih => rw [Function.iterate_succ_apply, Nat.shiftLeft_add, crcShift_shiftLeft, ih]

theorem mod_xor_shiftLeft (n a : Nat) : a % 2 ^ n ^^^ (a >>> n) <<< n = a := by
  apply Nat.eq_of_testBit_eq
  intro i
  rw [Nat.testBit_xor, Nat.testBit_mod_two_pow, Nat.testBit_shiftLeft, Nat.testBit_shiftRight]
  rcases Nat.lt_or_ge i n with low | high
  · simp [low, Nat.not_le.mpr low]
  · simp [high, Nat.not_lt.mpr high]

theorem iterate_crcShift_eq (n a : Nat) :
    (crcShift polynomial)^[n] a = (crcShift polynomial)^[n] (a % 2 ^ n) ^^^ a >>> n := by
  have split := iterate_crcShift_xor polynomial n (a % 2 ^ n) ((a >>> n) <<< n)
  rwa [mod_xor_shiftLeft, iterate_crcShift_shiftLeft] at split

theorem crcBits_natBits (n remainder a : Nat) :
    crcBits polynomial remainder (natBits n a) = (crcShift polynomial)^[n] (remainder ^^^ a % 2 ^ n) := by
  induction n generalizing remainder a with
  | zero => simp [natBits, Nat.mod_one]
  | succ n ih =>
      have low : (decide (a % 2 = 1)).toNat = a % 2 := by
        rcases Nat.mod_two_eq_zero_or_one a with h | h <;> simp [h]
      have first : a % 2 ^ (n + 1) % 2 ^ 1 = a % 2 := by
        rw [pow_one, pow_succ', Nat.mod_mul_right_mod]
      have rest : (a % 2 ^ (n + 1)) >>> 1 = a / 2 % 2 ^ n := by
        rw [Nat.shiftRight_one, pow_succ', Nat.mod_mul_right_div_self]
      have parts : a % 2 ^ (n + 1) = a % 2 ^^^ (a / 2 % 2 ^ n) <<< 1 := by
        rw [← first, ← rest, mod_xor_shiftLeft]
      rw [natBits, crcBits_cons, crcBit, low, ih, Function.iterate_succ_apply, parts, ← Nat.xor_assoc,
        crcShift_xor polynomial (remainder ^^^ a % 2), crcShift_shiftLeft]

theorem crcBits_byteBits (remainder : Nat) (byte : UInt8) :
    crcBits polynomial remainder (byteBits byte) =
      (crcShift polynomial)^[8] ((remainder ^^^ byte.toNat) % 2 ^ 8) ^^^ remainder >>> 8 := by
  have small : byte.toNat < 2 ^ 8 := byte.toNat_lt
  have gone : byte.toNat >>> 8 = 0 := by rw [Nat.shiftRight_eq_div_pow, Nat.div_eq_of_lt small]
  rw [byteBits, crcBits_natBits, Nat.mod_eq_of_lt small, iterate_crcShift_eq, Nat.shiftRight_xor_distrib, gone,
    Nat.xor_zero]

end crc

end Fsapfs.Coding
