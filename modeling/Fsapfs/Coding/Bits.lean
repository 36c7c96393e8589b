import Mathlib.Data.Nat.Bitwise
import Mathlib.Tactic.Ring

namespace Fsapfs.Coding

/-- The low `n` bits of a number, least significant bit first. -/
def natBits : Nat → Nat → List Bool
  | 0, _ => []
  | n + 1, v => decide (v % 2 = 1) :: natBits n (v / 2)

def bitsNat : List Bool → Nat
  | [] => 0
  | b :: bs => b.toNat + 2 * bitsNat bs

@[simp] theorem natBits_length (n v : Nat) : (natBits n v).length = n := by
  induction n generalizing v with
  | zero => rfl
  | succ n ih => simp [natBits, ih]

theorem bitsNat_natBits (n v : Nat) : bitsNat (natBits n v) = v % 2 ^ n := by
  induction n generalizing v with
  | zero => simp [natBits, bitsNat, Nat.mod_one]
  | succ n ih =>
      have low : (decide (v % 2 = 1)).toNat = v % 2 := by
        rcases Nat.mod_two_eq_zero_or_one v with h | h <;> simp [h]
      rw [natBits, bitsNat, ih, low, pow_succ', Nat.mod_mul]

theorem natBits_bitsNat (bs : List Bool) : natBits bs.length (bitsNat bs) = bs := by
  induction bs with
  | nil => rfl
  | cons b bs ih =>
      have half : (b.toNat + 2 * bitsNat bs) / 2 = bitsNat bs := by cases b <;> grind
      have low : decide ((b.toNat + 2 * bitsNat bs) % 2 = 1) = b := by cases b <;> simp
      rw [List.length_cons, bitsNat, natBits, half, ih, low]

theorem bitsNat_lt (bs : List Bool) : bitsNat bs < 2 ^ bs.length := by
  have h := bitsNat_natBits bs.length (bitsNat bs)
  rw [natBits_bitsNat] at h
  rw [h]
  exact Nat.mod_lt _ (Nat.two_pow_pos _)

theorem bitsNat_append (as bs : List Bool) :
    bitsNat (as ++ bs) = bitsNat as + 2 ^ as.length * bitsNat bs := by
  induction as with
  | nil => simp [bitsNat]
  | cons a as ih => rw [List.cons_append, bitsNat, ih, bitsNat, List.length_cons]; ring

theorem natBits_append (m n v : Nat) :
    natBits (m + n) v = natBits m v ++ natBits n (v / 2 ^ m) := by
  induction m generalizing v with
  | zero => simp [natBits]
  | succ m ih =>
      rw [Nat.succ_add, natBits, ih, natBits, List.cons_append, Nat.div_div_eq_div_mul,
        pow_succ']

theorem natBits_mod (n v : Nat) : natBits n (v % 2 ^ n) = natBits n v := by
  have h := natBits_bitsNat (natBits n v)
  rwa [natBits_length, bitsNat_natBits] at h

theorem natBits_take (m n v : Nat) (h : m ≤ n) : (natBits n v).take m = natBits m v := by
  obtain ⟨k, rfl⟩ := Nat.exists_eq_add_of_le h
  rw [natBits_append, List.take_left' (natBits_length m v)]

theorem natBits_drop (m n v : Nat) (h : m ≤ n) :
    (natBits n v).drop m = natBits (n - m) (v / 2 ^ m) := by
  obtain ⟨k, rfl⟩ := Nat.exists_eq_add_of_le h
  rw [natBits_append, List.drop_left' (natBits_length m v), Nat.add_sub_cancel_left]

theorem natBits_add_mul (m n a b : Nat) (ha : a < 2 ^ m) :
    natBits (m + n) (a + 2 ^ m * b) = natBits m a ++ natBits n b := by
  have low : (a + 2 ^ m * b) % 2 ^ m = a := by rw [Nat.add_mul_mod_self_left, Nat.mod_eq_of_lt ha]
  have high : (a + 2 ^ m * b) / 2 ^ m = b := by
    rw [Nat.add_mul_div_left _ _ (Nat.two_pow_pos _), Nat.div_eq_of_lt ha, Nat.zero_add]
  rw [natBits_append, high, ← natBits_mod m, low]

theorem natBits_or_shiftLeft (m n a b : Nat) (ha : a < 2 ^ m) :
    natBits (m + n) (a ||| b <<< m) = natBits m a ++ natBits n b := by
  have sum : a ||| b <<< m = a + 2 ^ m * b := by
    rw [Nat.lor_comm, ← Nat.shiftLeft_add_eq_or_of_lt ha, Nat.shiftLeft_eq, Nat.add_comm, Nat.mul_comm]
  rw [sum, natBits_add_mul m n a b ha]

def byteBits (byte : UInt8) : List Bool := natBits 8 byte.toNat

def bytesBits (bytes : List UInt8) : List Bool := bytes.flatMap byteBits

@[simp] theorem byteBits_length (byte : UInt8) : (byteBits byte).length = 8 :=
  natBits_length 8 _

@[simp] theorem bytesBits_nil : bytesBits [] = [] := rfl

@[simp] theorem bytesBits_cons (byte : UInt8) (bytes : List UInt8) :
    bytesBits (byte :: bytes) = byteBits byte ++ bytesBits bytes := rfl

@[simp] theorem bytesBits_append (xs ys : List UInt8) :
    bytesBits (xs ++ ys) = bytesBits xs ++ bytesBits ys := List.flatMap_append

@[simp] theorem bytesBits_length (bytes : List UInt8) :
    (bytesBits bytes).length = 8 * bytes.length := by
  induction bytes with
  | nil => rfl
  | cons byte bytes ih => simp [ih]; omega

theorem bytesBits_take (n : Nat) (bytes : List UInt8) :
    (bytesBits bytes).take (8 * n) = bytesBits (bytes.take n) := by
  induction n generalizing bytes with
  | zero => rfl
  | succ n ih =>
      cases bytes with
      | nil => simp
      | cons byte bytes =>
          rw [bytesBits_cons, Nat.mul_succ, Nat.add_comm, List.take_append, byteBits_length,
            List.take_of_length_le (by simp), Nat.add_sub_cancel_left, ih, List.take_succ_cons,
            bytesBits_cons]

end Fsapfs.Coding
