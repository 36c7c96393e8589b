import Mathlib.Algebra.GroupWithZero.Nat
import Mathlib.Data.List.Basic

namespace Fsapfs.Coding

def hexDigit (value : Nat) : UInt8 := if value < 10 then UInt8.ofNat (48 + value) else UInt8.ofNat (87 + value)

def hexDigits : Nat → Nat → List UInt8
  | 0, _ => []
  | width + 1, value => hexDigits width (value / 16) ++ [hexDigit (value % 16)]

def hexDigitValue (digit : UInt8) : Option Nat :=
  if 48 ≤ digit.toNat ∧ digit.toNat ≤ 57 then some (digit.toNat - 48)
  else if 97 ≤ digit.toNat ∧ digit.toNat ≤ 102 then some (digit.toNat - 97 + 10)
  else none

@[simp] theorem hexDigits_length (width value : Nat) : (hexDigits width value).length = width := by
  induction width generalizing value with
  | zero => rfl
  | succ width ih => simp [hexDigits, ih]

theorem hexDigitValue_hexDigit {value : Nat} (small : value < 16) : hexDigitValue (hexDigit value) = some value := by
  revert value
  decide

theorem hexDigit_toNat {value : Nat} (small : value < 16) :
    48 ≤ (hexDigit value).toNat ∧ (hexDigit value).toNat ≤ 57 ∨
      97 ≤ (hexDigit value).toNat ∧ (hexDigit value).toNat ≤ 102 := by
  revert value
  decide

theorem mem_hexDigits {width value : Nat} {digit : UInt8} (member : digit ∈ hexDigits width value) :
    48 ≤ digit.toNat ∧ digit.toNat ≤ 57 ∨ 97 ≤ digit.toNat ∧ digit.toNat ≤ 102 := by
  induction width generalizing value with
  | zero => cases member
  | succ width ih =>
      rcases List.mem_append.mp member with front | last
      · exact ih front
      · rw [List.mem_singleton.mp last]
        exact hexDigit_toNat (Nat.mod_lt _ (by simp))

end Fsapfs.Coding
