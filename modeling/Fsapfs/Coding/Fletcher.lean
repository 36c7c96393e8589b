import Mathlib.Algebra.GroupWithZero.Nat
import Mathlib.Data.Int.ModEq
import Mathlib.Data.Nat.ModEq
import Mathlib.Tactic.Linarith
import Mathlib.Tactic.Ring

namespace Fsapfs.Coding.Fletcher

section sums

def lowerSum (lower : Nat) (words : List Nat) : Nat := lower + words.sum

/-- The sum of the sums of the words up to each of them. -/
def upperSum (lower upper : Nat) (words : List Nat) : Nat :=
  upper + ((List.range words.length).map fun i => lowerSum lower (words.take (i + 1))).sum

@[simp] theorem lowerSum_nil (lower : Nat) : lowerSum lower [] = lower := rfl

@[simp] theorem upperSum_nil (lower upper : Nat) : upperSum lower upper [] = upper := rfl

@[simp] theorem lowerSum_cons (lower word : Nat) (words : List Nat) :
    lowerSum lower (word :: words) = lowerSum (lower + word) words := by
  simp [lowerSum, Nat.add_assoc]

@[simp] theorem upperSum_cons (lower upper word : Nat) (words : List Nat) :
    upperSum lower upper (word :: words) = upperSum (lower + word) (upper + (lower + word)) words := by
  simp [upperSum, List.range_succ_eq_map, Function.comp_def, Nat.add_assoc]

theorem lowerSum_append (lower : Nat) (front back : List Nat) :
    lowerSum lower (front ++ back) = lowerSum (lowerSum lower front) back := by
  simp [lowerSum, Nat.add_assoc]

theorem upperSum_append (lower upper : Nat) (front back : List Nat) :
    upperSum lower upper (front ++ back) = upperSum (lowerSum lower front) (upperSum lower upper front) back := by
  induction front generalizing lower upper with
  | nil => simp
  | cons word front ih => simp [ih]

theorem upperSum_eq (lower upper : Nat) (words : List Nat) :
    upperSum lower upper words = upper + words.length * lower + upperSum 0 0 words := by
  induction words generalizing lower upper with
  | nil => simp
  | cons word words ih =>
      rw [upperSum_cons, upperSum_cons, ih, ih (0 + word), List.length_cons]
      ring

section bounds

variable {largest : Nat} {words : List Nat} (bounded : ∀ word ∈ words, word ≤ largest)

include bounded

theorem lowerSum_le (lower : Nat) : lowerSum lower words ≤ lower + words.length * largest := by
  induction words generalizing lower with
  | nil => simp
  | cons word words ih =>
      obtain ⟨small, bounded⟩ := List.forall_mem_cons.mp bounded
      have rest := ih bounded (lower + word)
      rw [lowerSum_cons, List.length_cons]
      linarith

theorem upperSum_le : 2 * upperSum 0 0 words ≤ largest * (words.length * (words.length + 1)) := by
  induction words with
  | nil => simp
  | cons word words ih =>
      obtain ⟨small, bounded⟩ := List.forall_mem_cons.mp bounded
      have more : (words.length + 1) * word ≤ (words.length + 1) * largest := Nat.mul_le_mul_left _ small
      have rest := ih bounded
      rw [upperSum_cons, upperSum_eq, List.length_cons]
      linarith

end bounds

theorem lowerSum_replicate (lower n word : Nat) : lowerSum lower (List.replicate n word) = lower + n * word := by
  simp [lowerSum]

theorem upperSum_replicate (n word : Nat) :
    2 * upperSum 0 0 (List.replicate n word) = word * (n * (n + 1)) := by
  induction n with
  | zero => simp
  | succ n ih =>
      rw [List.replicate_succ, upperSum_cons, upperSum_eq, List.length_replicate]
      linarith

end sums

section check

variable (modulus : Nat)

def checkWords (lower upper : Nat) : List Nat :=
  [modulus - (lower + upper) % modulus,
    modulus - (lower + (modulus - (lower + upper) % modulus)) % modulus]

variable {modulus}

theorem add_check_modEq_zero (positive : 0 < modulus) (n : Nat) : n + (modulus - n % modulus) ≡ 0 [MOD modulus] := by
  have below := (Nat.mod_lt n positive).le
  have whole : n % modulus + (modulus - n % modulus) ≡ 0 [MOD modulus] := by
    rw [Nat.add_sub_cancel' below]
    exact (Nat.modEq_zero_iff_dvd).mpr dvd_rfl
  exact ((Nat.mod_modEq n modulus).symm.add_right _).trans whole

theorem check_dvd (positive : 0 < modulus) (lower upper : Nat) :
    modulus ∣ lowerSum lower (checkWords modulus lower upper) ∧
      modulus ∣ upperSum lower upper (checkWords modulus lower upper) := by
  have first := add_check_modEq_zero positive (lower + upper)
  have second := add_check_modEq_zero positive (lower + (modulus - (lower + upper) % modulus))
  simp only [checkWords, lowerSum_cons, lowerSum_nil, upperSum_cons, upperSum_nil, ← Nat.modEq_zero_iff_dvd]
  refine ⟨second, ?_⟩
  have both := first.add second
  rw [Nat.add_zero] at both
  convert both using 1
  ring

theorem append_check_dvd (positive : 0 < modulus) (lower upper : Nat) (words : List Nat) :
    let check := checkWords modulus (lowerSum lower words) (upperSum lower upper words)
    modulus ∣ lowerSum lower (words ++ check) ∧ modulus ∣ upperSum lower upper (words ++ check) := by
  intro check
  rw [lowerSum_append, upperSum_append]
  exact check_dvd positive _ _

theorem sub_mod_inj (positive : 0 < modulus) {m n : Nat} :
    modulus - m % modulus = modulus - n % modulus ↔ m ≡ n [MOD modulus] := by
  have first := Nat.mod_lt m positive
  have second := Nat.mod_lt n positive
  unfold Nat.ModEq
  omega

theorem checkWords_eq_iff (positive : 0 < modulus) {lower lower' upper upper' : Nat} :
    checkWords modulus lower upper = checkWords modulus lower' upper' ↔
      lower ≡ lower' [MOD modulus] ∧ upper ≡ upper' [MOD modulus] := by
  simp only [checkWords, List.cons.injEq, and_true, sub_mod_inj positive]
  constructor
  · rintro ⟨sums, checks⟩
    rw [(sub_mod_inj positive).mpr sums] at checks
    have lowers := Nat.ModEq.add_right_cancel' _ checks
    exact ⟨lowers, lowers.add_left_cancel sums⟩
  · rintro ⟨lowers, uppers⟩
    have sums := lowers.add uppers
    rw [(sub_mod_inj positive).mpr sums]
    exact ⟨sums, lowers.add_right _⟩

theorem adjacent_modEq {front back : List Nat} {first second first' second' lower upper : Nat}
    (lowers : lowerSum lower (front ++ first :: second :: back) ≡
      lowerSum lower (front ++ first' :: second' :: back) [MOD modulus])
    (uppers : upperSum lower upper (front ++ first :: second :: back) ≡
      upperSum lower upper (front ++ first' :: second' :: back) [MOD modulus]) :
    first ≡ first' [MOD modulus] ∧ second ≡ second' [MOD modulus] := by
  simp only [lowerSum_append, lowerSum_cons] at lowers
  simp only [upperSum_append, upperSum_cons] at uppers
  rw [upperSum_eq (_ + second), upperSum_eq (_ + second')] at uppers
  generalize upperSum lower upper front = upper at uppers
  generalize lowerSum lower front = lower at lowers uppers
  have sums : lower + first + second ≡ lower + first' + second' [MOD modulus] :=
    Nat.ModEq.add_right_cancel' back.sum lowers
  have weighted := sums.mul_left back.length
  have both := Nat.ModEq.add_right_cancel weighted (Nat.ModEq.add_right_cancel' _ uppers)
  have firsts := Nat.ModEq.add_right_cancel sums both
  have first_eq := Nat.ModEq.add_left_cancel' lower (Nat.ModEq.add_left_cancel' upper firsts)
  refine ⟨first_eq, ?_⟩
  exact Nat.ModEq.add_left_cancel (first_eq.add_left lower) sums

theorem mod_modEq_iff {word : Nat} (one : word ≡ 1 [MOD modulus]) (n : Nat) :
    n % word ≡ n [MOD modulus] ↔ modulus ∣ n / word := by
  have carried : word * (n / word) ≡ n / word [MOD modulus] := by simpa using one.mul_right (n / word)
  have parts := (carried.add_left (n % word)).symm
  rw [Nat.mod_add_div] at parts
  constructor
  · intro same
    have sum := same.trans parts.symm
    exact Nat.modEq_zero_iff_dvd.mp (Nat.ModEq.add_left_cancel' (n % word) sum).symm
  · intro multiple
    have sum := (Nat.modEq_zero_iff_dvd.mpr multiple).add_left (n % word)
    exact (parts.symm.trans sum).symm

end check

end Fsapfs.Coding.Fletcher
