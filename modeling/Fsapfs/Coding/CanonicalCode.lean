import Fsapfs.Coding.BitReader
import Mathlib.Data.List.Induction

namespace Fsapfs.Coding

/-- The number of codes of a length; a length of zero marks an unused symbol. -/
def lengthCount (lengths : List Nat) (l : Nat) : Nat := if l = 0 then 0 else lengths.count l

def firstCode (lengths : List Nat) : Nat → Nat
  | 0 => 0
  | l + 1 => 2 * (firstCode lengths l + lengthCount lengths l)

def firstIndex (lengths : List Nat) : Nat → Nat
  | 0 => 0
  | l + 1 => firstIndex lengths l + lengthCount lengths l

/-- The first value of length `l` that no code of length at most `l` uses or starts. -/
def codesUsed (lengths : List Nat) (l : Nat) : Nat := firstCode lengths l + lengthCount lengths l

def kraftSum (limit : Nat) (lengths : List Nat) : Nat :=
  ((lengths.filter (· ≠ 0)).map fun l => 2 ^ (limit - l)).sum

def symbolsOfLength (lengths : List Nat) (l : Nat) : List Nat :=
  (List.range lengths.length).filter fun s => lengths[s]? = some l

/-- The canonical code of a symbol, most significant bit first. -/
def codeword (lengths : List Nat) (s : Nat) : List Bool :=
  let l := lengths.getD s 0
  (natBits l (firstCode lengths l + (lengths.take s).count l)).reverse

def decodeFrom (lengths : List Nat) : Nat → Nat → Nat → BitReader Nat
  | 0, _, _ => reject
  | remaining + 1, l, code => do
      let bit ← takeBits 1
      if 2 * code + bit < codesUsed lengths (l + 1) then
        offer (symbolsOfLength lengths (l + 1))[2 * code + bit - firstCode lengths (l + 1)]?
      else decodeFrom lengths remaining (l + 1) (2 * code + bit)

def decodeSymbol (lengths : List Nat) (limit : Nat) : BitReader Nat := decodeFrom lengths limit 0 0

@[simp] theorem codesUsed_zero (lengths : List Nat) : codesUsed lengths 0 = 0 := rfl

theorem firstCode_succ (lengths : List Nat) (l : Nat) :
    firstCode lengths (l + 1) = 2 * codesUsed lengths l := rfl

theorem codesUsed_succ (lengths : List Nat) (l : Nat) :
    codesUsed lengths (l + 1) = 2 * codesUsed lengths l + lengths.count (l + 1) := rfl

theorem firstIndex_succ (lengths : List Nat) (l : Nat) (positive : 0 < l) :
    firstIndex lengths (l + 1) = firstIndex lengths l + lengths.count l := by
  rw [firstIndex, lengthCount, if_neg (by omega)]

theorem codesUsed_double (lengths : List Nat) (l n : Nat) :
    2 ^ n * codesUsed lengths l ≤ codesUsed lengths (l + n) := by
  induction n with
  | zero => simp
  | succ n ih =>
      have step := codesUsed_succ lengths (l + n)
      rw [pow_succ', Nat.mul_assoc, ← Nat.add_assoc]
      omega

theorem codesUsed_le_firstCode (lengths : List Nat) (l n : Nat) :
    2 ^ (n + 1) * codesUsed lengths l ≤ firstCode lengths (l + n + 1) := by
  have doubled := codesUsed_double lengths l n
  rw [firstCode_succ, pow_succ', Nat.mul_assoc]
  omega

theorem codesUsed_fit {lengths : List Nat} {l limit : Nat} (within : l ≤ limit)
    (fit : codesUsed lengths limit ≤ 2 ^ limit) : codesUsed lengths l ≤ 2 ^ l := by
  obtain ⟨n, rfl⟩ := Nat.exists_eq_add_of_le within
  have doubled := codesUsed_double lengths l n
  rw [pow_add, Nat.mul_comm] at fit
  exact Nat.le_of_mul_le_mul_left (doubled.trans fit) (Nat.two_pow_pos n)

theorem codesUsed_cons (x : Nat) (xs : List Nat) (l : Nat) :
    codesUsed (x :: xs) l = (if x ≠ 0 ∧ x ≤ l then 2 ^ (l - x) else 0) + codesUsed xs l := by
  induction l with
  | zero => simp +contextual
  | succ l ih =>
      rw [codesUsed_succ, ih, codesUsed_succ, List.count_cons]
      rcases Nat.lt_trichotomy x (l + 1) with less | same | greater
      · have power : 2 ^ (l + 1 - x) = 2 * 2 ^ (l - x) := by rw [Nat.succ_sub (by omega), pow_succ']
        by_cases unused : x = 0
        · simp [unused]
        · have apart : ¬(x = l + 1) := by omega
          simp only [unused, ne_eq, not_false_eq_true, true_and, power, beq_iff_eq, apart, ite_false,
            if_pos (show x ≤ l by omega), if_pos (show x ≤ l + 1 by omega)]
          ring
      · simp only [same, ne_eq, Nat.succ_ne_zero, not_false_eq_true, true_and, le_refl, ite_true,
          Nat.sub_self, pow_zero, beq_self_eq_true, if_neg (show ¬(l + 1 ≤ l) by omega)]
        ring
      · have apart : ¬(x = l + 1) := by omega
        simp only [apart, beq_iff_eq, ite_false, show ¬(x ≤ l) by omega, show ¬(x ≤ l + 1) by omega,
          and_false]
        omega

theorem codesUsed_eq_kraftSum {lengths : List Nat} {limit : Nat}
    (bounded : ∀ l ∈ lengths, l ≤ limit) : codesUsed lengths limit = kraftSum limit lengths := by
  induction lengths with
  | nil =>
      have empty (l : Nat) : codesUsed [] l = 0 := by
        induction l with
        | zero => rfl
        | succ l ih => simp [codesUsed_succ, ih]
      exact empty limit
  | cons x xs ih =>
      have small := bounded x List.mem_cons_self
      rw [codesUsed_cons, ih fun l h => bounded l (List.mem_cons_of_mem x h)]
      by_cases unused : x = 0 <;> simp [kraftSum, unused, small]

theorem firstIndex_cons (x : Nat) (xs : List Nat) (l : Nat) :
    firstIndex (x :: xs) l = (if x ≠ 0 ∧ x < l then 1 else 0) + firstIndex xs l := by
  induction l with
  | zero => simp [firstIndex]
  | succ l ih =>
      simp only [firstIndex, ih, lengthCount, List.count_cons, beq_iff_eq]
      split_ifs <;> omega

theorem firstIndex_le (lengths : List Nat) (l : Nat) : firstIndex lengths l ≤ lengths.length := by
  induction lengths with
  | nil =>
      induction l with
      | zero => rfl
      | succ l ih => simpa [firstIndex, lengthCount] using ih
  | cons x xs ih =>
      rw [firstIndex_cons, List.length_cons]
      split_ifs <;> omega

theorem firstIndex_mono (lengths : List Nat) {l m : Nat} (h : l ≤ m) :
    firstIndex lengths l ≤ firstIndex lengths m := by
  induction m, h using Nat.le_induction with
  | base => exact le_rfl
  | succ m _ ih => exact ih.trans (Nat.le_add_right _ _)

theorem firstIndex_separate (lengths : List Nat) {l m : Nat} (positive : 0 < l) (h : l < m) :
    firstIndex lengths l + lengths.count l ≤ firstIndex lengths m := by
  rw [← firstIndex_succ lengths l positive]
  exact firstIndex_mono lengths h

theorem symbolsOfLength_snoc (lengths : List Nat) (x l : Nat) :
    symbolsOfLength (lengths ++ [x]) l =
      symbolsOfLength lengths l ++ if x = l then [lengths.length] else [] := by
  have front : (List.range lengths.length).filter (fun s => (lengths ++ [x])[s]? = some l) =
      symbolsOfLength lengths l := by
    apply List.filter_congr
    intro s inside
    rw [List.getElem?_append_left (List.mem_range.mp inside)]
  rw [symbolsOfLength, List.length_append, List.length_singleton, List.range_succ, List.filter_append,
    front]
  by_cases same : x = l <;> simp [same]

theorem symbolsOfLength_length (lengths : List Nat) (l : Nat) :
    (symbolsOfLength lengths l).length = lengths.count l := by
  induction lengths using List.reverseRecOn with
  | nil => rfl
  | append_singleton xs x ih =>
      rw [symbolsOfLength_snoc, List.length_append, ih, List.count_append]
      by_cases same : x = l <;> simp [same]

theorem symbolsOfLength_append (xs ys : List Nat) (l : Nat) :
    ∃ more, symbolsOfLength (xs ++ ys) l = symbolsOfLength xs l ++ more := by
  induction ys using List.reverseRecOn with
  | nil => exact ⟨[], by simp⟩
  | append_singleton ys y ih =>
      obtain ⟨more, eq⟩ := ih
      rw [← List.append_assoc, symbolsOfLength_snoc, eq, List.append_assoc]
      exact ⟨_, rfl⟩

theorem mem_symbolsOfLength {lengths : List Nat} {l s : Nat} :
    s ∈ symbolsOfLength lengths l ↔ lengths[s]? = some l := by
  simp only [symbolsOfLength, List.mem_filter, List.mem_range, decide_eq_true_eq, and_iff_right_iff_imp]
  intro found
  exact (List.getElem?_eq_some_iff.mp found).1

theorem symbolsOfLength_rank {lengths : List Nat} {l s : Nat} (found : lengths[s]? = some l) :
    (symbolsOfLength lengths l)[(lengths.take s).count l]? = some s := by
  obtain ⟨inside, value⟩ := List.getElem?_eq_some_iff.mp found
  have split : lengths = lengths.take s ++ [l] ++ lengths.drop (s + 1) := by
    rw [List.append_assoc, ← value, List.singleton_append, List.getElem_cons_drop,
      List.take_append_drop]
  obtain ⟨more, eq⟩ := symbolsOfLength_append (lengths.take s ++ [l]) (lengths.drop (s + 1)) l
  have before : (lengths.take s).length = s := by simp; omega
  rw [← split, symbolsOfLength_snoc, if_pos rfl, before] at eq
  rw [eq, List.append_assoc, List.getElem?_append_right (by rw [symbolsOfLength_length]),
    symbolsOfLength_length, Nat.sub_self]
  rfl

theorem count_take_lt {lengths : List Nat} {l s : Nat} (found : lengths[s]? = some l) :
    (lengths.take s).count l < lengths.count l := by
  have ranked := symbolsOfLength_rank found
  rw [← symbolsOfLength_length lengths l]
  exact (List.getElem?_eq_some_iff.mp ranked).1

theorem decodeFrom_symbol {lengths : List Nat} {remaining l code s : Nat} {bits rest : List Bool}
    (read : decodeFrom lengths remaining l code bits = some (s, rest)) :
    (∃ m, l < m ∧ m ≤ l + remaining ∧ lengths[s]? = some m) ∧ rest.length < bits.length := by
  induction remaining generalizing l code bits with
  | zero => cases read
  | succ remaining ih =>
      obtain ⟨bit, middle, taken, next⟩ := bind_eq_some.mp read
      have shorter := (takeBits_length taken).1
      by_cases short : 2 * code + bit < codesUsed lengths (l + 1)
      · rw [if_pos short] at next
        obtain ⟨t, ranked, same⟩ := Option.map_eq_some_iff.mp next
        cases same
        exact ⟨⟨l + 1, by omega, by omega, mem_symbolsOfLength.mp (List.mem_of_getElem? ranked)⟩, by omega⟩
      · rw [if_neg short] at next
        obtain ⟨⟨m, lower, upper, found⟩, less⟩ := ih next
        exact ⟨⟨m, by omega, by omega, found⟩, by omega⟩

theorem sequential_decodeFrom (lengths : List Nat) (remaining l code : Nat) :
    Sequential (decodeFrom lengths remaining l code) := by
  induction remaining generalizing l code with
  | zero => exact sequential_reject
  | succ remaining ih =>
      refine (sequential_takeBits 1).bind fun bit => ?_
      split
      · exact sequential_offer _
      · exact ih _ _

theorem sequential_decodeSymbol (lengths : List Nat) (limit : Nat) :
    Sequential (decodeSymbol lengths limit) := sequential_decodeFrom lengths limit 0 0

theorem decodeFrom_cons (lengths : List Nat) (remaining l code : Nat) (bit : Bool) (bits : List Bool) :
    decodeFrom lengths (remaining + 1) l code (bit :: bits) =
      if 2 * code + bit.toNat < codesUsed lengths (l + 1) then
        ((symbolsOfLength lengths (l + 1))[2 * code + bit.toNat - firstCode lengths (l + 1)]?).map
          (·, bits)
      else decodeFrom lengths remaining (l + 1) (2 * code + bit.toNat) bits := by
  have taken : takeBits 1 (bit :: bits) = some (bit.toNat, bits) := by simp [takeBits, bitsNat]
  rw [decodeFrom, bind_of_some taken]
  split_ifs <;> rfl

theorem natBits_reverse_succ (n v : Nat) :
    (natBits (n + 1) v).reverse = decide (v / 2 ^ n % 2 = 1) :: (natBits n v).reverse := by
  rw [natBits_append n 1, List.reverse_append]
  rfl

theorem div_two_pow_step (n v : Nat) :
    2 * (v / 2 ^ (n + 1)) + (decide (v / 2 ^ n % 2 = 1)).toNat = v / 2 ^ n := by
  have bit : (decide (v / 2 ^ n % 2 = 1)).toNat = v / 2 ^ n % 2 := by
    rcases Nat.mod_two_eq_zero_or_one (v / 2 ^ n) with h | h <;> simp [h]
  rw [bit, pow_succ, ← Nat.div_div_eq_div_mul]
  omega

theorem decodeFrom_codeword {lengths : List Nat} {v s l : Nat} (start n spare : Nat)
    (length : l = start + n + 1) (lower : firstCode lengths l ≤ v) (upper : v < codesUsed lengths l)
    (ranked : (symbolsOfLength lengths l)[v - firstCode lengths l]? = some s) (rest : List Bool) :
    decodeFrom lengths (n + spare + 1) start (v / 2 ^ (n + 1)) ((natBits (n + 1) v).reverse ++ rest) =
      some (s, rest) := by
  induction n generalizing start with
  | zero =>
      subst length
      rw [natBits_reverse_succ, List.cons_append, decodeFrom_cons, div_two_pow_step, pow_zero,
        Nat.div_one, if_pos upper, ranked]
      rfl
  | succ n ih =>
      have passed : codesUsed lengths (start + 1) ≤ v / 2 ^ (n + 1) := by
        have first := codesUsed_le_firstCode lengths (start + 1) n
        rw [show start + 1 + n + 1 = l by omega] at first
        rw [Nat.le_div_iff_mul_le (Nat.two_pow_pos _), Nat.mul_comm]
        exact first.trans lower
      rw [natBits_reverse_succ, List.cons_append, decodeFrom_cons, div_two_pow_step,
        if_neg (Nat.not_lt.mpr passed), show n + 1 + spare = n + spare + 1 by omega]
      exact ih (start + 1) (by omega)

theorem reads_decodeSymbol {lengths : List Nat} {limit l s : Nat} (phase : Nat)
    (found : lengths[s]? = some l) (positive : 0 < l) (within : l ≤ limit)
    (fit : codesUsed lengths limit ≤ 2 ^ limit) :
    Reads phase (decodeSymbol lengths limit) (codeword lengths s) (some s) := by
  intro rest _
  obtain ⟨n, rfl⟩ : ∃ n, l = n + 1 := ⟨l - 1, by omega⟩
  obtain ⟨spare, rfl⟩ := Nat.exists_eq_add_of_le within
  have rankLess := count_take_lt found
  have used : codesUsed lengths (n + 1) =
      firstCode lengths (n + 1) + lengths.count (n + 1) := codesUsed_succ lengths n
  have upper : firstCode lengths (n + 1) + (lengths.take s).count (n + 1) < codesUsed lengths (n + 1) := by
    omega
  have small := upper.trans_le (codesUsed_fit (Nat.le_add_right (n + 1) spare) fit)
  have read := decodeFrom_codeword 0 n spare (by omega) (Nat.le_add_right _ _) upper
    (by rw [Nat.add_sub_cancel_left]; exact symbolsOfLength_rank found) rest
  rw [Nat.div_eq_of_lt small] at read
  have length : lengths.getD s 0 = n + 1 := by simp [List.getD, found]
  rw [codeword, length, decodeSymbol, Nat.add_right_comm]
  exact read

end Fsapfs.Coding
