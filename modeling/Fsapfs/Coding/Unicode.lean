import Mathlib.Algebra.Group.Nat.Defs
import Mathlib.Data.List.Basic
import Mathlib.Tactic.SplitIfs

namespace Fsapfs.Coding

def utf8Bytes (characters : List Char) : List UInt8 := characters.flatMap String.utf8EncodeChar

/-- A character outside the basic plane takes a high and a low surrogate. -/
def utf16EncodeChar (character : Char) : List UInt16 :=
  let value := character.val.toNat
  if value < 0x10000 then [UInt16.ofNat value]
  else [UInt16.ofNat (0xd800 + (value - 0x10000) / 0x400), UInt16.ofNat (0xdc00 + (value - 0x10000) % 0x400)]

def IsUtf8 (bytes : List UInt8) : Prop := ∃ characters, bytes = utf8Bytes characters

def utf16Units (characters : List Char) : List UInt16 := characters.flatMap utf16EncodeChar

/-- The characters of UTF-16 units: a high surrogate is followed by a low one. -/
def utf16Characters : List UInt16 → Option (List Char)
  | [] => some []
  | unit :: units =>
      if unit.toNat < 0xd800 ∨ 0xdfff < unit.toNat then (utf16Characters units).map (Char.ofNat unit.toNat :: ·)
      else
        match units with
        | [] => none
        | low :: units =>
            if unit.toNat < 0xdc00 ∧ 0xdc00 ≤ low.toNat ∧ low.toNat ≤ 0xdfff then
              (utf16Characters units).map
                (Char.ofNat (0x10000 + (unit.toNat - 0xd800) * 0x400 + (low.toNat - 0xdc00)) :: ·)
            else none

variable {character : Char} {characters : List Char}

@[simp] theorem utf8Bytes_cons : utf8Bytes (character :: characters) =
    String.utf8EncodeChar character ++ utf8Bytes characters := rfl

@[simp] theorem utf16Units_cons : utf16Units (character :: characters) =
    utf16EncodeChar character ++ utf16Units characters := rfl

theorem value_ne_zero (other : character ≠ Char.ofNat 0) : character.val.toNat ≠ 0 := by
  intro zero
  apply other
  apply Char.ext
  exact UInt32.toNat_inj.mp zero

theorem value_lt (character : Char) : character.val.toNat < 0x110000 := by
  rcases character.valid with low | ⟨_, high⟩
  · exact Nat.lt_trans low (by decide)
  · exact high

theorem utf16EncodeChar_cases (character : Char) :
    (∃ unit, utf16EncodeChar character = [unit] ∧ unit.toNat = character.val.toNat ∧
      (unit.toNat < 0xd800 ∨ 0xdfff < unit.toNat)) ∨
    ∃ high low, utf16EncodeChar character = [high, low] ∧ 0xd800 ≤ high.toNat ∧ high.toNat < 0xdc00 ∧
      0xdc00 ≤ low.toNat ∧ low.toNat ≤ 0xdfff ∧
      0x10000 + (high.toNat - 0xd800) * 0x400 + (low.toNat - 0xdc00) = character.val.toNat := by
  have range := value_lt character
  unfold utf16EncodeChar
  dsimp only
  split_ifs with basic
  · have unit : (UInt16.ofNat character.val.toNat).toNat = character.val.toNat := UInt16.toNat_ofNat_of_lt' basic
    refine Or.inl ⟨_, rfl, unit, ?_⟩
    rw [unit]
    rcases character.valid with low | ⟨high, _⟩
    · exact Or.inl low
    · exact Or.inr high
  · have high : (UInt16.ofNat (0xd800 + (character.val.toNat - 0x10000) / 0x400)).toNat =
        0xd800 + (character.val.toNat - 0x10000) / 0x400 := UInt16.toNat_ofNat_of_lt' (show _ < 65536 by omega)
    have low : (UInt16.ofNat (0xdc00 + (character.val.toNat - 0x10000) % 0x400)).toNat =
        0xdc00 + (character.val.toNat - 0x10000) % 0x400 := UInt16.toNat_ofNat_of_lt' (show _ < 65536 by omega)
    refine Or.inr ⟨_, _, rfl, ?_⟩
    rw [high, low]
    omega

theorem utf16Characters_utf16Units (characters : List Char) : utf16Characters (utf16Units characters) = some characters := by
  induction characters with
  | nil => rfl
  | cons character characters ih =>
      rw [utf16Units_cons]
      have valued {value : Nat} (same : value = character.val.toNat) : Char.ofNat value = character :=
        same ▸ Char.ofNat_toNat character
      rcases utf16EncodeChar_cases character with ⟨unit, encoded, value, plain⟩ |
        ⟨high, low, encoded, above, below, low_above, low_below, value⟩
      · rw [encoded, List.singleton_append, utf16Characters.eq_def]
        dsimp only
        rw [if_pos plain, ih, Option.map_some, valued value]
      · rw [encoded, List.cons_append, List.singleton_append, utf16Characters.eq_def]
        dsimp only
        rw [if_neg (by omega), if_pos ⟨below, low_above, low_below⟩, ih, Option.map_some, valued value]

theorem byte_eq_zero (n : Nat) : UInt8.ofNat n = 0 ↔ n % 2 ^ 8 = 0 := by
  rw [← UInt8.toNat_inj, UInt8.toNat_ofNat']
  rfl

theorem unit_eq_zero (n : Nat) : UInt16.ofNat n = 0 ↔ n % 2 ^ 16 = 0 := by
  rw [← UInt16.toNat_inj, UInt16.toNat_ofNat']
  rfl

theorem utf8EncodeChar_ne_zero (other : character ≠ Char.ofNat 0) :
    ∀ byte ∈ String.utf8EncodeChar character, byte ≠ 0 := by
  have positive := value_ne_zero other
  unfold String.utf8EncodeChar
  dsimp only
  split_ifs
  all_goals
    simp only [List.forall_mem_cons, List.not_mem_nil, false_imp_iff, implies_true, and_true, ne_eq, byte_eq_zero]
    omega

theorem utf16EncodeChar_ne_zero (other : character ≠ Char.ofNat 0) : ∀ unit ∈ utf16EncodeChar character, unit ≠ 0 := by
  have positive := value_ne_zero other
  have range := value_lt character
  unfold utf16EncodeChar
  dsimp only
  split_ifs
  all_goals
    simp only [List.forall_mem_cons, List.not_mem_nil, false_imp_iff, implies_true, and_true, ne_eq, unit_eq_zero]
    omega

theorem utf8Bytes_ne_zero (unended : Char.ofNat 0 ∉ characters) : ∀ byte ∈ utf8Bytes characters, byte ≠ 0 := by
  intro byte member
  obtain ⟨character, inside, member⟩ := List.mem_flatMap.mp member
  exact utf8EncodeChar_ne_zero (fun same => unended (same ▸ inside)) byte member

theorem utf16Units_ne_zero (unended : Char.ofNat 0 ∉ characters) : ∀ unit ∈ utf16Units characters, unit ≠ 0 := by
  intro unit member
  obtain ⟨character, inside, member⟩ := List.mem_flatMap.mp member
  exact utf16EncodeChar_ne_zero (fun same => unended (same ▸ inside)) unit member

theorem utf16EncodeChar_length_le (character : Char) :
    (utf16EncodeChar character).length ≤ (String.utf8EncodeChar character).length := by
  unfold utf16EncodeChar String.utf8EncodeChar
  dsimp only
  split_ifs
  all_goals
    simp only [List.length_cons, List.length_nil]
    omega

theorem utf16Units_length_le (characters : List Char) :
    (utf16Units characters).length ≤ (utf8Bytes characters).length := by
  induction characters with
  | nil => exact Nat.le_refl 0
  | cons character characters ih =>
      rw [utf16Units_cons, utf8Bytes_cons, List.length_append, List.length_append]
      exact Nat.add_le_add (utf16EncodeChar_length_le character) ih

theorem utf8Bytes_ne_nil (some : characters ≠ []) : utf8Bytes characters ≠ [] := by
  cases characters with
  | nil => exact absurd rfl some
  | cons character characters => simp [String.utf8EncodeChar_ne_nil]

theorem takeWhile_utf8Bytes (characters : List Char) :
    (utf8Bytes characters).takeWhile (· ≠ 0) = utf8Bytes (characters.takeWhile (· ≠ Char.ofNat 0)) := by
  induction characters with
  | nil => rfl
  | cons character characters ih =>
      by_cases last : character = Char.ofNat 0
      · rw [List.takeWhile_cons_of_neg (by simpa using last), last]
        rfl
      · have bytes := utf8EncodeChar_ne_zero last
        rw [List.takeWhile_cons_of_pos (by simpa using last), utf8Bytes_cons, utf8Bytes_cons,
          List.takeWhile_append_of_pos (by simpa using bytes), ih]

theorem utf8EncodeChar_prefix {other : Char} {bytes bytes' : List UInt8}
    (same : String.utf8EncodeChar character ++ bytes = String.utf8EncodeChar other ++ bytes') : character = other := by
  have first := @ByteArray.utf8DecodeChar?_utf8EncodeChar_append bytes.toByteArray character
  have second := @ByteArray.utf8DecodeChar?_utf8EncodeChar_append bytes'.toByteArray other
  rw [← List.toByteArray_append, same, List.toByteArray_append, second] at first
  exact (Option.some.inj first).symm

theorem utf8Bytes_injective {others : List Char} (same : utf8Bytes characters = utf8Bytes others) :
    characters = others := by
  induction characters generalizing others with
  | nil =>
      cases others with
      | nil => rfl
      | cons other others => simp [utf8Bytes] at same
  | cons character characters ih =>
      cases others with
      | nil => simp [utf8Bytes] at same
      | cons other others =>
          rw [utf8Bytes_cons, utf8Bytes_cons] at same
          obtain rfl := utf8EncodeChar_prefix same
          rw [ih (List.append_cancel_left same)]

theorem ascii_value {value : Nat} (ascii : value < 0x80) : (Char.ofNat value).val.toNat = value := by
  have valid : value.isValidChar := Or.inl (by omega)
  rw [Char.ofNat, dif_pos valid]
  rfl

theorem utf8Bytes_ascii {bytes : List UInt8} (ascii : ∀ byte ∈ bytes, byte.toNat < 0x80) :
    utf8Bytes (bytes.map fun byte => Char.ofNat byte.toNat) = bytes := by
  induction bytes with
  | nil => rfl
  | cons byte bytes ih =>
      obtain ⟨first, rest⟩ := List.forall_mem_cons.mp ascii
      have value : (Char.ofNat byte.toNat).val.toNat = byte.toNat := ascii_value first
      have encoded : String.utf8EncodeChar (Char.ofNat byte.toNat) = [byte] := by
        unfold String.utf8EncodeChar
        dsimp only
        rw [value, if_pos (Nat.le_of_lt_succ first)]
        simp
      rw [List.map_cons, utf8Bytes_cons, encoded, ih rest]
      rfl

theorem isUtf8_iff (bytes : List UInt8) : IsUtf8 bytes ↔ bytes.toByteArray.IsValidUTF8 := by
  constructor
  · rintro ⟨characters, rfl⟩
    exact .intro characters rfl
  · rintro ⟨characters, same⟩
    exact ⟨characters, List.toByteArray_inj.mp same⟩

instance : DecidablePred IsUtf8 := fun bytes => decidable_of_iff _ (isUtf8_iff bytes).symm

theorem not_isUtf8_cut (characters : List Char) {count : Nat} (positive : 0 < count)
    (inner : count < (String.utf8EncodeChar character).length) :
    ¬IsUtf8 (utf8Bytes characters ++ (String.utf8EncodeChar character).take count) := by
  have taken : ((String.utf8EncodeChar character).take count).length = count :=
    List.length_take_of_le (Nat.le_of_lt inner)
  rintro ⟨others, same⟩
  induction characters generalizing others with
  | nil =>
      have length := congrArg List.length same
      rw [utf8Bytes, List.flatMap_nil, List.nil_append, taken] at length
      cases others with
      | nil => exact absurd length (Nat.ne_of_gt positive)
      | cons other others =>
          have whole := List.take_append_drop count (String.utf8EncodeChar character)
          rw [show (String.utf8EncodeChar character).take count = utf8Bytes (other :: others) from same, utf8Bytes_cons,
            List.append_assoc] at whole
          obtain rfl := utf8EncodeChar_prefix (whole.trans (List.append_nil _).symm)
          rw [utf8Bytes_cons, List.length_append] at length
          omega
  | cons first characters ih =>
      cases others with
      | nil => simp [utf8Bytes] at same
      | cons other others =>
          rw [utf8Bytes_cons, utf8Bytes_cons, List.append_assoc] at same
          obtain rfl := utf8EncodeChar_prefix same
          exact ih others (List.append_cancel_left same)

theorem take_utf8Bytes (characters : List Char) (size : Nat) :
    ∃ front, (∀ character ∈ front, character ∈ characters) ∧
      ((utf8Bytes characters).take size = utf8Bytes front ∨
        ∃ character count, 0 < count ∧ count < (String.utf8EncodeChar character).length ∧
          (utf8Bytes characters).take size = utf8Bytes front ++ (String.utf8EncodeChar character).take count) := by
  induction characters generalizing size with
  | nil => exact ⟨[], by simp, Or.inl (by simp [utf8Bytes])⟩
  | cons character characters ih =>
      rw [utf8Bytes_cons, List.take_append]
      rcases Nat.lt_or_ge size (String.utf8EncodeChar character).length with inner | whole
      · refine ⟨[], by simp, ?_⟩
        rw [Nat.sub_eq_zero_of_le (Nat.le_of_lt inner), List.take_zero, List.append_nil]
        rcases Nat.eq_zero_or_pos size with rfl | positive
        · exact Or.inl rfl
        · exact Or.inr ⟨character, size, positive, inner, rfl⟩
      · obtain ⟨front, members, parts⟩ := ih (size - (String.utf8EncodeChar character).length)
        rw [List.take_of_length_le whole]
        refine ⟨character :: front, ?_, ?_⟩
        · intro other member
          rcases List.mem_cons.mp member with rfl | member
          · exact List.mem_cons_self
          · exact List.mem_cons_of_mem _ (members other member)
        · rw [utf8Bytes_cons]
          rcases parts with text | ⟨last, count, positive, inner, text⟩
          · exact Or.inl (by rw [text])
          · exact Or.inr ⟨last, count, positive, inner, by rw [text, List.append_assoc]⟩

end Fsapfs.Coding
