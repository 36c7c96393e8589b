import Fsapfs.Btree.NameEncodings
import Fsapfs.PathStrings

namespace Fsapfs
open Program Coding

/-- What is relied on of libuna: characters are copied from and to UTF-8. -/
structure Characters.Correct (libuna : Characters) : Prop where
  decodes : libuna.Decodes UInt8.toNat String.utf8EncodeChar
  encodes : ∀ character : Char, libuna.copyTo character.val.toNat = .ok (String.utf8EncodeChar character)

section hexadecimal

theorem foldlM_addHexadecimal {width : Nat} (value : Nat) (fits : width ≤ 8) :
    (hexDigits width value).foldlM addHexadecimal 0 = .ok (value % 16 ^ width) := by
  induction width generalizing value with
  | zero =>
      rw [Nat.pow_zero, Nat.mod_one]
      rfl
  | succ width ih =>
      have digit : value % 16 < 2 ^ 4 := Nat.mod_lt _ (by simp)
      have room : value / 16 % 16 ^ width * 2 ^ 4 < 2 ^ 32 := by
        have small : value / 16 % 16 ^ width < 16 ^ width := Nat.mod_lt _ (Nat.pow_pos (by simp))
        have most : 16 ^ width ≤ 16 ^ 7 := Nat.pow_le_pow_right (by simp) (by omega)
        omega
      have shifted : (value / 16 % 16 ^ width) <<< 4 % 2 ^ 32 ||| value % 16 = value % 16 ^ (width + 1) := by
        rw [Nat.shiftLeft_eq, Nat.mod_eq_of_lt room, ← Nat.shiftLeft_eq, ← Nat.shiftLeft_add_eq_or_of_lt digit,
          Nat.shiftLeft_eq, Nat.pow_succ' (m := 16), Nat.mod_mul]
        omega
      rw [hexDigits, List.foldlM_append, ih _ (by omega), ok_bind, List.foldlM_cons, addHexadecimal,
        hexDigitValue_hexDigit digit]
      simp only [ok_bind, List.foldlM_nil, shifted]
      rfl

theorem copyHexadecimal_hexDigits {width value : Nat} (positive : 0 < width) (width_le : width ≤ 8)
    (fits : value < 16 ^ width) : copyHexadecimalToInteger32Bit (hexDigits width value) = .ok value := by
  unfold copyHexadecimalToInteger32Bit
  have size : ¬((hexDigits width value).length = 0 ∨ (hexDigits width value).length > ssizeMax) := by
    rw [hexDigits_length]
    unfold ssizeMax
    omega
  rw [if_neg size, foldlM_addHexadecimal value width_le, Nat.mod_eq_of_lt fits]

end hexadecimal

section escape

variable (short : Nat → Bool)

def escape (character : Char) : List UInt8 :=
  if short character.val.toNat then escapeCharacter :: 120 :: hexDigits 2 character.val.toNat
  else if IsUnprintable character.val.toNat then escapeCharacter :: 85 :: hexDigits 8 character.val.toNat
  else if character.val.toNat = escapeCharacter.toNat then [escapeCharacter, escapeCharacter]
  else String.utf8EncodeChar character

variable {short}

theorem IsUnprintable.high {character : Nat} (unprintable : IsUnprintable character) : 0x7ff < character := by
  have masked : character &&& 0xffff ≤ character := Nat.and_le_left
  unfold IsUnprintable at unprintable
  omega

theorem length_utf8EncodeChar_bounds (character : Char) :
    1 ≤ (String.utf8EncodeChar character).length ∧ (String.utf8EncodeChar character).length ≤ 4 := by
  rw [String.length_utf8EncodeChar]
  exact ⟨character.utf8Size_pos, character.utf8Size_le_four⟩

theorem length_utf8EncodeChar_high {character : Char} (high : 0x7ff < character.val.toNat) :
    3 ≤ (String.utf8EncodeChar character).length := by
  unfold String.utf8EncodeChar
  dsimp only
  rw [if_neg (by omega), if_neg (by omega)]
  split_ifs <;> simp

theorem escape_length_le (character : Char) :
    (escape short character).length ≤ 4 * (String.utf8EncodeChar character).length := by
  have bounds := length_utf8EncodeChar_bounds character
  unfold escape
  split_ifs with brief wide same
  · simp only [List.length_cons, hexDigits_length]
    omega
  · have long := length_utf8EncodeChar_high wide.high
    simp only [List.length_cons, hexDigits_length]
    omega
  · simp only [List.length_cons, List.length_nil]
    omega
  · omega

theorem le_escape_length (character : Char) :
    (String.utf8EncodeChar character).length ≤ (escape short character).length := by
  have bounds := length_utf8EncodeChar_bounds character
  unfold escape
  split_ifs with brief wide same
  · simp only [List.length_cons, hexDigits_length]
    omega
  · simp only [List.length_cons, hexDigits_length]
    omega
  · obtain rfl : character = '\\' := Char.ext (UInt32.toNat_inj.mp same)
    decide
  · exact Nat.le_refl _

def escapeAll (short : Nat → Bool) (characters : List Char) : List UInt8 := characters.flatMap (escape short)

@[simp] theorem escapeAll_cons (character : Char) (characters : List Char) :
    escapeAll short (character :: characters) = escape short character ++ escapeAll short characters := rfl

theorem escapeAll_length_le (characters : List Char) :
    (escapeAll short characters).length ≤ 4 * (utf8Bytes characters).length := by
  induction characters with
  | nil => exact Nat.zero_le _
  | cons character characters ih =>
      have first := @escape_length_le short character
      rw [escapeAll_cons, utf8Bytes_cons, List.length_append, List.length_append]
      omega

theorem le_escapeAll_length (characters : List Char) :
    (utf8Bytes characters).length ≤ (escapeAll short characters).length := by
  induction characters with
  | nil => exact Nat.zero_le _
  | cons character characters ih =>
      rw [escapeAll_cons, utf8Bytes_cons, List.length_append, List.length_append]
      exact Nat.add_le_add (le_escape_length character) ih

end escape

section encode

variable {libuna : Characters} {short : Nat → Bool} {size : Nat}

theorem copyCharacterTo_ok (correct : libuna.Correct) {path : List UInt8} {character : Char}
    (room : path.length + (String.utf8EncodeChar character).length ≤ size) :
    copyCharacterTo libuna size path character.val.toNat = .ok (path ++ String.utf8EncodeChar character) := by
  simp only [copyCharacterTo, correct.encodes]
  exact if_neg (Nat.not_lt.mpr room)

theorem escapeCharacterTo_ok (correct : libuna.Correct) {path : List UInt8} {character : Char}
    (room : path.length + (escape short character).length ≤ size) :
    escapeCharacterTo libuna short size path character.val.toNat = .ok (path ++ escape short character) := by
  unfold escapeCharacterTo
  unfold escape at room ⊢
  split_ifs at room ⊢ with brief wide same full
  · exact if_pos (by omega)
  · exact if_pos (by omega)
  · exact absurd full (Nat.not_lt.mpr room)
  · rw [same]
    rfl
  · exact copyCharacterTo_ok correct room

theorem Characters.Correct.next (correct : libuna.Correct) (character : Char) (more : List UInt8) :
    libuna.next (String.utf8EncodeChar character ++ more) = .ok (character.val.toNat, more) :=
  correct.decodes.next character more

theorem next_cons {units : List UInt8} {read : Nat × List UInt8} (next : libuna.next units = .ok read) :
    ∃ unit rest, units = unit :: rest := by
  cases units with
  | nil =>
      have shorter := libuna.next_shorter (show libuna.next [] = .ok (read.1, read.2) from next)
      cases shorter
  | cons unit rest => exact ⟨unit, rest, rfl⟩

end encode

section decode

variable {libuna : Characters} {short accepted : Nat → Bool}

theorem readEscaped_short {character : Nat} (fits : character < 0x100) (allowed : accepted character) (more : List UInt8) :
    readEscaped accepted (120 :: hexDigits 2 character ++ more) = .ok (character, more) := by
  have digits := copyHexadecimal_hexDigits (show 0 < 2 by simp) (by simp) (show character < 16 ^ 2 from fits)
  have room : ¬(hexDigits 2 character ++ more).length < 2 := by
    rw [List.length_append, hexDigits_length]
    omega
  rw [List.cons_append, readEscaped, if_neg (by decide), if_pos rfl, if_neg room,
    List.take_left' (hexDigits_length 2 character), digits, ok_bind, if_pos allowed,
    List.drop_left' (hexDigits_length 2 character)]
  rfl

theorem readEscaped_wide {character : Nat} (fits : character < 16 ^ 8) (unprintable : IsUnprintable character)
    (more : List UInt8) : readEscaped accepted (85 :: hexDigits 8 character ++ more) = .ok (character, more) := by
  have digits := copyHexadecimal_hexDigits (show 0 < 8 by simp) (by simp) fits
  have room : ¬(hexDigits 8 character ++ more).length < 8 := by simp
  rw [List.cons_append, readEscaped, if_neg (by decide), if_neg (by decide), if_pos rfl, if_neg room,
    List.take_left' (hexDigits_length 8 character), digits, ok_bind, if_pos unprintable,
    List.drop_left' (hexDigits_length 8 character)]
  rfl

theorem next_escape (correct : libuna.Correct) (character : Char)
    (brief : short character.val.toNat → character.val.toNat < 0x100 ∧ accepted character.val.toNat)
    (more : List UInt8) :
    (∃ rest, libuna.next (escape short character ++ more) = .ok (escapeCharacter.toNat, rest) ∧
      readEscaped accepted rest = .ok (character.val.toNat, more)) ∨
    (short character.val.toNat = false ∧ character.val.toNat ≠ escapeCharacter.toNat ∧
      libuna.next (escape short character ++ more) = .ok (character.val.toNat, more)) := by
  have escaped (rest : List UInt8) : libuna.next (escapeCharacter :: rest) = .ok (escapeCharacter.toNat, rest) :=
    correct.next '\\' rest
  unfold escape
  split_ifs with two eight same
  · obtain ⟨fits, allowed⟩ := brief two
    exact Or.inl ⟨_, escaped _, readEscaped_short fits allowed more⟩
  · have range := value_lt character
    exact Or.inl ⟨_, escaped _, readEscaped_wide (by omega) eight more⟩
  · refine Or.inl ⟨_, escaped _, ?_⟩
    change readEscaped accepted (escapeCharacter :: more) = _
    rw [readEscaped, if_pos rfl, same]
  · exact Or.inr ⟨by simpa using two, same, correct.next character more⟩

end decode

section runs

variable {libuna : Characters} {size : Nat}

theorem copyEscaped_utf8Bytes (correct : libuna.Correct) {ends : Bool} {short : Nat → Bool} {characters : List Char}
    (unended : Char.ofNat 0 ∉ characters) {fuel : Nat} (enough : (utf8Bytes characters).length ≤ fuel)
    {path : List UInt8} (room : path.length + (escapeAll short characters).length ≤ size) :
    copyEscaped libuna ends short size fuel path (utf8Bytes characters) = .ok (path ++ escapeAll short characters) := by
  induction characters generalizing fuel path with
  | nil => cases fuel <;> simp [utf8Bytes, escapeAll, copyEscaped]
  | cons character characters ih =>
      obtain ⟨first, unended⟩ := not_or.mp (List.mem_cons.not.mp unended)
      have bounds := length_utf8EncodeChar_bounds character
      have read := correct.next character (utf8Bytes characters)
      obtain ⟨byte, rest, units⟩ := next_cons read
      rw [utf8Bytes_cons, List.length_append] at enough
      rw [escapeAll_cons, List.length_append] at room
      obtain ⟨fuel, rfl⟩ := Nat.exists_eq_succ_of_ne_zero (show fuel ≠ 0 by omega)
      rw [utf8Bytes_cons, units, copyEscaped, ← units, read, ok_bind]
      dsimp only
      rw [if_neg fun ended => value_ne_zero (Ne.symm first) ended.2, escapeCharacterTo_ok correct (by omega), ok_bind,
        ih unended (by omega) (by rw [List.length_append]; omega), List.append_assoc, escapeAll_cons]

def Unescapes (libuna : Characters) (short : Nat → Bool) (readCharacter : Nat → List UInt8 → Result (Nat × List UInt8))
    (character : Char) : Prop :=
  ∀ more, ∃ first rest, libuna.next (escape short character ++ more) = .ok (first, rest) ∧
    readCharacter first rest = .ok (character.val.toNat, more)

theorem copyUnescaped_escapeAll (correct : libuna.Correct) {short : Nat → Bool}
    {readCharacter : Nat → List UInt8 → Result (Nat × List UInt8)} {characters : List Char}
    (unescapes : ∀ character ∈ characters, Unescapes libuna short readCharacter character) {fuel : Nat}
    (enough : (escapeAll short characters).length ≤ fuel) {fileEntryPath : List UInt8}
    (room : fileEntryPath.length + (utf8Bytes characters).length ≤ size) :
    copyUnescaped libuna readCharacter size fuel fileEntryPath (escapeAll short characters) =
      .ok (fileEntryPath ++ utf8Bytes characters) := by
  induction characters generalizing fuel fileEntryPath with
  | nil => cases fuel <;> simp [utf8Bytes, escapeAll, copyUnescaped]
  | cons character characters ih =>
      obtain ⟨here, unescapes⟩ := List.forall_mem_cons.mp unescapes
      obtain ⟨first, rest, next, read⟩ := here (escapeAll short characters)
      obtain ⟨byte, tail, units⟩ := next_cons next
      have bounds := length_utf8EncodeChar_bounds character
      have longer := @le_escape_length short character
      rw [escapeAll_cons, List.length_append] at enough
      rw [utf8Bytes_cons, List.length_append] at room
      obtain ⟨fuel, rfl⟩ := Nat.exists_eq_succ_of_ne_zero (show fuel ≠ 0 by omega)
      rw [escapeAll_cons, units, copyUnescaped, ← units, next, ok_bind]
      dsimp only
      rw [read, ok_bind]
      dsimp only
      rw [copyCharacterTo_ok correct (by omega), ok_bind,
        ih unescapes (by omega) (by rw [List.length_append]; omega), List.append_assoc, utf8Bytes_cons]

theorem unescapePath_separator (correct : libuna.Correct) {short : Nat → Bool}
    {readCharacter : Nat → List UInt8 → Result (Nat × List UInt8)} {characters : List Char}
    (unescapes : ∀ character ∈ characters, Unescapes libuna short readCharacter character)
    (separated : ∀ more, readCharacter separator.toNat more = .ok (separator.toNat, more))
    (fits : (escapeAll short characters).length + 2 ≤ ssizeMax) :
    unescapePath libuna readCharacter (separator :: escapeAll short characters) =
      .ok (separator :: utf8Bytes characters, (escapeAll short characters).length + 2) := by
  have next : libuna.next (separator :: escapeAll short characters) =
      .ok (separator.toNat, escapeAll short characters) := correct.next '/' _
  have copied : copyCharacterTo libuna ((escapeAll short characters).length + 2) [] separator.toNat = .ok [separator] :=
    @copyCharacterTo_ok _ _ correct [] '/' (Nat.le_add_left 1 _)
  have longer := @le_escapeAll_length short characters
  unfold unescapePath
  rw [List.length_cons, if_neg (Nat.not_lt.mpr fits), copyUnescaped, next, ok_bind]
  dsimp only
  rw [separated, ok_bind]
  dsimp only
  rw [copied, ok_bind, copyUnescaped_escapeAll correct unescapes (Nat.le_refl _) (by simp; omega), ok_bind,
    if_neg (by simp; omega)]
  rfl

end runs

/-- A name of a file entry that is short enough to be escaped. -/
structure EntryName where
  characters : List Char
  positive : characters ≠ []
  unended : Char.ofNat 0 ∉ characters
  fits : (utf8Bytes characters).length ≤ (ssizeMax - 1) / 10

namespace EntryName

variable (name : EntryName)

def utf8String : List UInt8 := utf8Bytes name.characters

theorem requireEscapable_ok : requireEscapable name.utf8String.length = .ok () := by
  have positive := List.length_pos_iff.mpr (utf8Bytes_ne_nil name.positive)
  have fits := name.fits
  unfold requireEscapable utf8String
  rw [if_neg, if_neg (Nat.not_lt.mpr fits)]
  unfold ssizeMax at *
  omega

theorem escapeAll_fits (short : Nat → Bool) :
    (escapeAll short name.characters).length + 3 ≤ ssizeMax ∧
      (escapeAll short name.characters).length ≤ name.utf8String.length * 10 := by
  have bound := @escapeAll_length_le short name.characters
  have fits := name.fits
  unfold utf8String
  constructor
  · unfold ssizeMax at *
    omega
  · omega

theorem copyEscaped_ok {libuna : Characters} (correct : libuna.Correct) (ends : Bool) (short : Nat → Bool) :
    copyEscaped libuna ends short (name.utf8String.length * 10 + 1) name.utf8String.length [] name.utf8String =
      .ok (escapeAll short name.characters) := by
  obtain ⟨_, room⟩ := name.escapeAll_fits short
  exact copyEscaped_utf8Bytes correct name.unended (Nat.le_refl _) (by simp; omega)

end EntryName

namespace MountPathString

variable {libuna : Characters}

theorem escapedShort_iff {character : Nat} : escapedShort character ↔
    character ≤ 0x1f ∨ character = 47 ∨ (0x7f ≤ character ∧ character ≤ 0x9f) :=
  decide_eq_true_iff

theorem acceptedShort_iff {escapedValue : Nat} : acceptedShort escapedValue ↔
    (0x01 ≤ escapedValue ∧ escapedValue ≤ 0x1f) ∨ escapedValue = 47 ∨ (0x7f ≤ escapedValue ∧ escapedValue ≤ 0x9f) :=
  decide_eq_true_iff

theorem readCharacter_unescapes (correct : libuna.Correct) {character : Char} (other : character ≠ Char.ofNat 0) :
    Unescapes libuna escapedShort readCharacter character := by
  intro more
  have positive := value_ne_zero other
  have brief : escapedShort character.val.toNat →
      character.val.toNat < 0x100 ∧ acceptedShort character.val.toNat := by
    intro two
    have range := escapedShort_iff.mp two
    rw [acceptedShort_iff]
    omega
  rcases next_escape correct character brief more with ⟨rest, next, read⟩ | ⟨plain, unescaped, next⟩
  · refine ⟨_, _, next, ?_⟩
    rw [readCharacter, if_neg (by decide), if_pos rfl, read]
  · have inner : character.val.toNat ≠ cpathSeparator.toNat := by
      intro same
      rw [escapedShort_iff.mpr (Or.inr (Or.inl same))] at plain
      cases plain
    refine ⟨_, _, next, ?_⟩
    rw [readCharacter, if_neg inner, if_neg unescaped]

theorem copyFromFileEntryPath_ok (correct : libuna.Correct) (name : EntryName) :
    copyFromFileEntryPath libuna name.utf8String =
      .ok (escapeAll escapedShort name.characters, name.utf8String.length * 10 + 1) := by
  obtain ⟨_, room⟩ := name.escapeAll_fits escapedShort
  unfold copyFromFileEntryPath
  rw [name.requireEscapable_ok, ok_bind]
  dsimp only
  rw [name.copyEscaped_ok correct, ok_bind, if_neg (by omega)]
  rfl

theorem copyToFileEntryPath_ok (correct : libuna.Correct) (name : EntryName) :
    copyToFileEntryPath libuna (cpathSeparator :: escapeAll escapedShort name.characters) =
      .ok (separator :: name.utf8String, (escapeAll escapedShort name.characters).length + 2) := by
  obtain ⟨fits, _⟩ := name.escapeAll_fits escapedShort
  have read := unescapePath_separator correct
    (fun character member => readCharacter_unescapes correct fun ended => name.unended (ended ▸ member))
    (fun more => if_pos rfl) (Nat.le_of_succ_le fits)
  unfold copyToFileEntryPath requireUnescapable
  rw [if_neg (by simp; omega), ok_bind, load_of_getElem? rfl, ok_bind, if_neg (by simp)]
  exact read

end MountPathString

namespace PathString

variable {libuna : Characters}

theorem escapedShort_iff {character : Nat} : escapedShort character ↔
    character ≤ 0x1f ∨ (0x7f ≤ character ∧ character ≤ 0x9f) :=
  decide_eq_true_iff

theorem acceptedShort_iff {escapedValue : Nat} : acceptedShort escapedValue ↔
    (0x01 ≤ escapedValue ∧ escapedValue ≤ 0x1f) ∨ (0x7f ≤ escapedValue ∧ escapedValue ≤ 0x9f) :=
  decide_eq_true_iff

theorem readCharacter_unescapes (correct : libuna.Correct) {character : Char} (other : character ≠ Char.ofNat 0) :
    Unescapes libuna escapedShort (readCharacter separator) character := by
  intro more
  have positive := value_ne_zero other
  have same : (if character.val.toNat = separator.toNat then separator.toNat else character.val.toNat) =
      character.val.toNat := by
    split
    next same => exact same.symm
    next => rfl
  have brief : escapedShort character.val.toNat →
      character.val.toNat < 0x100 ∧ acceptedShort character.val.toNat := by
    intro two
    have range := escapedShort_iff.mp two
    rw [acceptedShort_iff]
    omega
  rcases next_escape correct character brief more with ⟨rest, next, read⟩ | ⟨plain, unescaped, next⟩
  · refine ⟨_, _, next, ?_⟩
    rw [readCharacter, readUnescaped, if_pos rfl, read, ok_bind, same]
    rfl
  · refine ⟨_, _, next, ?_⟩
    rw [readCharacter, readUnescaped, if_neg unescaped, ok_bind, same]
    rfl

theorem copyFromFileEntryPath_ok (correct : libuna.Correct) (name : EntryName) :
    copyFromFileEntryPath libuna name.utf8String =
      .ok (escapeAll escapedShort name.characters, name.utf8String.length * 10 + 1) := by
  obtain ⟨_, room⟩ := name.escapeAll_fits escapedShort
  unfold copyFromFileEntryPath
  rw [name.requireEscapable_ok, ok_bind]
  dsimp only
  rw [name.copyEscaped_ok correct, ok_bind, if_neg (by omega)]
  rfl

theorem copyToFileEntryPath_ok (correct : libuna.Correct) (name : EntryName) :
    copyToFileEntryPath libuna (separator :: escapeAll escapedShort name.characters) separator =
      .ok (separator :: name.utf8String, (escapeAll escapedShort name.characters).length + 2) := by
  obtain ⟨fits, _⟩ := name.escapeAll_fits escapedShort
  have read := unescapePath_separator correct
    (fun character member => readCharacter_unescapes correct fun ended => name.unended (ended ▸ member))
    (fun more => rfl) (Nat.le_of_succ_le fits)
  unfold copyToFileEntryPath requireUnescapable
  rw [if_neg (by simp; omega), ok_bind]
  exact read

end PathString

section text

def IsControl (character : Nat) : Prop := character ≤ 0x1f ∨ (0x7f ≤ character ∧ character ≤ 0x9f)

def Mountable (character : Char) : Prop := character ≠ '/' ∧ ¬IsControl character.val.toNat

def IsMountable (path : List UInt8) : Prop := ∃ characters, path = utf8Bytes characters ∧ ∀ c ∈ characters, Mountable c

theorem isMountable_append {front back : List UInt8} (first : IsMountable front) (second : IsMountable back) :
    IsMountable (front ++ back) := by
  obtain ⟨characters, rfl, mountable⟩ := first
  obtain ⟨characters', rfl, mountable'⟩ := second
  exact ⟨characters ++ characters', List.flatMap_append.symm, List.forall_mem_append.mpr ⟨mountable, mountable'⟩⟩

theorem isMountable_ascii {bytes : List UInt8}
    (printable : ∀ byte ∈ bytes, 0x20 ≤ byte.toNat ∧ byte.toNat < 0x7f ∧ byte.toNat ≠ 47) : IsMountable bytes := by
  refine ⟨_, (utf8Bytes_ascii fun byte member => ?_).symm, ?_⟩
  · have range := printable byte member
    omega
  · intro character member
    obtain ⟨byte, inside, rfl⟩ := List.mem_map.mp member
    have range := printable byte inside
    have value := ascii_value (show byte.toNat < 0x80 by omega)
    refine ⟨fun same => ?_, fun control => ?_⟩
    · rw [same] at value
      exact range.2.2 value.symm
    · rw [value] at control
      unfold IsControl at control
      omega

theorem isMountable_digits (letter : UInt8) (width value : Nat)
    (printable : 0x30 ≤ letter.toNat ∧ letter.toNat < 0x7f) :
    IsMountable (escapeCharacter :: letter :: hexDigits width value) := by
  apply isMountable_ascii
  refine List.forall_mem_cons.mpr ⟨by decide, List.forall_mem_cons.mpr ⟨by omega, fun digit member => ?_⟩⟩
  have range := mem_hexDigits member
  omega

theorem isMountable_escapeAll {short : Nat → Bool} {characters : List Char}
    (covers : ∀ character ∈ characters, short character.val.toNat = false → Mountable character) :
    IsMountable (escapeAll short characters) := by
  induction characters with
  | nil => exact ⟨[], rfl, by simp⟩
  | cons character characters ih =>
      obtain ⟨here, covers⟩ := List.forall_mem_cons.mp covers
      refine isMountable_append ?_ (ih covers)
      unfold escape
      split_ifs with two eight same
      · exact isMountable_digits 120 2 _ (by decide +kernel)
      · exact isMountable_digits 85 8 _ (by decide +kernel)
      · exact isMountable_ascii (by decide +kernel)
      · refine ⟨[character], (List.append_nil _).symm, ?_⟩
        intro other member
        rw [List.mem_singleton.mp member]
        exact here (by simpa using two)

theorem MountPathString.covers (character : Char) (plain : MountPathString.escapedShort character.val.toNat = false) :
    Mountable character := by
  have outside : ¬MountPathString.escapedShort character.val.toNat := ne_true_of_eq_false plain
  rw [MountPathString.escapedShort_iff] at outside
  refine ⟨fun same => outside (Or.inr (Or.inl ?_)), fun control => outside ?_⟩
  · rw [same]
    rfl
  · unfold IsControl at control
    omega

end text

variable {libuna : Characters}

/-- A name that is escaped for the mounted file system is read back from a path of it, and no other name is escaped
alike; so is one without a separator that is escaped for display. -/
theorem escaped_names_return (correct : libuna.Correct) (name : EntryName) :
    (∃ path pathSize, MountPathString.copyFromFileEntryPath libuna name.utf8String = .ok (path, pathSize) ∧
      path.length < pathSize ∧ IsMountable path ∧
      (∃ size, MountPathString.copyToFileEntryPath libuna (cpathSeparator :: path) =
        .ok (separator :: name.utf8String, size)) ∧
      ∀ (other : EntryName) (size : Nat),
        MountPathString.copyFromFileEntryPath libuna other.utf8String = .ok (path, size) →
          other.characters = name.characters) ∧
    ('/' ∉ name.characters →
      ∃ path pathSize, PathString.copyFromFileEntryPath libuna name.utf8String = .ok (path, pathSize) ∧
        path.length < pathSize ∧ IsMountable path ∧
        ∃ size, PathString.copyToFileEntryPath libuna (separator :: path) 47 =
          .ok (separator :: name.utf8String, size)) := by
  constructor
  · obtain ⟨_, room⟩ := name.escapeAll_fits MountPathString.escapedShort
    have back := MountPathString.copyToFileEntryPath_ok correct name
    refine ⟨_, _, MountPathString.copyFromFileEntryPath_ok correct name, Nat.lt_succ_of_le room,
      isMountable_escapeAll fun character _ => MountPathString.covers character, ⟨_, back⟩, ?_⟩
    intro other size copied
    rw [MountPathString.copyFromFileEntryPath_ok correct other] at copied
    have same := (Prod.mk.inj (Except.ok.inj copied)).1
    have back' := MountPathString.copyToFileEntryPath_ok correct other
    rw [same, back] at back'
    have strings := (List.cons.inj (Prod.mk.inj (Except.ok.inj back')).1).2
    exact (utf8Bytes_injective strings).symm
  · intro inner
    obtain ⟨_, room⟩ := name.escapeAll_fits PathString.escapedShort
    refine ⟨_, _, PathString.copyFromFileEntryPath_ok correct name, Nat.lt_succ_of_le room,
      isMountable_escapeAll fun character member plain => ?_, ⟨_, PathString.copyToFileEntryPath_ok correct name⟩⟩
    have outside : ¬PathString.escapedShort character.val.toNat := ne_true_of_eq_false plain
    rw [PathString.escapedShort_iff] at outside
    exact ⟨fun same => inner (same ▸ member), outside⟩

namespace PathString.Sample

def characters : Characters where
  toCharacterEncoding := FileSystemBtree.Sample.utf8
  copyTo character :=
    if character.isValidChar then .ok (String.utf8EncodeChar (Char.ofNat character)) else .error .unsupportedValue

theorem characters_correct : characters.Correct where
  decodes := FileSystemBtree.Sample.utf8_decodes
  encodes character := by
    have valid : character.val.toNat.isValidChar := character.valid
    have same : Char.ofNat character.val.toNat = character := Char.ofNat_toNat character
    exact (if_pos valid).trans (by rw [same])

def name : EntryName where
  characters := ['a', '/', '\\', Char.ofNat 0xfffe]
  positive := by simp
  unended := by decide
  fits := by decide

def shown : EntryName where
  characters := ['a', '\\', Char.ofNat 7, Char.ofNat 0xfffe, 'b']
  positive := by simp
  unended := by decide
  fits := by decide

end PathString.Sample

open PathString.Sample in
theorem escaped_names_return_sample :
    (∃ path pathSize, MountPathString.copyFromFileEntryPath characters name.utf8String = .ok (path, pathSize) ∧
      path.length < pathSize ∧ IsMountable path ∧
      (∃ size, MountPathString.copyToFileEntryPath characters (cpathSeparator :: path) =
        .ok (separator :: name.utf8String, size)) ∧
      ∀ (other : EntryName) (size : Nat),
        MountPathString.copyFromFileEntryPath characters other.utf8String = .ok (path, size) →
          other.characters = name.characters) ∧
      ∃ path pathSize, PathString.copyFromFileEntryPath characters shown.utf8String = .ok (path, pathSize) ∧
        path.length < pathSize ∧ IsMountable path ∧
        ∃ size, PathString.copyToFileEntryPath characters (separator :: path) 47 =
          .ok (separator :: shown.utf8String, size) :=
  ⟨(escaped_names_return characters_correct name).1, (escaped_names_return characters_correct shown).2 (by decide)⟩

end Fsapfs
