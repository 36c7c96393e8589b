import Fsapfs.Coding.Unicode
import Fsapfs.Unlocking

namespace Fsapfs
open Program Coding

def narrowStringLength : List UInt8 → Result Nat
  | [] => .error .undefined
  | byte :: memory =>
      if byte = 0 then .ok 0
      else do
        let length ← narrowStringLength memory
        return length + 1

theorem narrowStringLength_bytes {bytes : List UInt8} (unended : ∀ byte ∈ bytes, byte ≠ 0) (memory : List UInt8) :
    narrowStringLength (bytes ++ memory) = (narrowStringLength memory).map (· + bytes.length) := by
  induction bytes with
  | nil => cases found : narrowStringLength memory <;> simp [found, Except.map]
  | cons byte bytes ih =>
      rw [List.cons_append, narrowStringLength, if_neg (unended byte (List.mem_cons_self ..)),
        ih fun other member => unended other (List.mem_cons_of_mem _ member)]
      cases narrowStringLength memory with
      | error failure => rfl
      | ok length => exact congrArg Except.ok (Nat.add_assoc length bytes.length 1)

theorem narrowStringLength_zero {memory : List UInt8} :
    narrowStringLength memory = .ok 0 ↔ memory.head? = some 0 := by
  cases memory with
  | nil => simp [narrowStringLength]
  | cons byte memory =>
      rw [narrowStringLength]
      split_ifs with zero
      · simp [zero]
      · cases narrowStringLength memory <;> simp [zero, pure, Except.pure]

namespace Volume

/-- A buffer of the string that is in memory with its end of string character; the bytes that are copied are counted
by the caller. -/
def copyStringBuffer (memory : Memory) (utf8String : List UInt8) (utf8StringLength : Nat) : Result (List UInt8) := do
  let userPasswordSize ← narrowStringLength utf8String
  if userPasswordSize = 0 ∨ userPasswordSize > memoryMaximumAllocationSize - 1 then fail .valueOutOfBounds
  else if utf8StringLength > utf8String.length ∨ utf8StringLength > userPasswordSize + 1 then .error .undefined
  else
    let userPassword := utf8String.take utf8StringLength ++
      (contents memory.allocation 0 (userPasswordSize + 1)).drop utf8StringLength
    .ok (userPassword.set userPasswordSize 0)

/-- The password without the last byte of its buffer is what the unlock uses. -/
def setUtf8PasswordAt (store : Option (List UInt8) → Volume → Volume) (memory : Memory) (utf8String : List UInt8)
    (utf8StringLength : Nat) : VolumeCall Nat := do
  Call.update (store none)
  let userPassword ← Call.lift (copyStringBuffer memory utf8String utf8StringLength)
  Call.update (store (some userPassword.dropLast))
  return 1

/-- How a password is set: as UTF-8, with what is in memory after it, or as UTF-16. -/
inductive PasswordEntry
  | utf8 (memory : Memory) (following : List UInt8)
  | utf16

def PasswordEntry.set (utf8FromUtf16 : List UInt16 → Option (List UInt8)) (password : List Char) :
    PasswordEntry → VolumeCall Nat
  | utf8 memory following =>
      setUtf8PasswordAt setUserPassword memory (utf8Bytes password ++ following) (utf8Bytes password).length
  | utf16 => setUtf16Password setUserPassword utf8FromUtf16 (utf16Units password)

def PasswordEntry.Ended (password : List Char) : PasswordEntry → Prop
  | utf8 _ following =>
      following.head? = some 0 ∧ (utf8Bytes password).length ≤ memoryMaximumAllocationSize - 1
  | utf16 => False

variable {memory : Memory} {bytes following : List UInt8} {length : Nat} {volume : Volume}

theorem copyStringBuffer_ok (unended : ∀ byte ∈ bytes, byte ≠ 0) (some : bytes ≠ [])
    (ends : narrowStringLength following = .ok length) (small : length + bytes.length ≤ memoryMaximumAllocationSize - 1) :
    ∃ buffer rest, copyStringBuffer memory (bytes ++ following) bytes.length = .ok buffer ∧
      buffer.dropLast = bytes ++ rest ∧ rest.length = length := by
  have positive := List.length_pos_iff.mpr some
  have size : narrowStringLength (bytes ++ following) = .ok (length + bytes.length) := by
    rw [narrowStringLength_bytes unended, ends]
    rfl
  have inside : ¬(bytes.length > (bytes ++ following).length ∨ bytes.length > length + bytes.length + 1) := by
    rw [List.length_append]
    omega
  have left : ((contents memory.allocation 0 (length + bytes.length + 1)).drop bytes.length).length = length + 1 := by
    rw [List.length_drop, contents_length]
    omega
  unfold copyStringBuffer
  rw [size, ok_bind, if_neg (by omega), if_neg inside, List.take_left' rfl]
  refine ⟨_, ((contents memory.allocation 0 (length + bytes.length + 1)).drop bytes.length).dropLast, rfl, ?_, ?_⟩
  · rw [List.set_append_right _ _ (Nat.le_add_left _ _), Nat.add_sub_cancel]
    generalize (contents memory.allocation 0 (length + bytes.length + 1)).drop bytes.length = rest at left ⊢
    have some' : rest ≠ [] := List.ne_nil_of_length_pos (by omega)
    have last : rest = rest.dropLast ++ [rest.getLast some'] := (List.dropLast_append_getLast some').symm
    have place : rest.dropLast.length = length := by rw [List.length_dropLast, left, Nat.add_sub_cancel]
    rw [last, List.set_append_right _ _ (Nat.le_of_eq place), place, Nat.sub_self, List.set_cons_zero, ← List.append_assoc,
      List.dropLast_concat, List.dropLast_concat]
  · rw [List.length_dropLast, left, Nat.add_sub_cancel]

theorem setUtf8PasswordAt_ok {store : Option (List UInt8) → Volume → Volume} {buffer : List UInt8}
    {utf8String : List UInt8} (copied : copyStringBuffer memory utf8String length = .ok buffer) :
    setUtf8PasswordAt store memory utf8String length volume =
      (.ok 1, store (some buffer.dropLast) (store none volume)) := by
  unfold setUtf8PasswordAt
  rw [Call.update_bind, Call.bind_of_ok (Call.lift_run _ _ |>.trans (by rw [copied]))]
  rfl

theorem setUtf8PasswordAt_failed {store : Option (List UInt8) → Volume → Volume} {failure : Failure}
    {utf8String : List UInt8} (failed : copyStringBuffer memory utf8String length = .error failure) :
    setUtf8PasswordAt store memory utf8String length volume = (.error failure, store none volume) := by
  unfold setUtf8PasswordAt
  rw [Call.update_bind, Call.bind_of_error (Call.lift_run _ _ |>.trans (by rw [failed]))]

theorem set_replaces (utf8FromUtf16 : List UInt16 → Option (List UInt8)) (password : List Char) (entry : PasswordEntry)
    (volume volume' : Volume) : (entry.set utf8FromUtf16 password volume).1 = (entry.set utf8FromUtf16 password volume').1 ∧
      (entry.set utf8FromUtf16 password volume).2.userPassword =
        (entry.set utf8FromUtf16 password volume').2.userPassword := by
  cases entry with
  | utf8 memory following =>
      cases copied : copyStringBuffer memory (utf8Bytes password ++ following) (utf8Bytes password).length with
      | ok buffer =>
          simp only [PasswordEntry.set]
          rw [setUtf8PasswordAt_ok copied, setUtf8PasswordAt_ok copied]
          exact ⟨rfl, rfl⟩
      | error failure =>
          simp only [PasswordEntry.set]
          rw [setUtf8PasswordAt_failed copied, setUtf8PasswordAt_failed copied]
          exact ⟨rfl, rfl⟩
  | utf16 =>
      simp only [PasswordEntry.set, setUtf16Password, Call.update_bind]
      cases utf8FromUtf16 (utf16Units password) with
      | none => exact ⟨rfl, rfl⟩
      | some utf8String =>
          dsimp only
          by_cases refused : utf8String.length = 0 ∨ utf8String.length > memoryMaximumAllocationSize - 1
          · rw [if_pos refused]
            exact ⟨rfl, rfl⟩
          · rw [if_neg refused]
            exact ⟨rfl, rfl⟩

theorem utf8_exact_iff {password : List Char} (filled : password ≠ []) (unended : Char.ofNat 0 ∉ password) :
    ((setUtf8PasswordAt setUserPassword memory (utf8Bytes password ++ following) (utf8Bytes password).length volume).1 =
        .ok 1 ∧
      (setUtf8PasswordAt setUserPassword memory (utf8Bytes password ++ following) (utf8Bytes password).length
        volume).2.userPassword = some (utf8Bytes password)) ↔
      following.head? = some 0 ∧ (utf8Bytes password).length ≤ memoryMaximumAllocationSize - 1 := by
  have bytes := utf8Bytes_ne_zero unended
  have filled' := utf8Bytes_ne_nil filled
  have positive := List.length_pos_iff.mpr filled'
  generalize utf8Bytes password = string at bytes filled' positive ⊢
  have size := narrowStringLength_bytes bytes following
  cases found : narrowStringLength following with
  | error failure =>
      have failed : copyStringBuffer memory (string ++ following) string.length = .error failure := by
        unfold copyStringBuffer
        rw [size, found]
        rfl
      rw [setUtf8PasswordAt_failed failed]
      constructor
      · rintro ⟨accepted, _⟩
        cases accepted
      · rintro ⟨ended, _⟩
        cases found.symm.trans (narrowStringLength_zero.mpr ended)
  | ok length =>
      by_cases small : length + string.length ≤ memoryMaximumAllocationSize - 1
      · obtain ⟨buffer, rest, copied, whole, more⟩ :=
          @copyStringBuffer_ok memory _ _ _ bytes filled' found small
        rw [setUtf8PasswordAt_ok copied, whole]
        constructor
        · rintro ⟨_, same⟩
          have none : rest = [] := List.append_right_eq_self.mp (Option.some.inj same)
          rw [none] at more
          subst more
          exact ⟨narrowStringLength_zero.mp found, by omega⟩
        · rintro ⟨ended, _⟩
          cases found.symm.trans (narrowStringLength_zero.mpr ended)
          rw [List.length_eq_zero_iff.mp more, List.append_nil]
          exact ⟨rfl, rfl⟩
      · have failed : copyStringBuffer memory (string ++ following) string.length = fail .valueOutOfBounds := by
          unfold copyStringBuffer
          rw [size, found]
          change (if length + string.length = 0 ∨ length + string.length > memoryMaximumAllocationSize - 1 then _ else _) = _
          rw [if_pos (by omega)]
        rw [setUtf8PasswordAt_failed failed]
        constructor
        · rintro ⟨accepted, _⟩
          cases accepted
        · rintro ⟨ended, limited⟩
          cases found.symm.trans (narrowStringLength_zero.mpr ended)
          omega

/-- The password is what was set just if it was set as UTF-8 with an end of string character after it; a string that
was set as UTF-16 has that character as one of its own. -/
theorem password_exact_iff {utf8FromUtf16 : List UInt16 → Option (List UInt8)} {password : List Char}
    (libuna : utf8FromUtf16 (utf16Units password) = some (utf8Bytes password ++ [0])) (filled : password ≠ [])
    (unended : Char.ofNat 0 ∉ password) (entry : PasswordEntry) (volume : Volume) :
    (((entry.set utf8FromUtf16 password volume).1 = .ok 1 ∧
        (entry.set utf8FromUtf16 password volume).2.userPassword = some (utf8Bytes password)) ↔ entry.Ended password) ∧
      ∀ volume', (entry.set utf8FromUtf16 password volume).2.userPassword =
        (entry.set utf8FromUtf16 password volume').2.userPassword := by
  refine ⟨?_, fun volume' => (set_replaces utf8FromUtf16 password entry volume volume').2⟩
  cases entry with
  | utf8 memory following => exact utf8_exact_iff filled unended
  | utf16 =>
      refine ⟨fun exact => ?_, False.elim⟩
      obtain ⟨accepted, same⟩ := exact
      simp only [PasswordEntry.set, setUtf16Password, Call.update_bind, libuna] at accepted same
      split at accepted
      · cases accepted
      next long =>
        rw [if_neg long] at same
        exact List.cons_ne_nil 0 [] (List.append_right_eq_self.mp (Option.some.inj same))

theorem password_exact_iff_sample :
    ((((PasswordEntry.utf8 (Sample.memory 0) [0]).set Sample.utf8FromUtf16 ['a'] (Sample.volume Sample.shortKey)).1 = .ok 1 ∧
        ((PasswordEntry.utf8 (Sample.memory 0) [0]).set Sample.utf8FromUtf16 ['a']
          (Sample.volume Sample.shortKey)).2.userPassword = some (utf8Bytes ['a'])) ↔
      (PasswordEntry.utf8 (Sample.memory 0) [0]).Ended ['a']) ∧
      (PasswordEntry.utf8 (Sample.memory 0) [0]).Ended ['a'] :=
  ⟨(password_exact_iff (by decide) (by decide) (by decide) _ _).1, rfl, by decide⟩

/-- The letter a is left with the end of string character behind it, or with what the memory held. -/
theorem password_lengthened :
    (PasswordEntry.utf16.set Sample.utf8FromUtf16 ['a'] (Sample.volume Sample.shortKey)).1 = .ok 1 ∧
      (PasswordEntry.utf16.set Sample.utf8FromUtf16 ['a'] (Sample.volume Sample.shortKey)).2.userPassword =
        some [0x61, 0] ∧
      ((PasswordEntry.utf8 (Sample.memory 5) [0x62, 0]).set Sample.utf8FromUtf16 ['a']
        (Sample.volume Sample.shortKey)).2.userPassword = some [0x61, 5] ∧
      utf8Bytes ['a'] = [0x61] := by
  refine ⟨by decide, by decide, by decide, by decide⟩

end Volume

end Fsapfs
