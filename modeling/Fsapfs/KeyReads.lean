import Fsapfs.KeyValues

namespace Fsapfs
open Program Coding

namespace KeyEncryptedKey

def objectBytes (data : List UInt8) (object : Nat × Nat) : List UInt8 := (data.drop object.1).take object.2

/-- A key is read or refused without a byte beyond the data, and its wrapped key without one beyond the bytes of that. -/
def StaysInside (data : List UInt8) : Prop :=
  Outcome (readData data) (fun _ => True) True ∧
  ∀ key object, readObject data = .ok (key, some object) →
    Outcome (readWrappedObject (objectBytes data object) object.2 key) (fun _ => True) True

/-- The wrapped key among the values of an object: it starts two bytes before the last value with its tag, and its size
is counted in sixteen bits. -/
def FindsObject (data bytes : List UInt8) : Prop :=
  data.length ≤ ssizeMax ∧
  ∃ (form : LengthForm) (size : Nat) (before after : List Tagged) (wrapped : Tagged) (rest : List UInt8),
    form.Holds size ∧ size + 2 ≤ data.length ∧
    data = 0x30 :: (form.encode size ++ ((before ++ wrapped :: after).flatMap Tagged.encode ++ rest)) ∧
    (∀ element ∈ before ++ wrapped :: after, objectPass.Reads element) ∧
    objectPass.Ended (before ++ wrapped :: after) rest ∧
    wrapped.tag = 0xa3 ∧ (∀ element ∈ after, element.tag ≠ 0xa3) ∧
    bytes = (wrapped.header.drop (wrapped.header.length - 2) ++ wrapped.value).take
      ((wrapped.value.length + 2) % 2 ^ 16)

section pass

variable {σ : Type} {pass : Pass σ}

theorem applyAll_append (s : σ) (offset : Nat) (front back : List Tagged) :
    pass.applyAll s offset (front ++ back) =
      pass.applyAll (pass.applyAll s offset front) (offset + (front.flatMap Tagged.encode).length) back := by
  induction front generalizing s offset with
  | nil => rfl
  | cons element front ih =>
      rw [List.cons_append, Pass.applyAll, ih, List.flatMap_cons, List.length_append, ← Nat.add_assoc]
      rfl

end pass

section objects

variable {data : List UInt8} {s : KeyEncryptedKey × Option (Nat × Nat)} {elements before after : List Tagged}
  {wrapped : Tagged} {offset : Nat}

theorem exists_last (tag : UInt8) (elements : List Tagged) :
    (∀ element ∈ elements, element.tag ≠ tag) ∨ ∃ before last after, elements = before ++ last :: after ∧
      last.tag = tag ∧ ∀ element ∈ after, element.tag ≠ tag := by
  induction elements with
  | nil => exact Or.inl fun element member => absurd member List.not_mem_nil
  | cons element elements ih =>
      rcases ih with none | ⟨before, last, after, rfl, tagged, others⟩
      · by_cases tagged : element.tag = tag
        · exact Or.inr ⟨[], element, elements, rfl, tagged, none⟩
        · exact Or.inl (List.forall_mem_cons.mpr ⟨tagged, none⟩)
      · exact Or.inr ⟨element :: before, last, after, rfl, tagged, others⟩

theorem apply_other {tag : UInt8} (other : tag ≠ 0xa3) (value : List UInt8) :
    (objectPass.apply s offset tag.toNat value).2 = s.2 := by
  have different : tag.toNat ≠ 0xa3 := fun same => other (UInt8.toNat_inj.mp same)
  simp only [objectPass, if_neg different]
  split_ifs <;> rfl

theorem applyAll_others (others : ∀ element ∈ elements, element.tag ≠ 0xa3) :
    (objectPass.applyAll s offset elements).2 = s.2 := by
  induction elements generalizing s offset with
  | nil => rfl
  | cons element elements ih =>
      obtain ⟨other, others⟩ := List.forall_mem_cons.mp others
      rw [Pass.applyAll, ih others, apply_other other]

theorem applyAll_wrapped (tagged : wrapped.tag = 0xa3) (others : ∀ element ∈ after, element.tag ≠ 0xa3) :
    (objectPass.applyAll s offset (before ++ wrapped :: after)).2 =
      some (offset + (before.flatMap Tagged.encode).length + wrapped.header.length - 2,
        (wrapped.value.length + 2) % 2 ^ 16) := by
  rw [applyAll_append, Pass.applyAll, applyAll_others others, tagged]
  rfl

theorem objectBytes_wrapped (has : HasAt data offset wrapped.encode) :
    objectBytes data (offset + wrapped.header.length - 2, (wrapped.value.length + 2) % 2 ^ 16) =
      (wrapped.header.drop (wrapped.header.length - 2) ++ wrapped.value).take
        ((wrapped.value.length + 2) % 2 ^ 16) := by
  have header := wrapped.header_length
  have short : (wrapped.value.length + 2) % 2 ^ 16 ≤ wrapped.value.length + 2 := Nat.mod_le _ _
  have split : wrapped.encode = wrapped.header.take (wrapped.header.length - 2) ++
      (wrapped.header.drop (wrapped.header.length - 2) ++ wrapped.value) := by
    rw [← List.append_assoc, List.take_append_drop]
    rfl
  rw [split] at has
  have part : HasAt data (offset + wrapped.header.length - 2)
      (wrapped.header.drop (wrapped.header.length - 2) ++ wrapped.value) := by
    apply has.right
    rw [List.length_take]
    omega
  have taken := congrArg (List.take ((wrapped.value.length + 2) % 2 ^ 16)) part.take_drop
  rw [List.take_take, List.length_append, List.length_drop, Nat.min_eq_left (by omega)] at taken
  exact taken

theorem wrapped_hasAt {form : LengthForm} {size : Nat} {rest : List UInt8}
    (same : data = 0x30 :: (form.encode size ++ ((before ++ wrapped :: after).flatMap Tagged.encode ++ rest))) :
    HasAt data ((0x30 :: form.encode size).length + (before.flatMap Tagged.encode).length) wrapped.encode := by
  refine ⟨(0x30 :: form.encode size) ++ before.flatMap Tagged.encode, after.flatMap Tagged.encode ++ rest, ?_, ?_⟩
  · rw [same]
    simp
  · rw [List.length_append]

theorem readObject_finds {key : KeyEncryptedKey} {object : Nat × Nat} (read : readObject data = .ok (key, some object)) :
    FindsObject data (objectBytes data object) := by
  have sized : ¬(data.length < 2 ∨ data.length > ssizeMax) := by
    intro unfit
    rw [readObject, if_pos unfit] at read
    cases read
  rw [readObject_sequence (by omega) (by omega)] at read
  obtain ⟨form, size, elements, rest, known, holds, fits, same, reads, ended, applied⟩ :=
    (Pass.readSequence_ok_iff 0x30).mp read
  have found := congrArg Prod.snd applied
  rcases exists_last 0xa3 elements with others | ⟨before, wrapped, after, rfl, tagged, others⟩
  · rw [applyAll_others others] at found
    cases found
  rw [applyAll_wrapped tagged others] at found
  rw [Option.some.inj found]
  refine ⟨by omega, form, size, before, after, wrapped, rest, holds, fits, same, reads, ended, tagged, others, ?_⟩
  exact objectBytes_wrapped (wrapped_hasAt same)

theorem exists_readObject {bytes : List UInt8} (finds : FindsObject data bytes) :
    ∃ key object, readObject data = .ok (key, some object) ∧ objectBytes data object = bytes := by
  obtain ⟨most, form, size, before, after, wrapped, rest, holds, fits, same, reads, ended, tagged, others, rfl⟩ := finds
  have read : readObject data = .ok (objectPass.applyAll (create, none) (0x30 :: form.encode size).length
      (before ++ wrapped :: after)) := by
    rw [readObject_sequence (by omega) most]
    exact (Pass.readSequence_ok_iff 0x30).mpr
      ⟨form, size, _, rest, Or.inl rfl, holds, fits, same, reads, ended, rfl⟩
  refine ⟨_, _, read.trans (congrArg Except.ok (Prod.ext rfl (applyAll_wrapped tagged others))), ?_⟩
  exact objectBytes_wrapped (wrapped_hasAt same)

theorem not_undefined_iff {α : Type} {result : Result α} {post : α → Prop} (finishes : Finishes result post) :
    Outcome result (fun _ => True) True ↔ result ≠ .error .undefined := by
  rcases result with (code | _ | _) | value
  · exact ⟨fun _ => nofun, fun _ => trivial⟩
  · exact ⟨fun returns => returns.elim, fun other => other rfl⟩
  · exact finishes.elim
  · exact ⟨fun _ => nofun, fun _ => trivial⟩

theorem readObject_undefined_iff : readObject data = .error .undefined ↔
    2 ≤ data.length ∧ data.length ≤ ssizeMax ∧ objectPass.EndsInHeader 0x30 data := by
  by_cases sized : 2 ≤ data.length ∧ data.length ≤ ssizeMax
  · have some : data ≠ [] := by
      rintro rfl
      exact absurd sized.1 (by decide)
    rw [readObject_sequence sized.1 sized.2, ← and_assoc]
    refine (Pass.readSequence_undefined_iff 0x30).trans ?_
    exact ⟨fun ends => ⟨sized, ends.resolve_left some⟩, fun ends => Or.inr ends.2⟩
  · rw [readObject, if_pos (by omega)]
    exact ⟨fun failed => (by cases failed), fun ends => absurd ⟨ends.1, ends.2.1⟩ sized⟩

theorem readWrappedObject_returns_iff {bytes : List UInt8} (key : KeyEncryptedKey) :
    Outcome (readWrappedObject bytes bytes.length key) (fun _ => True) True ↔
      bytes ≠ [] ∧ ¬wrappedPass.EndsInHeader 0xa3 bytes := by
  rw [not_undefined_iff (readWrappedObject_finishes bytes bytes.length key),
    readWrappedObject_sequence (Nat.le_refl _), ← not_or]
  exact not_congr (Pass.readSequence_undefined_iff 0xa3)

theorem objectBytes_length {key : KeyEncryptedKey} {object : Nat × Nat} (read : readObject data = .ok (key, some object)) :
    (objectBytes data object).length = object.2 ∧ object.2 ≤ (data.drop object.1).length := by
  have inside : object.1 + object.2 ≤ data.length := by
    have finishes := readObject_finishes data
    rw [read] at finishes
    exact finishes object rfl
  rw [objectBytes, List.length_take, List.length_drop]
  omega

end objects

/-- A key is read without a byte beyond the data, or beyond the wrapped key in the second pass, exactly where neither
ends within a header that is reached. -/
theorem readData_inside_iff (data : List UInt8) : StaysInside data ↔
    ¬(2 ≤ data.length ∧ data.length ≤ ssizeMax ∧ objectPass.EndsInHeader 0x30 data) ∧
    ∀ bytes, FindsObject data bytes → bytes ≠ [] ∧ ¬wrappedPass.EndsInHeader 0xa3 bytes := by
  constructor
  · rintro ⟨returns, second⟩
    refine ⟨fun ends => ?_, fun bytes finds => ?_⟩
    · rw [readData, readObject_undefined_iff.mpr ends] at returns
      exact returns
    · obtain ⟨key, object, read, rfl⟩ := exists_readObject finds
      have length := (objectBytes_length read).1
      have returns := second key object read
      rw [← length] at returns
      exact (readWrappedObject_returns_iff key).mp returns
  · rintro ⟨whole, objects⟩
    have second : ∀ key object, readObject data = .ok (key, some object) →
        Outcome (readWrappedObject (objectBytes data object) object.2 key) (fun _ => True) True := by
      intro key object read
      have returns := (readWrappedObject_returns_iff key).mpr (objects _ (readObject_finds read))
      rwa [(objectBytes_length read).1] at returns
    refine ⟨(not_undefined_iff (readData_finishes data)).mpr fun run => ?_, second⟩
    have first := mt readObject_undefined_iff.mp whole
    rcases read : readObject data with failure | ⟨key, _ | object⟩
    · rw [readData, read, error_bind] at run
      rw [read, Except.error.inj run] at first
      exact first rfl
    · rw [readData, read] at run
      cases run
    · obtain ⟨length, limited⟩ := objectBytes_length read
      have returns := objects _ (readObject_finds read)
      rw [readData, read, ok_bind] at run
      dsimp only at run
      rw [readWrappedObject_sequence limited] at run
      have some : object.2 ≠ 0 := by
        rw [← length]
        exact mt List.length_eq_zero_iff.mp returns.1
      exact returns.2 (Pass.endsInHeader_of_undefined 0xa3 limited some run)

theorem readData_overruns : ¬∀ data, StaysInside data := by
  intro all
  exact (all [0x30, 0x81]).1

end KeyEncryptedKey

end Fsapfs
