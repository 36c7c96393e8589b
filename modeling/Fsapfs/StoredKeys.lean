import Fsapfs.KeyReads

namespace Fsapfs
open Program Coding

namespace KeyEncryptedKey

/-- A value beside the wrapped key: an HMAC is that of the key, and those with the tag 0x82 have eight bytes. -/
structure IsObjectValue (key : KeyEncryptedKey) (element : Tagged) : Prop where
  hmac : element.tag = 0x81 → element.value = key.hmac.val
  other : element.tag = 0x82 → element.value.length = 8
  positive : element.tag ≠ 0
  notWrapped : element.tag ≠ 0xa3

/-- A value of the wrapped key: where it has one of the five tags it holds the field of the key. -/
structure IsWrappedValue (key : KeyEncryptedKey) (element : Tagged) : Prop where
  identifier : element.tag = 0x81 → element.value = key.identifier.val
  method : element.tag = 0x82 →
    ∃ unknown : Bytes 4, element.value = littleEndianBytes 4 key.encryptionMethod ++ unknown.val
  wrappedKek : element.tag = 0x83 → element.value = key.wrappedKek.val
  iterations : element.tag = 0x84 →
    element.value ≠ [] ∧ element.value.length ≤ 8 ∧ bigEndian element.value = key.numberOfIterations
  salt : element.tag = 0x85 → element.value = key.salt.val
  positive : element.tag ≠ 0

/-- A key in its encoding: the values of the object before and after the wrapped key, and those of the wrapped key, in
any order and each in a form of its own. -/
structure StoredKey where
  key : KeyEncryptedKey
  object : Tagged
  before : List Tagged
  wrapped : Tagged
  after : List Tagged
  inner : List Tagged
  objectTag : object.tag = 0x30
  objectValue : object.value = (before ++ wrapped :: after).flatMap Tagged.encode
  wrappedTag : wrapped.tag = 0xa3
  wrappedValue : wrapped.value = inner.flatMap Tagged.encode
  objectValues : ∀ element ∈ before ++ after, IsObjectValue key element
  wrappedValues : ∀ element ∈ inner, IsWrappedValue key element
  hmac : ∃ element ∈ before ++ after, element.tag = 0x81
  fields : ∀ tag ∈ [0x81, 0x82, 0x83, 0x84, 0x85], ∃ element ∈ inner, element.tag = tag
  method : key.encryptionMethod < 2 ^ 32
  sized : object.encode.length ≤ 0xffff

namespace StoredKey

/-- The values of the wrapped key are read where it starts two bytes before them: no size has the form of a single
byte, and the last value is not empty. -/
def ReadsInner (stored : StoredKey) : Prop :=
  (stored.wrapped.form = .short ∨
    stored.wrapped.form = .word ∧ stored.wrapped.value.length % 256 = 0xa3 ∧ stored.wrapped.value.length / 256 < 0x80) ∧
  (∀ element ∈ stored.inner, element.form ≠ .byte) ∧ Tagged.EndsInValue stored.inner

/-- The size of the wrapped key is taken for the start of a header that ends in its first two bytes, and what follows
them is read as values that set the same fields. -/
def ReadsShifted (stored : StoredKey) : Prop :=
  stored.wrapped.form = .word ∧ stored.wrapped.value.length = 0x82a3 ∧
  ∃ (low high : UInt8) (content : List UInt8) (elements : List Tagged) (rest : List UInt8),
    stored.wrapped.value = low :: high :: content ∧ low.toNat + 256 * high.toNat ≤ 0x82a3 ∧
    content ++ stored.after.flatMap Tagged.encode = elements.flatMap Tagged.encode ++ rest ∧
    (∀ element ∈ elements, wrappedPass.Reads element) ∧
    ((elements.flatMap Tagged.encode).length = content.length ∧ Tagged.EndsInValue elements ∨
      (elements.flatMap Tagged.encode).length < content.length ∧
        ∃ (form : LengthForm) (more : List UInt8), form ≠ .byte ∧ rest = 0 :: (form.encode 0 ++ more)) ∧
    wrappedPass.applyAll { create with hmac := stored.key.hmac } 0 elements = stored.key

/-- The last value of the object is not empty, and the values of the wrapped key are read. -/
def ReadsBack (stored : StoredKey) : Prop :=
  Tagged.EndsInValue (stored.before ++ stored.wrapped :: stored.after) ∧ (stored.ReadsInner ∨ stored.ReadsShifted)

end StoredKey

section fields

variable {σ β : Type} {pass : Pass σ} {s : σ} {offset : Nat} {elements : List Tagged}

theorem applyAll_field (get : σ → β) {x : β} (tag : Nat)
    (keeps : ∀ s offset tag' value, tag' ≠ tag → get (pass.apply s offset tag' value) = get s)
    (sets : ∀ element ∈ elements, element.tag.toNat = tag →
      ∀ s offset, get (pass.apply s offset element.tag.toNat element.value) = x)
    (present : get s = x ∨ ∃ element ∈ elements, element.tag.toNat = tag) :
    get (pass.applyAll s offset elements) = x := by
  induction elements generalizing s offset with
  | nil =>
      refine present.resolve_right fun some => ?_
      obtain ⟨element, member, _⟩ := some
      cases member
  | cons element elements ih =>
      obtain ⟨first, others⟩ := List.forall_mem_cons.mp sets
      apply ih others
      by_cases tagged : element.tag.toNat = tag
      · exact Or.inl (first tagged s _)
      · rcases present with already | ⟨other, member, tagged'⟩
        · exact Or.inl ((keeps s _ _ _ tagged).trans already)
        · rcases List.mem_cons.mp member with rfl | member
          · exact absurd tagged' tagged
          · exact Or.inr ⟨other, member, tagged'⟩

theorem copied_val {size : Nat} (bytes array : Bytes size) : copied bytes.val array = bytes := dif_pos bytes.property

end fields

namespace StoredKey

variable (stored : StoredKey)

theorem object_accepted : ∀ element ∈ stored.before ++ stored.wrapped :: stored.after,
    ¬element.Ends ∧ objectPass.accepts element.tag.toNat element.value.length = true := by
  obtain ⟨identifier, present, _⟩ := stored.fields 0x81 (by decide)
  intro element member
  rw [objectPass_accepts]
  have cases : element ∈ stored.before ++ stored.after ∨ element = stored.wrapped := by
    simp only [List.mem_append, List.mem_cons] at member ⊢
    tauto
  rcases cases with beside | rfl
  · have value := stored.objectValues element beside
    refine ⟨fun ends => value.positive ends.1, fun tagged => ?_, fun tagged => ?_, fun tagged => ?_⟩
    · rw [value.hmac (UInt8.toNat_inj.mp tagged)]
      exact stored.key.hmac.property
    · exact value.other (UInt8.toNat_inj.mp tagged)
    · exact absurd (UInt8.toNat_inj.mp tagged) value.notWrapped
  · have some : 0 < stored.wrapped.value.length := by
      have number := Tagged.count_le stored.inner
      rw [stored.wrappedValue]
      exact Nat.lt_of_lt_of_le (List.length_pos_of_mem present) number
    rw [stored.wrappedTag]
    refine ⟨fun ends => ?_, nofun, nofun, fun _ => Nat.pos_iff_ne_zero.mp some⟩
    rw [ends.2] at some
    cases some

theorem inner_accepted : ∀ element ∈ stored.inner,
    ¬element.Ends ∧ wrappedPass.accepts element.tag.toNat element.value.length = true := by
  intro element member
  have value := stored.wrappedValues element member
  rw [wrappedPass_accepts]
  refine ⟨fun ends => value.positive ends.1, fun tagged => ?_, fun tagged => ?_, fun tagged => ?_, fun tagged => ?_,
    fun tagged => ?_⟩
  · rw [value.identifier (UInt8.toNat_inj.mp tagged)]
    exact stored.key.identifier.property
  · obtain ⟨unknown, same⟩ := value.method (UInt8.toNat_inj.mp tagged)
    rw [same, List.length_append, littleEndianBytes_length, unknown.property]
  · rw [value.wrappedKek (UInt8.toNat_inj.mp tagged)]
    exact stored.key.wrappedKek.property
  · obtain ⟨some, short, _⟩ := value.iterations (UInt8.toNat_inj.mp tagged)
    exact ⟨mt List.length_eq_zero_iff.mp some, short⟩
  · rw [value.salt (UInt8.toNat_inj.mp tagged)]
    exact stored.key.salt.property

theorem inner_field {β : Type} (field : KeyEncryptedKey → β) (tag : UInt8) (known : tag ∈ [0x81, 0x82, 0x83, 0x84, 0x85])
    (keeps : ∀ key offset tag' value, tag' ≠ tag.toNat → field (wrappedPass.apply key offset tag' value) = field key)
    (sets : ∀ element ∈ stored.inner, element.tag = tag →
      ∀ key offset, field (wrappedPass.apply key offset tag.toNat element.value) = field stored.key) (offset : Nat) :
    field (wrappedPass.applyAll { create with hmac := stored.key.hmac } offset stored.inner) = field stored.key := by
  apply applyAll_field field tag.toNat keeps
  · intro element member tagged key offset
    rw [tagged]
    exact sets element member (UInt8.toNat_inj.mp tagged) key offset
  · obtain ⟨element, member, tagged⟩ := stored.fields tag known
    exact Or.inr ⟨element, member, congrArg UInt8.toNat tagged⟩

theorem inner_applied (offset : Nat) :
    wrappedPass.applyAll { create with hmac := stored.key.hmac } offset stored.inner = stored.key := by
  have hmac : (wrappedPass.applyAll { create with hmac := stored.key.hmac } offset stored.inner).hmac =
      stored.key.hmac := by
    have keeps : ∀ key offset tag value, (wrappedPass.apply key offset tag value).hmac = key.hmac := by
      intro key offset tag value
      simp only [wrappedPass]
      split_ifs <;> rfl
    refine applyAll_field KeyEncryptedKey.hmac 0 (fun key offset tag value _ => keeps key offset tag value)
      (fun element member tagged => ?_) (Or.inl rfl)
    exact absurd (UInt8.toNat_inj.mp tagged) (stored.wrappedValues element member).positive
  have identifier := stored.inner_field identifier 0x81 (by decide)
    (fun key offset tag value other => by
      simp only [wrappedPass, if_neg (show tag ≠ 0x81 from other)]
      split_ifs <;> rfl)
    (fun element member tagged key offset => by
      rw [(stored.wrappedValues element member).identifier tagged]
      exact copied_val _ _) offset
  have method := stored.inner_field encryptionMethod 0x82 (by decide)
    (fun key offset tag value other => by
      simp only [wrappedPass, if_neg (show tag ≠ 0x82 from other)]
      split_ifs <;> rfl)
    (fun element member tagged key offset => by
      obtain ⟨unknown, same⟩ := (stored.wrappedValues element member).method tagged
      change littleEndian (element.value.take 4) = _
      rw [same, List.take_left' (littleEndianBytes_length 4 _), littleEndian_littleEndianBytes]
      exact Nat.mod_eq_of_lt stored.method) offset
  have wrappedKek := stored.inner_field wrappedKek 0x83 (by decide)
    (fun key offset tag value other => by
      simp only [wrappedPass, if_neg (show tag ≠ 0x83 from other)]
      split_ifs <;> rfl)
    (fun element member tagged key offset => by
      rw [(stored.wrappedValues element member).wrappedKek tagged]
      exact copied_val _ _) offset
  have iterations := stored.inner_field numberOfIterations 0x84 (by decide)
    (fun key offset tag value other => by
      simp only [wrappedPass, if_neg (show tag ≠ 0x84 from other)]
      split_ifs <;> rfl)
    (fun element member tagged key offset => ((stored.wrappedValues element member).iterations tagged).2.2) offset
  have salt := stored.inner_field salt 0x85 (by decide)
    (fun key offset tag value other => by
      simp only [wrappedPass, if_neg (show tag ≠ 0x85 from other)]
      split_ifs <;> rfl)
    (fun element member tagged key offset => by
      rw [(stored.wrappedValues element member).salt tagged]
      exact copied_val _ _) offset
  exact KeyEncryptedKey.ext identifier hmac iterations salt method wrappedKek

theorem wrapped_not_mem_after : ∀ element ∈ stored.after, element.tag ≠ 0xa3 := fun element member =>
  (stored.objectValues element (List.mem_append_right _ member)).notWrapped

theorem object_applied (offset : Nat) :
    objectPass.applyAll (create, none) offset (stored.before ++ stored.wrapped :: stored.after) =
      ({ create with hmac := stored.key.hmac },
        some (offset + (stored.before.flatMap Tagged.encode).length + stored.wrapped.header.length - 2,
          (stored.wrapped.value.length + 2) % 2 ^ 16)) := by
  refine Prod.ext ?_ (applyAll_wrapped stored.wrappedTag stored.wrapped_not_mem_after)
  have others (s : KeyEncryptedKey × Option (Nat × Nat)) (offset : Nat) (elements : List Tagged) :
      { (objectPass.applyAll s offset elements).1 with hmac := stored.key.hmac } =
        { s.1 with hmac := stored.key.hmac } := by
    induction elements generalizing s offset with
    | nil => rfl
    | cons element elements ih =>
        rw [Pass.applyAll, ih]
        simp only [objectPass]
        split_ifs <;> rfl
  have hmac : (objectPass.applyAll (create, none) offset (stored.before ++ stored.wrapped :: stored.after)).1.hmac =
      stored.key.hmac := by
    refine applyAll_field (fun s : KeyEncryptedKey × Option (Nat × Nat) => s.1.hmac) 0x81
      (fun s offset tag value other => ?_) (fun element member tagged s offset => ?_) (Or.inr ?_)
    · simp only [objectPass, if_neg other]
      split_ifs <;> rfl
    · have beside : element ∈ stored.before ++ stored.after := by
        rcases List.mem_append.mp member with before | after
        · exact List.mem_append_left _ before
        · refine List.mem_append_right _ (List.mem_of_ne_of_mem ?_ after)
          rintro rfl
          rw [stored.wrappedTag] at tagged
          cases tagged
      rw [(stored.objectValues element beside).hmac (UInt8.toNat_inj.mp tagged), tagged]
      exact copied_val _ _
    · obtain ⟨element, member, tagged⟩ := stored.hmac
      refine ⟨element, ?_, congrArg UInt8.toNat tagged⟩
      rcases List.mem_append.mp member with before | after
      · exact List.mem_append_left _ before
      · exact List.mem_append_right _ (List.mem_cons_of_mem _ after)
  rw [← others (create, none) offset (stored.before ++ stored.wrapped :: stored.after), ← hmac]

theorem readObject_encode {s : KeyEncryptedKey × Option (Nat × Nat)} :
    readObject stored.object.encode = .ok s ↔
      Tagged.EndsInValue (stored.before ++ stored.wrapped :: stored.after) ∧
      s = objectPass.applyAll (create, none) stored.object.header.length
        (stored.before ++ stored.wrapped :: stored.after) := by
  have sized := stored.sized
  have header := stored.object.header_length
  have length := stored.object.encode_length
  have same : stored.object.encode = 0x30 :: (stored.object.form.encode stored.object.value.length ++
      ((stored.before ++ stored.wrapped :: stored.after).flatMap Tagged.encode ++ [])) := by
    rw [← stored.objectTag, ← stored.objectValue, List.append_nil]
    rfl
  have headerSame : (0x30 :: stored.object.form.encode stored.object.value.length) = stored.object.header := by
    rw [← stored.objectTag]
    rfl
  have known (element : Tagged) : element.form.Known objectPass.byteForm := Or.inl rfl
  have sequence : objectPass.readSequence 0x30 stored.object.encode stored.object.encode.length (create, none) = _ :=
    Pass.readSequence_known (known stored.object) stored.object.holds (by omega) same
  have value : stored.object.encode.drop stored.object.header.length =
      (stored.before ++ stored.wrapped :: stored.after).flatMap Tagged.encode ++ [] := by
    rw [← headerSame]
    exact Pass.drop_header same
  rw [readObject_sequence (by omega) (by unfold ssizeMax; omega)]
  refine (Eq.congr_left sequence).trans ?_
  rw [headerSame, Pass.walk_whole (Nat.le_refl _) value _ stored.object_accepted (by omega)]
  · exact ⟨fun read => read.2, fun read => ⟨fun element _ => known element, read⟩⟩
  · rw [← stored.objectValue]
    omega

theorem drop_wrapped :
    stored.object.encode.drop (stored.object.header.length + (stored.before.flatMap Tagged.encode).length +
      stored.wrapped.header.length - 2) =
    stored.wrapped.header.drop (stored.wrapped.header.length - 2) ++
      (stored.wrapped.value ++ stored.after.flatMap Tagged.encode) := by
  have header := stored.wrapped.header_length
  have whole : stored.object.encode = (stored.object.header ++ stored.before.flatMap Tagged.encode) ++
      (stored.wrapped.header ++ (stored.wrapped.value ++ stored.after.flatMap Tagged.encode)) := by
    rw [Tagged.encode, stored.objectValue, List.flatMap_append, List.flatMap_cons, Tagged.encode]
    simp only [List.append_assoc]
  have offset : stored.object.header.length + (stored.before.flatMap Tagged.encode).length +
      stored.wrapped.header.length - 2 =
      (stored.object.header ++ stored.before.flatMap Tagged.encode).length + (stored.wrapped.header.length - 2) := by
    rw [List.length_append]
    omega
  rw [whole, offset, ← List.drop_drop, List.drop_left, List.drop_append_of_le_length (Nat.sub_le _ _)]

theorem wrapped_sized : stored.wrapped.value.length + 2 < 2 ^ 16 := by
  have sized := stored.sized
  have object := stored.object.encode_length
  have header := stored.object.header_length
  have wrapped := stored.wrapped.encode_length
  have wrappedHeader := stored.wrapped.header_length
  have value := congrArg List.length stored.objectValue
  rw [List.flatMap_append, List.flatMap_cons, List.length_append, List.length_append] at value
  omega

theorem applyAll_wrapped_offset (offset : Nat) (key : KeyEncryptedKey) (elements : List Tagged) :
    wrappedPass.applyAll key offset elements = wrappedPass.applyAll key 0 elements := by
  suffices all : ∀ offset offset', wrappedPass.applyAll key offset elements = wrappedPass.applyAll key offset' elements from
    all offset 0
  induction elements generalizing key with
  | nil => exact fun _ _ => rfl
  | cons element elements ih => exact fun offset offset' => ih _ _ _

theorem encode_word (low high : UInt8) :
    LengthForm.word.encode (low.toNat + 256 * high.toNat) = [0x82, low, high] := by
  have lowFits := low.toNat_lt
  have highFits := high.toNat_lt
  have first : (low.toNat + 256 * high.toNat) % 256 = low.toNat := by omega
  have second : (low.toNat + 256 * high.toNat) / 256 % 256 = high.toNat := by omega
  simp [LengthForm.encode, first, second]

section second

variable {stored} {data : List UInt8}

theorem second_aligned {byte : UInt8} (small : byte.toNat < 0x80) (fits : byte.toNat ≤ stored.wrapped.value.length)
    (same : data = 0xa3 :: byte :: (stored.wrapped.value ++ stored.after.flatMap Tagged.encode)) :
    wrappedPass.readSequence 0xa3 data (stored.wrapped.value.length + 2) { create with hmac := stored.key.hmac } =
      .ok stored.key ↔
    (∀ element ∈ stored.inner, element.form ≠ .byte) ∧ Tagged.EndsInValue stored.inner := by
  have header : data = 0xa3 :: (LengthForm.short.encode byte.toNat ++
      (stored.wrapped.value ++ stored.after.flatMap Tagged.encode)) := by
    rw [same, LengthForm.encode, UInt8.ofNat_toNat]
    rfl
  have known (form : LengthForm) : form.Known wrappedPass.byteForm ↔ form ≠ .byte :=
    ⟨fun known => known.resolve_left Bool.false_ne_true, Or.inr⟩
  have sequence : wrappedPass.readSequence 0xa3 data (stored.wrapped.value.length + 2)
      { create with hmac := stored.key.hmac } = _ :=
    Pass.readSequence_known ((known .short).mpr (by simp)) small (by omega) header
  have value : data.drop 2 = stored.inner.flatMap Tagged.encode ++ stored.after.flatMap Tagged.encode := by
    rw [same, ← stored.wrappedValue]
    rfl
  have length := congrArg List.length same
  simp only [List.length_cons, List.length_append] at length
  refine (Eq.congr_left sequence).trans ?_
  change wrappedPass.walk data _ _ 2 _ = _ ↔ _
  rw [Pass.walk_whole (by omega) value (by rw [← stored.wrappedValue]; omega) stored.inner_accepted (by omega),
    stored.inner_applied]
  simp only [known, and_true]

theorem second_shifted {low high : UInt8} {content : List UInt8} (value : stored.wrapped.value = low :: high :: content)
    (same : data = 0xa3 :: 0x82 :: (stored.wrapped.value ++ stored.after.flatMap Tagged.encode)) :
    wrappedPass.readSequence 0xa3 data (stored.wrapped.value.length + 2) { create with hmac := stored.key.hmac } =
      .ok stored.key ↔
    low.toNat + 256 * high.toNat ≤ stored.wrapped.value.length ∧
    ∃ (elements : List Tagged) (rest : List UInt8),
      content ++ stored.after.flatMap Tagged.encode = elements.flatMap Tagged.encode ++ rest ∧
      (∀ element ∈ elements, wrappedPass.Reads element) ∧
      ((elements.flatMap Tagged.encode).length = content.length ∧ Tagged.EndsInValue elements ∨
        (elements.flatMap Tagged.encode).length < content.length ∧
          ∃ (form : LengthForm) (more : List UInt8), form ≠ .byte ∧ rest = 0 :: (form.encode 0 ++ more)) ∧
      wrappedPass.applyAll { create with hmac := stored.key.hmac } 0 elements = stored.key := by
  have lowFits := low.toNat_lt
  have highFits := high.toNat_lt
  have header : data = 0xa3 :: (LengthForm.word.encode (low.toNat + 256 * high.toNat) ++
      (content ++ stored.after.flatMap Tagged.encode)) := by
    rw [same, value, encode_word]
    rfl
  have known : LengthForm.word.Known wrappedPass.byteForm := Or.inr (by simp)
  have holds : LengthForm.word.Holds (low.toNat + 256 * high.toNat) := by
    change low.toNat + 256 * high.toNat < 0x10000
    omega
  have valueLength : stored.wrapped.value.length = content.length + 2 := by
    rw [value]
    rfl
  have length := congrArg List.length same
  simp only [List.length_cons, List.length_append] at length
  by_cases fits : low.toNat + 256 * high.toNat ≤ stored.wrapped.value.length
  · have sequence : wrappedPass.readSequence 0xa3 data (stored.wrapped.value.length + 2)
        { create with hmac := stored.key.hmac } = _ :=
      Pass.readSequence_known known holds (by omega) header
    have behind : data.drop 4 = content ++ stored.after.flatMap Tagged.encode := by
      rw [same, value]
      rfl
    refine (Eq.congr_left sequence).trans ?_
    change wrappedPass.walk data _ _ 4 _ = _ ↔ _
    rw [Pass.walk_ok_iff (by omega) (by omega) (by omega), and_iff_right fits]
    refine exists_congr fun elements => exists_congr fun rest => ⟨?_, ?_⟩
    · rintro ⟨splits, closes, applied⟩
      have inside := splits.inside
      rw [applyAll_wrapped_offset] at applied
      refine ⟨behind.symm.trans splits.same, splits.reads, ?_, applied.symm⟩
      rcases inside with before | ⟨ends, inValue⟩
      · obtain ⟨form, more, known', marker⟩ := closes.resolve_left (by omega)
        exact Or.inr ⟨by omega, form, more, known'.resolve_left Bool.false_ne_true, marker⟩
      · exact Or.inl ⟨by omega, inValue⟩
    · rintro ⟨split, reads, ended, applied⟩
      rw [← applyAll_wrapped_offset 4] at applied
      rcases ended with ⟨ends, inValue⟩ | ⟨before, form, more, other, marker⟩
      · exact ⟨⟨behind.trans split, reads, Or.inr ⟨by omega, inValue⟩⟩, Or.inl (by omega), applied.symm⟩
      · refine ⟨⟨behind.trans split, reads, Or.inl (by omega)⟩, Or.inr ⟨form, more, Or.inr other, marker⟩, applied.symm⟩
  · have has : HasAt data 0 (0xa3 :: LengthForm.word.encode (low.toNat + 256 * high.toNat)) :=
      hasAt_of_drop (Nat.zero_le _) header
    rw [Pass.readSequence, readValueHeader_known known holds has, ok_bind]
    dsimp only
    rw [if_neg (by decide), if_pos (by omega)]
    exact ⟨fun failed => (by cases failed), fun reads => absurd reads.1 fits⟩

theorem second_starts {first byte : UInt8} {rest : List UInt8} {limit : Nat} {key key' : KeyEncryptedKey}
    (run : wrappedPass.readSequence 0xa3 (first :: byte :: rest) limit key = .ok key') :
    first = 0xa3 ∧ (byte.toNat < 0x80 ∨ byte = 0x82) := by
  obtain ⟨form, size, more, known, holds, _, same⟩ := Pass.readSequence_ok 0xa3 run
  obtain ⟨tagged, behind⟩ := List.cons.inj same
  refine ⟨tagged, ?_⟩
  cases form with
  | short =>
      have small : size < 0x80 := holds
      rw [(List.cons.inj behind).1]
      left
      simp
      omega
  | byte => exact absurd rfl (known.resolve_left nofun)
  | word => exact Or.inr (List.cons.inj behind).1

theorem second_word (form : stored.wrapped.form = .word) {low high : UInt8}
    (lowByte : low.toNat = stored.wrapped.value.length % 256) (highByte : high.toNat = stored.wrapped.value.length / 256) :
    wrappedPass.readSequence 0xa3 (low :: high :: (stored.wrapped.value ++ stored.after.flatMap Tagged.encode))
      (stored.wrapped.value.length + 2) { create with hmac := stored.key.hmac } = .ok stored.key ↔
    stored.ReadsInner ∨ stored.ReadsShifted := by
  by_cases tagged : low = 0xa3
  swap
  · have other : stored.wrapped.value.length % 256 ≠ 0xa3 := by
      rw [← lowByte]
      exact fun same => tagged (UInt8.toNat_inj.mp same)
    refine ⟨fun run => absurd (second_starts run).1 tagged, ?_⟩
    rintro (inner | shifted)
    · rcases inner.1 with short | ⟨_, remainder, _⟩
      · exact absurd (form.symm.trans short) nofun
      · exact absurd remainder other
    · rw [shifted.2.1] at other
      exact absurd rfl other
  have remainder : stored.wrapped.value.length % 256 = 0xa3 := by
    rw [← lowByte, tagged]
    rfl
  subst tagged
  by_cases small : high.toNat < 0x80
  · refine (second_aligned small (by omega) rfl).trans ⟨fun reads => Or.inl ⟨Or.inr ⟨form, remainder, by omega⟩, reads⟩, ?_⟩
    rintro (inner | shifted)
    · exact inner.2
    · have size := shifted.2.1
      omega
  · have notInner : ¬stored.ReadsInner := by
      intro inner
      rcases inner.1 with short | ⟨_, _, below⟩
      · exact absurd (form.symm.trans short) nofun
      · omega
    by_cases double : high = 0x82
    · subst double
      have size : stored.wrapped.value.length = 0x82a3 := by
        have quotient : 0x82 = stored.wrapped.value.length / 256 := highByte
        omega
      have starts : ∃ low high content, stored.wrapped.value = low :: high :: content := by
        rcases value : stored.wrapped.value with _ | ⟨low, _ | ⟨high, content⟩⟩
        · rw [value] at size
          cases size
        · rw [value] at size
          cases size
        · exact ⟨low, high, content, rfl⟩
      obtain ⟨low, high, content, value⟩ := starts
      refine (second_shifted value rfl).trans ⟨fun reads => ?_, fun reads => ?_⟩
      · obtain ⟨fits, elements, rest, behind⟩ := reads
        rw [size] at fits
        exact Or.inr ⟨form, size, low, high, content, elements, rest, value, fits, behind⟩
      · obtain ⟨_, _, low', high', content', elements, rest, value', fits, behind⟩ := reads.resolve_left notInner
        obtain ⟨rfl, tail⟩ := List.cons.inj (value.symm.trans value')
        obtain ⟨rfl, rfl⟩ := List.cons.inj tail
        rw [size]
        exact ⟨fits, elements, rest, behind⟩
    · have other : stored.wrapped.value.length ≠ 0x82a3 := by
        intro size
        rw [size] at highByte
        exact double (UInt8.toNat_inj.mp highByte)
      refine ⟨fun run => ?_, fun reads => absurd (reads.resolve_left notInner).2.1 other⟩
      rcases (second_starts run).2 with below | same
      · exact absurd below small
      · exact absurd same double

theorem second_iff : wrappedPass.readSequence 0xa3 (stored.wrapped.header.drop (stored.wrapped.header.length - 2) ++
      (stored.wrapped.value ++ stored.after.flatMap Tagged.encode)) (stored.wrapped.value.length + 2)
      { create with hmac := stored.key.hmac } = .ok stored.key ↔ stored.ReadsInner ∨ stored.ReadsShifted := by
  have sized := stored.wrapped_sized
  have holds := stored.wrapped.holds
  have header : stored.wrapped.header = 0xa3 :: stored.wrapped.form.encode stored.wrapped.value.length := by
    rw [← stored.wrappedTag]
    rfl
  rw [header]
  cases form : stored.wrapped.form with
  | short =>
      rw [form] at holds
      have below : stored.wrapped.value.length < 0x80 := holds
      have byte : (UInt8.ofNat stored.wrapped.value.length).toNat = stored.wrapped.value.length := by
        simp
        omega
      have bytes : (0xa3 :: LengthForm.short.encode stored.wrapped.value.length).drop 0 ++
          (stored.wrapped.value ++ stored.after.flatMap Tagged.encode) =
          0xa3 :: UInt8.ofNat stored.wrapped.value.length ::
            (stored.wrapped.value ++ stored.after.flatMap Tagged.encode) := rfl
      refine (second_aligned (by rwa [byte]) (Nat.le_of_eq byte) bytes).trans
        ⟨fun reads => Or.inl ⟨Or.inl form, reads⟩, ?_⟩
      rintro (inner | shifted)
      · exact inner.2
      · exact absurd (form.symm.trans shifted.1) nofun
  | byte =>
      refine ⟨fun run => absurd (second_starts run).1 (by decide), ?_⟩
      rintro (inner | shifted)
      · rcases inner.1 with short | ⟨word, _⟩
        · exact absurd (form.symm.trans short) nofun
        · exact absurd (form.symm.trans word) nofun
      · exact absurd (form.symm.trans shifted.1) nofun
  | word =>
      refine second_word form ?_ ?_
      · simp
      · simp
        omega

end second

end StoredKey

/-- A key is read back from its encoding exactly where its last value is not empty and the second pass reads the wrapped
key from two bytes before its values. -/
theorem readData_encode_iff (stored : StoredKey) :
    readData stored.object.encode = .ok stored.key ↔ stored.ReadsBack := by
  have sized := stored.wrapped_sized
  have small : (stored.wrapped.value.length + 2) % 2 ^ 16 = stored.wrapped.value.length + 2 := Nat.mod_eq_of_lt sized
  by_cases inValue : Tagged.EndsInValue (stored.before ++ stored.wrapped :: stored.after)
  · have first := stored.readObject_encode.mpr ⟨inValue, rfl⟩
    rw [stored.object_applied, small] at first
    rw [readData, first, ok_bind]
    dsimp only
    rw [stored.drop_wrapped, readWrappedObject_sequence, StoredKey.second_iff]
    · exact (and_iff_right inValue).symm
    · have header := stored.wrapped.header_length
      rw [List.length_append, List.length_append, List.length_drop]
      omega
  · refine ⟨fun read => ?_, fun reads => absurd reads.1 inValue⟩
    rw [readData] at read
    obtain ⟨s, first, _⟩ := bind_eq_ok.mp read
    exact absurd (stored.readObject_encode.mp first).1 inValue

def zeros (tag : UInt8) (size : Nat) (small : size < 0x80) : Tagged where
  tag
  form := .short
  value := List.replicate size 0
  holds := by
    rw [List.length_replicate]
    exact small

def sampleInner : List Tagged :=
  [zeros 0x81 16 (by decide), zeros 0x82 8 (by decide), zeros 0x83 40 (by decide),
    { tag := 0x84, form := .short, value := [1], holds := by decide }, zeros 0x85 16 (by decide)]

def sampleWrapped (form : LengthForm) (holds : form.Holds 91) : Tagged where
  tag := 0xa3
  form
  value := sampleInner.flatMap Tagged.encode
  holds

def sampleKey (form : LengthForm) (holds : form.Holds 91) : StoredKey where
  key := { create with numberOfIterations := 1 }
  object :=
    { tag := 0x30
      form := .byte
      value := ([zeros 0x81 32 (by decide)] ++ [sampleWrapped form holds]).flatMap Tagged.encode
      holds := by cases form <;> decide +kernel +revert }
  before := [zeros 0x81 32 (by decide)]
  wrapped := sampleWrapped form holds
  after := []
  inner := sampleInner
  objectTag := rfl
  objectValue := rfl
  wrappedTag := rfl
  wrappedValue := rfl
  objectValues := by
    intro element member
    rw [List.mem_singleton.mp member]
    exact ⟨fun _ => rfl, nofun, nofun, nofun⟩
  wrappedValues := by
    intro element member
    simp only [sampleInner, List.mem_cons, List.not_mem_nil, or_false] at member
    rcases member with rfl | rfl | rfl | rfl | rfl
    · exact ⟨fun _ => rfl, nofun, nofun, nofun, nofun, nofun⟩
    · exact ⟨nofun, fun _ => ⟨Bytes.zero 4, rfl⟩, nofun, nofun, nofun, nofun⟩
    · exact ⟨nofun, nofun, fun _ => rfl, nofun, nofun, nofun⟩
    · exact ⟨nofun, nofun, nofun, fun _ => ⟨nofun, by decide, rfl⟩, nofun, nofun⟩
    · exact ⟨nofun, nofun, nofun, nofun, fun _ => rfl, nofun⟩
  hmac := ⟨_, List.mem_singleton_self _, rfl⟩
  fields := by decide +kernel
  method := by decide
  sized := by cases form <;> decide +kernel +revert

example : (readData (sampleKey .short (by decide)).object.encode).toOption =
    some { create with numberOfIterations := 1 } := by
  decide +kernel

theorem readData_misses_encoding : ¬∀ stored : StoredKey, readData stored.object.encode = .ok stored.key := by
  intro all
  have refused : (readData (sampleKey .byte (by decide)).object.encode).toOption = none := by decide +kernel
  have read := all (sampleKey .byte (by decide))
  rw [read] at refused
  cases refused

end KeyEncryptedKey

end Fsapfs
