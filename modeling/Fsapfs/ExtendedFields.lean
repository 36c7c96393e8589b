import Fsapfs.InodeObject

namespace Fsapfs
open Program

def paddingSize (valueSize : Nat) : Nat := (8 - valueSize % 8) % 8

/-- An extended field of an inode that is supported, with the bytes behind its value. -/
structure ExtendedField where
  fieldType : UInt8
  flags : UInt8
  value : List UInt8
  padding : List UInt8
  supported : fieldType.toNat ∈ [1, 2, 3, 4, 5, 7, 8, 10, 11, 13, 14, 15]
  positive : 1 ≤ value.length
  sized : value.length ≤ 0xffff
  dataStream : fieldType.toNat = 8 → 40 ≤ value.length
  device : fieldType.toNat = 14 → value.length = 4

namespace ExtendedField

def descriptor (field : ExtendedField) : List UInt8 :=
  [field.fieldType, field.flags] ++ littleEndianBytes 2 field.value.length

def stored (field : ExtendedField) : List UInt8 := field.value ++ field.padding

def apply (inode : Inode) (field : ExtendedField) : Inode :=
  if field.fieldType.toNat = 4 then { inode with name := field.value }
  else if field.fieldType.toNat = 8 then { inode with dataStreamSize := littleEndian (field.value.take 8) }
  else if field.fieldType.toNat = 14 then { inode with deviceIdentifier := littleEndian field.value }
  else inode

end ExtendedField

/-- The values are followed by their padding, that of the last one perhaps cut short. -/
def FilledUp : List ExtendedField → Prop
  | [] => True
  | [field] => field.padding.length ≤ paddingSize field.value.length
  | field :: next :: fields => field.padding.length = paddingSize field.value.length ∧ FilledUp (next :: fields)

def OneName (fields : List ExtendedField) : Prop :=
  fields.Pairwise fun field other => ¬(field.fieldType.toNat = 4 ∧ other.fieldType.toNat = 4)

structure ExtendedFields where
  fields : List ExtendedField
  counted : fields.length < 0x10000
  oneName : OneName fields
  filledUp : FilledUp fields

namespace ExtendedFields

def encode (fields : List ExtendedField) (usedSize : Bytes 2) : List UInt8 :=
  littleEndianBytes 2 fields.length ++ usedSize.val ++ fields.flatMap ExtendedField.descriptor ++
    fields.flatMap ExtendedField.stored

def lastValue (fields : List ExtendedField) (fieldType : Nat) : Option (List UInt8) :=
  ((fields.filter fun field => field.fieldType.toNat = fieldType).getLast?).map ExtendedField.value

end ExtendedFields

section decode

open ExtendedFields

variable {data : List UInt8}

theorem paddingSize_eq (valueSize : Nat) :
    paddingSize valueSize = if valueSize % 8 > 0 then 8 - valueSize % 8 else 0 := by
  unfold paddingSize
  split <;> omega

theorem nextValueOffset_filled {valueDataOffset valueDataSize : Nat}
    (inside : valueDataOffset + valueDataSize + paddingSize valueDataSize ≤ data.length) :
    nextValueOffset data.length valueDataOffset valueDataSize =
      valueDataOffset + (valueDataSize + paddingSize valueDataSize) := by
  rw [paddingSize_eq] at *
  unfold nextValueOffset
  rw [if_neg (by omega)]
  omega

theorem ExtendedField.descriptor_length (field : ExtendedField) : field.descriptor.length = 4 := by
  simp [ExtendedField.descriptor]

theorem readExtendedField_apply (inode : Inode) (field : ExtendedField)
    (unnamed : field.fieldType.toNat = 4 → inode.name = []) :
    Inode.readExtendedField inode field.fieldType.toNat field.value = .ok (field.apply inode) := by
  have supported := field.supported
  unfold Inode.readExtendedField ExtendedField.apply
  by_cases named : field.fieldType.toNat = 4
  · simp [named, unnamed named]
    rfl
  by_cases stream : field.fieldType.toNat = 8
  · have long := field.dataStream stream
    simp only [stream, loadLittleEndian64, loadLittleEndian_ok (show 0 + 8 ≤ field.value.length by omega)]
    simp [Nat.not_lt.mpr long]
  by_cases device : field.fieldType.toNat = 14
  · have length := field.device device
    have whole : field.value.take 4 = field.value := List.take_of_length_le (by omega)
    simp only [device, loadLittleEndian32, loadLittleEndian_ok (show 0 + 4 ≤ field.value.length by omega)]
    simp [length, whole]
  · have other : field.fieldType.toNat ∈ [1, 2, 3, 5, 7, 10, 11, 13, 15] := by
      simp only [List.mem_cons, List.not_mem_nil, or_false] at supported ⊢
      omega
    rw [if_pos other, if_neg named, if_neg stream, if_neg device]
    rfl

theorem apply_name {field : ExtendedField} (other : field.fieldType.toNat ≠ 4) (inode : Inode) :
    (field.apply inode).name = inode.name := by
  unfold ExtendedField.apply
  rw [if_neg other]
  split_ifs <;> rfl

theorem readExtendedFields_encode {fields : List ExtendedField} {dataOffset valueDataOffset : Nat} {inode : Inode}
    (filledUp : FilledUp fields) (oneName : OneName fields)
    (unnamed : (∃ field ∈ fields, field.fieldType.toNat = 4) → inode.name = [])
    (descriptors : HasAt data dataOffset (fields.flatMap ExtendedField.descriptor))
    (values : HasAt data valueDataOffset (fields.flatMap ExtendedField.stored)) :
    readExtendedFields data 1 Inode.readExtendedField fields.length dataOffset valueDataOffset inode =
      .ok (fields.foldl ExtendedField.apply inode) := by
  induction fields generalizing dataOffset valueDataOffset inode with
  | nil => rfl
  | cons field fields ih =>
      have descriptor : HasAt data dataOffset field.descriptor := descriptors.left
      have value : HasAt data valueDataOffset field.value := values.left.left
      have descriptorInside := descriptor.inside
      have valueInside := value.inside
      have sized := field.sized
      have positive := field.positive
      rw [field.descriptor_length] at descriptorInside
      have size : loadLittleEndian16 data (dataOffset + 2) = .ok field.value.length :=
        loadLittleEndian_of_hasAt (descriptor.right rfl) (by omega)
      have read := readExtendedField_apply inode field fun named =>
        unnamed ⟨field, List.mem_cons_self, named⟩
      rw [List.length_cons, readExtendedFields, if_neg (by omega), HasAt.load descriptor, ok_bind, size, ok_bind,
        if_neg (by omega), if_neg (by omega), value.slice rfl, ok_bind, read, ok_bind, List.foldl_cons]
      cases fields with
      | nil => rfl
      | cons next fields =>
          obtain ⟨filled, filledUp⟩ := filledUp
          have padded := values.left.inside
          rw [ExtendedField.stored, List.length_append, filled] at padded
          rw [nextValueOffset_filled (by omega)]
          apply ih filledUp
          · exact oneName.tail
          · rintro ⟨other, member, named⟩
            have first : field.fieldType.toNat ≠ 4 := fun named' =>
              (List.pairwise_cons.mp oneName).1 other member ⟨named', named⟩
            rw [apply_name first]
            exact unnamed ⟨other, List.mem_cons_of_mem _ member, named⟩
          · exact descriptors.right (by rw [field.descriptor_length])
          · exact values.right (by rw [ExtendedField.stored, List.length_append, filled])

theorem lastValue_cons (field : ExtendedField) (fields : List ExtendedField) (fieldType : Nat) :
    lastValue (field :: fields) fieldType =
      if field.fieldType.toNat = fieldType then some ((lastValue fields fieldType).getD field.value)
      else lastValue fields fieldType := by
  unfold lastValue
  by_cases own : field.fieldType.toNat = fieldType
  · rw [List.filter_cons_of_pos (by simpa using own), List.getLast?_cons, if_pos own, Option.map_some, Option.getD_map]
  · rw [List.filter_cons_of_neg (by simpa using own), if_neg own]

theorem foldl_apply {β : Type} {part : Inode → β} {fieldType : Nat} {decode : List UInt8 → β}
    (sets : ∀ inode field, part (ExtendedField.apply inode field) =
      if field.fieldType.toNat = fieldType then decode field.value else part inode)
    (fields : List ExtendedField) (inode : Inode) :
    part (fields.foldl ExtendedField.apply inode) = ((lastValue fields fieldType).map decode).getD (part inode) := by
  induction fields generalizing inode with
  | nil => rfl
  | cons field fields ih =>
      rw [List.foldl_cons, ih, sets, lastValue_cons]
      split_ifs
      · cases lastValue fields fieldType <;> rfl
      · rfl

theorem apply_sets_name (inode : Inode) (field : ExtendedField) :
    (field.apply inode).name = if field.fieldType.toNat = 4 then field.value else inode.name := by
  unfold ExtendedField.apply
  split_ifs <;> rfl

theorem apply_sets_dataStreamSize (inode : Inode) (field : ExtendedField) :
    (field.apply inode).dataStreamSize =
      if field.fieldType.toNat = 8 then littleEndian (field.value.take 8) else inode.dataStreamSize := by
  unfold ExtendedField.apply
  split_ifs <;> first | rfl | omega

theorem apply_sets_deviceIdentifier (inode : Inode) (field : ExtendedField) :
    (field.apply inode).deviceIdentifier =
      if field.fieldType.toNat = 14 then littleEndian field.value else inode.deviceIdentifier := by
  unfold ExtendedField.apply
  split_ifs <;> first | rfl | omega

theorem readTrailingFields_encode {usedSize : Bytes 2} {extended : ExtendedFields} {offset : Nat}
    (encoded : HasAt data offset (encode extended.fields usedSize)) {inode : Inode} (unnamed : inode.name = []) :
    readTrailingFields data offset 1 Inode.readExtendedField inode =
      .ok (extended.fields.foldl ExtendedField.apply inode) := by
  have count := encoded.left.left.left
  have descriptors := encoded.left.right rfl
  have values := encoded.right rfl
  have countInside := encoded.left.left.inside
  have number := loadLittleEndian_of_hasAt count extended.counted
  have width : (extended.fields.flatMap ExtendedField.descriptor).length = extended.fields.length * 4 := by
    simp [List.length_flatMap, ExtendedField.descriptor_length]
  simp only [List.length_append, littleEndianBytes_length, usedSize.property, width] at descriptors values countInside
  unfold readTrailingFields
  rw [if_neg (by omega), if_neg (by omega), loadLittleEndian16, number, ok_bind]
  exact readExtendedFields_encode extended.filledUp extended.oneName (fun _ => unnamed) descriptors
    (by rwa [← Nat.add_assoc] at values)

theorem readValueData_encode (identifier : Nat) (fixed : Bytes 92) (usedSize : Bytes 2) (extended : ExtendedFields) :
    ∃ inode : Inode, inode.name = [] ∧ inode.dataStreamSize = 0 ∧ inode.deviceIdentifier = 0 ∧
      Inode.readValueData identifier (fixed.val ++ encode extended.fields usedSize) =
        .ok (extended.fields.foldl ExtendedField.apply inode) := by
  have encoded : HasAt (fixed.val ++ encode extended.fields usedSize) 92 (encode extended.fields usedSize) :=
    (hasAt_self _).right (by rw [fixed.property])
  have room := encoded.inside
  unfold Inode.readValueData
  rw [(requireData_ok (by simp)).mpr (by omega), ok_bind]
  unfold loadLittleEndian64 loadLittleEndian32 loadLittleEndian16
  iterate 11
    rw [loadLittleEndian_ok (by omega), ok_bind]
  exact ⟨_, rfl, rfl, rfl, readTrailingFields_encode encoded rfl⟩

/-- Extended fields are decoded exactly, and an inode whose value cannot be read has no name. -/
theorem readValueData_decodes (identifier : Nat) :
    (∀ (fixed : Bytes 92) (usedSize : Bytes 2) (extended : ExtendedFields), ∃ object,
      InodeObject.readValueData (fixed.val ++ encode extended.fields usedSize) (InodeObject.create identifier) =
        (.ok (), object) ∧
      object.name = (lastValue extended.fields 4).getD [] ∧ object.nameSize = object.name.length ∧
      object.dataStreamSize = ((lastValue extended.fields 8).map fun value => littleEndian (value.take 8)).getD 0 ∧
      object.deviceIdentifier = ((lastValue extended.fields 14).map littleEndian).getD 0) ∧
    ∀ data, Outcome (InodeObject.readValueData data (InodeObject.create identifier)).1 (fun _ => True) True ∧
      (InodeObject.readValueData data).Ends (InodeObject.create identifier) (fun _ _ => True)
        fun object => object.name = [] ∧ object.nameSize = 0 := by
  constructor
  · intro fixed usedSize extended
    obtain ⟨inode, unnamed, stream, device, read⟩ := readValueData_encode identifier fixed usedSize extended
    have leaves := InodeObject.readValueData_leaves identifier (fixed.val ++ encode extended.fields usedSize)
    rw [read] at leaves
    have name := @foldl_apply _ Inode.name 4 id apply_sets_name extended.fields inode
    refine ⟨_, leaves, ?_, rfl, ?_, ?_⟩
    · rw [unnamed, Option.map_id] at name
      exact name
    · rw [← stream]
      exact foldl_apply apply_sets_dataStreamSize extended.fields inode
    · rw [← device]
      exact foldl_apply apply_sets_deviceIdentifier extended.fields inode
  · intro data
    have leaves := InodeObject.readValueData_leaves identifier data
    have returns := Inode.readValueData_returns identifier data
    refine ⟨?_, (InodeObject.readValueData_fails identifier data).mono (fun _ _ _ => trivial) fun object unnamed =>
      ⟨unnamed.name, unnamed.nameSize⟩⟩
    cases read : Inode.readValueData identifier data with
    | ok inode =>
        rw [read] at leaves
        rw [show InodeObject.readValueData data (InodeObject.create identifier) = _ from leaves]
        trivial
    | error failure =>
        rw [read] at leaves returns
        rw [show (InodeObject.readValueData data (InodeObject.create identifier)).1 = _ from leaves]
        cases failure <;> exact returns

end decode

end Fsapfs
