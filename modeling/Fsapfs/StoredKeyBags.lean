import Fsapfs.KeyBag

namespace Fsapfs
open Program

/-- An entry of a key bag with the bytes that fill it up to a multiple of sixteen. -/
structure StoredEntry where
  entry : KeyBagEntry
  unknown : Bytes 4
  padding : List UInt8
  typed : entry.type < 0x10000
  positive : 1 ≤ entry.data.length
  sized : entry.data.length ≤ 0xffff
  short : padding.length < 16
  aligned : (24 + entry.data.length + padding.length) % 16 = 0

def StoredEntry.encode (stored : StoredEntry) : List UInt8 :=
  stored.entry.identifier.val ++ littleEndianBytes 2 stored.entry.type ++
    littleEndianBytes 2 stored.entry.data.length ++ stored.unknown.val ++ stored.entry.data ++ stored.padding

/-- The identifiers of the object, the entries of a key bag, the size and the further bytes of its header, and the
bytes behind the entries. -/
structure StoredBag where
  identifiers : Bytes 16
  entries : List StoredEntry
  dataSize : Nat
  unknown : Bytes 8
  rest : List UInt8
  counted : entries.length ≤ 0xffff
  sized : dataSize < 0x100000000
  fits : dataSize ≤ 16 + (entries.flatMap StoredEntry.encode).length + rest.length
  bounded : 48 + (entries.flatMap StoredEntry.encode).length + rest.length ≤ ssizeMax
  aligned : (48 + (entries.flatMap StoredEntry.encode).length + rest.length) % 16 = 0

namespace StoredBag

def header (bag : StoredBag) : List UInt8 :=
  littleEndianBytes 2 2 ++ littleEndianBytes 2 bag.entries.length ++ littleEndianBytes 4 bag.dataSize ++ bag.unknown.val

def body (bag : StoredBag) (objectType : Nat) : List UInt8 :=
  bag.identifiers.val ++ littleEndianBytes 4 objectType ++ littleEndianBytes 4 0 ++ bag.header ++
    bag.entries.flatMap StoredEntry.encode ++ bag.rest

end StoredBag

section reading

variable {data : List UInt8} {offset : Nat}

theorem StoredEntry.encode_length (stored : StoredEntry) :
    stored.encode.length = 24 + stored.entry.data.length + stored.padding.length := by
  simp only [encode, List.length_append, stored.entry.identifier.property, stored.unknown.property,
    littleEndianBytes_length]

theorem readData_encode {stored : StoredEntry} (has : HasAt data offset stored.encode) (size : data.length ≤ ssizeMax) :
    KeyBagEntry.readData data offset (sizeDifference data.length offset) =
      .ok (stored.entry, 24 + stored.entry.data.length) := by
  have inside := has.inside
  rw [stored.encode_length] at inside
  have typed := stored.typed
  have sized := stored.sized
  have positive := stored.positive
  have unknownLength := stored.unknown.property
  have identifier : HasAt data offset stored.entry.identifier.val := has.left.left.left.left.left
  have type : HasAt data (offset + 16) (littleEndianBytes 2 stored.entry.type) :=
    has.left.left.left.left.right (by rw [stored.entry.identifier.property])
  have dataSize : HasAt data (offset + 18) (littleEndianBytes 2 stored.entry.data.length) :=
    has.left.left.left.right (by simp [stored.entry.identifier.property])
  have entryData : HasAt data (offset + 24) stored.entry.data :=
    has.left.right (by simp [stored.entry.identifier.property]; omega)
  rw [sizeDifference_eq (by omega), KeyBagEntry.readData, if_neg (by omega), Bytes.copy_of_hasAt identifier, ok_bind,
    loadLittleEndian16, loadLittleEndian_of_hasAt type (by omega), ok_bind, loadLittleEndian16,
    loadLittleEndian_of_hasAt dataSize (by omega), ok_bind, if_neg (by omega), entryData.slice rfl]
  rfl

theorem readEntry_encode {stored : StoredEntry} {entries : List KeyBagEntry} (has : HasAt data offset stored.encode)
    (size : data.length ≤ ssizeMax) (whole : data.length % 16 = 0) (start : offset % 16 = 0) :
    KeyBagReading.readEntry data { dataOffset := offset, entries } =
      (.ok (), { dataOffset := offset + stored.encode.length, entries := entries ++ [stored.entry] }) := by
  have inside := has.inside
  have short := stored.short
  have aligned := stored.aligned
  rw [stored.encode_length] at inside ⊢
  have next : KeyBagReading.alignOffset data.length (offset + (24 + stored.entry.data.length)) =
      .ok (offset + (24 + stored.entry.data.length + stored.padding.length)) := by
    unfold KeyBagReading.alignOffset
    split_ifs with already unfit
    · exact congrArg Except.ok (by omega)
    · omega
    · exact congrArg Except.ok (by omega)
  rw [KeyBagReading.readEntry, Call.self_bind, Call.lift_bind_of_ok (readData_encode has size), Call.update_bind,
    Call.self_bind, KeyBagReading.append, Call.lift_bind_of_ok next]
  rfl

theorem readEntries_encode {stored : List StoredEntry} {entries : List KeyBagEntry}
    (has : HasAt data offset (stored.flatMap StoredEntry.encode)) (size : data.length ≤ ssizeMax)
    (whole : data.length % 16 = 0) (start : offset % 16 = 0) :
    (KeyBagReading.readEntry data).times stored.length { dataOffset := offset, entries } =
      (.ok (), { dataOffset := offset + (stored.flatMap StoredEntry.encode).length
                 entries := entries ++ stored.map StoredEntry.entry }) := by
  induction stored generalizing offset entries with
  | nil => simp [Call.times]
  | cons first stored ih =>
      have aligned := first.aligned
      rw [← first.encode_length] at aligned
      have rest : HasAt data (offset + first.encode.length) (stored.flatMap StoredEntry.encode) := has.right rfl
      rw [List.length_cons, Call.times, Call.bind_of_ok (readEntry_encode has.left size whole start),
        ih rest (by omega)]
      simp [Nat.add_assoc]

end reading

namespace StoredBag

variable {checksum : List UInt8}

theorem header_length (bag : StoredBag) : bag.header.length = 16 := by
  simp [header, bag.unknown.property]

theorem body_length (bag : StoredBag) (objectType : Nat) :
    (bag.body objectType).length = 40 + (bag.entries.flatMap StoredEntry.encode).length + bag.rest.length := by
  simp only [body, List.length_append, header_length, bag.identifiers.property, littleEndianBytes_length]

theorem parts (bag : StoredBag) (objectType : Nat) (length : checksum.length = 8) :
    HasAt (checksum ++ bag.body objectType) 24 (littleEndianBytes 4 objectType) ∧
      HasAt (checksum ++ bag.body objectType) 28 (littleEndianBytes 4 0) ∧
      HasAt (checksum ++ bag.body objectType) 32 bag.header ∧
      HasAt (checksum ++ bag.body objectType) 48 (bag.entries.flatMap StoredEntry.encode) := by
  have identifiers := bag.identifiers.property
  have body : HasAt (checksum ++ bag.body objectType) 8 (bag.body objectType) :=
    (hasAt_self _).right (by rw [length])
  have object : HasAt (checksum ++ bag.body objectType) 8
      (bag.identifiers.val ++ littleEndianBytes 4 objectType ++ littleEndianBytes 4 0) := body.left.left.left
  refine ⟨object.left.right ?_, object.right ?_, body.left.left.right ?_, body.left.right ?_⟩
  all_goals simp [identifiers, header_length]

theorem readBag_encode (bag : StoredBag) (objectType : Nat) (length : checksum.length = 8) :
    ∃ dataOffset, KeyBagReading.readBag (checksum ++ bag.body objectType) { dataOffset := 32, entries := [] } =
      (.ok (), { dataOffset, entries := bag.entries.map StoredEntry.entry }) := by
  obtain ⟨_, _, header, entries⟩ := parts bag objectType length
  have counted := bag.counted
  have sized := bag.sized
  have fits := bag.fits
  have bounded := bag.bounded
  have aligned := bag.aligned
  have size : (checksum ++ bag.body objectType).length =
      48 + (bag.entries.flatMap StoredEntry.encode).length + bag.rest.length := by
    rw [List.length_append, length, body_length]
    omega
  have number : HasAt (checksum ++ bag.body objectType) 34 (littleEndianBytes 2 bag.entries.length) :=
    header.left.left.right (by simp)
  have dataSize : HasAt (checksum ++ bag.body objectType) 36 (littleEndianBytes 4 bag.dataSize) :=
    header.left.right (by simp)
  have read : KeyBagHeader.readData (checksum ++ bag.body objectType) 32
      (sizeDifference (checksum ++ bag.body objectType).length 32) =
      .ok { numberOfEntries := bag.entries.length, dataSize := bag.dataSize } := by
    rw [sizeDifference_eq (by omega), KeyBagHeader.readData, if_neg (by omega), loadLittleEndian16,
      loadLittleEndian_of_hasAt header.left.left.left (by omega), ok_bind, loadLittleEndian16,
      loadLittleEndian_of_hasAt number (by omega), ok_bind, loadLittleEndian32,
      loadLittleEndian_of_hasAt dataSize (by omega), ok_bind]
    rfl
  rw [KeyBagReading.readBag, Call.lift_bind_of_ok read, if_neg, Call.update_bind, KeyBagReading.moveTo,
    KeyBagReading.readEntries, readEntries_encode entries (by omega) (by omega) (by omega)]
  · exact ⟨_, rfl⟩
  · rw [sizeDifference_eq (by omega)]
    change ¬bag.dataSize > _
    omega

end StoredBag

def EntriesInside (data : List UInt8) (entries : List KeyBagEntry) : Prop :=
  ∀ entry ∈ entries, ∃ offset, HasAt data offset entry.data

section safety

variable {data : List UInt8} {entries : List KeyBagEntry}

theorem load_outcome {size offset : Nat} (inside : offset + size ≤ data.length) :
    Outcome (loadLittleEndian size data offset) (fun _ => True) True := by
  rw [loadLittleEndian_ok inside]
  trivial

theorem onEntries_safe (least : 32 ≤ data.length) (inside : EntriesInside data entries) :
    Call.Safe (EntriesInside data) (KeyBagReading.onEntries (KeyBagReading.readBag data)) entries := by
  have bounded : KeyBagReading.Bounded data { dataOffset := 32, entries } := ⟨least, inside⟩
  obtain ⟨returns, bounded⟩ := KeyBagReading.readBag_safe least bounded
  exact ⟨returns, bounded.inside⟩

theorem volumeKeyBag_safe (inside : EntriesInside data entries) :
    Call.Safe (EntriesInside data) (VolumeKeyBag.readData data) entries := by
  rw [VolumeKeyBag.readData]
  split_ifs with unfit
  · exact Call.safe_fail _ inside
  have least : 32 ≤ data.length := by omega
  refine Call.safe_lift_bind inside (load_outcome (by omega)) fun objectType _ => ?_
  split_ifs
  · exact Call.safe_fail _ inside
  refine Call.safe_lift_bind inside (load_outcome (by omega)) fun objectSubtype _ => ?_
  split_ifs
  · exact Call.safe_fail _ inside
  · exact onEntries_safe least inside

theorem calculateFletcher64_outcome (buffer : List UInt8) (initialValue : Nat) :
    Outcome (Checksum.calculateFletcher64 buffer initialValue) (fun _ => True) True := by
  rw [Checksum.calculateFletcher64]
  split_ifs <;> trivial

theorem containerKeyBag_safe (inside : EntriesInside data entries) :
    Call.Safe (EntriesInside data) (ContainerKeyBag.readData data) entries := by
  rw [ContainerKeyBag.readData]
  split_ifs with unfit
  · exact Call.safe_fail _ inside
  have least : 32 ≤ data.length := by omega
  refine Call.safe_lift_bind inside (load_outcome (by omega)) fun storedChecksum _ => ?_
  refine Call.safe_lift_bind inside (load_outcome (by omega)) fun objectType _ => ?_
  split_ifs
  · exact Call.safe_pure _ inside
  refine Call.safe_lift_bind inside (load_outcome (by omega)) fun objectSubtype _ => ?_
  split_ifs
  · exact Call.safe_fail _ inside
  refine Call.safe_lift_bind inside (calculateFletcher64_outcome _ 0) fun calculatedChecksum _ => ?_
  split_ifs
  · exact Call.safe_fail _ inside
  · exact (onEntries_safe least inside).bind fun _ _ inside' => Call.safe_pure _ inside'

end safety

theorem volumeKeyBag_encode (bag : StoredBag) (checksum : Bytes 8) :
    VolumeKeyBag.readData (checksum.val ++ bag.body 0x72656373) [] = (.ok (), bag.entries.map StoredEntry.entry) := by
  obtain ⟨objectType, objectSubtype, _, _⟩ :=
    StoredBag.parts bag 0x72656373 checksum.property
  obtain ⟨dataOffset, run⟩ := StoredBag.readBag_encode bag 0x72656373 checksum.property
  have bounded := bag.bounded
  have size : (checksum.val ++ bag.body 0x72656373).length =
      48 + (bag.entries.flatMap StoredEntry.encode).length + bag.rest.length := by
    rw [List.length_append, checksum.property, bag.body_length]
    omega
  have type : loadLittleEndian32 (checksum.val ++ bag.body 0x72656373) 24 = .ok 0x72656373 :=
    loadLittleEndian_of_hasAt objectType (by decide)
  have subtype : loadLittleEndian32 (checksum.val ++ bag.body 0x72656373) 28 = .ok 0 :=
    loadLittleEndian_of_hasAt objectSubtype (by decide)
  rw [VolumeKeyBag.readData, if_neg (by omega), Call.lift_bind_of_ok type, if_neg (by decide),
    Call.lift_bind_of_ok subtype, if_neg (by decide), KeyBagReading.onEntries, run]

theorem containerKeyBag_encode (bag : StoredBag) :
    ∃ checksum, Checksum.calculateFletcher64 (bag.body 0x6b657973) 0 = .ok checksum ∧
      ContainerKeyBag.readData (littleEndianBytes 8 checksum ++ bag.body 0x6b657973) [] =
        (.ok true, bag.entries.map StoredEntry.entry) := by
  have bounded := bag.bounded
  have aligned := bag.aligned
  have body := bag.body_length 0x6b657973
  obtain ⟨low, high, lowFits, highFits, _, calculated⟩ := calculateFletcher64_eq 0
    (show (bag.body 0x6b657973).length ≤ ssizeMax by omega) (by omega)
  refine ⟨_, calculated, ?_⟩
  have length : (littleEndianBytes 8 (high * 2 ^ 32 + low)).length = 8 := littleEndianBytes_length _ _
  have fits : high * 2 ^ 32 + low < 256 ^ 8 := by omega
  generalize high * 2 ^ 32 + low = checksum at length fits calculated ⊢
  obtain ⟨objectType, objectSubtype, _, _⟩ := StoredBag.parts bag 0x6b657973 length
  obtain ⟨dataOffset, run⟩ := StoredBag.readBag_encode bag 0x6b657973 length
  have stored : loadLittleEndian64 (littleEndianBytes 8 checksum ++ bag.body 0x6b657973) 0 = .ok checksum :=
    loadLittleEndian_of_hasAt (hasAt_self _).left fits
  have type : loadLittleEndian32 (littleEndianBytes 8 checksum ++ bag.body 0x6b657973) 24 = .ok 0x6b657973 :=
    loadLittleEndian_of_hasAt objectType (by decide)
  have subtype : loadLittleEndian32 (littleEndianBytes 8 checksum ++ bag.body 0x6b657973) 28 = .ok 0 :=
    loadLittleEndian_of_hasAt objectSubtype (by decide)
  have behind : (littleEndianBytes 8 checksum ++ bag.body 0x6b657973).drop 8 = bag.body 0x6b657973 :=
    List.drop_left' length
  have size : (littleEndianBytes 8 checksum ++ bag.body 0x6b657973).length =
      48 + (bag.entries.flatMap StoredEntry.encode).length + bag.rest.length := by
    rw [List.length_append, length, body]
    omega
  have entries : KeyBagReading.onEntries (KeyBagReading.readBag (littleEndianBytes 8 checksum ++ bag.body 0x6b657973)) [] =
      (.ok (), bag.entries.map StoredEntry.entry) := by
    rw [KeyBagReading.onEntries, run]
  rw [ContainerKeyBag.readData, if_neg (by omega), Call.lift_bind_of_ok stored, Call.lift_bind_of_ok type,
    if_neg (by decide), Call.lift_bind_of_ok subtype, if_neg (by decide), behind, Call.lift_bind_of_ok calculated,
    if_neg (not_not_intro rfl), Call.bind_of_ok entries]
  rfl

/-- The key bags are read back from their encoding, those of a container behind the checksum that is calculated. Of any
data, the loop over the entries stays inside them, and so do the entries. -/
theorem keyBags_read :
    (∀ (bag : StoredBag) (checksum : Bytes 8), VolumeKeyBag.readData (checksum.val ++ bag.body 0x72656373) [] =
      (.ok (), bag.entries.map StoredEntry.entry)) ∧
    (∀ bag : StoredBag, ∃ checksum, Checksum.calculateFletcher64 (bag.body 0x6b657973) 0 = .ok checksum ∧
      ContainerKeyBag.readData (littleEndianBytes 8 checksum ++ bag.body 0x6b657973) [] =
        (.ok true, bag.entries.map StoredEntry.entry)) ∧
    (∀ (data : List UInt8) (iterations : Nat) (reading : KeyBagReading),
      KeyBagReading.AfterIterations data iterations reading →
      reading.dataOffset ≤ data.length ∧ EntriesInside data reading.entries) ∧
    (∀ data : List UInt8, Call.Safe (EntriesInside data) (VolumeKeyBag.readData data) [] ∧
      Call.Safe (EntriesInside data) (ContainerKeyBag.readData data) []) := by
  refine ⟨volumeKeyBag_encode, containerKeyBag_encode, ?_, ?_⟩
  · intro data iterations reading after
    exact ⟨after.bounded.offset, after.bounded.inside⟩
  · intro data
    have none : EntriesInside data [] := fun entry member => absurd member List.not_mem_nil
    exact ⟨volumeKeyBag_safe none, containerKeyBag_safe none⟩

def sampleBag : StoredBag where
  identifiers := Bytes.zero 16
  entries := [
    { entry := { type := 3, identifier := Bytes.zero 16, data := [1, 2, 3, 4, 5] }
      unknown := Bytes.zero 4
      padding := [7, 7, 7]
      typed := by decide
      positive := by decide
      sized := by decide
      short := by decide
      aligned := by decide },
    { entry := { type := 2, identifier := Bytes.zero 16, data := [6, 7, 8, 9, 10, 11] }
      unknown := Bytes.zero 4
      padding := [0, 0]
      typed := by decide
      positive := by decide
      sized := by decide
      short := by decide
      aligned := by decide }]
  dataSize := 80
  unknown := Bytes.zero 8
  rest := []
  counted := by decide
  sized := by decide
  fits := by decide
  bounded := by decide
  aligned := by decide

theorem keyBags_read_sample :
    (VolumeKeyBag.readData ((Bytes.zero 8).val ++ sampleBag.body 0x72656373) []).2.map KeyBagEntry.data =
        [[1, 2, 3, 4, 5], [6, 7, 8, 9, 10, 11]] ∧
      (∃ checksum, (ContainerKeyBag.readData (littleEndianBytes 8 checksum ++ sampleBag.body 0x6b657973) []).2.map
        KeyBagEntry.data = [[1, 2, 3, 4, 5], [6, 7, 8, 9, 10, 11]]) ∧
      ∃ reading, KeyBagReading.AfterIterations ((Bytes.zero 8).val ++ sampleBag.body 0x72656373) 2 reading ∧
        reading.dataOffset ≤ 112 := by
  obtain ⟨volumeKeyBag, containerKeyBag, inside, -⟩ := keyBags_read
  have after : KeyBagReading.AfterIterations ((Bytes.zero 8).val ++ sampleBag.body 0x72656373) 2
      { dataOffset := 112, entries := sampleBag.entries.map StoredEntry.entry } :=
    ⟨{ numberOfEntries := 2, dataSize := 80 }, by decide, rfl, by decide, by decide, rfl⟩
  obtain ⟨checksum, -, read⟩ := containerKeyBag sampleBag
  refine ⟨?_, ⟨checksum, ?_⟩, _, after, (inside _ _ _ after).1⟩
  · rw [volumeKeyBag sampleBag (Bytes.zero 8)]
    rfl
  · rw [read]
    rfl

end Fsapfs
