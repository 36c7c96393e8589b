import Fsapfs.Btree.NodeData
import Fsapfs.KeyEncryptedKey

namespace Fsapfs
open Program

/-- A node as it is written: the table of contents with space left in it, the keys from there on, the values back from
the end or the footer, and the space between them. -/
structure StoredNode where
  identifiers : Bytes 24
  objectType : Nat
  objectSubtype : Nat
  flags : Nat
  level : Nat
  entries : List BtreeEntry
  unusedTable : List UInt8
  unusedData : List UInt8
  freeLists : Bytes 8
  footer : BtreeFooter
  footerFlags : Bytes 4
  footerValues : Bytes 24

namespace StoredNode

variable (stored : StoredNode)

def isRoot : Bool := stored.flags &&& 0x0001 ≠ 0

def isLeaf : Bool := stored.flags &&& 0x0002 ≠ 0

def isFixed : Bool := stored.flags &&& 0x0004 ≠ 0

def keysOf (entries : List BtreeEntry) : List UInt8 := entries.flatMap BtreeEntry.keyData

/-- The values of the first entries are the last ones. -/
def valuesOf : List BtreeEntry → List UInt8
  | [] => []
  | entry :: entries => valuesOf entries ++ entry.valueData

def tableOf (isFixed : Bool) : Nat → Nat → List BtreeEntry → List UInt8
  | _, _, [] => []
  | keysSize, valuesSize, entry :: entries =>
      (if isFixed then
          littleEndianBytes 2 keysSize ++ littleEndianBytes 2 (valuesSize + entry.valueData.length)
        else
          littleEndianBytes 2 keysSize ++ littleEndianBytes 2 entry.keyData.length ++
            littleEndianBytes 2 (valuesSize + entry.valueData.length) ++ littleEndianBytes 2 entry.valueData.length) ++
        tableOf isFixed (keysSize + entry.keyData.length) (valuesSize + entry.valueData.length) entries

def table : List UInt8 := tableOf stored.isFixed 0 0 stored.entries ++ stored.unusedTable

def header : BtreeNodeHeader where
  flags := stored.flags
  level := stored.level
  numberOfKeys := stored.entries.length
  entriesDataOffset := 0
  entriesDataSize := stored.table.length
  unusedDataOffset := (keysOf stored.entries).length
  unusedDataSize := stored.unusedData.length

def headerData : List UInt8 :=
  littleEndianBytes 2 stored.flags ++ littleEndianBytes 2 stored.level ++
    littleEndianBytes 4 stored.entries.length ++ littleEndianBytes 2 0 ++ littleEndianBytes 2 stored.table.length ++
    littleEndianBytes 2 (keysOf stored.entries).length ++ littleEndianBytes 2 stored.unusedData.length ++
    stored.freeLists.val

def footerData : List UInt8 :=
  stored.footerFlags.val ++ littleEndianBytes 4 stored.footer.nodeSize ++ littleEndianBytes 4 stored.footer.keySize ++
    littleEndianBytes 4 stored.footer.valueSize ++ stored.footerValues.val

def objectData : List UInt8 :=
  stored.identifiers.val ++ littleEndianBytes 4 stored.objectType ++ littleEndianBytes 4 stored.objectSubtype

def encode : List UInt8 :=
  stored.objectData ++ stored.headerData ++ stored.table ++ keysOf stored.entries ++ stored.unusedData ++
    valuesOf stored.entries ++ if stored.isRoot then stored.footerData else []

def node : BtreeNode where
  objectType := stored.objectType
  objectSubtype := stored.objectSubtype
  flags := stored.flags
  level := stored.level
  footer := if stored.isRoot then some stored.footer else none
  entries := stored.entries

/-- The fields fit, and the entries of a tree with entries of a fixed size have the sizes of that tree. -/
structure WellFormed : Prop where
  objectType : stored.objectType < 2 ^ 32
  known : stored.objectType &&& 0x0ffffff = 0 ∨ stored.objectType &&& 0x0ffffff = 2 ∨
    stored.objectType &&& 0x0ffffff = 3
  objectSubtype : stored.objectSubtype < 2 ^ 32
  flags : stored.flags < 2 ^ 16
  level : stored.level < 2 ^ 16
  small : stored.encode.length < 2 ^ 16
  fixed : stored.isFixed → (stored.objectSubtype = 0x0b ∨ stored.objectSubtype = 0x1f) ∧
    ∀ entry ∈ stored.entries, entry.keyData.length = 16 ∧
      entry.valueData.length = if stored.isLeaf then 16 else 8
  nodeSize : stored.footer.nodeSize < 2 ^ 32
  keySize : stored.footer.keySize < 2 ^ 32
  valueSize : stored.footer.valueSize < 2 ^ 32

/-- More than the size of a footer is left for values in a node that has none. -/
def HasRoom : Prop :=
  (if stored.isRoot then 0 else 40) < stored.unusedData.length + (valuesOf stored.entries).length

end StoredNode

namespace StoredNode

variable {stored : StoredNode}

theorem valuesOf_append (entries entries' : List BtreeEntry) :
    valuesOf (entries ++ entries') = valuesOf entries' ++ valuesOf entries := by
  induction entries with
  | nil => simp [valuesOf]
  | cons entry entries ih => simp [valuesOf, ih]

theorem tableOf_length (isFixed : Bool) (keysSize valuesSize : Nat) (entries : List BtreeEntry) :
    (tableOf isFixed keysSize valuesSize entries).length = entries.length * if isFixed then 4 else 8 := by
  induction entries generalizing keysSize valuesSize with
  | nil => simp [tableOf]
  | cons entry entries ih =>
      rw [tableOf, List.length_append, ih, List.length_cons, Nat.succ_mul, Nat.add_comm]
      cases isFixed <;> simp

@[simp] theorem objectData_length (stored : StoredNode) : stored.objectData.length = 32 := by
  simp [objectData, stored.identifiers.property]

@[simp] theorem headerData_length (stored : StoredNode) : stored.headerData.length = 24 := by
  simp [headerData, stored.freeLists.property]

@[simp] theorem footerData_length (stored : StoredNode) : stored.footerData.length = 40 := by
  simp [footerData, stored.footerFlags.property, stored.footerValues.property]

theorem encode_length (stored : StoredNode) : stored.encode.length =
    56 + stored.table.length + (keysOf stored.entries).length + stored.unusedData.length +
      (valuesOf stored.entries).length + if stored.isRoot then 40 else 0 := by
  simp only [encode, List.length_append, objectData_length, headerData_length, apply_ite List.length,
    footerData_length, List.length_nil]

structure Parts (stored : StoredNode) : Prop where
  object : HasAt stored.encode 0 stored.objectData
  header : HasAt stored.encode 32 stored.headerData
  table : HasAt stored.encode 56 stored.table
  keys : HasAt stored.encode (56 + stored.table.length) (keysOf stored.entries)
  values : HasAt stored.encode (56 + stored.table.length + (keysOf stored.entries).length + stored.unusedData.length)
    (valuesOf stored.entries)
  footer : stored.isRoot → HasAt stored.encode (stored.encode.length - 40) stored.footerData

theorem parts (stored : StoredNode) : stored.Parts := by
  have whole : HasAt stored.encode 0 stored.encode := hasAt_self _
  have length := stored.encode_length
  refine ⟨whole.left.left.left.left.left.left, whole.left.left.left.left.left.right (by simp),
    whole.left.left.left.left.right (by simp), whole.left.left.left.right (by simp; omega),
    whole.left.right (by simp; omega), fun root => ?_⟩
  have last := whole.right (show stored.encode.length - 40 = _ by
    rw [length, if_pos root]
    simp
    omega)
  rwa [if_pos root] at last

theorem readObjectData_encode (wellFormed : stored.WellFormed) (minimum : 96 ≤ stored.encode.length) :
    BtreeNode.readObjectData stored.encode = .ok (stored.objectType, stored.objectSubtype) := by
  have object := stored.parts.object
  have small := wellFormed.small
  have type : HasAt stored.encode 24 (littleEndianBytes 4 stored.objectType) :=
    object.left.right (by simp [stored.identifiers.property])
  have subtype : HasAt stored.encode 28 (littleEndianBytes 4 stored.objectSubtype) :=
    object.right (by simp [stored.identifiers.property])
  have known := wellFormed.known
  rw [BtreeNode.readObjectData, if_neg (by unfold ssizeMax; omega), loadLittleEndian32,
    loadLittleEndian_of_hasAt type (by simpa using wellFormed.objectType), ok_bind]
  dsimp only
  rw [if_neg (by omega), loadLittleEndian32,
    loadLittleEndian_of_hasAt subtype (by simpa using wellFormed.objectSubtype), ok_bind]
  rfl

theorem slice_header (stored : StoredNode) :
    (slice stored.encode 32 24 : Result (List UInt8)) = .ok stored.headerData :=
  stored.parts.header.slice stored.headerData_length.symm

theorem table_small (wellFormed : stored.WellFormed) : stored.table.length < 2 ^ 16 ∧
    (keysOf stored.entries).length < 2 ^ 16 ∧ stored.unusedData.length < 2 ^ 16 ∧ stored.entries.length < 2 ^ 32 := by
  have small := wellFormed.small
  have length := stored.encode_length
  have table : stored.table.length = stored.entries.length * (if stored.isFixed then 4 else 8) +
      stored.unusedTable.length := by
    rw [table, List.length_append, tableOf_length]
  have count : stored.entries.length ≤ stored.entries.length * if stored.isFixed then 4 else 8 := by
    apply Nat.le_mul_of_pos_right
    split <;> decide
  omega

theorem readHeader_encode (wellFormed : stored.WellFormed) :
    BtreeNodeHeader.readData stored.headerData = .ok stored.header := by
  obtain ⟨table, keys, unused, count⟩ := table_small wellFormed
  have whole : HasAt stored.headerData 0 stored.headerData := hasAt_self _
  have data := stored.headerData_length
  have at0 := whole.left.left.left.left.left.left.left
  have at2 := whole.left.left.left.left.left.left.right (show 2 = _ by simp)
  have at4 := whole.left.left.left.left.left.right (show 4 = _ by simp)
  have at8 := whole.left.left.left.left.right (show 8 = _ by simp)
  have at10 := whole.left.left.left.right (show 10 = _ by simp)
  have at12 := whole.left.left.right (show 12 = _ by simp)
  have at14 := whole.left.right (show 14 = _ by simp)
  rw [BtreeNodeHeader.readData, if_neg (by unfold ssizeMax; omega), loadLittleEndian16,
    loadLittleEndian_of_hasAt at0 wellFormed.flags, ok_bind, loadLittleEndian16,
    loadLittleEndian_of_hasAt at2 wellFormed.level, ok_bind, loadLittleEndian32, loadLittleEndian_of_hasAt at4 count,
    ok_bind, loadLittleEndian16, loadLittleEndian_of_hasAt at8 (by decide), ok_bind, loadLittleEndian16,
    loadLittleEndian_of_hasAt at10 table, ok_bind, loadLittleEndian16, loadLittleEndian_of_hasAt at12 keys, ok_bind,
    loadLittleEndian16, loadLittleEndian_of_hasAt at14 unused, ok_bind]
  rfl

theorem readFooter_encode (wellFormed : stored.WellFormed) (minimum : 96 ≤ stored.encode.length) :
    BtreeNode.readFooter stored.header stored.encode = .ok (if stored.isRoot then some stored.footer else none,
      if stored.isRoot then stored.encode.length - 40 else stored.encode.length) := by
  have small := wellFormed.small
  unfold BtreeNode.readFooter
  by_cases root : stored.isRoot = true
  · have isRoot : stored.header.isRootNode = true := root
    have whole : HasAt stored.footerData 0 stored.footerData := hasAt_self _
    have at4 := whole.left.left.left.right (show 4 = _ by simp [stored.footerFlags.property])
    have at8 := whole.left.left.right (show 8 = _ by simp [stored.footerFlags.property])
    have at12 := whole.left.right (show 12 = _ by simp [stored.footerFlags.property])
    have read : BtreeFooter.readData stored.footerData = .ok stored.footer := by
      rw [BtreeFooter.readData, if_neg (by simp [ssizeMax]), loadLittleEndian32,
        loadLittleEndian_of_hasAt at4 wellFormed.nodeSize, ok_bind, loadLittleEndian32,
        loadLittleEndian_of_hasAt at8 wellFormed.keySize, ok_bind, loadLittleEndian32,
        loadLittleEndian_of_hasAt at12 wellFormed.valueSize, ok_bind]
      rfl
    have offset : uint16Sub (uint16 stored.encode.length) 40 = stored.encode.length - 40 := by
      unfold uint16Sub uint16
      omega
    rw [if_pos isRoot, (stored.parts.footer root).slice stored.footerData_length.symm, ok_bind, read, ok_bind, offset,
      if_pos root, if_pos root]
    rfl
  · have isRoot : ¬stored.header.isRootNode = true := root
    have offset : uint16 stored.encode.length = stored.encode.length := Nat.mod_eq_of_lt small
    rw [if_neg isRoot, offset, if_neg root, if_neg root]

section entries

variable {before rest : List BtreeEntry} {entry : BtreeEntry}

def valuesEnd (stored : StoredNode) : Nat :=
  if stored.isRoot then stored.encode.length - 40 else stored.encode.length

theorem valuesEnd_eq (stored : StoredNode) : stored.valuesEnd =
    56 + stored.table.length + (keysOf stored.entries).length + stored.unusedData.length +
      (valuesOf stored.entries).length := by
  have length := stored.encode_length
  unfold valuesEnd
  split_ifs at length ⊢ <;> omega

def tableEntry (before : List BtreeEntry) (entry : BtreeEntry) : TableEntry where
  keyDataOffset := (keysOf before).length
  keyDataSize := entry.keyData.length
  valueDataOffset := (valuesOf before).length + entry.valueData.length
  valueDataSize := entry.valueData.length

variable (all : stored.entries = before ++ entry :: rest)

include all

theorem key_hasAt :
    HasAt stored.encode (56 + stored.table.length + (keysOf before).length) entry.keyData := by
  have keys := stored.parts.keys
  rw [all, keysOf, List.flatMap_append, List.flatMap_cons, ← List.append_assoc] at keys
  exact keys.left.right rfl

theorem value_hasAt : HasAt stored.encode
    (stored.valuesEnd - ((valuesOf before).length + entry.valueData.length)) entry.valueData := by
  have values := stored.parts.values
  have ends := stored.valuesEnd_eq
  rw [all, valuesOf_append, valuesOf] at values ends
  apply values.left.right
  simp only [List.length_append] at ends ⊢
  omega

theorem entry_small (wellFormed : stored.WellFormed) :
    56 + stored.table.length + (keysOf before).length + entry.keyData.length ≤ stored.encode.length ∧
      (valuesOf before).length + entry.valueData.length ≤ stored.valuesEnd ∧
      stored.valuesEnd ≤ stored.encode.length ∧ stored.encode.length < 2 ^ 16 := by
  have inside := (key_hasAt all).inside
  have ends := stored.valuesEnd_eq
  have length := stored.encode_length
  rw [all, valuesOf_append, valuesOf] at ends
  simp only [List.length_append] at ends
  refine ⟨inside, by omega, ?_, wellFormed.small⟩
  unfold valuesEnd
  split <;> omega

theorem readTableEntry_encode (wellFormed : stored.WellFormed) {offset : Nat}
    (has : HasAt stored.encode offset (tableOf stored.isFixed (keysOf before).length (valuesOf before).length
      (entry :: rest))) :
    TableEntry.readData stored.header stored.objectSubtype stored.encode offset =
      .ok (tableEntry before entry) := by
  obtain ⟨key, value, ends, small⟩ := entry_small all wellFormed
  rw [tableOf] at has
  have here := has.left
  unfold TableEntry.readData
  by_cases fixed : stored.isFixed = true
  · have isFixed : stored.header.hasFixedSizeEntries = true := fixed
    obtain ⟨subtype, sizes⟩ := wellFormed.fixed fixed
    obtain ⟨keySize, valueSize⟩ := sizes entry (all ▸ List.mem_append_right _ List.mem_cons_self)
    have known : fixedEntrySizes stored.objectSubtype = .ok (16, 16) := by
      rcases subtype with same | same <;> rw [same] <;> rfl
    rw [if_pos fixed] at here
    rw [if_pos isFixed, loadLittleEndian16, loadLittleEndian_of_hasAt here.left (by omega), ok_bind,
      loadLittleEndian16, loadLittleEndian_of_hasAt (here.right (by simp)) (by omega), ok_bind, known, ok_bind]
    simp only [tableEntry, keySize, valueSize]
    rfl
  · have isFixed : ¬stored.header.hasFixedSizeEntries = true := fixed
    rw [if_neg fixed] at here
    have at2 := here.left.left.right (show offset + 2 = _ by simp)
    have at4 := here.left.right (show offset + 4 = _ by simp)
    have at6 := here.right (show offset + 6 = _ by simp)
    rw [if_neg isFixed, loadLittleEndian16, loadLittleEndian_of_hasAt here.left.left.left (by omega), ok_bind,
      loadLittleEndian16, loadLittleEndian_of_hasAt at2 (by omega), ok_bind, loadLittleEndian16,
      loadLittleEndian_of_hasAt at4 (by omega), ok_bind, loadLittleEndian16, loadLittleEndian_of_hasAt at6 (by omega),
      ok_bind]
    rfl

theorem readEntry_encode (wellFormed : stored.WellFormed) :
    BtreeNode.readEntry stored.header stored.encode stored.valuesEnd 56 (tableEntry before entry) =
      .ok entry := by
  obtain ⟨key, value, ends, small⟩ := entry_small all wellFormed
  have keyOffset : uint16 ((keysOf before).length + (56 + stored.table.length)) =
      56 + stored.table.length + (keysOf before).length := by
    unfold uint16
    omega
  have valueOffset : uint16Sub stored.valuesEnd ((valuesOf before).length + entry.valueData.length) =
      stored.valuesEnd - ((valuesOf before).length + entry.valueData.length) := by
    unfold uint16Sub uint16
    omega
  have limit : memoryMaximumAllocationSize = 134217728 := rfl
  have keyData : setEntryData stored.encode (56 + stored.table.length + (keysOf before).length) entry.keyData.length =
      .ok entry.keyData := by
    rw [setEntryData, if_neg (by omega), (key_hasAt all).slice rfl]
  have valueData : setEntryData stored.encode
      (stored.valuesEnd - ((valuesOf before).length + entry.valueData.length)) entry.valueData.length =
      .ok entry.valueData := by
    rw [setEntryData, if_neg (by omega), (value_hasAt all).slice rfl]
  simp only [BtreeNode.readEntry, tableEntry, header, keyOffset, valueOffset]
  rw [if_neg (by omega), if_neg (by omega), keyData, ok_bind, valueData, ok_bind]
  rfl

end entries

theorem readEntries_encode (wellFormed : stored.WellFormed) {before rest : List BtreeEntry} {offset : Nat}
    (all : stored.entries = before ++ rest)
    (has : HasAt stored.encode offset
      (tableOf stored.isFixed (keysOf before).length (valuesOf before).length rest)) :
    BtreeNode.readEntries stored.header stored.objectSubtype stored.encode stored.valuesEnd 56 rest.length offset =
      .ok rest := by
  induction rest generalizing before offset with
  | nil => rfl
  | cons entry rest ih =>
      have keys : (keysOf (before ++ [entry])).length = (keysOf before).length + entry.keyData.length := by
        simp [keysOf]
      have values : (valuesOf (before ++ [entry])).length = (valuesOf before).length + entry.valueData.length := by
        rw [valuesOf_append, List.length_append, Nat.add_comm]
        rfl
      have size : stored.header.btreeEntryDataSize = if stored.isFixed then 4 else 8 := rfl
      have first := readTableEntry_encode all wellFormed has
      rw [tableOf] at has
      have next : HasAt stored.encode (offset + stored.header.btreeEntryDataSize)
          (tableOf stored.isFixed (keysOf (before ++ [entry])).length (valuesOf (before ++ [entry])).length rest) := by
        rw [keys, values, size]
        apply has.right
        cases stored.isFixed <;> simp
      rw [List.length_cons, BtreeNode.readEntries, first, ok_bind, readEntry_encode all wellFormed, ok_bind,
        ih (by simp [all]) next]
      rfl

theorem checkDataOffsets_encode (stored : StoredNode) (minimum : 96 ≤ stored.encode.length) :
    stored.header.checkDataOffsets (stored.encode.length - 96) = .ok () ↔ stored.HasRoom := by
  have length := stored.encode_length
  have room : stored.HasRoom ↔ stored.table.length + (keysOf stored.entries).length < stored.encode.length - 96 := by
    unfold HasRoom
    cases root : stored.isRoot <;> simp [root] at length ⊢ <;> omega
  rw [room]
  change (if 0 ≥ stored.encode.length - 96 then fail .valueOutOfBounds
    else if stored.table.length > stored.encode.length - 96 - 0 then fail .valueOutOfBounds
    else if (keysOf stored.entries).length ≥ stored.encode.length - 96 - 0 - stored.table.length then
      fail .valueOutOfBounds
    else .ok () : Result Unit) = .ok () ↔ _
  split_ifs
  · exact ⟨fun failed => (by cases failed), fun room => by omega⟩
  · exact ⟨fun failed => (by cases failed), fun room => by omega⟩
  · exact ⟨fun failed => (by cases failed), fun room => by omega⟩
  · exact ⟨fun _ => by omega, fun _ => rfl⟩

theorem count_fits (stored : StoredNode) :
    stored.entries.length ≤ stored.table.length / if stored.isFixed then 4 else 8 := by
  have table : stored.table.length = stored.entries.length * (if stored.isFixed then 4 else 8) +
      stored.unusedTable.length := by
    rw [table, List.length_append, tableOf_length]
  rw [table]
  cases stored.isFixed <;> simp <;> omega

end StoredNode

theorem StoredNode.readData_offsets {stored : StoredNode} (wellFormed : stored.WellFormed)
    (minimum : 96 ≤ stored.encode.length) : BtreeNode.readData stored.encode =
      (stored.header.checkDataOffsets (stored.encode.length - 96)).map fun _ => stored.node := by
  have small := wellFormed.small
  have entries := stored.readEntries_encode wellFormed (List.nil_append _).symm stored.parts.table.left
  have count : ¬stored.header.numberOfKeys > stored.header.entriesDataSize / stored.header.btreeEntryDataSize :=
    Nat.not_lt.mpr stored.count_fits
  rw [BtreeNode.readData, if_neg (by unfold ssizeMax; omega), StoredNode.readObjectData_encode wellFormed minimum,
    ok_bind]
  dsimp only
  rw [StoredNode.slice_header, ok_bind, StoredNode.readHeader_encode wellFormed, ok_bind]
  cases stored.header.checkDataOffsets (stored.encode.length - 96) with
  | error failure => rfl
  | ok _ =>
      rw [ok_bind, StoredNode.readFooter_encode wellFormed minimum, ok_bind]
      dsimp only
      rw [if_neg count]
      change (BtreeNode.readEntries stored.header stored.objectSubtype stored.encode stored.valuesEnd 56
        stored.entries.length 56 >>= _) = _
      rw [entries]
      rfl

theorem StoredNode.minimum_of_room {stored : StoredNode} (room : stored.HasRoom) : 96 ≤ stored.encode.length := by
  have length := stored.encode_length
  unfold StoredNode.HasRoom at room
  cases root : stored.isRoot <;> simp [root] at length room <;> omega

theorem StoredNode.readData_room {stored : StoredNode} (wellFormed : stored.WellFormed) (room : stored.HasRoom) :
    BtreeNode.readData stored.encode = .ok stored.node := by
  have minimum := minimum_of_room room
  rw [readData_offsets wellFormed minimum, (stored.checkDataOffsets_encode minimum).mpr room]
  rfl

/-- A node is read back from what was written just if more than the size of a footer is left for values in a node that
has none. -/
theorem BtreeNode.readData_stored_iff {stored : StoredNode} (wellFormed : stored.WellFormed) :
    BtreeNode.readData stored.encode = .ok stored.node ↔ stored.HasRoom := by
  refine ⟨fun read => ?_, StoredNode.readData_room wellFormed⟩
  by_cases minimum : 96 ≤ stored.encode.length
  · rw [StoredNode.readData_offsets wellFormed minimum] at read
    apply (stored.checkDataOffsets_encode minimum).mp
    cases checked : stored.header.checkDataOffsets (stored.encode.length - 96) with
    | error failure =>
        rw [checked] at read
        cases read
    | ok _ => rfl
  · rw [readData, if_pos (Or.inl (Nat.not_le.mp minimum))] at read
    cases read

def sampleNode : StoredNode where
  identifiers := Bytes.zero 24
  objectType := 2
  objectSubtype := 14
  flags := 3
  level := 0
  entries := [{ keyData := [1, 2, 3], valueData := [4] }, { keyData := [5], valueData := [6, 7] }]
  unusedTable := []
  unusedData := List.replicate 8 0
  freeLists := Bytes.zero 8
  footer := { nodeSize := 4096, keySize := 0, valueSize := 0 }
  footerFlags := Bytes.zero 4
  footerValues := Bytes.zero 24

theorem BtreeNode.readData_stored_iff_sample :
    (BtreeNode.readData sampleNode.encode = .ok sampleNode.node ↔ sampleNode.HasRoom) ∧ sampleNode.HasRoom :=
  ⟨BtreeNode.readData_stored_iff ⟨by decide, by decide, by decide, by decide, by decide, by decide +kernel, by decide,
    by decide, by decide, by decide⟩, by unfold StoredNode.HasRoom; decide +kernel⟩

end Fsapfs
