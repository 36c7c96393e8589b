import Fsapfs.BtreeNode

namespace Fsapfs
open Program

def uint16 (value : Nat) : Nat := value % 0x10000

def uint16Sub (value other : Nat) : Nat := uint16 (value + 0x10000 - other)

structure BtreeNodeHeader where
  flags : Nat
  level : Nat
  numberOfKeys : Nat
  entriesDataOffset : Nat
  entriesDataSize : Nat
  unusedDataOffset : Nat
  unusedDataSize : Nat
  deriving Repr, DecidableEq

def BtreeNodeHeader.readData (data : List UInt8) : Result BtreeNodeHeader :=
  if data.length < 24 ∨ data.length > ssizeMax then fail .valueOutOfBounds
  else do
    let flags ← loadLittleEndian16 data 0
    let level ← loadLittleEndian16 data 2
    let numberOfKeys ← loadLittleEndian32 data 4
    let entriesDataOffset ← loadLittleEndian16 data 8
    let entriesDataSize ← loadLittleEndian16 data 10
    let unusedDataOffset ← loadLittleEndian16 data 12
    let unusedDataSize ← loadLittleEndian16 data 14
    return { flags, level, numberOfKeys, entriesDataOffset, entriesDataSize, unusedDataOffset, unusedDataSize }

def BtreeFooter.readData (data : List UInt8) : Result BtreeFooter :=
  if data.length < 40 ∨ data.length > ssizeMax then fail .valueOutOfBounds
  else do
    let nodeSize ← loadLittleEndian32 data 4
    let keySize ← loadLittleEndian32 data 8
    let valueSize ← loadLittleEndian32 data 12
    return { nodeSize, keySize, valueSize }

namespace BtreeNodeHeader

variable (header : BtreeNodeHeader)

def isRootNode : Bool := header.flags &&& 0x0001 ≠ 0

def isLeafNode : Bool := header.flags &&& 0x0002 ≠ 0

def hasFixedSizeEntries : Bool := header.flags &&& 0x0004 ≠ 0

def btreeEntryDataSize : Nat := if header.hasFixedSizeEntries then 4 else 8

def checkDataOffsets (remainingDataSize : Nat) : Result Unit :=
  if header.entriesDataOffset ≥ remainingDataSize then fail .valueOutOfBounds
  else if header.entriesDataSize > remainingDataSize - header.entriesDataOffset then fail .valueOutOfBounds
  else if header.unusedDataOffset ≥ remainingDataSize - header.entriesDataOffset - header.entriesDataSize then
    fail .valueOutOfBounds
  else .ok ()

end BtreeNodeHeader

structure TableEntry where
  keyDataOffset : Nat
  keyDataSize : Nat
  valueDataOffset : Nat
  valueDataSize : Nat
  deriving Repr, DecidableEq

def fixedEntrySizes (objectSubtype : Nat) : Result (Nat × Nat) :=
  match objectSubtype with
  | 0x0000000b => .ok (16, 16)
  | 0x0000001f => .ok (16, 16)
  | _ => fail .unsupportedValue

def TableEntry.readData (header : BtreeNodeHeader) (objectSubtype : Nat) (data : List UInt8) (dataOffset : Nat) :
    Result TableEntry :=
  if header.hasFixedSizeEntries then do
    let keyDataOffset ← loadLittleEndian16 data dataOffset
    let valueDataOffset ← loadLittleEndian16 data (dataOffset + 2)
    let (keyDataSize, valueDataSize) ← fixedEntrySizes objectSubtype
    return { keyDataOffset, keyDataSize, valueDataOffset,
             valueDataSize := if header.isLeafNode then valueDataSize else 8 }
  else do
    let keyDataOffset ← loadLittleEndian16 data dataOffset
    let keyDataSize ← loadLittleEndian16 data (dataOffset + 2)
    let valueDataOffset ← loadLittleEndian16 data (dataOffset + 4)
    let valueDataSize ← loadLittleEndian16 data (dataOffset + 6)
    return { keyDataOffset, keyDataSize, valueDataOffset, valueDataSize }

def setEntryData (data : List UInt8) (offset size : Nat) : Result (List UInt8) :=
  if size > memoryMaximumAllocationSize then fail .valueExceedsMaximum else slice data offset size

namespace BtreeNode

def readObjectData (data : List UInt8) : Result (Nat × Nat) :=
  if data.length < 32 ∨ data.length > ssizeMax then fail .valueOutOfBounds
  else do
    let type ← loadLittleEndian32 data 24
    let objectType := type &&& 0x0ffffff
    if objectType ≠ 0 ∧ objectType ≠ 2 ∧ objectType ≠ 3 then fail .unsupportedValue
    else do
      let objectSubtype ← loadLittleEndian32 data 28
      return (type, objectSubtype)

section entries

variable (header : BtreeNodeHeader) (objectSubtype : Nat) (data : List UInt8) (footerOffset entriesDataOffset : Nat)

/-- The offsets are added up in 16 bits before they are checked. -/
def readEntry (entry : TableEntry) : Result BtreeEntry :=
  let keyDataOffset := uint16 (entry.keyDataOffset + (entriesDataOffset + header.entriesDataSize))
  if keyDataOffset > data.length ∨ entry.keyDataSize > data.length - keyDataOffset then fail .valueOutOfBounds
  else
    let valueDataOffset := uint16Sub footerOffset entry.valueDataOffset
    if valueDataOffset > data.length ∨ entry.valueDataSize > data.length - valueDataOffset then fail .valueOutOfBounds
    else do
      let keyData ← setEntryData data keyDataOffset entry.keyDataSize
      let valueData ← setEntryData data valueDataOffset entry.valueDataSize
      return { keyData, valueData }

def readEntries : Nat → Nat → Result (List BtreeEntry)
  | 0, _ => .ok []
  | numberOfKeys + 1, dataOffset => do
      let entry ← TableEntry.readData header objectSubtype data dataOffset
      let btreeEntry ← readEntry header data footerOffset entriesDataOffset entry
      let btreeEntries ← readEntries numberOfKeys (dataOffset + header.btreeEntryDataSize)
      return btreeEntry :: btreeEntries

end entries

/-- The footer of a root node, and the offset that the values are counted back from. -/
def readFooter (header : BtreeNodeHeader) (data : List UInt8) : Result (Option BtreeFooter × Nat) :=
  if header.isRootNode then do
    let bytes ← slice data (data.length - 40) 40
    let footer ← BtreeFooter.readData bytes
    return (some footer, uint16Sub (uint16 data.length) 40)
  else .ok (none, uint16 data.length)

/-- Reads the data into a node that nothing was read into before. -/
def readData (data : List UInt8) : Result BtreeNode :=
  if data.length < 96 ∨ data.length > ssizeMax then fail .valueOutOfBounds
  else do
    let (objectType, objectSubtype) ← readObjectData data
    let headerData ← slice data 32 24
    let header ← BtreeNodeHeader.readData headerData
    let _ ← header.checkDataOffsets (data.length - 96)
    let (footer, footerOffset) ← readFooter header data
    if header.numberOfKeys > header.entriesDataSize / header.btreeEntryDataSize then fail .valueOutOfBounds
    else do
      let entries ← readEntries header objectSubtype data footerOffset (uint16 (header.entriesDataOffset + 56))
        header.numberOfKeys (56 + header.entriesDataOffset)
      return { objectType, objectSubtype, flags := header.flags, level := header.level, footer, entries }

end BtreeNode

section specification

variable (header : BtreeNodeHeader) (data : List UInt8)

/-- The end of the table of contents, which the keys are counted from. -/
def BtreeNodeHeader.tableEnd : Nat := 56 + header.entriesDataOffset + header.entriesDataSize

/-- The end of the values, which they are counted back from. -/
def BtreeNodeHeader.valuesEnd : Nat := if header.isRootNode then data.length - 40 else data.length

/-- The key and the value are the bytes that the entry of the table describes. -/
structure TableEntry.Describes (entry : TableEntry) (btreeEntry : BtreeEntry) : Prop where
  keyInside : header.tableEnd + entry.keyDataOffset + entry.keyDataSize ≤ data.length
  valueBefore : entry.valueDataOffset ≤ header.valuesEnd data
  valueInside : header.valuesEnd data - entry.valueDataOffset + entry.valueDataSize ≤ data.length
  key : btreeEntry.keyData = (data.drop (header.tableEnd + entry.keyDataOffset)).take entry.keyDataSize
  value : btreeEntry.valueData =
    (data.drop (header.valuesEnd data - entry.valueDataOffset)).take entry.valueDataSize

/-- Neither offset wraps around; where one is 65536, which is the end of the data, there are no bytes at it. -/
structure TableEntry.Unwrapped (entry : TableEntry) : Prop where
  key : header.tableEnd + entry.keyDataOffset < 0x10000 ∨
    header.tableEnd + entry.keyDataOffset = data.length ∧ entry.keyDataSize = 0
  before : entry.valueDataOffset ≤ header.valuesEnd data
  value : header.valuesEnd data - entry.valueDataOffset < 0x10000 ∨ entry.valueDataSize = 0

def BtreeNodeHeader.tableEntry (objectSubtype index : Nat) : Result TableEntry :=
  TableEntry.readData header objectSubtype data (56 + header.entriesDataOffset + index * header.btreeEntryDataSize)

def HeaderOf (objectSubtype : Nat) : Prop :=
  BtreeNodeHeader.readData ((data.drop 32).take 24) = .ok header ∧
    ∃ objectType, BtreeNode.readObjectData data = .ok (objectType, objectSubtype)

/-- The node has an entry for every key, with the bytes that the table of contents describes. -/
def Extracts (data : List UInt8) (node : BtreeNode) : Prop :=
  ∃ header objectSubtype, HeaderOf header data objectSubtype ∧ node.entries.length = header.numberOfKeys ∧
    ∀ index < header.numberOfKeys, ∃ entry btreeEntry, header.tableEntry data objectSubtype index = .ok entry ∧
      node.entries[index]? = some btreeEntry ∧ entry.Describes header data btreeEntry

def OffsetsUnwrapped (data : List UInt8) : Prop :=
  ∀ header objectSubtype, HeaderOf header data objectSubtype → ∀ index < header.numberOfKeys, ∀ entry,
    header.tableEntry data objectSubtype index = .ok entry → entry.Unwrapped header data

end specification

section entries

variable {header : BtreeNodeHeader} {data : List UInt8} {objectSubtype footerOffset entriesDataOffset : Nat}

theorem setEntryData_ok {offset size : Nat} {bytes : List UInt8} (set : setEntryData data offset size = .ok bytes) :
    bytes = (data.drop offset).take size := by
  unfold setEntryData at set
  split at set
  · cases set
  · unfold slice at set
    split at set
    · exact (Except.ok.inj set).symm
    · cases set

theorem readEntry_ok {entry : TableEntry} {btreeEntry : BtreeEntry}
    (read : BtreeNode.readEntry header data footerOffset entriesDataOffset entry = .ok btreeEntry) :
    let keyDataOffset := uint16 (entry.keyDataOffset + (entriesDataOffset + header.entriesDataSize))
    let valueDataOffset := uint16Sub footerOffset entry.valueDataOffset
    keyDataOffset + entry.keyDataSize ≤ data.length ∧ valueDataOffset + entry.valueDataSize ≤ data.length ∧
      btreeEntry.keyData = (data.drop keyDataOffset).take entry.keyDataSize ∧
      btreeEntry.valueData = (data.drop valueDataOffset).take entry.valueDataSize := by
  intro keyDataOffset valueDataOffset
  unfold BtreeNode.readEntry at read
  dsimp only at read
  split at read
  · cases read
  next keyInside =>
    split at read
    · cases read
    next valueInside =>
      obtain ⟨keyData, key, read⟩ := bind_eq_ok.mp read
      obtain ⟨valueData, value, read⟩ := bind_eq_ok.mp read
      cases Except.ok.inj read
      refine ⟨by omega, by omega, setEntryData_ok key, setEntryData_ok value⟩

theorem readEntries_ok {numberOfKeys dataOffset : Nat} {entries : List BtreeEntry}
    (read : BtreeNode.readEntries header objectSubtype data footerOffset entriesDataOffset numberOfKeys dataOffset =
      .ok entries) :
    entries.length = numberOfKeys ∧ ∀ index < numberOfKeys, ∃ entry btreeEntry,
      TableEntry.readData header objectSubtype data (dataOffset + index * header.btreeEntryDataSize) = .ok entry ∧
      entries[index]? = some btreeEntry ∧
      BtreeNode.readEntry header data footerOffset entriesDataOffset entry = .ok btreeEntry := by
  induction numberOfKeys generalizing dataOffset entries with
  | zero =>
      cases Except.ok.inj read
      exact ⟨rfl, fun index inside => absurd inside (Nat.not_lt_zero index)⟩
  | succ numberOfKeys ih =>
      rw [BtreeNode.readEntries] at read
      obtain ⟨entry, first, read⟩ := bind_eq_ok.mp read
      obtain ⟨btreeEntry, set, read⟩ := bind_eq_ok.mp read
      obtain ⟨rest, more, read⟩ := bind_eq_ok.mp read
      cases Except.ok.inj read
      obtain ⟨count, each⟩ := ih more
      refine ⟨congrArg (· + 1) count, ?_⟩
      intro index inside
      cases index with
      | zero =>
          rw [Nat.zero_mul, Nat.add_zero]
          exact ⟨entry, btreeEntry, first, rfl, set⟩
      | succ index =>
          obtain ⟨entry', btreeEntry', table, found, set'⟩ := each index (Nat.lt_of_succ_lt_succ inside)
          have offset : dataOffset + (index + 1) * header.btreeEntryDataSize =
              dataOffset + header.btreeEntryDataSize + index * header.btreeEntryDataSize := by
            rw [Nat.succ_mul]
            omega
          rw [offset]
          exact ⟨entry', btreeEntry', table, found, set'⟩

/-- An entry is given by the numbers of 16 bits in its slot: the offset and the size of the key and of the value, and
the two offsets alone where the sizes are fixed. -/
theorem TableEntry.readData_slot {dataOffset : Nat} {entry : TableEntry}
    (read : TableEntry.readData header objectSubtype data dataOffset = .ok entry) :
    let number := fun position => littleEndian ((data.drop (dataOffset + position)).take 2)
    entry.keyDataOffset = number 0 ∧
      if header.hasFixedSizeEntries then
        entry.valueDataOffset = number 2 ∧ ∃ valueDataSize,
          fixedEntrySizes objectSubtype = .ok (entry.keyDataSize, valueDataSize) ∧
          entry.valueDataSize = if header.isLeafNode then valueDataSize else 8
      else entry.keyDataSize = number 2 ∧ entry.valueDataOffset = number 4 ∧ entry.valueDataSize = number 6 := by
  intro number
  unfold TableEntry.readData at read
  split at read
  next fixed =>
    obtain ⟨_, key, read⟩ := bind_eq_ok.mp read
    obtain ⟨_, value, read⟩ := bind_eq_ok.mp read
    obtain ⟨⟨_, valueDataSize⟩, sizes, read⟩ := bind_eq_ok.mp read
    cases Except.ok.inj read
    rw [if_pos fixed]
    exact ⟨loadLittleEndian_value key, loadLittleEndian_value value, valueDataSize, sizes, rfl⟩
  next varying =>
    obtain ⟨_, key, read⟩ := bind_eq_ok.mp read
    obtain ⟨_, keySize, read⟩ := bind_eq_ok.mp read
    obtain ⟨_, value, read⟩ := bind_eq_ok.mp read
    obtain ⟨_, valueSize, read⟩ := bind_eq_ok.mp read
    cases Except.ok.inj read
    rw [if_neg varying]
    exact ⟨loadLittleEndian_value key, loadLittleEndian_value keySize, loadLittleEndian_value value,
      loadLittleEndian_value valueSize⟩

theorem TableEntry.readData_valueDataOffset {dataOffset : Nat} {entry : TableEntry}
    (read : TableEntry.readData header objectSubtype data dataOffset = .ok entry) : entry.valueDataOffset < 0x10000 := by
  obtain ⟨_, rest⟩ := TableEntry.readData_slot read
  split at rest
  · exact rest.1 ▸ littleEndian_take_lt _ 2
  · exact rest.2.1 ▸ littleEndian_take_lt _ 2

theorem checkDataOffsets_ok {remainingDataSize : Nat} (checked : header.checkDataOffsets remainingDataSize = .ok ()) :
    header.entriesDataOffset + header.entriesDataSize < remainingDataSize := by
  unfold BtreeNodeHeader.checkDataOffsets at checked
  split_ifs at checked with offset size unused
  · cases checked
  · cases checked
  · cases checked
  · omega

theorem readFooter_ok {footer : Option BtreeFooter} (minimum : 96 ≤ data.length) (maximum : data.length ≤ 0x10000)
    (read : BtreeNode.readFooter header data = .ok (footer, footerOffset)) :
    footerOffset = uint16 (header.valuesEnd data) := by
  unfold BtreeNode.readFooter at read
  unfold BtreeNodeHeader.valuesEnd
  split at read
  · obtain ⟨_, _, read⟩ := bind_eq_ok.mp read
    obtain ⟨_, _, read⟩ := bind_eq_ok.mp read
    obtain ⟨_, rfl⟩ := Prod.mk.inj (Except.ok.inj read)
    unfold uint16Sub uint16
    split
    · omega
    · contradiction
  · obtain ⟨_, rfl⟩ := Prod.mk.inj (Except.ok.inj read)
    split
    · contradiction
    · rfl

/-- An entry has the bytes that are described just if neither offset wraps around. -/
theorem readEntry_describes_iff {entry : TableEntry} {btreeEntry : BtreeEntry} (maximum : data.length ≤ 0x10000)
    (inside : header.tableEnd ≤ data.length) (value : entry.valueDataOffset < 0x10000)
    (read : BtreeNode.readEntry header data (uint16 (header.valuesEnd data)) (uint16 (header.entriesDataOffset + 56))
      entry = .ok btreeEntry) : entry.Describes header data btreeEntry ↔ entry.Unwrapped header data := by
  obtain ⟨keyInside, valueInside, key, values⟩ := readEntry_ok read
  have ends : header.valuesEnd data ≤ data.length := by
    unfold BtreeNodeHeader.valuesEnd
    split <;> omega
  have table : header.tableEnd = 56 + header.entriesDataOffset + header.entriesDataSize := rfl
  constructor
  · intro describes
    have := describes.keyInside
    have := describes.valueInside
    exact { key := by omega, before := describes.valueBefore, value := by omega }
  · intro unwrapped
    have before := unwrapped.before
    unfold uint16 at keyInside key
    unfold uint16Sub uint16 at valueInside values
    constructor
    · rcases unwrapped.key with low | ⟨last, none⟩ <;> omega
    · exact before
    · rcases unwrapped.value with low | none <;> omega
    · rcases unwrapped.key with low | ⟨_, none⟩
      · rw [key]
        congr 2
        omega
      · rw [key, none, List.take_zero, List.take_zero]
    · rcases unwrapped.value with low | none
      · rw [values]
        congr 2
        omega
      · rw [values, none, List.take_zero, List.take_zero]

end entries

namespace Sample

def nodeData (keyDataOffset : Nat) : List UInt8 :=
  List.replicate 24 0 ++ [2, 0, 0, 0, 14, 0, 0, 0] ++ [2, 0, 0, 0, 1, 0, 0, 0, 0, 0, 8, 0] ++ List.replicate 12 0 ++
    littleEndianBytes 2 keyDataOffset ++ [2, 0, 4, 0, 4, 0] ++ [7, 9] ++ List.replicate 58 0 ++ [1, 2, 3, 4]

def nodeHeader : BtreeNodeHeader where
  flags := 2
  level := 0
  numberOfKeys := 1
  entriesDataOffset := 0
  entriesDataSize := 8
  unusedDataOffset := 0
  unusedDataSize := 0

def leafNode (keyData : List UInt8) : BtreeNode where
  objectType := 2
  objectSubtype := 14
  flags := 2
  level := 0
  footer := none
  entries := [{ keyData, valueData := [1, 2, 3, 4] }]

end Sample

/-- What is read of a node is what its table of contents describes just if no offset wraps around in 16 bits. -/
theorem readData_extracts_iff {data : List UInt8} {node : BtreeNode} (minimum : 96 ≤ data.length)
    (maximum : data.length ≤ 0x10000) (read : BtreeNode.readData data = .ok node) :
    (∃ header objectSubtype, HeaderOf header data objectSubtype ∧ node.entries.length = header.numberOfKeys) ∧
      (Extracts data node ↔ OffsetsUnwrapped data) := by
  unfold BtreeNode.readData at read
  rw [if_neg (by unfold ssizeMax; omega)] at read
  obtain ⟨⟨objectType, objectSubtype⟩, object, read⟩ := bind_eq_ok.mp read
  obtain ⟨headerData, bytes, read⟩ := bind_eq_ok.mp read
  obtain ⟨header, headerRead, read⟩ := bind_eq_ok.mp read
  obtain ⟨_, checked, read⟩ := bind_eq_ok.mp read
  obtain ⟨⟨footer, footerOffset⟩, footerRead, read⟩ := bind_eq_ok.mp read
  rw [slice_of_le (by omega)] at bytes
  cases Except.ok.inj bytes
  have range := checkDataOffsets_ok checked
  have inside : header.tableEnd ≤ data.length := by
    unfold BtreeNodeHeader.tableEnd
    omega
  cases readFooter_ok minimum maximum footerRead
  dsimp only at read
  split at read
  · cases read
  obtain ⟨entries, entriesRead, read⟩ := bind_eq_ok.mp read
  cases Except.ok.inj read
  obtain ⟨count, each⟩ := readEntries_ok entriesRead
  have headerOf : HeaderOf header data objectSubtype := ⟨headerRead, objectType, object⟩
  have only {header' : BtreeNodeHeader} {objectSubtype' : Nat} (other : HeaderOf header' data objectSubtype') :
      header' = header ∧ objectSubtype' = objectSubtype := by
    obtain ⟨same, objectType', object'⟩ := other
    exact ⟨Except.ok.inj (same.symm.trans headerRead), (Prod.mk.inj (Except.ok.inj (object'.symm.trans object))).2⟩
  refine ⟨⟨header, objectSubtype, headerOf, count⟩, ?_⟩
  constructor
  · intro extracts header' objectSubtype' other index small entry table
    obtain ⟨rfl, rfl⟩ := only other
    obtain ⟨_, _, other, _, described⟩ := extracts
    obtain ⟨rfl, rfl⟩ := only other
    obtain ⟨entry', btreeEntry, table', found, describes⟩ := described index small
    obtain ⟨entry'', btreeEntry'', table'', found'', set⟩ := each index small
    cases Except.ok.inj (table'.symm.trans table)
    cases Except.ok.inj (table''.symm.trans table)
    cases Option.some.inj (found''.symm.trans found)
    exact (readEntry_describes_iff maximum inside (TableEntry.readData_valueDataOffset table) set).mp describes
  · intro unwrapped
    refine ⟨header, objectSubtype, headerOf, count, ?_⟩
    intro index small
    obtain ⟨entry, btreeEntry, table, found, set⟩ := each index small
    have fits := unwrapped header objectSubtype headerOf index small entry table
    exact ⟨entry, btreeEntry, table, found,
      (readEntry_describes_iff maximum inside (TableEntry.readData_valueDataOffset table) set).mpr fits⟩

theorem readData_extracts_sample : BtreeNode.readData (Sample.nodeData 0) = .ok (Sample.leafNode [7, 9]) ∧
    (Extracts (Sample.nodeData 0) (Sample.leafNode [7, 9]) ↔ OffsetsUnwrapped (Sample.nodeData 0)) :=
  ⟨by decide +kernel, (readData_extracts_iff (by decide +kernel) (by decide +kernel) (by decide +kernel)).2⟩

/-- The key behind the end of the node is read from the table of contents. -/
theorem key_wraps : BtreeNode.readData (Sample.nodeData 0xffff) = .ok (Sample.leafNode [0, 7]) ∧
    (Sample.nodeData 0xffff).length = 128 ∧ ¬Extracts (Sample.nodeData 0xffff) (Sample.leafNode [0, 7]) := by
  refine ⟨by decide +kernel, by decide +kernel, ?_⟩
  rintro ⟨header, objectSubtype, ⟨headerRead, objectType, object⟩, _, each⟩
  have known : BtreeNodeHeader.readData (((Sample.nodeData 0xffff).drop 32).take 24) = .ok Sample.nodeHeader := by
    decide +kernel
  have typed : BtreeNode.readObjectData (Sample.nodeData 0xffff) = .ok (2, 14) := by decide +kernel
  cases Except.ok.inj (headerRead.symm.trans known)
  cases Except.ok.inj (object.symm.trans typed)
  obtain ⟨entry, _, table, _, describes⟩ := each 0 (by decide)
  have slot : Sample.nodeHeader.tableEntry (Sample.nodeData 0xffff) 14 0 =
      .ok { keyDataOffset := 0xffff, keyDataSize := 2, valueDataOffset := 4, valueDataSize := 4 } := by
    decide +kernel
  cases Except.ok.inj (table.symm.trans slot)
  exact absurd describes.keyInside (by decide +kernel)

end Fsapfs
