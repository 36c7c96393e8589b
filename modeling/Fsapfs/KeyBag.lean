import Fsapfs.Checksum
import Fsapfs.VolumeUnlock

namespace Fsapfs
open Program

/-- A difference of sizes, which wraps where it is negative. -/
def sizeDifference (size offset : Nat) : Nat := if offset ≤ size then size - offset else size + 2 ^ 64 - offset

theorem sizeDifference_eq {size offset : Nat} (le : offset ≤ size) : sizeDifference size offset = size - offset :=
  if_pos le

structure KeyBagHeader where
  numberOfEntries : Nat
  dataSize : Nat

def KeyBagHeader.readData (data : List UInt8) (dataOffset dataSize : Nat) : Result KeyBagHeader :=
  if dataSize < 16 ∨ dataSize > ssizeMax then fail .valueOutOfBounds
  else do
    let formatVersion ← loadLittleEndian16 data dataOffset
    let numberOfEntries ← loadLittleEndian16 data (dataOffset + 2)
    let entriesDataSize ← loadLittleEndian32 data (dataOffset + 4)
    if formatVersion ≠ 2 then fail .unsupportedValue
    else return { numberOfEntries, dataSize := entriesDataSize }

def KeyBagEntry.readData (data : List UInt8) (dataOffset dataSize : Nat) : Result (KeyBagEntry × Nat) :=
  if dataSize < 24 ∨ dataSize > ssizeMax then fail .valueOutOfBounds
  else do
    let identifier ← Bytes.copy 16 data dataOffset
    let type ← loadLittleEndian16 data (dataOffset + 16)
    let entryDataSize ← loadLittleEndian16 data (dataOffset + 18)
    if entryDataSize = 0 ∨ entryDataSize > dataSize - 24 then fail .valueOutOfBounds
    else do
      let entryData ← slice data (dataOffset + 24) entryDataSize
      return ({ type, identifier, data := entryData }, 24 + entryDataSize)

structure KeyBagReading where
  dataOffset : Nat
  entries : List KeyBagEntry

namespace KeyBagReading

abbrev ReadingCall := Call ErrorCode KeyBagReading

def append (entry : KeyBagEntry) (size : Nat) (reading : KeyBagReading) : KeyBagReading where
  dataOffset := reading.dataOffset + size
  entries := reading.entries ++ [entry]

def moveTo (dataOffset : Nat) (reading : KeyBagReading) : KeyBagReading := { reading with dataOffset }

def alignOffset (dataSize dataOffset : Nat) : Result Nat :=
  if dataOffset % 16 = 0 then .ok dataOffset
  else if 16 - dataOffset % 16 > dataSize ∨ dataOffset > dataSize - (16 - dataOffset % 16) then fail .valueOutOfBounds
  else .ok (dataOffset + (16 - dataOffset % 16))

def readEntry (data : List UInt8) : ReadingCall Unit := do
  let reading ← Call.self
  let read ← Call.lift
    (KeyBagEntry.readData data reading.dataOffset (sizeDifference data.length reading.dataOffset))
  Call.update (append read.1 read.2)
  let reading ← Call.self
  let dataOffset ← Call.lift (alignOffset data.length reading.dataOffset)
  Call.update (moveTo dataOffset)

def readEntries (data : List UInt8) (numberOfEntries : Nat) : ReadingCall Unit := (readEntry data).times numberOfEntries

def readBag (data : List UInt8) : ReadingCall Unit := do
  let header ← Call.lift (KeyBagHeader.readData data 32 (sizeDifference data.length 32))
  if header.dataSize > sizeDifference data.length 32 then Call.lift (fail .valueOutOfBounds)
  else do
    Call.update (moveTo 48)
    readEntries data header.numberOfEntries

def onEntries (call : ReadingCall Unit) : Call ErrorCode (List KeyBagEntry) Unit := fun entries =>
  ((call { dataOffset := 32, entries }).1, (call { dataOffset := 32, entries }).2.entries)

end KeyBagReading

def VolumeKeyBag.readData (data : List UInt8) : Call ErrorCode (List KeyBagEntry) Unit :=
  if data.length < 32 ∨ data.length > ssizeMax then Call.lift (fail .valueOutOfBounds)
  else do
    let objectType ← Call.lift (loadLittleEndian32 data 24)
    if objectType ≠ 0x72656373 then Call.lift (fail .unsupportedValue)
    else do
      let objectSubtype ← Call.lift (loadLittleEndian32 data 28)
      if objectSubtype ≠ 0 then Call.lift (fail .unsupportedValue)
      else KeyBagReading.onEntries (KeyBagReading.readBag data)

def ContainerKeyBag.readData (data : List UInt8) : Call ErrorCode (List KeyBagEntry) Bool :=
  if data.length < 32 ∨ data.length > ssizeMax then Call.lift (fail .valueOutOfBounds)
  else do
    let storedChecksum ← Call.lift (loadLittleEndian64 data 0)
    let objectType ← Call.lift (loadLittleEndian32 data 24)
    if objectType ≠ 0x6b657973 then return false
    else do
      let objectSubtype ← Call.lift (loadLittleEndian32 data 28)
      if objectSubtype ≠ 0 then Call.lift (fail .unsupportedValue)
      else do
        let calculatedChecksum ← Call.lift (Checksum.calculateFletcher64 (data.drop 8) 0)
        if storedChecksum ≠ calculatedChecksum then Call.lift (fail .checksumMismatch)
        else do
          KeyBagReading.onEntries (KeyBagReading.readBag data)
          return true

namespace KeyBagReading

variable {data : List UInt8} {reading : KeyBagReading}

/-- The entries read so far lie in the data, and so does the next one. -/
structure Bounded (data : List UInt8) (reading : KeyBagReading) : Prop where
  offset : reading.dataOffset ≤ data.length
  inside : ∀ entry ∈ reading.entries, ∃ offset, HasAt data offset entry.data

theorem hasAt_slice {offset size : Nat} (inside : offset + size ≤ data.length) :
    HasAt data offset ((data.drop offset).take size) := by
  refine ⟨data.take offset, data.drop (offset + size), ?_, ?_⟩
  · rw [List.append_assoc, ← List.drop_drop, List.take_append_drop, List.take_append_drop]
  · rw [List.length_take]
    omega

theorem readEntry_data {dataOffset : Nat} (le : dataOffset ≤ data.length) :
    Outcome (KeyBagEntry.readData data dataOffset (sizeDifference data.length dataOffset))
      (fun read => dataOffset + read.2 ≤ data.length ∧ ∃ offset, HasAt data offset read.1.data) True := by
  rw [sizeDifference_eq le]
  unfold KeyBagEntry.readData
  split_ifs with short
  · trivial
  · have room : dataOffset + 24 ≤ data.length := by omega
    have copied : ∃ identifier, Bytes.copy 16 data dataOffset = .ok identifier :=
      ⟨_, dif_pos (by omega)⟩
    obtain ⟨identifier, copied⟩ := copied
    rw [copied, ok_bind, loadLittleEndian16, loadLittleEndian_ok (by omega), ok_bind, loadLittleEndian16,
      loadLittleEndian_ok (by omega), ok_bind]
    split_ifs with unfit
    · trivial
    · have inside : dataOffset + 24 + littleEndian ((data.drop (dataOffset + 18)).take 2) ≤ data.length := by omega
      rw [slice_of_le inside, ok_bind]
      exact ⟨by dsimp only; omega, _, hasAt_slice inside⟩

theorem alignOffset_outcome (dataSize : Nat) {dataOffset : Nat} (le : dataOffset ≤ dataSize) :
    Outcome (alignOffset dataSize dataOffset) (· ≤ dataSize) True := by
  unfold alignOffset
  split_ifs
  · exact le
  · trivial
  · change dataOffset + (16 - dataOffset % 16) ≤ dataSize
    omega

theorem readEntry_safe (bounded : Bounded data reading) :
    Call.Safe (Bounded data) (readEntry data) reading := by
  refine Call.safe_self_bind (Call.safe_lift_bind bounded (readEntry_data bounded.offset) fun read inside => ?_)
  have bounded' : Bounded data (append read.1 read.2 reading) := by
    refine ⟨inside.1, fun entry member => ?_⟩
    rcases List.mem_append.mp member with before | last
    · exact bounded.inside entry before
    · rw [List.mem_singleton.mp last]
      exact inside.2
  apply Call.safe_update_bind
  apply Call.safe_self_bind
  refine Call.safe_lift_bind bounded' (alignOffset_outcome data.length bounded'.offset) fun next le => ?_
  exact Call.safe_update ⟨le, bounded'.inside⟩

theorem readEntries_safe (bounded : Bounded data reading) (numberOfEntries : Nat) :
    Call.Safe (Bounded data) (readEntries data numberOfEntries) reading := by
  rw [readEntries]
  apply Call.Safe.times
  · intro reading bounded
    exact readEntry_safe bounded
  · exact bounded

theorem header_outcome (least : 32 ≤ data.length) :
    Outcome (KeyBagHeader.readData data 32 (sizeDifference data.length 32)) (fun _ => 48 ≤ data.length) True := by
  rw [sizeDifference_eq least, KeyBagHeader.readData]
  split_ifs with short
  · trivial
  · rw [loadLittleEndian16, loadLittleEndian_ok (by omega), ok_bind, loadLittleEndian16, loadLittleEndian_ok (by omega),
      ok_bind, loadLittleEndian32, loadLittleEndian_ok (by omega), ok_bind]
    split_ifs
    · trivial
    · change 48 ≤ data.length
      omega

theorem readBag_safe (least : 32 ≤ data.length) (bounded : Bounded data reading) :
    Call.Safe (Bounded data) (readBag data) reading := by
  refine Call.safe_lift_bind bounded (header_outcome least) fun header room => ?_
  split_ifs
  · exact Call.safe_fail _ bounded
  · have bounded' : Bounded data (moveTo 48 reading) := ⟨room, bounded.inside⟩
    exact Call.safe_update_bind (readEntries_safe bounded' header.numberOfEntries)

def AfterIterations (data : List UInt8) (iterations : Nat) (reading : KeyBagReading) : Prop :=
  ∃ header, 32 ≤ data.length ∧ KeyBagHeader.readData data 32 (sizeDifference data.length 32) = .ok header ∧
    header.dataSize ≤ sizeDifference data.length 32 ∧ iterations ≤ header.numberOfEntries ∧
    readEntries data iterations { dataOffset := 48, entries := [] } = (.ok (), reading)

theorem AfterIterations.bounded {iterations : Nat} (after : AfterIterations data iterations reading) :
    Bounded data reading := by
  obtain ⟨header, least, read, _, _, run⟩ := after
  have room : 48 ≤ data.length := (header_outcome least).of_ok read
  have start : Bounded data { dataOffset := 48, entries := [] } := ⟨room, fun entry member => absurd member List.not_mem_nil⟩
  have safe := (readEntries_safe start iterations).2
  rw [run] at safe
  exact safe

end KeyBagReading

end Fsapfs
