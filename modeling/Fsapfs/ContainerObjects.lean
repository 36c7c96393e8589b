import Fsapfs.Checkpoints
import Fsapfs.Checksum
import Fsapfs.Container
import Fsapfs.StoredKeyBags

namespace Fsapfs
open Program Coding

structure CheckpointMapEntry where
  objectIdentifier : Nat
  physicalAddress : Nat
  deriving Repr, DecidableEq

def CheckpointMapEntry.readData (data : List UInt8) (dataOffset : Nat) : Result CheckpointMapEntry :=
  if data.length - dataOffset < 40 ∨ data.length - dataOffset > ssizeMax then fail .valueOutOfBounds
  else do
    let objectIdentifier ← loadLittleEndian64 data (dataOffset + 24)
    let physicalAddress ← loadLittleEndian64 data (dataOffset + 32)
    return { objectIdentifier, physicalAddress }

namespace CheckpointMap

def readEntries (data : List UInt8) : Nat → Nat → Result (List CheckpointMapEntry)
  | 0, _ => .ok []
  | numberOfEntries + 1, dataOffset => do
      let mapEntry ← CheckpointMapEntry.readData data dataOffset
      let mapEntries ← readEntries data numberOfEntries (dataOffset + 40)
      return mapEntry :: mapEntries

def readData (data : List UInt8) : Result (List CheckpointMapEntry) :=
  if data.length < 4080 ∨ data.length > ssizeMax then fail .valueOutOfBounds
  else do
    let storedChecksum ← loadLittleEndian64 data 0
    let objectType ← loadLittleEndian32 data 24
    if objectType ≠ 0x4000000c then fail .unsupportedValue
    else do
      let objectSubtype ← loadLittleEndian32 data 28
      if objectSubtype ≠ 0 then fail .unsupportedValue
      else do
        let numberOfMapEntries ← loadLittleEndian32 data 36
        let calculatedChecksum ← Checksum.calculateFletcher64 (data.drop 8) 0
        if storedChecksum ≠ calculatedChecksum then fail .checksumMismatch
        else if numberOfMapEntries > 101 then fail .valueOutOfBounds
        else readEntries data numberOfMapEntries 40

def readFileIoHandle (image : Image) (fileOffset : Nat) : Result (List CheckpointMapEntry) := do
  let checkpointMapData ← image.readBufferAtOffset 4096 fileOffset
  readData checkpointMapData

def getPhysicalAddressByObjectIdentifier (objectIdentifier : Nat) : List CheckpointMapEntry → Option Nat
  | [] => none
  | mapEntry :: mapEntries =>
      if objectIdentifier = mapEntry.objectIdentifier then some mapEntry.physicalAddress
      else getPhysicalAddressByObjectIdentifier objectIdentifier mapEntries

end CheckpointMap

structure ObjectMap where
  numberOfSnapshots : Nat
  btreeBlockNumber : Nat
  snapshotsBtreeBlockNumber : Nat
  mostRecentSnapshotIdentifier : Nat
  deriving Repr, DecidableEq

namespace ObjectMap

/-- An object map has no checksum that is compared. -/
def readData (data : List UInt8) : Result ObjectMap :=
  if data.length < 88 ∨ data.length > ssizeMax then fail .valueOutOfBounds
  else do
    let objectType ← loadLittleEndian32 data 24
    if objectType ≠ 0x4000000b then fail .unsupportedValue
    else do
      let objectSubtype ← loadLittleEndian32 data 28
      if objectSubtype ≠ 0 then fail .unsupportedValue
      else do
        let numberOfSnapshots ← loadLittleEndian32 data 36
        let btreeBlockNumber ← loadLittleEndian64 data 48
        let snapshotsBtreeBlockNumber ← loadLittleEndian64 data 56
        let mostRecentSnapshotIdentifier ← loadLittleEndian64 data 64
        return { numberOfSnapshots, btreeBlockNumber, snapshotsBtreeBlockNumber, mostRecentSnapshotIdentifier }

def readFileIoHandle (image : Image) (fileOffset : Nat) : Result ObjectMap := do
  let objectMapData ← image.readBufferAtOffset 88 fileOffset
  readData objectMapData

end ObjectMap

structure VolumeSuperblock where
  transactionIdentifier : Nat
  compatibleFeaturesFlags : Nat
  readOnlyCompatibleFeaturesFlags : Nat
  incompatibleFeaturesFlags : Nat
  objectMapBlockNumber : Nat
  fileSystemRootObjectIdentifier : Nat
  extentReferenceTreeBlockNumber : Nat
  snapshotMetadataTreeBlockNumber : Nat
  nextFileSystemObjectIdentifier : Nat
  volumeIdentifier : Bytes 16
  volumeFlags : Nat
  volumeName : Bytes 256
  sealedExtentTreeRootNodeObjectIdentifier : Nat
  sealedExtentTreeRootNodeBlockNumber : Nat
  deriving DecidableEq

namespace VolumeSuperblock

def volumeSignature : List UInt8 := [0x41, 0x50, 0x53, 0x42]

def readSealedExtension (data : List UInt8) (isSnapshot : Bool) : Result (Nat × Nat) :=
  if isSnapshot = false ∧ data.length ≥ 0x400 + 16 then do
    let objectIdentifier ← loadLittleEndian64 data 0x400
    let blockNumber ← loadLittleEndian64 data (0x400 + 8)
    return (objectIdentifier, blockNumber)
  else .ok (0, 0)

def readFields (data : List UInt8) (isSnapshot : Bool) (transactionIdentifier : Nat) : Result VolumeSuperblock := do
  let compatibleFeaturesFlags ← loadLittleEndian64 data 40
  let readOnlyCompatibleFeaturesFlags ← loadLittleEndian64 data 48
  let incompatibleFeaturesFlags ← loadLittleEndian64 data 56
  let objectMapBlockNumber ← loadLittleEndian64 data 128
  let fileSystemRootObjectIdentifier ← loadLittleEndian64 data 136
  let extentReferenceTreeBlockNumber ← loadLittleEndian64 data 144
  let snapshotMetadataTreeBlockNumber ← loadLittleEndian64 data 152
  let nextFileSystemObjectIdentifier ← loadLittleEndian64 data 176
  let volumeIdentifier ← Bytes.copy 16 data 240
  let volumeFlags ← loadLittleEndian64 data 264
  let volumeName ← Bytes.copy 256 data 704
  let sealedExtension ← readSealedExtension data isSnapshot
  return {
    transactionIdentifier
    compatibleFeaturesFlags
    readOnlyCompatibleFeaturesFlags
    incompatibleFeaturesFlags
    objectMapBlockNumber
    fileSystemRootObjectIdentifier
    extentReferenceTreeBlockNumber
    snapshotMetadataTreeBlockNumber
    nextFileSystemObjectIdentifier
    volumeIdentifier
    volumeFlags
    volumeName
    sealedExtentTreeRootNodeObjectIdentifier := sealedExtension.1
    sealedExtentTreeRootNodeBlockNumber := sealedExtension.2 }

def expectedObjectType (isSnapshot : Bool) : Nat := if isSnapshot then 0x4000000d else 0x0000000d

def readData (data : List UInt8) (isSnapshot : Bool) : Result VolumeSuperblock :=
  if data.length < 1008 ∨ data.length > ssizeMax then fail .valueOutOfBounds
  else do
    let transactionIdentifier ← loadLittleEndian64 data 16
    let storedChecksum ← loadLittleEndian64 data 0
    let objectType ← loadLittleEndian32 data 24
    if objectType ≠ expectedObjectType isSnapshot then fail .unsupportedValue
    else do
      let objectSubtype ← loadLittleEndian32 data 28
      if objectSubtype ≠ 0 then fail .unsupportedValue
      else do
        let signature ← slice data 32 4
        if signature ≠ volumeSignature then fail .unsupportedValue
        else do
          let superblock ← readFields data isSnapshot transactionIdentifier
          let calculatedChecksum ← Checksum.calculateFletcher64 (data.drop 8) 0
          if storedChecksum ≠ calculatedChecksum then fail .checksumMismatch
          else return superblock

def readFileIoHandle (image : Image) (fileOffset : Nat) (isSnapshot : Bool) : Result VolumeSuperblock := do
  let volumeSuperblockData ← image.readBufferAtOffset 4096 fileOffset
  readData volumeSuperblockData isSnapshot

end VolumeSuperblock

/-- Data that start with the checksum of what follows. -/
def Sealed (data : List UInt8) : Prop :=
  ∃ checksum, loadLittleEndian64 data 0 = .ok checksum ∧ Checksum.calculateFletcher64 (data.drop 8) 0 = .ok checksum

/-- Two 32-bit words next to each other, behind the checksum, have other values; zero and the largest one are taken for
the same value. -/
structure AlteredWords (data data' : List UInt8) (front back : List UInt8) (first second first' second' : Nat) : Prop where
  data : data = front ++ littleEndianBytes 4 first ++ littleEndianBytes 4 second ++ back
  data' : data' = front ++ littleEndianBytes 4 first' ++ littleEndianBytes 4 second' ++ back
  behind : 8 ≤ front.length
  aligned : front.length % 4 = 0
  fit : first < 2 ^ 32 ∧ second < 2 ^ 32 ∧ first' < 2 ^ 32 ∧ second' < 2 ^ 32
  other : first % 0xffffffff ≠ first' % 0xffffffff ∨ second % 0xffffffff ≠ second' % 0xffffffff

def Altered (data data' : List UInt8) : Prop :=
  ∃ front back first second first' second', AlteredWords data data' front back first second first' second'

section sums

variable {data data' : List UInt8}

theorem values32_word {value : Nat} (fits : value < 2 ^ 32) (rest : List UInt8) :
    values32 (littleEndianBytes 4 value ++ rest) = value :: values32 rest := by
  have word := littleEndian_littleEndianBytes 4 value
  rw [Nat.mod_eq_of_lt (by omega)] at word
  conv_rhs => rw [← word]
  simp only [littleEndianBytes, List.cons_append, List.nil_append, values32]

theorem calculateFletcher64_whole {buffer : List UInt8} {checksum : Nat}
    (calculated : Checksum.calculateFletcher64 buffer 0 = .ok checksum) :
    buffer.length ≤ ssizeMax ∧ buffer.length % 4 = 0 := by
  unfold Checksum.calculateFletcher64 at calculated
  split_ifs at calculated
  · cases calculated
  · cases calculated
  · exact ⟨by omega, by omega⟩

/-- The checksum of a short buffer determines its sums modulo the modulus. -/
theorem calculateFletcher64_modEq {buffer buffer' : List UInt8} {checksum : Nat}
    (calculated : Checksum.calculateFletcher64 buffer 0 = .ok checksum)
    (calculated' : Checksum.calculateFletcher64 buffer' 0 = .ok checksum) (short : buffer.length / 4 ≤ 92680)
    (short' : buffer'.length / 4 ≤ 92680) :
    fletcherLower buffer 0 ≡ fletcherLower buffer' 0 [MOD 0xffffffff] ∧
      fletcherUpper buffer 0 ≡ fletcherUpper buffer' 0 [MOD 0xffffffff] := by
  obtain ⟨size, whole⟩ := calculateFletcher64_whole calculated
  obtain ⟨size', whole'⟩ := calculateFletcher64_whole calculated'
  obtain ⟨low, high, lowFits, highFits, words, same⟩ := calculateFletcher64_eq 0 size whole
  obtain ⟨low', high', lowFits', highFits', words', same'⟩ := calculateFletcher64_eq 0 size' whole'
  obtain ⟨lower, upper⟩ := fletcher_fits 0 short
  obtain ⟨lower', upper'⟩ := fletcher_fits 0 short'
  have value := Except.ok.inj (calculated.symm.trans same)
  have value' := Except.ok.inj (calculated'.symm.trans same')
  have lows : low = low' := by omega
  have highs : high = high' := by omega
  rw [Nat.mod_eq_of_lt lower, Nat.mod_eq_of_lt upper, lows, highs] at words
  rw [Nat.mod_eq_of_lt lower', Nat.mod_eq_of_lt upper'] at words'
  exact (Fletcher.checkWords_eq_iff (by simp)).mp (words.trans words'.symm)

theorem Sealed.altered (is_sealed : Sealed data) (short : data.length / 4 ≤ 92680) (altered : Altered data data') :
    ¬Sealed data' := by
  obtain ⟨front, back, first, second, first', second', words⟩ := altered
  obtain ⟨fits, fits2, fits', fits2'⟩ := words.fit
  rintro ⟨checksum', load', calculated'⟩
  obtain ⟨checksum, load, calculated⟩ := is_sealed
  have body : data.drop 8 = front.drop 8 ++ (littleEndianBytes 4 first ++ (littleEndianBytes 4 second ++ back)) := by
    rw [words.data, List.append_assoc, List.append_assoc, List.drop_append_of_le_length words.behind]
  have body' : data'.drop 8 = front.drop 8 ++ (littleEndianBytes 4 first' ++ (littleEndianBytes 4 second' ++ back)) := by
    rw [words.data', List.append_assoc, List.append_assoc, List.drop_append_of_le_length words.behind]
  have same : loadLittleEndian64 data 0 = loadLittleEndian64 data' 0 := by
    have behind := words.behind
    have length := congrArg List.length words.data
    have length' := congrArg List.length words.data'
    simp only [List.length_append, littleEndianBytes_length] at length length'
    rw [loadLittleEndian64, loadLittleEndian64, loadLittleEndian_ok (by omega), loadLittleEndian_ok (by omega),
      words.data, words.data', List.drop_zero, List.drop_zero]
    simp only [List.append_assoc]
    rw [List.take_append_of_le_length behind, List.take_append_of_le_length behind]
  obtain rfl : checksum = checksum' := Except.ok.inj (load.symm.trans (same.trans load'))
  have aligned : (front.drop 8).length % 4 = 0 := by
    have behind := words.behind
    have aligned := words.aligned
    rw [List.length_drop]
    omega
  have lengths : data'.length = data.length := by
    rw [words.data, words.data']
    simp
  obtain ⟨lowers, uppers⟩ := calculateFletcher64_modEq calculated calculated' (by rw [List.length_drop]; omega)
    (by rw [List.length_drop]; omega)
  rw [body, body', fletcherLower, fletcherLower, values32_append aligned, values32_append aligned, values32_word fits,
    values32_word fits', values32_word fits2, values32_word fits2'] at lowers
  rw [body, body', fletcherUpper, fletcherUpper, values32_append aligned, values32_append aligned, values32_word fits,
    values32_word fits', values32_word fits2, values32_word fits2'] at uppers
  obtain ⟨firsts, seconds⟩ := Fletcher.adjacent_modEq lowers uppers
  rcases words.other with other | other
  · exact other firsts
  · exact other seconds

theorem CheckpointMap.readData_sealed {mapEntries : List CheckpointMapEntry} (read : readData data = .ok mapEntries) :
    Sealed data := by
  unfold readData at read
  split_ifs at read
  · cases read
  obtain ⟨storedChecksum, stored, read⟩ := bind_eq_ok.mp read
  obtain ⟨_, _, read⟩ := bind_eq_ok.mp read
  split_ifs at read
  · cases read
  obtain ⟨_, _, read⟩ := bind_eq_ok.mp read
  split_ifs at read
  · cases read
  obtain ⟨_, _, read⟩ := bind_eq_ok.mp read
  obtain ⟨calculatedChecksum, calculated, read⟩ := bind_eq_ok.mp read
  split_ifs at read with mismatch
  · cases read
  · cases read
  · exact ⟨_, stored, not_not.mp mismatch ▸ calculated⟩

theorem VolumeSuperblock.readData_sealed {isSnapshot : Bool} {superblock : VolumeSuperblock}
    (read : readData data isSnapshot = .ok superblock) : Sealed data := by
  unfold readData at read
  split_ifs at read
  · cases read
  obtain ⟨_, _, read⟩ := bind_eq_ok.mp read
  obtain ⟨storedChecksum, stored, read⟩ := bind_eq_ok.mp read
  obtain ⟨_, _, read⟩ := bind_eq_ok.mp read
  split_ifs at read
  · cases read
  obtain ⟨_, _, read⟩ := bind_eq_ok.mp read
  split_ifs at read
  · cases read
  obtain ⟨_, _, read⟩ := bind_eq_ok.mp read
  split_ifs at read
  · cases read
  obtain ⟨_, _, read⟩ := bind_eq_ok.mp read
  obtain ⟨calculatedChecksum, calculated, read⟩ := bind_eq_ok.mp read
  split_ifs at read with mismatch
  · cases read
  · exact ⟨_, stored, not_not.mp mismatch ▸ calculated⟩

theorem ContainerSuperblock.readData_sealed {superblock : ContainerSuperblock}
    (read : readData data = .ok superblock) : Sealed data := by
  unfold readData at read
  split_ifs at read
  · cases read
  obtain ⟨storedChecksum, stored, read⟩ := bind_eq_ok.mp read
  iterate 4 obtain ⟨_, _, read⟩ := bind_eq_ok.mp read
  split_ifs at read
  · cases read
  · cases read
  · cases read
  iterate 7 obtain ⟨_, _, read⟩ := bind_eq_ok.mp read
  obtain ⟨⟨_, _⟩, _, read⟩ := bind_eq_ok.mp read
  iterate 2 obtain ⟨_, _, read⟩ := bind_eq_ok.mp read
  obtain ⟨calculatedChecksum, calculated, read⟩ := bind_eq_ok.mp read
  obtain ⟨_, checked, _⟩ := bind_eq_ok.mp read
  unfold check at checked
  split_ifs at checked with mismatch
  · cases checked
  all_goals exact ⟨_, stored, not_not.mp mismatch ▸ calculated⟩

theorem ContainerKeyBag.readData_sealed {entries entries' : List KeyBagEntry}
    (read : readData data entries = (.ok true, entries')) : Sealed data := by
  have seals : (readData data).Ends entries (fun found _ => found = true → Sealed data) fun _ => True := by
    rw [readData]
    split_ifs
    · exact trivial
    refine Call.ends_lift_bind trivial fun storedChecksum stored => ?_
    refine Call.ends_lift_bind trivial fun objectType _ => ?_
    split_ifs
    · exact fun found => absurd found Bool.false_ne_true
    refine Call.ends_lift_bind trivial fun objectSubtype _ => ?_
    split_ifs
    · exact trivial
    refine Call.ends_lift_bind trivial fun calculatedChecksum calculated => ?_
    split_ifs with mismatch
    · exact trivial
    · exact (Call.ends_trivial _ _).bind fun _ _ _ _ => ⟨_, stored, not_not.mp mismatch ▸ calculated⟩
  exact seals.of_ok read rfl

end sums

/-- An object that is read is not read any more after two 32-bit words next to each other were altered, wherever they
are behind the checksum. -/
theorem altered_refused {data data' : List UInt8} (short : data.length / 4 ≤ 92680) (altered : Altered data data') :
    (∀ superblock, ContainerSuperblock.readData data = .ok superblock →
      ∀ superblock', ContainerSuperblock.readData data' ≠ .ok superblock') ∧
    (∀ mapEntries, CheckpointMap.readData data = .ok mapEntries →
      ∀ mapEntries', CheckpointMap.readData data' ≠ .ok mapEntries') ∧
    (∀ isSnapshot superblock, VolumeSuperblock.readData data isSnapshot = .ok superblock →
      ∀ isSnapshot' superblock', VolumeSuperblock.readData data' isSnapshot' ≠ .ok superblock') ∧
    (∀ entries entries', ContainerKeyBag.readData data entries = (.ok true, entries') →
      ∀ entries entries', ContainerKeyBag.readData data' entries ≠ (.ok true, entries')) := by
  have refused : Sealed data → ¬Sealed data' := fun is_sealed => is_sealed.altered short altered
  refine ⟨?_, ?_, ?_, ?_⟩
  · intro superblock read superblock' read'
    exact refused (ContainerSuperblock.readData_sealed read) (ContainerSuperblock.readData_sealed read')
  · intro mapEntries read mapEntries' read'
    exact refused (CheckpointMap.readData_sealed read) (CheckpointMap.readData_sealed read')
  · intro isSnapshot superblock read isSnapshot' superblock' read'
    exact refused (VolumeSuperblock.readData_sealed read) (VolumeSuperblock.readData_sealed read')
  · intro entries entries' read other other' read'
    exact refused (ContainerKeyBag.readData_sealed read) (ContainerKeyBag.readData_sealed read')

def alteredSuperblockData : List UInt8 :=
  let data := ContainerSuperblock.Sample.superblockData 5 8 1 [1]
  data.take 16 ++ littleEndianBytes 4 6 ++ littleEndianBytes 4 0 ++ data.drop 24

theorem altered_refused_sample : (ContainerSuperblock.readData alteredSuperblockData).isOk = false := by
  have words : ((ContainerSuperblock.Sample.superblockData 5 8 1 [1]).drop 16).take 8 =
      littleEndianBytes 4 5 ++ littleEndianBytes 4 0 := by decide +kernel
  have whole : ContainerSuperblock.Sample.superblockData 5 8 1 [1] =
      (ContainerSuperblock.Sample.superblockData 5 8 1 [1]).take 16 ++ littleEndianBytes 4 5 ++ littleEndianBytes 4 0 ++
        (ContainerSuperblock.Sample.superblockData 5 8 1 [1]).drop 24 := by
    rw [List.append_assoc _ (littleEndianBytes 4 5), ← words, List.append_assoc,
      ← List.drop_drop (i := 8) (j := 16), List.take_append_drop, List.take_append_drop]
  have altered : Altered (ContainerSuperblock.Sample.superblockData 5 8 1 [1]) alteredSuperblockData :=
    ⟨_, _, 5, 0, 6, 0, ⟨whole, rfl, by decide +kernel, by decide +kernel, by simp, by simp⟩⟩
  have refused := (altered_refused (by decide +kernel) altered).1 (Container.Sample.container [1]).superblock
    Container.Sample.single_read
  cases read : ContainerSuperblock.readData alteredSuperblockData with
  | ok superblock' => exact absurd read (refused superblock')
  | error failure => rfl

end Fsapfs
