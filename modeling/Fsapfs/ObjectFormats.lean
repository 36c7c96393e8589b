import Fsapfs.ContainerObjects
import Fsapfs.Program.Overwriting

namespace Fsapfs
open Program

section loads

variable {data part : List UInt8} {offset size value : Nat}

theorem littleEndianBytes_littleEndian (bytes : List UInt8) :
    littleEndianBytes bytes.length (littleEndian bytes) = bytes := by
  induction bytes with
  | nil => rfl
  | cons byte bytes ih =>
      have first : littleEndian (byte :: bytes) = byte.toNat + 256 * littleEndian bytes := rfl
      have small := byte.toNat_lt
      have low : (byte.toNat + 256 * littleEndian bytes) % 256 = byte.toNat := by omega
      have high : (byte.toNat + 256 * littleEndian bytes) / 256 = littleEndian bytes := by omega
      rw [List.length_cons, littleEndianBytes, first, low, high, ih, UInt8.ofNat_toNat]

theorem slice_iff : (slice data offset size : Result (List UInt8)) = .ok part ↔
    HasAt data offset part ∧ size = part.length := by
  constructor
  · intro sliced
    unfold slice at sliced
    split_ifs at sliced with inside
    cases sliced
    have length : ((data.drop offset).take size).length = size := by
      rw [List.length_take, List.length_drop]
      omega
    refine ⟨hasAt_of_drop (by omega) (List.take_append_drop size _).symm, length.symm⟩
  · rintro ⟨has, length⟩
    exact has.slice length

theorem loadLittleEndian_iff : loadLittleEndian size data offset = .ok value ↔
    HasAt data offset (littleEndianBytes size value) ∧ value < 256 ^ size := by
  constructor
  · intro loaded
    obtain ⟨bytes, sliced, loaded⟩ := bind_eq_ok.mp loaded
    cases loaded
    obtain ⟨has, rfl⟩ := slice_iff.mp sliced
    rw [littleEndianBytes_littleEndian]
    exact ⟨has, littleEndian_lt bytes⟩
  · rintro ⟨has, fits⟩
    exact loadLittleEndian_of_hasAt has fits

theorem copy_iff {bytes : Bytes size} : Bytes.copy size data offset = .ok bytes ↔ HasAt data offset bytes.val := by
  constructor
  · intro copied
    unfold Bytes.copy at copied
    split_ifs at copied with inside
    cases copied
    exact hasAt_of_drop (by omega) (List.take_append_drop size _).symm
  · exact Bytes.copy_of_hasAt

end loads

/-- The checksum of a buffer, which has one if it is made of 32-bit words. -/
def checksumOf (buffer : List UInt8) : Nat :=
  match Checksum.calculateFletcher64 buffer 0 with
  | .ok checksum => checksum
  | .error _ => 0

def sealData (data : List UInt8) : List UInt8 := overwrite data 0 (littleEndianBytes 8 (checksumOf (data.drop 8)))

section checksums

variable {data : List UInt8}

theorem checksumOf_eq {buffer : List UInt8} {checksum : Nat}
    (calculated : Checksum.calculateFletcher64 buffer 0 = .ok checksum) : checksumOf buffer = checksum := by
  unfold checksumOf
  rw [calculated]

theorem calculateFletcher64_checksumOf {buffer : List UInt8} (size : buffer.length ≤ ssizeMax)
    (whole : buffer.length % 4 = 0) :
    Checksum.calculateFletcher64 buffer 0 = .ok (checksumOf buffer) ∧ checksumOf buffer < 2 ^ 64 := by
  obtain ⟨low, high, lowFits, highFits, _, calculated⟩ := calculateFletcher64_eq 0 size whole
  rw [checksumOf_eq calculated]
  exact ⟨calculated, by omega⟩

theorem sealData_length (long : 8 ≤ data.length) : (sealData data).length = data.length :=
  overwrite_length (by simpa using long)

theorem sealData_drop : (sealData data).drop 8 = data.drop 8 := by
  have dropped := @drop_overwrite _ data (littleEndianBytes 8 (checksumOf (data.drop 8))) 0 (Nat.zero_le _)
  rw [littleEndianBytes_length] at dropped
  exact dropped

theorem sealData_sealed (long : 8 ≤ data.length) (size : data.length ≤ ssizeMax) (whole : data.length % 4 = 0) :
    Sealed (sealData data) := by
  have length : (data.drop 8).length = data.length - 8 := List.length_drop
  obtain ⟨calculated, fits⟩ := @calculateFletcher64_checksumOf (data.drop 8) (by omega) (by omega)
  refine ⟨checksumOf (data.drop 8), loadLittleEndian_of_hasAt (hasAt_overwrite (Nat.zero_le _)) (by omega), ?_⟩
  rw [sealData_drop]
  exact calculated

theorem Sealed.sealData_eq (is_sealed : Sealed data) : sealData data = data := by
  obtain ⟨checksum, loaded, calculated⟩ := is_sealed
  have has : HasAt data 0 (littleEndianBytes 8 checksum) := (loadLittleEndian_iff.mp loaded).1
  rw [sealData, checksumOf_eq calculated]
  exact has.overwrite_eq

theorem hasAt_sealData {part : List UInt8} {offset : Nat} (has : HasAt data offset part) (behind : 8 ≤ offset) :
    HasAt (sealData data) offset part := by
  have inside := has.inside
  exact has.overwrite (by rw [littleEndianBytes_length]; omega) (Or.inr (by simpa using behind))

end checksums

/-- A kind of objects: how one is read from data, and where its values are stored in data of a size. -/
structure ObjectFormat (α : Type) where
  readData : List UInt8 → Result α
  fields : Nat → α → List (Nat × List UInt8)
  Storable : List UInt8 → α → Prop
  checksummed : Bool

namespace ObjectFormat

variable {α : Type} {format : ObjectFormat α} {data : List UInt8} {object : α}

/-- Data with an object written into them; what is not of the object stays. -/
def write (format : ObjectFormat α) (object : α) (data : List UInt8) : List UInt8 :=
  let written := overwriteAll data (format.fields data.length object)
  if format.checksummed then sealData written else written

/-- An object that is written is read back, and data are read as an object only if writing it changes nothing. -/
structure Exact (format : ObjectFormat α) : Prop where
  roundTrip : ∀ {data object}, format.Storable data object → format.readData (format.write object data) = .ok object
  accepted : ∀ {data object}, format.readData data = .ok object →
    format.Storable data object ∧ format.write object data = data

structure Reads (format : ObjectFormat α) : Prop where
  read_iff : ∀ {data object}, format.readData data = .ok object ↔ (format.checksummed → Sealed data) ∧
    format.Storable data object ∧ HasAll data (format.fields data.length object)
  spaced : ∀ {data object}, format.Storable data object → Spaced 8 (format.fields data.length object) data.length
  sized : ∀ {data object}, format.checksummed → format.Storable data object →
    data.length ≤ ssizeMax ∧ data.length % 4 = 0
  stable : ∀ {data data' object}, format.Storable data object → data'.length = data.length →
    (∀ offset part, HasAt data offset part → 8 ≤ offset →
      (∀ field ∈ format.fields data.length object, Apart offset part field) → HasAt data' offset part) →
    format.Storable data' object

theorem write_length (spaced : Spaced 8 (format.fields data.length object) data.length) :
    (format.write object data).length = data.length := by
  have length := overwriteAll_length spaced
  unfold write
  split
  · exact (sealData_length (by rw [length]; exact spaced.start_le)).trans length
  · exact length

theorem write_hasAt {part : List UInt8} {offset : Nat}
    (has : HasAt (overwriteAll data (format.fields data.length object)) offset part) (behind : 8 ≤ offset) :
    HasAt (format.write object data) offset part := by
  unfold write
  split
  · exact hasAt_sealData has behind
  · exact has

theorem Reads.exact (reads : format.Reads) : format.Exact where
  roundTrip := by
    intro data object storable
    have spaced := reads.spaced storable
    have length := write_length spaced
    refine reads.read_iff.mpr ⟨fun checksummed => ?_, reads.stable storable length ?_, ?_⟩
    · obtain ⟨size, whole⟩ := reads.sized checksummed storable
      have written := overwriteAll_length spaced
      have behind := spaced.start_le
      rw [write, if_pos checksummed]
      exact sealData_sealed (by omega) (by omega) (by omega)
    · exact fun offset part has behind apart => write_hasAt (has.overwriteAll spaced apart) behind
    · rw [length]
      intro field member
      exact write_hasAt (hasAll_overwriteAll spaced field member) (spaced.le_of_mem member)
  accepted := by
    intro data object read
    obtain ⟨is_sealed, storable, has⟩ := reads.read_iff.mp read
    refine ⟨storable, ?_⟩
    rw [write, has.overwriteAll_eq]
    split
    · rename_i checksummed
      exact (is_sealed checksummed).sealData_eq
    · rfl

end ObjectFormat

theorem hasAll_cons {data : List UInt8} {field : Nat × List UInt8} {fields : List (Nat × List UInt8)} :
    HasAll data (field :: fields) ↔ HasAt data field.1 field.2 ∧ HasAll data fields := List.forall_mem_cons

theorem hasAll_nil (data : List UInt8) : HasAll data [] := by simp [HasAll]

namespace ObjectMap

def fields (objectMap : ObjectMap) : List (Nat × List UInt8) :=
  [(24, littleEndianBytes 4 0x4000000b), (28, littleEndianBytes 4 0), (36, littleEndianBytes 4 objectMap.numberOfSnapshots),
    (48, littleEndianBytes 8 objectMap.btreeBlockNumber), (56, littleEndianBytes 8 objectMap.snapshotsBtreeBlockNumber),
    (64, littleEndianBytes 8 objectMap.mostRecentSnapshotIdentifier)]

structure Fits (objectMap : ObjectMap) : Prop where
  numberOfSnapshots : objectMap.numberOfSnapshots < 2 ^ 32
  btreeBlockNumber : objectMap.btreeBlockNumber < 2 ^ 64
  snapshotsBtreeBlockNumber : objectMap.snapshotsBtreeBlockNumber < 2 ^ 64
  mostRecentSnapshotIdentifier : objectMap.mostRecentSnapshotIdentifier < 2 ^ 64

theorem readData_iff {data : List UInt8} {objectMap : ObjectMap} :
    readData data = .ok objectMap ↔
      (88 ≤ data.length ∧ data.length ≤ ssizeMax) ∧ objectMap.Fits ∧ HasAll data objectMap.fields := by
  constructor
  · intro read
    unfold readData at read
    split_ifs at read with size
    · cases read
    obtain ⟨_, type, read⟩ := bind_eq_ok.mp read
    split_ifs at read with supported
    · cases read
    obtain ⟨_, subtype, read⟩ := bind_eq_ok.mp read
    split_ifs at read with plain
    · cases read
    obtain ⟨_, number, read⟩ := bind_eq_ok.mp read
    obtain ⟨_, btree, read⟩ := bind_eq_ok.mp read
    obtain ⟨_, snapshots, read⟩ := bind_eq_ok.mp read
    obtain ⟨_, recent, read⟩ := bind_eq_ok.mp read
    cases read
    rw [not_not] at supported plain
    subst supported plain
    obtain ⟨type, _⟩ := loadLittleEndian_iff.mp type
    obtain ⟨subtype, _⟩ := loadLittleEndian_iff.mp subtype
    obtain ⟨number, numberFits⟩ := loadLittleEndian_iff.mp number
    obtain ⟨btree, btreeFits⟩ := loadLittleEndian_iff.mp btree
    obtain ⟨snapshots, snapshotsFits⟩ := loadLittleEndian_iff.mp snapshots
    obtain ⟨recent, recentFits⟩ := loadLittleEndian_iff.mp recent
    refine ⟨by omega, ⟨numberFits, btreeFits, snapshotsFits, recentFits⟩, ?_⟩
    simp only [fields, hasAll_cons]
    exact ⟨type, subtype, number, btree, snapshots, recent, hasAll_nil data⟩
  · rintro ⟨sized, fits, has⟩
    simp only [fields, hasAll_cons] at has
    obtain ⟨type, subtype, number, btree, snapshots, recent, _⟩ := has
    rw [readData, if_neg (by omega), loadLittleEndian32, loadLittleEndian_of_hasAt type (by decide), ok_bind,
      if_neg (by simp), loadLittleEndian32, loadLittleEndian_of_hasAt subtype (by decide), ok_bind, if_neg (by simp), loadLittleEndian32,
      loadLittleEndian_of_hasAt number fits.numberOfSnapshots, ok_bind, loadLittleEndian64,
      loadLittleEndian_of_hasAt btree fits.btreeBlockNumber, ok_bind, loadLittleEndian64,
      loadLittleEndian_of_hasAt snapshots fits.snapshotsBtreeBlockNumber, ok_bind, loadLittleEndian64,
      loadLittleEndian_of_hasAt recent fits.mostRecentSnapshotIdentifier, ok_bind]
    rfl

def format : ObjectFormat ObjectMap where
  readData := readData
  fields _ := fields
  Storable data objectMap := (88 ≤ data.length ∧ data.length ≤ ssizeMax) ∧ objectMap.Fits
  checksummed := false

theorem format_reads : format.Reads where
  read_iff {data objectMap} := by
    refine readData_iff.trans ⟨fun reads => ⟨fun checked => ?_, ⟨reads.1, reads.2.1⟩, reads.2.2⟩,
      fun reads => ⟨reads.2.1.1, reads.2.1.2, reads.2.2⟩⟩
    cases checked
  spaced storable := by
    simp only [format, fields, Spaced, littleEndianBytes_length]
    have long := storable.1.1
    omega
  sized checked := by cases checked
  stable storable length _ := ⟨length ▸ storable.1, storable.2⟩

example : format.readData (format.write ⟨2, 17, 18, 5⟩ (List.replicate 88 0)) = .ok ⟨2, 17, 18, 5⟩ := by decide

end ObjectMap

namespace CheckpointMap

def entryFields : Nat → List CheckpointMapEntry → List (Nat × List UInt8)
  | _, [] => []
  | dataOffset, mapEntry :: mapEntries =>
      (dataOffset + 24, littleEndianBytes 8 mapEntry.objectIdentifier) ::
        (dataOffset + 32, littleEndianBytes 8 mapEntry.physicalAddress) :: entryFields (dataOffset + 40) mapEntries

def fields (mapEntries : List CheckpointMapEntry) : List (Nat × List UInt8) :=
  (24, littleEndianBytes 4 0x4000000c) :: (28, littleEndianBytes 4 0) ::
    (36, littleEndianBytes 4 mapEntries.length) :: entryFields 40 mapEntries

def Fits (mapEntries : List CheckpointMapEntry) : Prop :=
  ∀ mapEntry ∈ mapEntries, mapEntry.objectIdentifier < 2 ^ 64 ∧ mapEntry.physicalAddress < 2 ^ 64

theorem entryFields_spaced {stop : Nat} (dataOffset : Nat) (mapEntries : List CheckpointMapEntry)
    (inside : dataOffset + 40 * mapEntries.length ≤ stop) : Spaced dataOffset (entryFields dataOffset mapEntries) stop := by
  induction mapEntries generalizing dataOffset with
  | nil => exact inside
  | cons mapEntry mapEntries ih =>
      simp only [entryFields, Spaced, littleEndianBytes_length]
      rw [List.length_cons] at inside
      exact ⟨by omega, by omega, ih (dataOffset + 40) (by omega)⟩

theorem entry_iff {data : List UInt8} {dataOffset : Nat} {mapEntry : CheckpointMapEntry}
    (inside : dataOffset + 40 ≤ data.length) (size : data.length ≤ ssizeMax) :
    CheckpointMapEntry.readData data dataOffset = .ok mapEntry ↔
      (mapEntry.objectIdentifier < 2 ^ 64 ∧ mapEntry.physicalAddress < 2 ^ 64) ∧
        HasAt data (dataOffset + 24) (littleEndianBytes 8 mapEntry.objectIdentifier) ∧
        HasAt data (dataOffset + 32) (littleEndianBytes 8 mapEntry.physicalAddress) := by
  rw [CheckpointMapEntry.readData, if_neg (by omega)]
  constructor
  · intro read
    obtain ⟨_, identifier, read⟩ := bind_eq_ok.mp read
    obtain ⟨_, address, read⟩ := bind_eq_ok.mp read
    cases read
    obtain ⟨identifier, identifierFits⟩ := loadLittleEndian_iff.mp identifier
    obtain ⟨address, addressFits⟩ := loadLittleEndian_iff.mp address
    exact ⟨⟨identifierFits, addressFits⟩, identifier, address⟩
  · rintro ⟨⟨identifierFits, addressFits⟩, identifier, address⟩
    rw [loadLittleEndian64, loadLittleEndian_of_hasAt identifier identifierFits, ok_bind, loadLittleEndian64,
      loadLittleEndian_of_hasAt address addressFits, ok_bind]
    rfl

theorem readEntries_iff {data : List UInt8} {dataOffset number : Nat} {mapEntries : List CheckpointMapEntry}
    (inside : dataOffset + 40 * number ≤ data.length) (size : data.length ≤ ssizeMax) :
    readEntries data number dataOffset = .ok mapEntries ↔
      mapEntries.length = number ∧ Fits mapEntries ∧ HasAll data (entryFields dataOffset mapEntries) := by
  induction number generalizing dataOffset mapEntries with
  | zero =>
      constructor
      · intro read
        cases read
        exact ⟨rfl, by simp [Fits], hasAll_nil data⟩
      · rintro ⟨length, _⟩
        rw [List.length_eq_zero_iff.mp length]
        rfl
  | succ number ih =>
      rw [readEntries, bind_eq_ok]
      constructor
      · rintro ⟨mapEntry, first, read⟩
        obtain ⟨mapEntries, others, read⟩ := bind_eq_ok.mp read
        cases read
        obtain ⟨fits, identifier, address⟩ := (entry_iff (by omega) size).mp first
        obtain ⟨length, othersFit, has⟩ := (ih (by omega)).mp others
        refine ⟨by rw [List.length_cons, length], List.forall_mem_cons.mpr ⟨fits, othersFit⟩, ?_⟩
        simp only [entryFields, hasAll_cons]
        exact ⟨identifier, address, has⟩
      · rintro ⟨length, fits, has⟩
        cases mapEntries with
        | nil => cases length
        | cons mapEntry mapEntries =>
            obtain ⟨fits, othersFit⟩ := List.forall_mem_cons.mp fits
            simp only [entryFields, hasAll_cons] at has
            obtain ⟨identifier, address, has⟩ := has
            have others := (ih (by omega)).mpr ⟨Nat.succ_inj.mp length, othersFit, has⟩
            refine ⟨mapEntry, (entry_iff (by omega) size).mpr ⟨fits, identifier, address⟩, ?_⟩
            rw [others]
            rfl

structure Storable (data : List UInt8) (mapEntries : List CheckpointMapEntry) : Prop where
  size : 4080 ≤ data.length ∧ data.length ≤ ssizeMax ∧ data.length % 4 = 0
  number : mapEntries.length ≤ 101
  fits : Fits mapEntries

theorem readData_iff {data : List UInt8} {mapEntries : List CheckpointMapEntry} :
    readData data = .ok mapEntries ↔ Sealed data ∧ Storable data mapEntries ∧ HasAll data (fields mapEntries) := by
  constructor
  · intro read
    have is_sealed := readData_sealed read
    unfold readData at read
    split_ifs at read with size
    · cases read
    obtain ⟨_, stored, read⟩ := bind_eq_ok.mp read
    obtain ⟨_, type, read⟩ := bind_eq_ok.mp read
    split_ifs at read with supported
    · cases read
    obtain ⟨_, subtype, read⟩ := bind_eq_ok.mp read
    split_ifs at read with plain
    · cases read
    obtain ⟨_, number, read⟩ := bind_eq_ok.mp read
    obtain ⟨_, calculated, read⟩ := bind_eq_ok.mp read
    split_ifs at read with mismatch few
    · cases read
    · cases read
    rw [not_not] at supported plain
    subst supported plain
    obtain ⟨type, _⟩ := loadLittleEndian_iff.mp type
    obtain ⟨subtype, _⟩ := loadLittleEndian_iff.mp subtype
    obtain ⟨number, numberFits⟩ := loadLittleEndian_iff.mp number
    obtain ⟨rfl, fits, has⟩ := (readEntries_iff (by omega) (by omega)).mp read
    have whole := (calculateFletcher64_whole calculated).2
    rw [List.length_drop] at whole
    refine ⟨is_sealed, ⟨by omega, by omega, fits⟩, ?_⟩
    simp only [fields, hasAll_cons]
    exact ⟨type, subtype, number, has⟩
  · rintro ⟨is_sealed, storable, has⟩
    obtain ⟨checksum, stored, calculated⟩ := is_sealed
    obtain ⟨long, size, whole⟩ := storable.size
    have number := storable.number
    simp only [fields, hasAll_cons] at has
    obtain ⟨type, subtype, count, has⟩ := has
    rw [readData, if_neg (by omega), stored, ok_bind, loadLittleEndian32, loadLittleEndian_of_hasAt type (by decide),
      ok_bind, if_neg (by simp), loadLittleEndian32, loadLittleEndian_of_hasAt subtype (by decide), ok_bind,
      if_neg (by simp), loadLittleEndian32, loadLittleEndian_of_hasAt count (by omega), ok_bind, calculated, ok_bind,
      if_neg (by simp), if_neg (by omega)]
    exact (readEntries_iff (by omega) size).mpr ⟨rfl, storable.fits, has⟩

def format : ObjectFormat (List CheckpointMapEntry) where
  readData := readData
  fields _ := fields
  Storable := Storable
  checksummed := true

theorem format_reads : format.Reads where
  read_iff := readData_iff.trans ⟨fun reads => ⟨fun _ => reads.1, reads.2⟩, fun reads => ⟨reads.1 rfl, reads.2⟩⟩
  spaced {data mapEntries} storable := by
    obtain ⟨long, _⟩ := storable.size
    have number := storable.number
    simp only [format, fields, Spaced, littleEndianBytes_length]
    exact ⟨by omega, by omega, by omega, entryFields_spaced 40 mapEntries (by omega)⟩
  sized _ storable := storable.size.2
  stable storable length _ := ⟨length ▸ storable.size, storable.number, storable.fits⟩

end CheckpointMap

namespace VolumeSuperblock

def hasExtension (isSnapshot : Bool) (size : Nat) : Prop := isSnapshot = false ∧ size ≥ 0x400 + 16

instance (isSnapshot : Bool) (size : Nat) : Decidable (hasExtension isSnapshot size) :=
  inferInstanceAs (Decidable (_ ∧ _))

def extensionFields (superblock : VolumeSuperblock) : List (Nat × List UInt8) :=
  [(0x400, littleEndianBytes 8 superblock.sealedExtentTreeRootNodeObjectIdentifier),
    (0x400 + 8, littleEndianBytes 8 superblock.sealedExtentTreeRootNodeBlockNumber)]

def valueFields (isSnapshot : Bool) (size : Nat) (superblock : VolumeSuperblock) : List (Nat × List UInt8) :=
  [(40, littleEndianBytes 8 superblock.compatibleFeaturesFlags),
    (48, littleEndianBytes 8 superblock.readOnlyCompatibleFeaturesFlags),
    (56, littleEndianBytes 8 superblock.incompatibleFeaturesFlags),
    (128, littleEndianBytes 8 superblock.objectMapBlockNumber),
    (136, littleEndianBytes 8 superblock.fileSystemRootObjectIdentifier),
    (144, littleEndianBytes 8 superblock.extentReferenceTreeBlockNumber),
    (152, littleEndianBytes 8 superblock.snapshotMetadataTreeBlockNumber),
    (176, littleEndianBytes 8 superblock.nextFileSystemObjectIdentifier), (240, superblock.volumeIdentifier.val),
    (264, littleEndianBytes 8 superblock.volumeFlags), (704, superblock.volumeName.val)] ++
  if hasExtension isSnapshot size then extensionFields superblock else []

def fields (isSnapshot : Bool) (size : Nat) (superblock : VolumeSuperblock) : List (Nat × List UInt8) :=
  (16, littleEndianBytes 8 superblock.transactionIdentifier) ::
    (24, littleEndianBytes 4 (expectedObjectType isSnapshot)) :: (28, littleEndianBytes 4 0) :: (32, volumeSignature) ::
    valueFields isSnapshot size superblock

structure Fits (superblock : VolumeSuperblock) : Prop where
  compatible : superblock.compatibleFeaturesFlags < 2 ^ 64
  readOnlyCompatible : superblock.readOnlyCompatibleFeaturesFlags < 2 ^ 64
  incompatible : superblock.incompatibleFeaturesFlags < 2 ^ 64
  objectMap : superblock.objectMapBlockNumber < 2 ^ 64
  root : superblock.fileSystemRootObjectIdentifier < 2 ^ 64
  extentReferences : superblock.extentReferenceTreeBlockNumber < 2 ^ 64
  snapshots : superblock.snapshotMetadataTreeBlockNumber < 2 ^ 64
  next : superblock.nextFileSystemObjectIdentifier < 2 ^ 64
  flags : superblock.volumeFlags < 2 ^ 64
  extension : superblock.sealedExtentTreeRootNodeObjectIdentifier < 2 ^ 64 ∧
    superblock.sealedExtentTreeRootNodeBlockNumber < 2 ^ 64

structure Storable (isSnapshot : Bool) (data : List UInt8) (superblock : VolumeSuperblock) : Prop where
  size : 1008 ≤ data.length ∧ data.length ≤ ssizeMax ∧ data.length % 4 = 0
  transaction : superblock.transactionIdentifier < 2 ^ 64
  fits : Fits superblock
  unextended : ¬hasExtension isSnapshot data.length → superblock.sealedExtentTreeRootNodeObjectIdentifier = 0 ∧
    superblock.sealedExtentTreeRootNodeBlockNumber = 0

variable {isSnapshot : Bool} {data : List UInt8} {superblock : VolumeSuperblock}

theorem readSealedExtension_iff {extension : Nat × Nat} :
    readSealedExtension data isSnapshot = .ok extension ↔
      if hasExtension isSnapshot data.length then
        (HasAt data 0x400 (littleEndianBytes 8 extension.1) ∧ extension.1 < 2 ^ 64) ∧
          HasAt data (0x400 + 8) (littleEndianBytes 8 extension.2) ∧ extension.2 < 2 ^ 64
      else extension = (0, 0) := by
  unfold readSealedExtension
  by_cases extended : hasExtension isSnapshot data.length
  · rw [if_pos extended, if_pos (show isSnapshot = false ∧ data.length ≥ 0x400 + 16 from extended)]
    constructor
    · intro read
      obtain ⟨_, identifier, read⟩ := bind_eq_ok.mp read
      obtain ⟨_, number, read⟩ := bind_eq_ok.mp read
      cases read
      exact ⟨loadLittleEndian_iff.mp identifier, loadLittleEndian_iff.mp number⟩
    · rintro ⟨identifier, number⟩
      rw [loadLittleEndian64, loadLittleEndian_iff.mpr identifier, ok_bind, loadLittleEndian64,
        loadLittleEndian_iff.mpr number, ok_bind]
      rfl
  · rw [if_neg extended, if_neg (show ¬(isSnapshot = false ∧ data.length ≥ 0x400 + 16) from extended)]
    exact ⟨fun same => (Except.ok.inj same).symm, fun same => same ▸ rfl⟩

theorem readFields_iff {transactionIdentifier : Nat} :
    readFields data isSnapshot transactionIdentifier = .ok superblock ↔
      superblock.transactionIdentifier = transactionIdentifier ∧ Fits superblock ∧
        (¬hasExtension isSnapshot data.length → superblock.sealedExtentTreeRootNodeObjectIdentifier = 0 ∧
          superblock.sealedExtentTreeRootNodeBlockNumber = 0) ∧
        HasAll data (valueFields isSnapshot data.length superblock) := by
  constructor
  · intro read
    obtain ⟨_, compatible, read⟩ := bind_eq_ok.mp read
    obtain ⟨_, readOnly, read⟩ := bind_eq_ok.mp read
    obtain ⟨_, incompatible, read⟩ := bind_eq_ok.mp read
    obtain ⟨_, objectMap, read⟩ := bind_eq_ok.mp read
    obtain ⟨_, root, read⟩ := bind_eq_ok.mp read
    obtain ⟨_, extents, read⟩ := bind_eq_ok.mp read
    obtain ⟨_, snapshots, read⟩ := bind_eq_ok.mp read
    obtain ⟨_, next, read⟩ := bind_eq_ok.mp read
    obtain ⟨_, identifier, read⟩ := bind_eq_ok.mp read
    obtain ⟨_, flags, read⟩ := bind_eq_ok.mp read
    obtain ⟨_, name, read⟩ := bind_eq_ok.mp read
    obtain ⟨extension, extended, read⟩ := bind_eq_ok.mp read
    cases read
    obtain ⟨compatible, compatibleFits⟩ := loadLittleEndian_iff.mp compatible
    obtain ⟨readOnly, readOnlyFits⟩ := loadLittleEndian_iff.mp readOnly
    obtain ⟨incompatible, incompatibleFits⟩ := loadLittleEndian_iff.mp incompatible
    obtain ⟨objectMap, objectMapFits⟩ := loadLittleEndian_iff.mp objectMap
    obtain ⟨root, rootFits⟩ := loadLittleEndian_iff.mp root
    obtain ⟨extents, extentsFit⟩ := loadLittleEndian_iff.mp extents
    obtain ⟨snapshots, snapshotsFit⟩ := loadLittleEndian_iff.mp snapshots
    obtain ⟨next, nextFits⟩ := loadLittleEndian_iff.mp next
    obtain ⟨flags, flagsFit⟩ := loadLittleEndian_iff.mp flags
    have identifier := copy_iff.mp identifier
    have name := copy_iff.mp name
    rw [readSealedExtension_iff] at extended
    have small : extension.1 < 2 ^ 64 ∧ extension.2 < 2 ^ 64 := by
      split_ifs at extended
      · exact ⟨extended.1.2, extended.2.2⟩
      · subst extended
        decide
    refine ⟨rfl, ⟨compatibleFits, readOnlyFits, incompatibleFits, objectMapFits, rootFits, extentsFit, snapshotsFit,
      nextFits, flagsFit, small⟩, fun unextended => ?_, hasAll_append.mpr ⟨?_, ?_⟩⟩
    · rw [if_neg unextended] at extended
      subst extended
      exact ⟨rfl, rfl⟩
    · simp only [hasAll_cons]
      exact ⟨compatible, readOnly, incompatible, objectMap, root, extents, snapshots, next, identifier, flags, name,
        hasAll_nil data⟩
    · split_ifs at extended with has
      · rw [if_pos has]
        simp only [extensionFields, hasAll_cons]
        exact ⟨extended.1.1, extended.2.1, hasAll_nil data⟩
      · rw [if_neg has]
        exact hasAll_nil data
  · rintro ⟨rfl, fits, unextended, has⟩
    obtain ⟨has, extended⟩ := hasAll_append.mp has
    simp only [hasAll_cons] at has
    obtain ⟨compatible, readOnly, incompatible, objectMap, root, extents, snapshots, next, identifier, flags, name, _⟩ :=
      has
    have extension : readSealedExtension data isSnapshot = .ok
        (superblock.sealedExtentTreeRootNodeObjectIdentifier, superblock.sealedExtentTreeRootNodeBlockNumber) := by
      rw [readSealedExtension_iff]
      split_ifs with has
      · rw [if_pos has] at extended
        simp only [extensionFields, hasAll_cons] at extended
        exact ⟨⟨extended.1, fits.extension.1⟩, extended.2.1, fits.extension.2⟩
      · rw [(unextended has).1, (unextended has).2]
    simp only [readFields, loadLittleEndian64, loadLittleEndian_of_hasAt compatible fits.compatible,
      loadLittleEndian_of_hasAt readOnly fits.readOnlyCompatible, loadLittleEndian_of_hasAt incompatible fits.incompatible,
      loadLittleEndian_of_hasAt objectMap fits.objectMap, loadLittleEndian_of_hasAt root fits.root,
      loadLittleEndian_of_hasAt extents fits.extentReferences, loadLittleEndian_of_hasAt snapshots fits.snapshots,
      loadLittleEndian_of_hasAt next fits.next, Bytes.copy_of_hasAt identifier, loadLittleEndian_of_hasAt flags fits.flags,
      Bytes.copy_of_hasAt name, extension, ok_bind]
    rfl

theorem readData_iff : readData data isSnapshot = .ok superblock ↔
    Sealed data ∧ Storable isSnapshot data superblock ∧ HasAll data (fields isSnapshot data.length superblock) := by
  constructor
  · intro read
    have is_sealed := readData_sealed read
    unfold readData at read
    split_ifs at read with size
    · cases read
    obtain ⟨_, transaction, read⟩ := bind_eq_ok.mp read
    obtain ⟨_, _, read⟩ := bind_eq_ok.mp read
    obtain ⟨_, type, read⟩ := bind_eq_ok.mp read
    split_ifs at read with supported
    · cases read
    obtain ⟨_, subtype, read⟩ := bind_eq_ok.mp read
    split_ifs at read with plain
    · cases read
    obtain ⟨_, signature, read⟩ := bind_eq_ok.mp read
    split_ifs at read with signed
    · cases read
    obtain ⟨_, values, read⟩ := bind_eq_ok.mp read
    obtain ⟨_, calculated, read⟩ := bind_eq_ok.mp read
    split_ifs at read with mismatch
    · cases read
    cases read
    rw [not_not] at supported plain signed
    subst supported plain signed
    obtain ⟨rfl, fits, unextended, has⟩ := readFields_iff.mp values
    obtain ⟨transaction, transactionFits⟩ := loadLittleEndian_iff.mp transaction
    have whole := (calculateFletcher64_whole calculated).2
    rw [List.length_drop] at whole
    refine ⟨is_sealed, ⟨by omega, transactionFits, fits, unextended⟩, ?_⟩
    simp only [fields, hasAll_cons]
    exact ⟨transaction, (loadLittleEndian_iff.mp type).1, (loadLittleEndian_iff.mp subtype).1,
      (slice_iff.mp signature).1, has⟩
  · rintro ⟨is_sealed, storable, has⟩
    obtain ⟨checksum, stored, calculated⟩ := is_sealed
    obtain ⟨long, size, whole⟩ := storable.size
    simp only [fields, hasAll_cons] at has
    obtain ⟨transaction, type, subtype, signature, has⟩ := has
    have small : expectedObjectType isSnapshot < 256 ^ 4 := by cases isSnapshot <;> decide
    rw [readData, if_neg (by omega), loadLittleEndian64, loadLittleEndian_of_hasAt transaction storable.transaction, ok_bind,
      stored, ok_bind, loadLittleEndian32, loadLittleEndian_of_hasAt type small, ok_bind, if_neg (by simp),
      loadLittleEndian32, loadLittleEndian_of_hasAt subtype (by decide), ok_bind, if_neg (by simp),
      signature.slice (show 4 = volumeSignature.length from rfl), ok_bind, if_neg (by simp),
      readFields_iff.mpr ⟨rfl, storable.fits, storable.unextended, has⟩, ok_bind, calculated, ok_bind, if_neg (by simp)]
    rfl

def format (isSnapshot : Bool) : ObjectFormat VolumeSuperblock where
  readData data := readData data isSnapshot
  fields := fields isSnapshot
  Storable := Storable isSnapshot
  checksummed := true

theorem format_reads (isSnapshot : Bool) : (format isSnapshot).Reads where
  read_iff := readData_iff.trans ⟨fun reads => ⟨fun _ => reads.1, reads.2⟩, fun reads => ⟨reads.1 rfl, reads.2⟩⟩
  spaced {data superblock} storable := by
    obtain ⟨long, _⟩ := storable.size
    have identifier := superblock.volumeIdentifier.property
    have name := superblock.volumeName.property
    simp only [format, fields, valueFields, Spaced, List.cons_append, List.nil_append, littleEndianBytes_length, identifier,
      name]
    split_ifs with has
    · have extended := has.2
      simp only [extensionFields, Spaced, littleEndianBytes_length, volumeSignature, List.length_cons, List.length_nil]
      omega
    · simp only [Spaced, volumeSignature, List.length_cons, List.length_nil]
      omega
  sized _ storable := storable.size.2
  stable storable length _ := ⟨length ▸ storable.size, storable.transaction, storable.fits, length ▸ storable.unextended⟩

end VolumeSuperblock

namespace ContainerSuperblock

def identifierFields : Nat → List Nat → List (Nat × List UInt8)
  | _, [] => []
  | dataOffset, identifier :: identifiers =>
      (dataOffset, littleEndianBytes 8 identifier) :: identifierFields (dataOffset + 8) identifiers

/-- Of the block number of the checkpoint descriptor area only the low half is kept. -/
def fields (superblock : ContainerSuperblock) : List (Nat × List UInt8) :=
  [(16, littleEndianBytes 8 superblock.objectTransactionIdentifier), (24, littleEndianBytes 4 0x80000001),
    (28, littleEndianBytes 4 0), (32, containerSignature), (36, littleEndianBytes 4 superblock.blockSize),
    (40, littleEndianBytes 8 superblock.numberOfBlocks), (64, littleEndianBytes 8 superblock.incompatibleFeaturesFlags),
    (104, littleEndianBytes 4 superblock.checkpointDescriptorAreaNumberOfBlocks),
    (112, littleEndianBytes 4 superblock.checkpointDescriptorAreaBlockNumber),
    (160, littleEndianBytes 8 superblock.objectMapBlockNumber)] ++
  (identifierFields 184 superblock.volumeObjectIdentifiers ++
    [(1296, littleEndianBytes 8 superblock.keyBagBlockNumber), (1304, littleEndianBytes 8 superblock.keyBagNumberOfBlocks)])

structure Fits (superblock : ContainerSuperblock) : Prop where
  transaction : superblock.objectTransactionIdentifier < 2 ^ 64
  blockSize : superblock.blockSize = 4096
  numberOfBlocks : superblock.numberOfBlocks < 2 ^ 64
  incompatible : superblock.incompatibleFeaturesFlags < 2 ^ 64 ∧ superblock.incompatibleFeaturesFlags % 2 = 0
  areaNumberOfBlocks : superblock.checkpointDescriptorAreaNumberOfBlocks < 2 ^ 31
  areaBlockNumber : 0 < superblock.checkpointDescriptorAreaBlockNumber ∧
    superblock.checkpointDescriptorAreaBlockNumber < 2 ^ 32
  objectMap : superblock.objectMapBlockNumber < 2 ^ 64
  identifiers : superblock.volumeObjectIdentifiers.length = 100 ∧
    ∀ identifier ∈ superblock.volumeObjectIdentifiers, identifier < 2 ^ 64
  numberOfVolumes : superblock.numberOfVolumes = superblock.volumeObjectIdentifiers.countP (· ≠ 0)
  keyBag : superblock.keyBagBlockNumber < 2 ^ 64 ∧ superblock.keyBagNumberOfBlocks < 2 ^ 64

/-- The maximum number of volumes is checked and not kept. -/
structure Storable (data : List UInt8) (superblock : ContainerSuperblock) : Prop where
  size : 1384 ≤ data.length ∧ data.length ≤ ssizeMax ∧ data.length % 4 = 0
  fits : Fits superblock
  maximum : ∃ maximumNumberOfVolumes ≤ 100, HasAt data 180 (littleEndianBytes 4 maximumNumberOfVolumes)

variable {data : List UInt8} {superblock : ContainerSuperblock}

theorem identifiers_iff {dataOffset number : Nat} {read : List Nat × Nat} :
    readVolumeObjectIdentifiers data number dataOffset = .ok read ↔
      read.1.length = number ∧ (∀ identifier ∈ read.1, identifier < 2 ^ 64) ∧ read.2 = read.1.countP (· ≠ 0) ∧
        HasAll data (identifierFields dataOffset read.1) := by
  induction number generalizing dataOffset read with
  | zero =>
      constructor
      · intro reads
        cases reads
        exact ⟨rfl, by simp, rfl, hasAll_nil data⟩
      · rintro ⟨length, _, counted, _⟩
        obtain ⟨identifiers, numberOfVolumes⟩ := read
        obtain rfl : identifiers = [] := List.length_eq_zero_iff.mp length
        rw [show numberOfVolumes = 0 from counted]
        rfl
  | succ number ih =>
      rw [readVolumeObjectIdentifiers, bind_eq_ok]
      constructor
      · rintro ⟨identifier, first, reads⟩
        obtain ⟨⟨identifiers, numberOfVolumes⟩, others, reads⟩ := bind_eq_ok.mp reads
        cases reads
        obtain ⟨first, fits⟩ := loadLittleEndian_iff.mp first
        obtain ⟨length, othersFit, counted, has⟩ := ih.mp others
        refine ⟨congrArg (· + 1) length, List.forall_mem_cons.mpr ⟨fits, othersFit⟩, ?_, hasAll_cons.mpr ⟨first, has⟩⟩
        rw [List.countP_cons, ← show numberOfVolumes = _ from counted]
        by_cases zero : identifier = 0 <;> simp [zero]
      · rintro ⟨length, fits, counted, has⟩
        obtain ⟨identifiers, numberOfVolumes⟩ := read
        cases identifiers with
        | nil => cases length
        | cons identifier identifiers =>
            obtain ⟨fits, othersFit⟩ := List.forall_mem_cons.mp fits
            obtain ⟨first, has⟩ := hasAll_cons.mp has
            have others := (@ih (dataOffset + 8) (identifiers, identifiers.countP (· ≠ 0))).mpr
              ⟨Nat.succ_inj.mp length, othersFit, rfl, has⟩
            refine ⟨identifier, loadLittleEndian_of_hasAt first fits, ?_⟩
            rw [others, ok_bind, show numberOfVolumes = _ from counted, List.countP_cons]
            by_cases zero : identifier = 0 <;> simp [zero] <;> rfl

theorem check_iff {storedChecksum calculatedChecksum maximumNumberOfVolumes : Nat} :
    superblock.check storedChecksum calculatedChecksum maximumNumberOfVolumes = .ok () ↔
      storedChecksum = calculatedChecksum ∧ superblock.incompatibleFeaturesFlags % 2 = 0 ∧ superblock.blockSize = 4096 ∧
        superblock.checkpointDescriptorAreaNumberOfBlocks < 2 ^ 31 ∧
        0 < superblock.checkpointDescriptorAreaBlockNumber ∧ maximumNumberOfVolumes ≤ 100 := by
  unfold check
  constructor
  · intro checked
    split_ifs at checked
    all_goals cases checked
    omega
  · rintro ⟨same, plain, blockSize, bounded, positive, few⟩
    rw [if_neg (by omega), if_neg (by omega), if_neg (by omega), if_neg (by omega), if_neg (by omega), if_neg (by omega)]

theorem hasAt_low {offset value : Nat} (has : HasAt data offset (littleEndianBytes 8 value)) :
    HasAt data offset (littleEndianBytes 4 (value % 2 ^ 32)) := by
  have halves : littleEndianBytes 8 value =
      littleEndianBytes 4 (value % 2 ^ 32) ++ littleEndianBytes 4 (value / 2 ^ 32) := by
    simp only [littleEndianBytes, List.cons_append, List.nil_append, List.cons.injEq, and_true]
    refine ⟨?_, ?_, ?_, ?_, ?_, ?_, ?_, ?_⟩
    all_goals
      apply congrArg UInt8.ofNat
      omega
  rw [halves] at has
  exact has.left

theorem load_of_low {offset value : Nat} (has : HasAt data offset (littleEndianBytes 4 value)) (fits : value < 2 ^ 32)
    (inside : offset + 8 ≤ data.length) :
    ∃ loaded, loadLittleEndian 8 data offset = .ok loaded ∧ loaded % 2 ^ 32 = value := by
  have loads := loadLittleEndian_ok inside
  refine ⟨_, loads, ?_⟩
  have low := (hasAt_low (loadLittleEndian_iff.mp loads).1).take_drop
  have same := has.take_drop
  rw [littleEndianBytes_length] at low same
  have values := congrArg littleEndian (low.symm.trans same)
  rw [littleEndian_littleEndianBytes, littleEndian_littleEndianBytes] at values
  omega

theorem readData_iff : readData data = .ok superblock ↔
    Sealed data ∧ Storable data superblock ∧ HasAll data (fields superblock) := by
  constructor
  · intro read
    have is_sealed := readData_sealed read
    unfold readData at read
    split_ifs at read with size
    · cases read
    obtain ⟨_, stored, read⟩ := bind_eq_ok.mp read
    obtain ⟨_, transaction, read⟩ := bind_eq_ok.mp read
    obtain ⟨_, type, read⟩ := bind_eq_ok.mp read
    obtain ⟨_, subtype, read⟩ := bind_eq_ok.mp read
    obtain ⟨_, signature, read⟩ := bind_eq_ok.mp read
    split_ifs at read with supported plain signed
    · cases read
    · cases read
    · cases read
    obtain ⟨_, blockSize, read⟩ := bind_eq_ok.mp read
    obtain ⟨_, blocks, read⟩ := bind_eq_ok.mp read
    obtain ⟨_, incompatible, read⟩ := bind_eq_ok.mp read
    obtain ⟨_, areaBlocks, read⟩ := bind_eq_ok.mp read
    obtain ⟨_, areaBlock, read⟩ := bind_eq_ok.mp read
    obtain ⟨_, objectMap, read⟩ := bind_eq_ok.mp read
    obtain ⟨maximum, maximumRead, read⟩ := bind_eq_ok.mp read
    obtain ⟨⟨identifiers, numberOfVolumes⟩, identifiersRead, read⟩ := bind_eq_ok.mp read
    obtain ⟨_, keyBag, read⟩ := bind_eq_ok.mp read
    obtain ⟨_, keyBagBlocks, read⟩ := bind_eq_ok.mp read
    obtain ⟨_, calculated, read⟩ := bind_eq_ok.mp read
    obtain ⟨_, checked, read⟩ := bind_eq_ok.mp read
    cases read
    rw [not_not] at supported plain signed
    subst supported plain signed
    obtain ⟨_, even, sized, bounded, positive, few⟩ := check_iff.mp checked
    obtain ⟨transaction, transactionFits⟩ := loadLittleEndian_iff.mp transaction
    obtain ⟨blockSize, _⟩ := loadLittleEndian_iff.mp blockSize
    obtain ⟨blocks, blocksFit⟩ := loadLittleEndian_iff.mp blocks
    obtain ⟨incompatible, incompatibleFits⟩ := loadLittleEndian_iff.mp incompatible
    obtain ⟨areaBlocks, _⟩ := loadLittleEndian_iff.mp areaBlocks
    obtain ⟨areaBlock, _⟩ := loadLittleEndian_iff.mp areaBlock
    obtain ⟨objectMap, objectMapFits⟩ := loadLittleEndian_iff.mp objectMap
    obtain ⟨maximumRead, _⟩ := loadLittleEndian_iff.mp maximumRead
    obtain ⟨length, fit, counted, has⟩ := identifiers_iff.mp identifiersRead
    obtain ⟨keyBag, keyBagFits⟩ := loadLittleEndian_iff.mp keyBag
    obtain ⟨keyBagBlocks, keyBagBlocksFit⟩ := loadLittleEndian_iff.mp keyBagBlocks
    have whole := (calculateFletcher64_whole calculated).2
    rw [List.length_drop] at whole
    refine ⟨is_sealed, ⟨by omega, ⟨transactionFits, sized, blocksFit, ⟨incompatibleFits, even⟩, bounded,
      ⟨positive, Nat.mod_lt _ (by decide)⟩, objectMapFits, ⟨length, fit⟩, counted, keyBagFits, keyBagBlocksFit⟩,
      maximum, few, maximumRead⟩, ?_⟩
    simp only [fields, hasAll_append, hasAll_cons]
    exact ⟨⟨transaction, (loadLittleEndian_iff.mp type).1, (loadLittleEndian_iff.mp subtype).1,
      (slice_iff.mp signature).1, blockSize, blocks, incompatible, areaBlocks, hasAt_low areaBlock, objectMap,
      hasAll_nil data⟩, has, keyBag, keyBagBlocks, hasAll_nil data⟩
  · rintro ⟨is_sealed, storable, has⟩
    obtain ⟨checksum, stored, calculated⟩ := is_sealed
    obtain ⟨long, size, whole⟩ := storable.size
    obtain ⟨maximum, few, maximumHas⟩ := storable.maximum
    have fits := storable.fits
    simp only [fields, hasAll_append, hasAll_cons] at has
    obtain ⟨⟨transaction, type, subtype, signature, blockSize, blocks, incompatible, areaBlocks, areaBlock, objectMap, _⟩,
      identifiers, keyBag, keyBagBlocks, _⟩ := has
    obtain ⟨area, areaLoads, low⟩ := load_of_low areaBlock fits.areaBlockNumber.2 (by omega)
    have identifiersRead := (@identifiers_iff _ 184 100
      (superblock.volumeObjectIdentifiers, superblock.numberOfVolumes)).mpr
      ⟨fits.identifiers.1, fits.identifiers.2, fits.numberOfVolumes, identifiers⟩
    have sized := fits.blockSize
    have bounded := fits.areaNumberOfBlocks
    rw [readData, if_neg (by omega), stored, ok_bind, loadLittleEndian64,
      loadLittleEndian_of_hasAt transaction fits.transaction, ok_bind, loadLittleEndian32, loadLittleEndian_of_hasAt type (by decide), ok_bind, loadLittleEndian32,
      loadLittleEndian_of_hasAt subtype (by decide), ok_bind,
      signature.slice (show 4 = containerSignature.length from rfl), ok_bind, if_neg (by simp), if_neg (by simp),
      if_neg (by simp)]
    simp only [loadLittleEndian64, loadLittleEndian32, loadLittleEndian_of_hasAt blockSize (by omega),
      loadLittleEndian_of_hasAt blocks fits.numberOfBlocks, loadLittleEndian_of_hasAt incompatible fits.incompatible.1,
      loadLittleEndian_of_hasAt areaBlocks (by omega), areaLoads, low, loadLittleEndian_of_hasAt objectMap fits.objectMap,
      loadLittleEndian_of_hasAt maximumHas (by omega), identifiersRead,
      loadLittleEndian_of_hasAt keyBag fits.keyBag.1, loadLittleEndian_of_hasAt keyBagBlocks fits.keyBag.2,
      calculateFletcher64_zero, calculated, ok_bind]
    have checked : superblock.check checksum checksum maximum = .ok () :=
      check_iff.mpr ⟨rfl, fits.incompatible.2, sized, bounded, fits.areaBlockNumber.1, few⟩
    change (superblock.check checksum checksum maximum >>= fun _ => .ok superblock) = _
    rw [checked, ok_bind]

def format : ObjectFormat ContainerSuperblock where
  readData := readData
  fields _ := fields
  Storable := Storable
  checksummed := true

theorem identifierFields_spaced {stop : Nat} (dataOffset : Nat) (identifiers : List Nat)
    (inside : dataOffset + 8 * identifiers.length ≤ stop) :
    Spaced dataOffset (identifierFields dataOffset identifiers) stop := by
  induction identifiers generalizing dataOffset with
  | nil => exact inside
  | cons identifier identifiers ih =>
      simp only [identifierFields, Spaced, littleEndianBytes_length]
      rw [List.length_cons] at inside
      exact ⟨Nat.le_refl _, ih (dataOffset + 8) (by omega)⟩

theorem fields_spaced {stop : Nat} (fits : Fits superblock) (inside : 1312 ≤ stop) :
    Spaced 8 (fields superblock) stop := by
  have identifiers : Spaced 184 (identifierFields 184 superblock.volumeObjectIdentifiers) 984 :=
    identifierFields_spaced 184 _ (by rw [fits.identifiers.1])
  unfold fields
  refine @Spaced.append _ 168 8 stop _ _ ?_ ?_
  · simp [Spaced, containerSignature]
  · refine (identifiers.append ?_).mono (by decide)
    simp [Spaced]
    omega

theorem format_reads : format.Reads where
  read_iff := readData_iff.trans ⟨fun reads => ⟨fun _ => reads.1, reads.2⟩, fun reads => ⟨reads.1 rfl, reads.2⟩⟩
  spaced {data superblock} storable := by
    have long := storable.size.1
    exact fields_spaced storable.fits (by omega)
  sized _ storable := storable.size.2
  stable {data data' superblock} storable length kept := by
    obtain ⟨maximum, few, has⟩ := storable.maximum
    refine ⟨length ▸ storable.size, storable.fits, maximum, few, kept 180 _ has (by decide) ?_⟩
    have identifiers : Spaced 184 (identifierFields 184 superblock.volumeObjectIdentifiers) 984 :=
      identifierFields_spaced 184 _ (by rw [storable.fits.identifiers.1])
    refine List.forall_mem_append.mpr ⟨?_, List.forall_mem_append.mpr ⟨identifiers.apart (by simp), ?_⟩⟩
    · simp [Apart, containerSignature]
    · simp [Apart]

end ContainerSuperblock

end Fsapfs
