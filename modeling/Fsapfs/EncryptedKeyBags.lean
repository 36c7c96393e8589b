import Fsapfs.FileData.SectorTweaks
import Fsapfs.StoredKeyBags

namespace Fsapfs
open Program

/-- The entries of a container key bag; it is locked if the object that was read is none. -/
structure ContainerKeyBag where
  entries : List KeyBagEntry
  isLocked : Bool

section reading

variable (aesXts : List UInt8 → List UInt8 → AesXts) (ioHandle : IoHandle) (fileIoHandle : DataStream)

/-- The decrypted data of a key bag: an identifier is both keys. -/
def readKeyBagData (fileOffset dataSize : Nat) (identifier : Bytes 16) : Result (List UInt8) :=
  if ioHandle.bytesPerSector = 0 then fail .valueMissing
  else if dataSize = 0 ∨ dataSize > memoryMaximumAllocationSize then fail .valueOutOfBounds
  -- an offset that is negative as a signed 64-bit value
  else if fileOffset > off64Max then fail .readFailed
  else do
    let encryptedData ← fileIoHandle.readExactly dataSize fileOffset
    crypt (aesXts identifier.val identifier.val) ioHandle.bytesPerSector (fileOffset / ioHandle.bytesPerSector)
      encryptedData

def ContainerKeyBag.readFileIoHandle (fileOffset dataSize : Nat) (containerIdentifier : Bytes 16) :
    Call ErrorCode (List KeyBagEntry) Bool := do
  let data ← Call.lift (readKeyBagData aesXts ioHandle fileIoHandle fileOffset dataSize containerIdentifier)
  ContainerKeyBag.readData data

def VolumeKeyBag.readFileIoHandle (fileOffset dataSize : Nat) (volumeIdentifier : Bytes 16) :
    Call ErrorCode (List KeyBagEntry) Unit := do
  let data ← Call.lift (readKeyBagData aesXts ioHandle fileIoHandle fileOffset dataSize volumeIdentifier)
  VolumeKeyBag.readData data

/-- The block number and the number of blocks in the first entry that has the extent of the key bag of a volume. -/
def getVolumeKeyBagExtentByIdentifier (volumeIdentifier : Bytes 16) : List KeyBagEntry → Result (Option (Nat × Nat))
  | [] => .ok none
  | entry :: entries =>
      if entry.type ≠ 3 then getVolumeKeyBagExtentByIdentifier volumeIdentifier entries
      else if entry.identifier ≠ volumeIdentifier then getVolumeKeyBagExtentByIdentifier volumeIdentifier entries
      else if entry.data.length ≠ 16 then fail .unsupportedValue
      else do
        let blockNumber ← loadLittleEndian64 entry.data 0
        let numberOfBlocks ← loadLittleEndian64 entry.data 8
        return some (blockNumber, numberOfBlocks)

def inBlocks (number : Nat) : Nat := number * ioHandle.blockSize % 2 ^ 64

/-- The key bag of a container, where its superblock has an extent of one. -/
def readContainerKeyBag (keyBagBlockNumber keyBagNumberOfBlocks : Nat) (containerIdentifier : Bytes 16) :
    Result (Option ContainerKeyBag) :=
  if keyBagBlockNumber > 0 ∧ keyBagNumberOfBlocks > 0 then
    let read := ContainerKeyBag.readFileIoHandle aesXts ioHandle fileIoHandle (inBlocks ioHandle keyBagBlockNumber)
      (inBlocks ioHandle keyBagNumberOfBlocks) containerIdentifier []
    read.1.map fun found => some { entries := read.2, isLocked := !found }
  else .ok none

namespace Volume

def opened (containerKeyBag : Option ContainerKeyBag) (volumeIdentifier : Bytes 16) (isLocked : Bool) : Volume where
  keyBag := none
  containerKeyBag := containerKeyBag.map ContainerKeyBag.entries
  volumeIdentifier
  userPassword := none
  recoveryPassword := none
  isLocked
  keys := none

/-- The key bag of a volume: where the container has none, or one without an entry for the volume, the volume has none. -/
def openKeyBag (containerKeyBag : Option ContainerKeyBag) (volumeFlags : Nat) (volumeIdentifier : Bytes 16) :
    Result Volume :=
  match containerKeyBag with
  | none => .ok (opened none volumeIdentifier false)
  | some containerKeyBag =>
      if volumeFlags &&& 1 ≠ 0 then .ok (opened (some containerKeyBag) volumeIdentifier false)
      else do
        let extent ← getVolumeKeyBagExtentByIdentifier volumeIdentifier containerKeyBag.entries
        match extent with
        | none => return opened (some containerKeyBag) volumeIdentifier containerKeyBag.isLocked
        | some extent =>
            if extent.1 = 0 ∨ extent.2 = 0 then fail .valueOutOfBounds
            else
              let read := VolumeKeyBag.readFileIoHandle aesXts ioHandle fileIoHandle (inBlocks ioHandle extent.1)
                (inBlocks ioHandle extent.2) volumeIdentifier []
              read.1.map fun _ =>
                { opened (some containerKeyBag) volumeIdentifier true with keyBag := some read.2 }

end Volume

end reading

structure XtsCipher where
  aesXts : List UInt8 → List UInt8 → AesXts
  encrypt : List UInt8 → List UInt8 → List UInt8 → List UInt8 → List UInt8
  length : ∀ key tweakKey tweakValue data, (encrypt key tweakKey tweakValue data).length = data.length
  decrypts : ∀ key tweakKey tweakValue data,
    (aesXts key tweakKey).decrypt tweakValue (encrypt key tweakKey tweakValue data) = data

namespace XtsCipher

variable (cipher : XtsCipher) (key tweakKey : List UInt8) (bytesPerSector : Nat)

def encryptSectors : Nat → Nat → List UInt8 → List UInt8
  | 0, _, _ => []
  | sectors + 1, sectorNumber, data =>
      cipher.encrypt key tweakKey (tweakValue sectorNumber) (data.take bytesPerSector) ++
        encryptSectors sectors (sectorNumber + 1) (data.drop bytesPerSector)

variable {cipher key tweakKey bytesPerSector} {sectors sectorNumber fuel : Nat} {data : List UInt8}

theorem encryptSectors_length (whole : data.length = sectors * bytesPerSector) :
    (cipher.encryptSectors key tweakKey bytesPerSector sectors sectorNumber data).length = data.length := by
  induction sectors generalizing sectorNumber data with
  | zero => simpa [encryptSectors] using whole.symm
  | succ sectors ih =>
      rw [Nat.succ_mul] at whole
      have rest : (data.drop bytesPerSector).length = sectors * bytesPerSector := by
        rw [List.length_drop]
        omega
      rw [encryptSectors, List.length_append, ih rest, cipher.length, List.length_take, List.length_drop]
      omega

theorem cryptSectors_encryptSectors (positive : 0 < bytesPerSector) (whole : data.length = sectors * bytesPerSector)
    (enough : sectors ≤ fuel) (small : sectorNumber + sectors < 2 ^ 64) :
    cryptSectors (cipher.aesXts key tweakKey) bytesPerSector fuel sectorNumber
      (cipher.encryptSectors key tweakKey bytesPerSector sectors sectorNumber data) = .ok data := by
  induction sectors generalizing fuel sectorNumber data with
  | zero =>
      rw [Nat.zero_mul, List.length_eq_zero_iff] at whole
      subst whole
      cases fuel <;> rfl
  | succ sectors ih =>
      obtain ⟨fuel, rfl⟩ := Nat.exists_eq_succ_of_ne_zero (show fuel ≠ 0 by omega)
      rw [Nat.succ_mul] at whole
      have rest : (data.drop bytesPerSector).length = sectors * bytesPerSector := by
        rw [List.length_drop]
        omega
      have first : (cipher.encrypt key tweakKey (tweakValue sectorNumber) (data.take bytesPerSector)).length =
          bytesPerSector := by
        rw [cipher.length, List.length_take]
        omega
      rw [encryptSectors]
      cases encrypted : cipher.encrypt key tweakKey (tweakValue sectorNumber) (data.take bytesPerSector) with
      | nil =>
          rw [encrypted, List.length_nil] at first
          omega
      | cons byte bytes =>
          have decrypts := cipher.decrypts key tweakKey (tweakValue sectorNumber) (data.take bytesPerSector)
          rw [encrypted] at first decrypts
          have whole' : ¬(byte :: (bytes ++ cipher.encryptSectors key tweakKey bytesPerSector sectors (sectorNumber + 1)
              (data.drop bytesPerSector))).length < bytesPerSector := by
            simp only [List.length_cons, List.length_append] at first ⊢
            omega
          rw [List.cons_append, cryptSectors, if_neg whole', ← List.cons_append, List.take_left' first,
            List.drop_left' first, Nat.mod_eq_of_lt (by omega), ih rest (by omega) (by omega), decrypts]
          change Except.ok (data.take bytesPerSector ++ data.drop bytesPerSector) = _
          rw [List.take_append_drop]

theorem crypt_encryptSectors (positive : 0 < bytesPerSector) (whole : data.length = sectors * bytesPerSector)
    (short : data.length ≤ ssizeMax) (small : sectorNumber + sectors < 2 ^ 64) :
    crypt (cipher.aesXts key tweakKey) bytesPerSector sectorNumber
      (cipher.encryptSectors key tweakKey bytesPerSector sectors sectorNumber data) = .ok data := by
  have length := @encryptSectors_length cipher key tweakKey _ _ sectorNumber _ whole
  have enough : sectors ≤ data.length := whole ▸ Nat.le_mul_of_pos_right sectors positive
  rw [crypt, if_neg (by omega), length, cryptSectors_encryptSectors positive whole enough small]

end XtsCipher

end Fsapfs
