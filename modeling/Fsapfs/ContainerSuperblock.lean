import Fsapfs.BtreeNode

namespace Fsapfs
open Program

/-- The sums of the 32-bit values and of these sums, as 64-bit integers. -/
def fletcher64Sums : List UInt8 → Nat → Nat → Nat × Nat
  | first :: second :: third :: fourth :: rest, lower, upper =>
      let lower := (lower + littleEndian [first, second, third, fourth]) % 2 ^ 64
      fletcher64Sums rest lower ((upper + lower) % 2 ^ 64)
  | _, lower, upper => (lower, upper)

def calculateFletcher64 (buffer : List UInt8) : Result Nat :=
  if buffer.length > ssizeMax then fail .valueExceedsMaximum
  else if buffer.length % 4 ≠ 0 then fail .valueOutOfBounds
  else
    let sums := fletcher64Sums buffer 0 0
    let lower := sums.1 % 0xffffffff
    let upper := sums.2 % 0xffffffff
    let value := 0xffffffff - (lower + upper) % 0xffffffff
    let upper := 0xffffffff - (lower + value) % 0xffffffff
    .ok (upper * 2 ^ 32 + value)

/-- The block number of the checkpoint descriptor area is kept in 32 bits. -/
structure ContainerSuperblock where
  objectTransactionIdentifier : Nat
  blockSize : Nat
  numberOfBlocks : Nat
  incompatibleFeaturesFlags : Nat
  checkpointDescriptorAreaNumberOfBlocks : Nat
  checkpointDescriptorAreaBlockNumber : Nat
  objectMapBlockNumber : Nat
  volumeObjectIdentifiers : List Nat
  numberOfVolumes : Nat
  keyBagBlockNumber : Nat
  keyBagNumberOfBlocks : Nat
  deriving Repr, DecidableEq

namespace ContainerSuperblock

def containerSignature : List UInt8 := [0x4e, 0x58, 0x53, 0x42]

/-- The identifiers at an offset, and how many of them are not zero. -/
def readVolumeObjectIdentifiers (data : List UInt8) : Nat → Nat → Result (List Nat × Nat)
  | 0, _ => .ok ([], 0)
  | remaining + 1, dataOffset => do
      let volumeObjectIdentifier ← loadLittleEndian64 data dataOffset
      let (identifiers, numberOfVolumes) ← readVolumeObjectIdentifiers data remaining (dataOffset + 8)
      return (volumeObjectIdentifier :: identifiers,
        if volumeObjectIdentifier ≠ 0 then numberOfVolumes + 1 else numberOfVolumes)

def check (superblock : ContainerSuperblock) (storedChecksum calculatedChecksum maximumNumberOfVolumes : Nat) :
    Result Unit :=
  if storedChecksum ≠ calculatedChecksum then fail .checksumMismatch
  else if superblock.incompatibleFeaturesFlags % 2 ≠ 0 then fail .unsupportedValue
  else if superblock.blockSize ≠ 4096 then fail .unsupportedValue
  else if superblock.checkpointDescriptorAreaNumberOfBlocks ≥ 0x80000000 then fail .unsupportedValue
  else if superblock.checkpointDescriptorAreaBlockNumber = 0 then fail .unsupportedValue
  else if maximumNumberOfVolumes > 100 then fail .valueOutOfBounds
  else .ok ()

def readData (data : List UInt8) : Result ContainerSuperblock := do
  if data.length < 1384 ∨ data.length > ssizeMax then fail .valueOutOfBounds
  else do
    let storedChecksum ← loadLittleEndian64 data 0
    let objectTransactionIdentifier ← loadLittleEndian64 data 16
    let objectType ← loadLittleEndian32 data 24
    let objectSubtype ← loadLittleEndian32 data 28
    let signature ← slice data 32 4
    if objectType ≠ 0x80000001 then fail .unsupportedValue
    else if objectSubtype ≠ 0 then fail .unsupportedValue
    else if signature ≠ containerSignature then fail .unsupportedValue
    else do
      let blockSize ← loadLittleEndian32 data 36
      let numberOfBlocks ← loadLittleEndian64 data 40
      let incompatibleFeaturesFlags ← loadLittleEndian64 data 64
      let checkpointDescriptorAreaNumberOfBlocks ← loadLittleEndian32 data 104
      let checkpointDescriptorAreaBlockNumber ← loadLittleEndian64 data 112
      let objectMapBlockNumber ← loadLittleEndian64 data 160
      let maximumNumberOfVolumes ← loadLittleEndian32 data 180
      let (volumeObjectIdentifiers, numberOfVolumes) ← readVolumeObjectIdentifiers data 100 184
      let keyBagBlockNumber ← loadLittleEndian64 data 1296
      let keyBagNumberOfBlocks ← loadLittleEndian64 data 1304
      let calculatedChecksum ← calculateFletcher64 (data.drop 8)
      let superblock : ContainerSuperblock := {
        objectTransactionIdentifier
        blockSize
        numberOfBlocks
        incompatibleFeaturesFlags
        checkpointDescriptorAreaNumberOfBlocks
        checkpointDescriptorAreaBlockNumber := checkpointDescriptorAreaBlockNumber % 2 ^ 32
        objectMapBlockNumber
        volumeObjectIdentifiers
        numberOfVolumes
        keyBagBlockNumber
        keyBagNumberOfBlocks }
      superblock.check storedChecksum calculatedChecksum maximumNumberOfVolumes
      return superblock

theorem readVolumeObjectIdentifiers_counted {data : List UInt8} {remaining dataOffset : Nat} {identifiers : List Nat}
    {numberOfVolumes : Nat}
    (read : readVolumeObjectIdentifiers data remaining dataOffset = .ok (identifiers, numberOfVolumes)) :
    identifiers.length = remaining ∧ numberOfVolumes = identifiers.countP (· ≠ 0) := by
  induction remaining generalizing dataOffset identifiers numberOfVolumes with
  | zero =>
      cases read
      simp
  | succ remaining ih =>
      obtain ⟨identifier, _, read⟩ := bind_eq_ok.mp read
      obtain ⟨⟨rest, number⟩, others, read⟩ := bind_eq_ok.mp read
      obtain ⟨length, counted⟩ := ih others
      cases read
      by_cases zero : identifier = 0
      · simp [zero, length, counted]
      · simp [zero, length, counted]

structure Checked (superblock : ContainerSuperblock) : Prop where
  identifiers : superblock.volumeObjectIdentifiers.length = 100
  counted : superblock.numberOfVolumes = superblock.volumeObjectIdentifiers.countP (· ≠ 0)
  blockSize : superblock.blockSize = 4096
  bounded : superblock.checkpointDescriptorAreaNumberOfBlocks < 2 ^ 31

theorem check_ok {superblock : ContainerSuperblock} {storedChecksum calculatedChecksum maximumNumberOfVolumes : Nat}
    (checked : superblock.check storedChecksum calculatedChecksum maximumNumberOfVolumes = .ok ()) :
    superblock.blockSize = 4096 ∧ superblock.checkpointDescriptorAreaNumberOfBlocks < 2 ^ 31 := by
  unfold check at checked
  split_ifs at checked
  · cases checked
  · cases checked
  · cases checked
  · cases checked
  · cases checked
  · cases checked
  · exact ⟨by omega, by omega⟩

theorem readData_ok {data : List UInt8} {superblock : ContainerSuperblock} (read : readData data = .ok superblock) :
    Checked superblock ∧ 1384 ≤ data.length ∧
      superblock.objectTransactionIdentifier = littleEndian ((data.drop 16).take 8) ∧
      superblock.checkpointDescriptorAreaNumberOfBlocks = littleEndian ((data.drop 104).take 4) ∧
      superblock.checkpointDescriptorAreaBlockNumber = littleEndian ((data.drop 112).take 8) % 2 ^ 32 := by
  unfold readData at read
  split_ifs at read with size
  · cases read
  · have long : 1384 ≤ data.length := by omega
    obtain ⟨_, _, read⟩ := bind_eq_ok.mp read
    obtain ⟨transaction, transactionRead, read⟩ := bind_eq_ok.mp read
    obtain ⟨_, _, read⟩ := bind_eq_ok.mp read
    obtain ⟨_, _, read⟩ := bind_eq_ok.mp read
    obtain ⟨_, _, read⟩ := bind_eq_ok.mp read
    split_ifs at read
    · cases read
    · cases read
    · cases read
    · obtain ⟨_, _, read⟩ := bind_eq_ok.mp read
      obtain ⟨_, _, read⟩ := bind_eq_ok.mp read
      obtain ⟨_, _, read⟩ := bind_eq_ok.mp read
      obtain ⟨number, numberRead, read⟩ := bind_eq_ok.mp read
      obtain ⟨block, blockRead, read⟩ := bind_eq_ok.mp read
      obtain ⟨_, _, read⟩ := bind_eq_ok.mp read
      obtain ⟨_, _, read⟩ := bind_eq_ok.mp read
      obtain ⟨⟨identifiers, numberOfVolumes⟩, identifiersRead, read⟩ := bind_eq_ok.mp read
      obtain ⟨_, _, read⟩ := bind_eq_ok.mp read
      obtain ⟨_, _, read⟩ := bind_eq_ok.mp read
      obtain ⟨_, _, read⟩ := bind_eq_ok.mp read
      obtain ⟨_, checked, read⟩ := bind_eq_ok.mp read
      cases read
      obtain ⟨length, counted⟩ := readVolumeObjectIdentifiers_counted identifiersRead
      obtain ⟨blockSize, bounded⟩ := check_ok checked
      refine ⟨⟨length, counted, blockSize, bounded⟩, long, ?_, ?_, ?_⟩
      · exact Except.ok.inj (transactionRead.symm.trans (loadLittleEndian_ok (by omega)))
      · exact Except.ok.inj (numberRead.symm.trans (loadLittleEndian_ok (by omega)))
      · exact congrArg (· % 2 ^ 32) (Except.ok.inj (blockRead.symm.trans (loadLittleEndian_ok (by omega))))

namespace Sample

def superblockData (transactionIdentifier areaNumberOfBlocks areaBlockNumber : Nat) (identifiers : List Nat) : List UInt8 :=
  let body := littleEndianBytes 8 1 ++ littleEndianBytes 8 transactionIdentifier ++ littleEndianBytes 4 0x80000001 ++
    littleEndianBytes 4 0 ++ containerSignature ++ littleEndianBytes 4 4096 ++
    List.replicate 64 0 ++ littleEndianBytes 4 areaNumberOfBlocks ++ littleEndianBytes 4 0 ++
    littleEndianBytes 8 areaBlockNumber ++ List.replicate 64 0 ++ identifiers.flatMap (littleEndianBytes 8) ++
    List.replicate (4096 - 184 - 8 * identifiers.length) 0
  match calculateFletcher64 body with
  | .ok checksum => littleEndianBytes 8 checksum ++ body
  | .error _ => []

def superblock (transactionIdentifier areaNumberOfBlocks areaBlockNumber : Nat) (identifiers : List Nat) :
    ContainerSuperblock where
  objectTransactionIdentifier := transactionIdentifier
  blockSize := 4096
  numberOfBlocks := 0
  incompatibleFeaturesFlags := 0
  checkpointDescriptorAreaNumberOfBlocks := areaNumberOfBlocks
  checkpointDescriptorAreaBlockNumber := areaBlockNumber
  objectMapBlockNumber := 0
  volumeObjectIdentifiers := identifiers ++ List.replicate (100 - identifiers.length) 0
  numberOfVolumes := identifiers.countP (· ≠ 0)
  keyBagBlockNumber := 0
  keyBagNumberOfBlocks := 0

end Sample

end ContainerSuperblock

end Fsapfs
