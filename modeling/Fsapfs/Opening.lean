import Fsapfs.Btree.Answers
import Fsapfs.Btree.StoredNodes
import Fsapfs.DataBlockVector
import Fsapfs.ObjectFormats
import Fsapfs.EncryptedKeyBags
import Fsapfs.FileEntries.Navigation
import Fsapfs.SnapshotMetadataTree
import Fsapfs.Unlocking

namespace Fsapfs
open Program

section blocks

variable (libfdata : LibfdataElements) (image : Image)

/-- The bytes of some blocks in a row: a block that is not whole ends the file. -/
def Image.bytesOf : Nat → Nat → List UInt8
  | 0, _ => []
  | count + 1, number =>
      if (image number).length = 4096 then image number ++ Image.bytesOf count (number + 1) else image number

def Image.fileIoHandle (size : Nat) : DataStream where
  size
  bytesAt readSize offset :=
    some (((image.bytesOf (readSize / 4096 + 2) (offset / 4096)).drop (offset % 4096)).take readSize)
  fits := by
    intro readSize offset data read
    cases read
    exact List.length_take_le ..

def containerVector (containerSize : Nat) : List Segment := [⟨0, 0, containerSize, false⟩]

def readDataBlock (containerSize elementIndex : Nat) : Result (List UInt8) :=
  match libfdata.elementOf 4096 (containerVector containerSize) elementIndex with
  | none => fail .getFailed
  | some element => image.readBufferAtOffset element.size element.offset

def readNode (containerSize blockNumber : Nat) : Result BtreeNode := do
  let data ← readDataBlock libfdata image containerSize blockNumber
  BtreeNode.readData data

theorem readDataBlock_inside {containerSize elementIndex : Nat} (inside : (elementIndex + 1) * 4096 ≤ containerSize) :
    readDataBlock libfdata image containerSize elementIndex = image.readBufferAtOffset 4096 (elementIndex * 4096) := by
  have found : libfdata.elementOf 4096 (containerVector containerSize) elementIndex =
      some ⟨0, 0 + elementIndex * 4096, min 4096 (containerSize - elementIndex * 4096), false⟩ :=
    libfdata.indexes (by decide) (show elementIndex * 4096 < containerSize by omega)
  rw [readDataBlock, found]
  dsimp only
  rw [Nat.zero_add, Nat.min_eq_left (by omega)]

theorem readDataBlock_returns (containerSize elementIndex : Nat) :
    Returns (readDataBlock libfdata image containerSize elementIndex) := by
  unfold readDataBlock
  split
  · trivial
  · unfold Image.readBufferAtOffset
    dsimp only
    split
    · trivial
    · trivial

/-- The nodes of a container are read as the results on searches and listings take them to be. -/
theorem readNode_parsed (containerSize : Nat) : Parsed (readNode libfdata image containerSize) :=
  BtreeNode.parsed_of_reads (readDataBlock_returns libfdata image containerSize)

def readObjectMapBtree (objectMapBlockNumber : Nat) : Result ObjectMapBtree :=
  if objectMapBlockNumber = 0 then fail .valueMissing
  else do
    let objectMap ← ObjectMap.readFileIoHandle image (objectMapBlockNumber * 4096 % 2 ^ 64)
    if objectMap.btreeBlockNumber = 0 then fail .valueMissing
    else return { rootNodeBlockNumber := objectMap.btreeBlockNumber }

end blocks

/-- A container; its size is the one in the superblock that was read first. -/
structure OpenContainer where
  container : Container
  containerSize : Nat
  checkpointMap : List CheckpointMapEntry
  keyBag : Option ContainerKeyBag

structure OpenVolume where
  superblock : VolumeSuperblock
  objectMapBtree : ObjectMapBtree
  snapshots : List SnapshotMetadata
  volume : Volume

section opening

variable (aesXts : List UInt8 → List UInt8 → AesXts) (libfcache : Libfcache) (libfdata : LibfdataElements)
  (image : Image) (size : Nat)

def IoHandle.ofContainer : IoHandle where
  bytesPerSector := 512
  blockSize := 4096

def OpenContainer.readObjects (containerIdentifier : Bytes 16) (containerSize : Nat) (found : Checkpoint) :
    Result OpenContainer :=
  if found.checkpointMapBlockNumber = 0 then fail .valueMissing
  else do
    let checkpointMap ← CheckpointMap.readFileIoHandle image (found.checkpointMapBlockNumber * 4096 % 2 ^ 64)
    let objectMapBtree ← readObjectMapBtree image found.superblock.val.objectMapBlockNumber
    let keyBag ← readContainerKeyBag aesXts IoHandle.ofContainer (image.fileIoHandle size)
      found.superblock.val.keyBagBlockNumber found.superblock.val.keyBagNumberOfBlocks containerIdentifier
    return {
      container := { superblock := found.superblock.val, objectMapBtree, blockSize := 4096 }
      containerSize
      checkpointMap
      keyBag }

/-- The identifier of the container is that of the superblock that is chosen. -/
def OpenContainer.openRead (containerIdentifier : Bytes 16) : Result OpenContainer := do
  let superblock ← ContainerSuperblock.readFileIoHandle image 0
  if superblock.val.incompatibleFeaturesFlags &&& 0x100 ≠ 0 then fail .unsupportedValue
  else do
    let found ← Checkpoint.scanArea image superblock
    OpenContainer.readObjects aesXts image size containerIdentifier (superblock.val.numberOfBlocks * 4096 % 2 ^ 64) found

namespace OpenVolume

variable (containerSize : Nat)

/-- The snapshots of a volume: a failure is ignored, and the array is left as it is then. -/
def readSnapshots (capacity : Option Nat) (objectMapBtree : ObjectMapBtree) (superblock : VolumeSuperblock) :
    Result (List SnapshotMetadata) :=
  if superblock.snapshotMetadataTreeBlockNumber = 0 then .ok []
  else
    let nodes := readNode libfdata image containerSize
    let listing := SnapshotListing.getSnapshots (SnapshotMetadataTree.cachedNodes nodes) nodes
      superblock.transactionIdentifier
      { tree := .create libfcache objectMapBtree superblock.snapshotMetadataTreeBlockNumber capacity, snapshots := [] }
    match listing.1 with
    | .error .undefined => .error .undefined
    | .error .unfinished => .error .unfinished
    | _ => .ok listing.2.snapshots

/-- A sealed volume is read at its first snapshot, whose superblock has one of two types. -/
def sealedSuperblock (superblock : VolumeSuperblock) (snapshots : List SnapshotMetadata) : Result VolumeSuperblock :=
  if superblock.incompatibleFeaturesFlags &&& 0x20 ≠ 0 then
    match snapshots with
    | [] => .ok superblock
    | snapshot :: _ =>
        match VolumeSuperblock.readFileIoHandle image (snapshot.volumeSuperblockBlockNumber * 4096 % 2 ^ 64) false with
        | .error (.error _) =>
            VolumeSuperblock.readFileIoHandle image (snapshot.volumeSuperblockBlockNumber * 4096 % 2 ^ 64) true
        | read => read
  else .ok superblock

def openRead (capacity : Option Nat) (containerKeyBag : Option ContainerKeyBag) (fileOffset : Nat) :
    Result OpenVolume := do
  let superblock ← VolumeSuperblock.readFileIoHandle image fileOffset false
  let objectMapBtree ← readObjectMapBtree image superblock.objectMapBlockNumber
  let volume ← Volume.openKeyBag aesXts IoHandle.ofContainer (image.fileIoHandle size) containerKeyBag superblock.volumeFlags
    superblock.volumeIdentifier
  let snapshots ← readSnapshots libfcache libfdata image containerSize capacity objectMapBtree superblock
  let superblock ← sealedSuperblock image superblock snapshots
  if superblock.fileSystemRootObjectIdentifier = 0 then fail .valueOutOfBounds
  else return { superblock, objectMapBtree, snapshots, volume }

def onVolume {α : Type} (call : Volume.VolumeCall α) : Call ErrorCode OpenVolume α := fun opened =>
  ((call opened.volume).1, { opened with volume := (call opened.volume).2 })

/-- The file system of a volume whose blocks are not encrypted. -/
def getFileSystem (ciphers : Ciphers) (memory : Memory) : Call ErrorCode OpenVolume OpenFileSystem := do
  let opened ← Call.self
  let _ ← onVolume (if opened.volume.isLocked then Volume.unlockInternal ciphers memory else pure 1)
  let descriptor ← Call.lift (ObjectMapBtree.getDescriptorByObjectIdentifier (readNode libfdata image containerSize)
    opened.objectMapBtree opened.superblock.fileSystemRootObjectIdentifier opened.superblock.transactionIdentifier)
  match descriptor with
  | none => Call.lift (fail .getFailed)
  | some descriptor =>
      return {
        btree := {
          objectMapBtree := opened.objectMapBtree
          rootNodeBlockNumber := descriptor.physicalAddress
          rootNodeObjectIdentifier := opened.superblock.fileSystemRootObjectIdentifier
          branchChildOidEncoding := .unknown
          useCaseFolding := opened.superblock.incompatibleFeaturesFlags &&& 1 ≠ 0 }
        fileEntries := [] }

end OpenVolume

namespace OpenContainer

def getVolumeByIndex (capacity : Option Nat) (opened : OpenContainer) (volumeIndex : Int) : Result OpenVolume :=
  Container.getVolumeByIndex (readNode libfdata image opened.containerSize)
    (OpenVolume.openRead aesXts libfcache libfdata image size opened.containerSize capacity opened.keyBag)
    opened.container volumeIndex

end OpenContainer

end opening

namespace ObjectMapBtree

variable {nodes : Nat → Result BtreeNode} {btree : ObjectMapBtree} {height objectIdentifier transactionIdentifier : Nat}
  {tree : SearchTree BtreeEntry height} {entries : List BtreeEntry} {entry entry' : BtreeEntry}

theorem Latest.unique (increasing : entries.Pairwise keyLess)
    (latest : Latest objectIdentifier transactionIdentifier entries entry)
    (latest' : Latest objectIdentifier transactionIdentifier entries entry') : entry = entry' := by
  have at_most := latest'.2.2.2 entry latest.1 latest.2.1 latest.2.2.1
  have at_least := latest.2.2.2 entry' latest'.1 latest'.2.1 latest'.2.2.1
  have same := latest.2.1.trans latest'.2.1.symm
  have unordered : ∀ a b, ¬(keyLess a b ∧ (entryKey a).1 = (entryKey b).1 ∧ (entryKey b).2 ≤ (entryKey a).2) := by
    intro a b both
    simp only [keyLess] at both
    omega
  by_contra other
  rcases List.mem_iff_append.mp latest.1 with ⟨before, after, rfl⟩
  obtain ⟨_, rest, across⟩ := List.pairwise_append.mp increasing
  rcases List.mem_append.mp latest'.1 with earlier | later
  · exact unordered entry' entry ⟨across entry' earlier entry List.mem_cons_self, same.symm, at_most⟩
  · rcases List.mem_cons.mp later with rfl | later
    · exact other rfl
    · exact unordered entry entry' ⟨(List.pairwise_cons.mp rest).1 entry' later, same, at_least⟩

theorem Latest.descriptor (latest : Latest objectIdentifier transactionIdentifier tree.items entry)
    (stores : Stores nodes btree tree) (limited : height ≤ maximumBtreeNodeRecursionDepth)
    (nonzero : objectIdentifier ≠ 0) :
    getDescriptorByObjectIdentifier nodes btree objectIdentifier transactionIdentifier =
      .ok (some (descriptorOf entry)) := by
  obtain ⟨root, rooted, stored⟩ := stores.rooted
  have found : getEntryUnderNode nodes objectIdentifier transactionIdentifier (maximumBtreeNodeRecursionDepth + 1) root =
      _ :=
    getEntryUnderNode_ok nonzero (Nat.lt_succ_of_le limited) stored stores.headed stores.increasing
  rw [getDescriptorByObjectIdentifier, getEntryByIdentifier, rooted, ok_bind, found, ok_bind]
  rcases lastWhile_latest objectIdentifier transactionIdentifier stores.increasing with
    ⟨entry', last, same, latest'⟩ | ⟨_, absent⟩
  · obtain rfl := latest.unique stores.increasing latest'
    have sized := (stored.forall_mem fun _ _ (leaf : (layout nodes).leaf _ _) => leaf.2.2) entry latest.1
    rw [last, Option.filter_some, if_pos (by simpa using same)]
    simp only [Option.map_some]
    rw [readDescriptor_ok sized.1 sized.2]
    rfl
  · exact absurd (absent entry latest.1 latest.2.1) (Nat.not_lt.mpr latest.2.2.1)

end ObjectMapBtree

/-- What an image holds of a volume: the superblock that is read first, the last block that the scan of the checkpoint
area reads, and the trees with the entries that lead to the volume and to its file system. -/
structure Commit where
  start : ContainerSuperblock.Stored
  last : Nat
  mapEntries : List CheckpointMapEntry
  containerObjectMap : ObjectMapBtree
  keyBag : Option ContainerKeyBag
  volumeIndex : Nat
  volumeObjectIdentifier : Nat
  volumesHeight : Nat
  volumes : SearchTree BtreeEntry volumesHeight
  volumeEntry : BtreeEntry
  superblock : VolumeSuperblock
  volumeObjectMap : ObjectMapBtree
  snapshots : List SnapshotMetadata
  effective : VolumeSuperblock
  objectsHeight : Nat
  objects : SearchTree BtreeEntry objectsHeight
  rootEntry : BtreeEntry
  encoding : BranchChildOidEncoding
  rest : List UInt8 → List UInt8 → Prop
  height : Nat
  tree : SearchTree BtreeEntry height

namespace Commit

variable (commit : Commit)

def containerSize : Nat := commit.start.val.numberOfBlocks * 4096 % 2 ^ 64

def newest (image : Image) : ContainerSuperblock :=
  (Checkpoint.latest image commit.start (commit.last + 1)).val

def found (image : Image) : Checkpoint := Checkpoint.foundAfter image commit.start (commit.last + 1)

def volumeOffset : Nat := (ObjectMapBtree.descriptorOf commit.volumeEntry).physicalAddress * 4096 % 2 ^ 64

def btree : FileSystemBtree where
  objectMapBtree := commit.volumeObjectMap
  rootNodeBlockNumber := (ObjectMapBtree.descriptorOf commit.rootEntry).physicalAddress
  rootNodeObjectIdentifier := commit.effective.fileSystemRootObjectIdentifier
  branchChildOidEncoding := .unknown
  useCaseFolding := commit.effective.incompatibleFeaturesFlags &&& 1 ≠ 0

variable (aesXts : List UInt8 → List UInt8 → AesXts) (libfcache : Libfcache) (libfdata : LibfdataElements)
  (image : Image) (size : Nat) (containerIdentifier : Bytes 16) (capacity : Option Nat)

/-- The scan ends with a block, which is one behind the area of the newest superblock or a later one, and that superblock
leads to the volumes. -/
structure OfContainer : Prop where
  first : ContainerSuperblock.readFileIoHandle image 0 = .ok commit.start
  single : commit.start.val.incompatibleFeaturesFlags &&& 0x100 = 0
  reached : Checkpoint.Reached image commit.start commit.last
  readable : Checkpoint.Readable image (Checkpoint.number commit.start commit.last)
  stops : (commit.newest image).checkpointDescriptorAreaNumberOfBlocks ≤ commit.last
  mapped : (commit.found image).checkpointMapBlockNumber ≠ 0
  checkpointMap : CheckpointMap.readFileIoHandle image ((commit.found image).checkpointMapBlockNumber * 4096 % 2 ^ 64) =
    .ok commit.mapEntries
  objectMap : readObjectMapBtree image (commit.newest image).objectMapBlockNumber = .ok commit.containerObjectMap
  keyBag : readContainerKeyBag aesXts IoHandle.ofContainer (image.fileIoHandle size) (commit.newest image).keyBagBlockNumber
    (commit.newest image).keyBagNumberOfBlocks containerIdentifier = .ok commit.keyBag
  index : commit.volumeIndex < (commit.newest image).numberOfVolumes
  identifier : (commit.newest image).volumeObjectIdentifiers[commit.volumeIndex]? = some commit.volumeObjectIdentifier
  volumes : ObjectMapBtree.Stores (readNode libfdata image commit.containerSize) commit.containerObjectMap commit.volumes
  volumesLimited : commit.volumesHeight ≤ maximumBtreeNodeRecursionDepth
  nonzero : commit.volumeObjectIdentifier ≠ 0
  latest : ObjectMapBtree.Latest commit.volumeObjectIdentifier (commit.newest image).objectTransactionIdentifier
    commit.volumes.items commit.volumeEntry

/-- The volume is not encrypted, and its file system is a tree at the transaction of its superblock; a sealed one has
the superblock of its first snapshot instead. -/
structure OfVolume : Prop where
  superblock : VolumeSuperblock.readFileIoHandle image commit.volumeOffset false = .ok commit.superblock
  objectMap : readObjectMapBtree image commit.superblock.objectMapBlockNumber = .ok commit.volumeObjectMap
  unencrypted : commit.keyBag = none ∨ commit.superblock.volumeFlags &&& 1 ≠ 0
  snapshots : OpenVolume.readSnapshots libfcache libfdata image commit.containerSize capacity commit.volumeObjectMap
    commit.superblock = .ok commit.snapshots
  effective : OpenVolume.sealedSuperblock image commit.superblock commit.snapshots = .ok commit.effective
  rooted : commit.effective.fileSystemRootObjectIdentifier ≠ 0
  objects : ObjectMapBtree.Stores (readNode libfdata image commit.containerSize) commit.volumeObjectMap commit.objects
  objectsLimited : commit.objectsHeight ≤ maximumBtreeNodeRecursionDepth
  latest : ObjectMapBtree.Latest commit.effective.fileSystemRootObjectIdentifier commit.effective.transactionIdentifier
    commit.objects.items commit.rootEntry
  hierarchy : OpenFileSystem.StoresHierarchy (readNode libfdata image commit.containerSize) commit.btree
    commit.effective.transactionIdentifier commit.encoding commit.rest commit.tree

def container : OpenContainer where
  container :=
    { superblock := commit.newest image, objectMapBtree := commit.containerObjectMap, blockSize := 4096 }
  containerSize := commit.containerSize
  checkpointMap := commit.mapEntries
  keyBag := commit.keyBag

def volume : OpenVolume where
  superblock := commit.effective
  objectMapBtree := commit.volumeObjectMap
  snapshots := commit.snapshots
  volume := Volume.opened commit.keyBag commit.superblock.volumeIdentifier false

variable {commit aesXts libfcache libfdata image size containerIdentifier capacity}

theorem OfContainer.openRead (of : commit.OfContainer aesXts libfdata image size containerIdentifier) :
    OpenContainer.openRead aesXts image size containerIdentifier = .ok (commit.container image) := by
  have scan : Checkpoint.scanArea image commit.start = .ok (commit.found image) :=
    Checkpoint.scanArea_completes of.reached of.readable of.stops
  have chosen : (commit.found image).superblock.val = commit.newest image := rfl
  rw [OpenContainer.openRead, of.first, ok_bind, if_neg (not_not_intro of.single), scan, ok_bind,
    OpenContainer.readObjects, if_neg of.mapped, of.checkpointMap, ok_bind, chosen, of.objectMap, ok_bind, of.keyBag,
    ok_bind]
  rfl

theorem openKeyBag_unencrypted {fileIoHandle : DataStream} {keyBag : Option ContainerKeyBag} {volumeFlags : Nat}
    {volumeIdentifier : Bytes 16} (unencrypted : keyBag = none ∨ volumeFlags &&& 1 ≠ 0) :
    Volume.openKeyBag aesXts IoHandle.ofContainer fileIoHandle keyBag volumeFlags volumeIdentifier =
      .ok (Volume.opened keyBag volumeIdentifier false) := by
  cases keyBag with
  | none => rfl
  | some keyBag => exact if_pos (unencrypted.resolve_left (Option.some_ne_none keyBag))

theorem OfVolume.openRead (of : commit.OfVolume libfcache libfdata image capacity) :
    OpenVolume.openRead aesXts libfcache libfdata image size commit.containerSize capacity commit.keyBag
        commit.volumeOffset =
      .ok commit.volume := by
  rw [OpenVolume.openRead, of.superblock, ok_bind, of.objectMap, ok_bind, openKeyBag_unencrypted of.unencrypted,
    ok_bind, of.snapshots, ok_bind, of.effective, ok_bind, if_neg of.rooted]
  rfl

theorem getVolumeByIndex (ofContainer : commit.OfContainer aesXts libfdata image size containerIdentifier)
    (ofVolume : commit.OfVolume libfcache libfdata image capacity) :
    (commit.container image).getVolumeByIndex aesXts libfcache libfdata image size capacity commit.volumeIndex = .ok commit.volume := by
  have index := ofContainer.index
  have identifier : Container.volumeObjectIdentifier (commit.container image).container commit.volumeIndex =
      .ok commit.volumeObjectIdentifier := by
    rw [Container.volumeObjectIdentifier, if_neg]
    · rw [Int.toNat_natCast, load, show (commit.container image).container.superblock.volumeObjectIdentifiers[_]? = _
        from ofContainer.identifier]
    · change ¬((commit.volumeIndex : Int) < 0 ∨ (commit.volumeIndex : Int) ≥ ((commit.newest image).numberOfVolumes : Int))
      omega
  have descriptor : ObjectMapBtree.getDescriptorByObjectIdentifier (readNode libfdata image commit.containerSize)
      commit.containerObjectMap commit.volumeObjectIdentifier (commit.newest image).objectTransactionIdentifier =
      .ok (some (ObjectMapBtree.descriptorOf commit.volumeEntry)) :=
    ofContainer.latest.descriptor ofContainer.volumes ofContainer.volumesLimited ofContainer.nonzero
  rw [OpenContainer.getVolumeByIndex, Container.getVolumeByIndex, identifier, ok_bind, Container.openVolume]
  simp only [container, descriptor, ok_bind]
  exact ofVolume.openRead

theorem OfVolume.getFileSystem (of : commit.OfVolume libfcache libfdata image capacity) (ciphers : Ciphers) (memory : Memory) :
    OpenVolume.getFileSystem libfdata image commit.containerSize ciphers memory commit.volume =
      (.ok { btree := commit.btree, fileEntries := [] }, commit.volume) := by
  have descriptor : ObjectMapBtree.getDescriptorByObjectIdentifier (readNode libfdata image commit.containerSize)
      commit.volume.objectMapBtree commit.volume.superblock.fileSystemRootObjectIdentifier
      commit.volume.superblock.transactionIdentifier = .ok (some (ObjectMapBtree.descriptorOf commit.rootEntry)) :=
    of.latest.descriptor of.objects of.objectsLimited of.rooted
  have unlocked : OpenVolume.onVolume (if commit.volume.volume.isLocked then Volume.unlockInternal ciphers memory
      else pure 1) commit.volume = (.ok 1, commit.volume) := rfl
  rw [OpenVolume.getFileSystem, Call.self_bind, Call.bind_of_ok unlocked, Call.lift_bind_of_ok descriptor]
  rfl

end Commit

namespace Commit.Sample
open FileSystemBtree.Sample (rootNode subNode leadingEntry inodeEntry directoryEntry firstLeaf secondLeaf directoryTree)

@[irreducible]
def background : List UInt8 := List.replicate 4096 0

theorem background_length : background.length = 4096 := by
  rw [background, List.length_replicate]

theorem background_hasAt {offset size : Nat} (inside : offset + size ≤ 4096) :
    HasAt background offset (List.replicate size 0) := by
  refine ⟨List.replicate offset 0, List.replicate (4096 - (offset + size)) 0, ?_, List.length_replicate⟩
  rw [background, List.replicate_append_replicate, List.replicate_append_replicate, Nat.add_sub_cancel' inside]

def superblock (transactionIdentifier objectMapBlockNumber : Nat) : ContainerSuperblock where
  objectTransactionIdentifier := transactionIdentifier
  blockSize := 4096
  numberOfBlocks := 16
  incompatibleFeaturesFlags := 0
  checkpointDescriptorAreaNumberOfBlocks := 2
  checkpointDescriptorAreaBlockNumber := 1
  objectMapBlockNumber
  volumeObjectIdentifiers := 1026 :: List.replicate 99 0
  numberOfVolumes := 1
  keyBagBlockNumber := 0
  keyBagNumberOfBlocks := 0

def volumeSuperblock : VolumeSuperblock where
  transactionIdentifier := 7
  compatibleFeaturesFlags := 0
  readOnlyCompatibleFeaturesFlags := 0
  incompatibleFeaturesFlags := 0
  objectMapBlockNumber := 8
  fileSystemRootObjectIdentifier := 1028
  extentReferenceTreeBlockNumber := 0
  snapshotMetadataTreeBlockNumber := 0
  nextFileSystemObjectIdentifier := 0
  volumeIdentifier := Bytes.zero 16
  volumeFlags := 1
  volumeName := Bytes.zero 256
  sealedExtentTreeRootNodeObjectIdentifier := 0
  sealedExtentTreeRootNodeBlockNumber := 0

def volumeObjectMap (btreeBlockNumber : Nat) : ObjectMap where
  numberOfSnapshots := 0
  btreeBlockNumber
  snapshotsBtreeBlockNumber := 0
  mostRecentSnapshotIdentifier := 0

def containerData (transactionIdentifier objectMapBlockNumber : Nat) : List UInt8 :=
  ContainerSuperblock.format.write (superblock transactionIdentifier objectMapBlockNumber) background

def transactionData (transactionIdentifier : Nat) : List UInt8 :=
  overwrite background 16 (littleEndianBytes 8 transactionIdentifier)

theorem transactionData_length (transactionIdentifier : Nat) : (transactionData transactionIdentifier).length = 4096 := by
  rw [transactionData, overwrite_length (by rw [background_length, littleEndianBytes_length]; decide), background_length]

def mapData (transactionIdentifier : Nat) : List UInt8 :=
  CheckpointMap.format.write [] (transactionData transactionIdentifier)

def objectMapData (btreeBlockNumber : Nat) : List UInt8 :=
  ObjectMap.format.write (volumeObjectMap btreeBlockNumber) background

def volumeData : List UInt8 := (VolumeSuperblock.format false).write volumeSuperblock background

def storedNode (node : BtreeNode) (unused : Nat) : StoredNode where
  identifiers := Bytes.zero 24
  objectType := node.objectType
  objectSubtype := node.objectSubtype
  flags := node.flags
  level := node.level
  entries := node.entries
  unusedTable := []
  unusedData := List.replicate unused 0
  freeLists := Bytes.zero 8
  footer := node.footer.getD { nodeSize := 0, keySize := 0, valueSize := 0 }
  footerFlags := Bytes.zero 4
  footerValues := Bytes.zero 24

def objectMapRoot (entries : List BtreeEntry) : BtreeNode :=
  { objectType := 0x40000002
    objectSubtype := 0x0000000b
    flags := 7
    level := 0
    footer := some { nodeSize := 4096, keySize := 16, valueSize := 16 }
    entries }

/-- The volume has three versions, the last one of a transaction that has no superblock. -/
def volumes : List BtreeEntry :=
  [ObjectMapBtree.Sample.entry 1026 5 13, ObjectMapBtree.Sample.entry 1026 7 7, ObjectMapBtree.Sample.entry 1026 9 14]

def objects : List BtreeEntry :=
  [ObjectMapBtree.Sample.entry 7 6 11, ObjectMapBtree.Sample.entry 8 7 12, ObjectMapBtree.Sample.entry 1028 7 10]

def directoryRoot : BtreeNode :=
  rootNode 1 1 [leadingEntry (inodeEntry 2) 7, leadingEntry (directoryEntry 2 [98, 0] 6) 8]

/-- Block 2 holds a newer superblock than block 0. -/
def image : Image
  | 0 => containerData 5 4
  | 1 => mapData 5
  | 2 => containerData 7 5
  | 3 => mapData 7
  | 5 => objectMapData 6
  | 6 => (storedNode (objectMapRoot volumes) 3892).encode
  | 7 => volumeData
  | 8 => objectMapData 9
  | 9 => (storedNode (objectMapRoot objects) 3892).encode
  | 10 => (storedNode directoryRoot 3948).encode
  | 11 => (storedNode (subNode 2 0 firstLeaf) 3869).encode
  | 12 => (storedNode (subNode 2 0 secondLeaf) 3894).encode
  | _ => []

variable {node : BtreeNode} {unused : Nat}

theorem storedNode_length : (storedNode node unused).encode.length =
    56 + (storedNode node 0).table.length + (StoredNode.keysOf node.entries).length + unused +
      (StoredNode.valuesOf node.entries).length + if (storedNode node 0).isRoot then 40 else 0 := by
  have space : (storedNode node unused).unusedData.length = unused := List.length_replicate
  rw [StoredNode.encode_length, space]
  rfl

theorem storedNode_room : (storedNode node unused).HasRoom ↔
    (if (storedNode node 0).isRoot then 0 else 40) < unused + (StoredNode.valuesOf node.entries).length := by
  have space : (storedNode node unused).unusedData.length = unused := List.length_replicate
  rw [StoredNode.HasRoom, space]
  rfl

theorem readNode_stored {number : Nat} (there : image number = (storedNode node unused).encode)
    (sized : (storedNode node unused).encode.length = 4096) (inside : number < 16)
    (wellFormed : (storedNode node unused).WellFormed) (room : (storedNode node unused).HasRoom) :
    readNode .inOrder image 65536 number = .ok (storedNode node unused).node := by
  have read : readDataBlock .inOrder image 65536 number = .ok (storedNode node unused).encode := by
    rw [readDataBlock_inside _ _ (by omega), Image.whole_block_read there sized]
  rw [readNode, read, ok_bind, StoredNode.readData_room wellFormed room]

theorem superblock_storable {transactionIdentifier objectMapBlockNumber : Nat} (small : transactionIdentifier < 2 ^ 64)
    (small' : objectMapBlockNumber < 2 ^ 64) :
    ContainerSuperblock.Storable background (superblock transactionIdentifier objectMapBlockNumber) where
  size := by simp [background_length, ssizeMax]
  fits :=
    { transaction := small
      blockSize := rfl
      numberOfBlocks := by simp [superblock]
      incompatible := by simp [superblock]
      areaNumberOfBlocks := by simp [superblock]
      areaBlockNumber := by simp [superblock]
      objectMap := small'
      identifiers := by simp [superblock]
      numberOfVolumes := by simp [superblock]
      keyBag := by simp [superblock] }
  maximum := by
    have inside : 180 + 4 ≤ 4096 := by decide
    exact ⟨0, Nat.zero_le 100, background_hasAt inside⟩

theorem container_read {transactionIdentifier objectMapBlockNumber : Nat} (small : transactionIdentifier < 2 ^ 64)
    (small' : objectMapBlockNumber < 2 ^ 64) :
    ContainerSuperblock.readData (containerData transactionIdentifier objectMapBlockNumber) =
      .ok (superblock transactionIdentifier objectMapBlockNumber) := by
  have storable : ContainerSuperblock.format.Storable background (superblock transactionIdentifier objectMapBlockNumber) :=
    superblock_storable small small'
  have read := ContainerSuperblock.format_reads.exact.roundTrip storable
  have same : ContainerSuperblock.format.readData = ContainerSuperblock.readData := rfl
  rw [same] at read
  exact read

theorem first_read : ContainerSuperblock.readData (containerData 5 4) = .ok (superblock 5 4) :=
  @container_read 5 4 (by decide) (by decide)

theorem second_read : ContainerSuperblock.readData (containerData 7 5) = .ok (superblock 7 5) :=
  @container_read 7 5 (by decide) (by decide)

def start : ContainerSuperblock.Stored := ⟨superblock 5 4, (ContainerSuperblock.readData_ok first_read).1⟩

def newer : ContainerSuperblock.Stored := ⟨superblock 7 5, (ContainerSuperblock.readData_ok second_read).1⟩

theorem containerData_length {transactionIdentifier objectMapBlockNumber : Nat}
    (small : transactionIdentifier < 2 ^ 64) (small' : objectMapBlockNumber < 2 ^ 64) :
    (containerData transactionIdentifier objectMapBlockNumber).length = 4096 :=
  (ObjectFormat.write_length (ContainerSuperblock.format_reads.spaced (superblock_storable small small'))).trans
    background_length

theorem first_stored : ContainerSuperblock.readFileIoHandle image 0 = .ok start :=
  @ContainerSuperblock.readFileIoHandle_stored image 0 (containerData 5 4) start rfl (containerData_length (by decide) (by decide)) first_read

theorem second_stored : ContainerSuperblock.readFileIoHandle image (2 * 4096) = .ok newer :=
  @ContainerSuperblock.readFileIoHandle_stored image 2 (containerData 7 5) newer rfl (containerData_length (by decide) (by decide)) second_read

theorem objectAt_of_has {image : Image} {number type transactionIdentifier : Nat} {data : List UInt8}
    (there : image number = data) (sized : data.length = 4096)
    (transaction : HasAt data 16 (littleEndianBytes 8 transactionIdentifier)) (small : transactionIdentifier < 2 ^ 64)
    (typed : HasAt data 24 (littleEndianBytes 4 type)) (small' : type < 2 ^ 32) :
    Checkpoint.objectAt image number = some (type, transactionIdentifier) := by
  have header : (data.take 32).length = 32 := by rw [List.length_take, sized]; rfl
  have stored : image.readBufferAtOffset 32 (number * 4096) = .ok (data.take 32) :=
    Image.block_read there sized (by decide)
  have identifierRead : loadLittleEndian 8 (data.take 32) 8 = _ := loadLittleEndian_ok (by omega)
  have transactionRead : loadLittleEndian 8 (data.take 32) 16 = .ok transactionIdentifier :=
    loadLittleEndian_of_hasAt (transaction.take (by rw [littleEndianBytes_length]; decide)) small
  have typeRead : loadLittleEndian 4 (data.take 32) 24 = .ok type :=
    loadLittleEndian_of_hasAt (typed.take (by rw [littleEndianBytes_length]; decide)) small'
  have subtypeRead : loadLittleEndian 4 (data.take 32) 28 = _ := loadLittleEndian_ok (by omega)
  unfold Checkpoint.objectAt
  rw [Object.readFileIoHandle, stored, ok_bind, Object.readData, if_neg (by simp [header, ssizeMax])]
  simp only [loadLittleEndian64, loadLittleEndian32, identifierRead, transactionRead, typeRead, subtypeRead, ok_bind]
  rfl

theorem container_objectAt : Checkpoint.objectAt image 2 = some (Checkpoint.superblockType, 7) := by
  have has := (ContainerSuperblock.readData_iff.mp second_read).2.2
  have there : image 2 = containerData 7 5 := rfl
  have sized : (containerData 7 5).length = 4096 := containerData_length (by decide) (by decide)
  have transaction : HasAt (containerData 7 5) 16 (littleEndianBytes 8 7) := has (16, littleEndianBytes 8 7) (by
    simp [ContainerSuperblock.fields, superblock])
  have typed : HasAt (containerData 7 5) 24 (littleEndianBytes 4 0x80000001) := has (24, littleEndianBytes 4 0x80000001) (by
    simp [ContainerSuperblock.fields])
  exact objectAt_of_has there sized transaction (by decide) typed (by decide)

theorem map_storable (transactionIdentifier : Nat) :
    CheckpointMap.format.Storable (transactionData transactionIdentifier) [] := by
  have sized := transactionData_length transactionIdentifier
  refine CheckpointMap.Storable.mk ⟨?_, ?_, ?_⟩ (Nat.zero_le _) (fun _ member => absurd member List.not_mem_nil)
  · rw [sized]
    decide
  · rw [sized]
    decide
  · rw [sized]

theorem mapData_length (transactionIdentifier : Nat) : (mapData transactionIdentifier).length = 4096 :=
  (ObjectFormat.write_length (CheckpointMap.format_reads.spaced (map_storable transactionIdentifier))).trans
    (transactionData_length transactionIdentifier)

theorem map_read (transactionIdentifier : Nat) : CheckpointMap.readData (mapData transactionIdentifier) = .ok [] := by
  have read := CheckpointMap.format_reads.exact.roundTrip (map_storable transactionIdentifier)
  have same : CheckpointMap.format.readData = CheckpointMap.readData := rfl
  rw [same] at read
  exact read

theorem map_objectAt {number transactionIdentifier : Nat} (there : image number = mapData transactionIdentifier)
    (small : transactionIdentifier < 2 ^ 64) :
    Checkpoint.objectAt image number = some (Checkpoint.checkpointMapType, transactionIdentifier) := by
  have spaced := CheckpointMap.format_reads.spaced (map_storable transactionIdentifier)
  have has : HasAt (transactionData transactionIdentifier) 16 (littleEndianBytes 8 transactionIdentifier) :=
    hasAt_overwrite (by rw [background_length]; decide)
  have transaction : HasAt (mapData transactionIdentifier) 16 (littleEndianBytes 8 transactionIdentifier) := by
    refine ObjectFormat.write_hasAt (has.overwriteAll spaced ?_) (by decide)
    simp [CheckpointMap.format, CheckpointMap.fields, CheckpointMap.entryFields, Apart]
  have fields := (CheckpointMap.readData_iff.mp (map_read transactionIdentifier)).2.2
  have typed : HasAt (mapData transactionIdentifier) 24 (littleEndianBytes 4 0x4000000c) :=
    fields (24, littleEndianBytes 4 0x4000000c) List.mem_cons_self
  exact objectAt_of_has there (mapData_length transactionIdentifier) transaction small typed (by decide)

theorem map_stored : CheckpointMap.readFileIoHandle image (3 * 4096) = .ok [] := by
  have there : image 3 = mapData 7 := rfl
  rw [CheckpointMap.readFileIoHandle, Image.whole_block_read there (mapData_length 7), ok_bind, map_read]

theorem objectMap_stored {number btreeBlockNumber : Nat} (there : image number = objectMapData btreeBlockNumber)
    (small : btreeBlockNumber < 2 ^ 64) :
    ObjectMap.readFileIoHandle image (number * 4096) = .ok (volumeObjectMap btreeBlockNumber) := by
  have fits : (volumeObjectMap btreeBlockNumber).Fits := ⟨Nat.two_pow_pos 32, small, Nat.two_pow_pos 64, Nat.two_pow_pos 64⟩
  have storable : ObjectMap.format.Storable background (volumeObjectMap btreeBlockNumber) := by
    refine ⟨⟨?_, ?_⟩, fits⟩
    all_goals
      rw [background_length]
      decide
  have spaced := ObjectMap.format_reads.spaced storable
  have sized : (objectMapData btreeBlockNumber).length = 4096 :=
    (ObjectFormat.write_length spaced).trans background_length
  have header : ((objectMapData btreeBlockNumber).take 88).length = 88 := by rw [List.length_take, sized]; rfl
  have has : HasAll (objectMapData btreeBlockNumber) (ObjectMap.fields (volumeObjectMap btreeBlockNumber)) :=
    hasAll_overwriteAll spaced
  rw [ObjectMap.readFileIoHandle, Image.block_read there sized (by decide), ok_bind]
  refine ObjectMap.readData_iff.mpr ⟨?_, fits, fun field member => (has field member).take ?_⟩
  · rw [header]
    decide
  · simp only [ObjectMap.fields, List.mem_cons, List.not_mem_nil, or_false] at member
    rcases member with rfl | rfl | rfl | rfl | rfl | rfl
    all_goals simp

theorem volume_storable : (VolumeSuperblock.format false).Storable background volumeSuperblock := by
  have fits : volumeSuperblock.Fits := by
    constructor
    all_goals decide
  refine VolumeSuperblock.Storable.mk ⟨?_, ?_, ?_⟩ (by decide) fits (fun _ => ⟨rfl, rfl⟩)
  · rw [background_length]
    decide
  · rw [background_length]
    decide
  · rw [background_length]

theorem volume_stored : VolumeSuperblock.readFileIoHandle image (7 * 4096) false = .ok volumeSuperblock := by
  have there : image 7 = volumeData := rfl
  have sized : volumeData.length = 4096 :=
    (ObjectFormat.write_length ((VolumeSuperblock.format_reads false).spaced volume_storable)).trans background_length
  have read := (VolumeSuperblock.format_reads false).exact.roundTrip volume_storable
  have same : (VolumeSuperblock.format false).readData = fun data => VolumeSuperblock.readData data false := rfl
  rw [same] at read
  rw [VolumeSuperblock.readFileIoHandle, Image.whole_block_read there sized, ok_bind]
  exact read

theorem objects_at : Checkpoint.objectAt image 1 = some (Checkpoint.checkpointMapType, 5) ∧
    Checkpoint.objectAt image 2 = some (Checkpoint.superblockType, 7) ∧
    Checkpoint.objectAt image 3 = some (Checkpoint.checkpointMapType, 7) :=
  ⟨map_objectAt rfl (by decide), container_objectAt, map_objectAt rfl (by decide)⟩

theorem stored_at : Checkpoint.storedAt image 1 = none ∧ Checkpoint.storedAt image 2 = some newer ∧
    Checkpoint.storedAt image 3 = none := by
  refine ⟨Checkpoint.storedAt_none objects_at.1 (by decide), ?_, Checkpoint.storedAt_none objects_at.2.2 (by decide)⟩
  rw [Checkpoint.storedAt_superblock objects_at.2.1, second_stored]
  rfl

theorem readable : Checkpoint.Readable image 1 ∧ Checkpoint.Readable image 2 ∧ Checkpoint.Readable image 3 := by
  refine ⟨⟨_, _, objects_at.1, fun type => ?_⟩, ⟨_, _, objects_at.2.1, fun _ => ?_⟩,
    ⟨_, _, objects_at.2.2, fun type => ?_⟩⟩
  · exact absurd type (by decide)
  · rw [stored_at.2.1]
    rfl
  · exact absurd type (by decide)

theorem latest_one : Checkpoint.latest image start 1 = start := by
  rw [Checkpoint.latest_succ, show Checkpoint.storedAt image (Checkpoint.number start 0) = none from stored_at.1]
  rfl

theorem latest_two : Checkpoint.latest image start 2 = newer := by
  rw [Checkpoint.latest_succ, show Checkpoint.storedAt image (Checkpoint.number start 1) = some newer from stored_at.2.1,
    latest_one]
  rfl

theorem latest_three : Checkpoint.latest image start 3 = newer := by
  rw [Checkpoint.latest_succ, show Checkpoint.storedAt image (Checkpoint.number start 2) = none from stored_at.2.2,
    latest_two]

theorem reached : Checkpoint.Reached image start 2 := by
  intro index less
  have cases : index = 0 ∨ index = 1 := by omega
  rcases cases with rfl | rfl
  · refine ⟨readable.1, ?_⟩
    rw [latest_one]
    exact Nat.two_pos
  · refine ⟨readable.2.1, ?_⟩
    rw [latest_two]
    exact Nat.one_lt_two

theorem newestMap_three : Checkpoint.newestMap image start 3 = some (2, 7) := by
  have first : Checkpoint.mapAt image (Checkpoint.number start 0) = some 5 :=
    Checkpoint.mapAt_some objects_at.1 rfl (by decide)
  have second : Checkpoint.mapAt image (Checkpoint.number start 1) = none :=
    Checkpoint.mapAt_none objects_at.2.1 fun same => absurd same (by decide)
  have third : Checkpoint.mapAt image (Checkpoint.number start 2) = some 7 :=
    Checkpoint.mapAt_some objects_at.2.2 rfl (by decide)
  have maps : Checkpoint.maps image start 3 = [(0, 5), (2, 7)] := by
    rw [Checkpoint.maps_succ, Checkpoint.maps_succ, Checkpoint.maps_succ, first, second, third]
    rfl
  rw [Checkpoint.newestMap, maps]
  decide

def commit : Commit where
  start := start
  last := 2
  mapEntries := []
  containerObjectMap := { rootNodeBlockNumber := 6 }
  keyBag := none
  volumeIndex := 0
  volumeObjectIdentifier := 1026
  volumesHeight := 0
  volumes := volumes
  volumeEntry := ObjectMapBtree.Sample.entry 1026 7 7
  superblock := volumeSuperblock
  volumeObjectMap := { rootNodeBlockNumber := 9 }
  snapshots := []
  effective := volumeSuperblock
  objectsHeight := 0
  objects := objects
  rootEntry := ObjectMapBtree.Sample.entry 1028 7 10
  encoding := .absoluteOid
  rest := OpenFileSystem.Sample.longerLess
  height := 1
  tree := directoryTree

theorem nodes_read : readNode .inOrder image 65536 6 = .ok (objectMapRoot volumes) ∧
    readNode .inOrder image 65536 9 = .ok (objectMapRoot objects) ∧ readNode .inOrder image 65536 10 = .ok directoryRoot ∧
    readNode .inOrder image 65536 11 = .ok (subNode 2 0 firstLeaf) ∧
    readNode .inOrder image 65536 12 = .ok (subNode 2 0 secondLeaf) := by
  refine ⟨@readNode_stored (objectMapRoot volumes) 3892 6 rfl ?_ ?_ ?_ ?_,
    @readNode_stored (objectMapRoot objects) 3892 9 rfl ?_ ?_ ?_ ?_,
    @readNode_stored directoryRoot 3948 10 rfl ?_ ?_ ?_ ?_,
    @readNode_stored (subNode 2 0 firstLeaf) 3869 11 rfl ?_ ?_ ?_ ?_,
    @readNode_stored (subNode 2 0 secondLeaf) 3894 12 rfl ?_ ?_ ?_ ?_⟩
  all_goals first
    | refine ⟨by decide, by decide, by decide, by decide, by decide, ?_, by decide +kernel, by decide, by decide,
        by decide⟩
      rw [storedNode_length]
      decide +kernel
    | rw [storedNode_room]
      decide +kernel
    | rw [storedNode_length]
      decide +kernel
    | decide

theorem objectMapBtree_read {number btreeBlockNumber : Nat}
    (read : ObjectMap.readFileIoHandle image (number * 4096) = .ok (volumeObjectMap btreeBlockNumber))
    (inside : 0 < number ∧ number * 4096 < 2 ^ 64) (given : 0 < btreeBlockNumber) :
    readObjectMapBtree image number = .ok { rootNodeBlockNumber := btreeBlockNumber } := by
  rw [readObjectMapBtree, if_neg (by omega), Nat.mod_eq_of_lt inside.2, read, ok_bind]
  exact if_neg (Nat.ne_of_gt given)

theorem objectMap_stores {blockNumber : Nat} {entries : List BtreeEntry}
    (read : readNode .inOrder image 65536 blockNumber = .ok (objectMapRoot entries)) (small : blockNumber ≤ intMax)
    (sized : ∀ entry ∈ entries, 16 ≤ entry.keyData.length ∧ 16 ≤ entry.valueData.length)
    (increasing : entries.Pairwise ObjectMapBtree.keyLess) :
    @ObjectMapBtree.Stores (readNode .inOrder image 65536) { rootNodeBlockNumber := blockNumber } 0 entries where
  rooted := by
    refine ⟨objectMapRoot entries, ?_, ?_, rfl, sized⟩
    · rw [ObjectMapBtree.getRootNode, if_neg (Nat.not_lt.mpr small), read]
      simp [objectMapRoot, BtreeNode.isRootNode, BtreeNode.hasFixedSizeEntries, BtreeNode.requireFooter, ok_bind]
    · simp [objectMapRoot, BtreeNode.isLeafNode]
  headed := trivial
  increasing := increasing

theorem volumes_stored : @ObjectMapBtree.Stores (readNode .inOrder image 65536) { rootNodeBlockNumber := 6 } 0 volumes :=
  objectMap_stores nodes_read.1 (by decide) (by decide) (by decide)

theorem objects_stored : @ObjectMapBtree.Stores (readNode .inOrder image 65536) { rootNodeBlockNumber := 9 } 0 objects :=
  objectMap_stores nodes_read.2.1 (by decide) (by decide) (by decide)

theorem newest_eq : commit.newest image = superblock 7 5 := by
  have latest : Checkpoint.latest image commit.start (commit.last + 1) = newer := latest_three
  rw [newest, latest]
  rfl

theorem mapNumber_eq : (commit.found image).checkpointMapBlockNumber = 3 := by
  have found : commit.found image = Checkpoint.foundAfter image start 3 := rfl
  have number : Checkpoint.mapNumber image start 2 = 3 := by
    rw [Checkpoint.mapNumber, latest_two]
    rfl
  rw [found, Checkpoint.foundAfter]
  dsimp only
  rw [newestMap_three, Option.elim_some]
  exact number

theorem latest_volume : ObjectMapBtree.Latest 1026 7 volumes (ObjectMapBtree.Sample.entry 1026 7 7) :=
  ⟨by decide, by decide, by decide, by decide⟩

theorem latest_root : ObjectMapBtree.Latest 1028 7 objects (ObjectMapBtree.Sample.entry 1028 7 10) :=
  ⟨by decide, by decide, by decide, by decide⟩

theorem latest_first : ObjectMapBtree.Latest 7 7 objects (ObjectMapBtree.Sample.entry 7 6 11) :=
  ⟨by decide, by decide, by decide, by decide⟩

theorem latest_second : ObjectMapBtree.Latest 8 7 objects (ObjectMapBtree.Sample.entry 8 7 12) :=
  ⟨by decide, by decide, by decide, by decide⟩

theorem ofContainer :
    commit.OfContainer (fun _ _ => ⟨fun _ data => data, fun _ _ => rfl⟩) .inOrder image 0 (Bytes.zero 16) where
  first := first_stored
  single := by decide
  reached := reached
  readable := readable.2.2
  stops := by
    rw [newest_eq]
    decide
  mapped := by
    rw [mapNumber_eq]
    decide
  checkpointMap := by
    rw [mapNumber_eq]
    exact map_stored
  objectMap := by
    rw [newest_eq]
    exact objectMapBtree_read (objectMap_stored rfl (by decide)) (by decide) (by decide)
  keyBag := by
    rw [newest_eq]
    rfl
  index := by
    rw [newest_eq]
    decide
  identifier := by
    rw [newest_eq]
    rfl
  volumes := volumes_stored
  volumesLimited := by decide
  nonzero := by decide
  latest := by
    rw [newest_eq]
    exact latest_volume

theorem hierarchy_stored : OpenFileSystem.StoresHierarchy (readNode .inOrder image 65536) commit.btree 7 .absoluteOid
    OpenFileSystem.Sample.longerLess directoryTree where
  stores :=
    { rooted := by
        have root : FileSystemBtree.getRootNode (readNode .inOrder image 65536) 10 = .ok (some directoryRoot) := by
          rw [FileSystemBtree.getRootNode, if_neg (by decide), nodes_read.2.2.1]
          decide
        have first : FileSystemBtree.LeadsTo (readNode .inOrder image 65536) commit.btree 7 7 (subNode 2 0 firstLeaf) := by
          refine ⟨_, latest_first.descriptor objects_stored (by decide) (by decide), ?_⟩
          change FileSystemBtree.getSubNode (readNode .inOrder image 65536) 11 = _
          rw [FileSystemBtree.getSubNode, if_neg (by decide), nodes_read.2.2.2.1]
          decide
        have second : FileSystemBtree.LeadsTo (readNode .inOrder image 65536) commit.btree 7 8 (subNode 2 0 secondLeaf) := by
          refine ⟨_, latest_second.descriptor objects_stored (by decide) (by decide), ?_⟩
          change FileSystemBtree.getSubNode (readNode .inOrder image 65536) 12 = _
          rw [FileSystemBtree.getSubNode, if_neg (by decide), nodes_read.2.2.2.2]
          decide
        refine ⟨directoryRoot, root, ⟨rfl, rfl, by decide⟩,
          List.forall_mem_cons.mpr ⟨?_, List.forall_mem_singleton.mpr ?_⟩⟩
        · exact ⟨_, ⟨by decide, rfl, by decide, Or.inl ⟨rfl, first⟩⟩, rfl, rfl, by decide⟩
        · exact ⟨_, ⟨by decide, rfl, by decide, Or.inl ⟨rfl, second⟩⟩, rfl, rfl, by decide⟩
      headed := OpenFileSystem.Sample.directory_holds.stores.headed
      increasing := OpenFileSystem.Sample.directory_holds.stores.increasing }
  smallest := OpenFileSystem.Sample.directory_holds.smallest
  limited := by decide
  inodes := OpenFileSystem.Sample.directory_holds.inodes
  records := OpenFileSystem.Sample.directory_holds.records

theorem ofVolume : commit.OfVolume .lastAccess .inOrder image (some maximumCacheEntriesBtreeNodes) where
  superblock := volume_stored
  objectMap := objectMapBtree_read (objectMap_stored rfl (by decide)) (by decide) (by decide)
  unencrypted := Or.inl rfl
  snapshots := rfl
  effective := rfl
  rooted := by decide
  objects := objects_stored
  objectsLimited := by decide
  latest := latest_root
  hierarchy := hierarchy_stored

end Commit.Sample

namespace Commit
open OpenFileSystem.Sample (requests)

end Commit

end Fsapfs
