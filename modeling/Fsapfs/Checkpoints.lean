import Fsapfs.ContainerSuperblock
import Mathlib.Data.List.MinMax
import Mathlib.Data.List.Basic
import Mathlib.Data.Nat.Find
import Mathlib.Tactic.ByContra

namespace Fsapfs
open Program

/-- A container file: the bytes that can be read from the start of each block. -/
abbrev Image := Nat → List UInt8

/-- The data at an offset, of at most the block that the offset lies in. -/
def Image.readBufferAtOffset (image : Image) (size fileOffset : Nat) : Result (List UInt8) :=
  let data := (image (fileOffset / 4096)).drop (fileOffset % 4096)
  if size ≤ data.length then .ok (data.take size) else fail .readFailed

theorem Image.readBufferAtOffset_ok {image : Image} {size fileOffset : Nat} {data : List UInt8}
    (read : image.readBufferAtOffset size fileOffset = .ok data) :
    size ≤ ((image (fileOffset / 4096)).drop (fileOffset % 4096)).length ∧
      data = ((image (fileOffset / 4096)).drop (fileOffset % 4096)).take size := by
  unfold Image.readBufferAtOffset at read
  dsimp only at read
  split_ifs at read with long
  · exact ⟨long, (Except.ok.inj read).symm⟩
  · cases read

theorem Image.block_read {image : Image} {number size : Nat} {data : List UInt8} (there : image number = data)
    (sized : data.length = 4096) (inside : size ≤ 4096) :
    image.readBufferAtOffset size (number * 4096) = .ok (data.take size) := by
  rw [Image.readBufferAtOffset, Nat.mul_div_cancel _ (by omega), Nat.mul_mod_left, there]
  exact if_pos (sized ▸ inside)

theorem Image.whole_block_read {image : Image} {number : Nat} {data : List UInt8} (there : image number = data)
    (sized : data.length = 4096) : image.readBufferAtOffset 4096 (number * 4096) = .ok data := by
  rw [block_read there sized (Nat.le_refl _), List.take_of_length_le (Nat.le_of_eq sized)]

structure Object where
  identifier : Nat
  transactionIdentifier : Nat
  type : Nat
  subtype : Nat
  deriving Repr, DecidableEq

namespace Object

def readData (data : List UInt8) : Result Object := do
  if data.length < 32 ∨ data.length > ssizeMax then fail .valueOutOfBounds
  else do
    let identifier ← loadLittleEndian64 data 8
    let transactionIdentifier ← loadLittleEndian64 data 16
    let type ← loadLittleEndian32 data 24
    let subtype ← loadLittleEndian32 data 28
    return { identifier, transactionIdentifier, type, subtype }

def readFileIoHandle (image : Image) (fileOffset : Nat) : Result Object := do
  let objectData ← image.readBufferAtOffset 32 fileOffset
  readData objectData

theorem readFileIoHandle_ok {image : Image} {fileOffset : Nat} {object : Object}
    (read : readFileIoHandle image fileOffset = .ok object) : object.transactionIdentifier =
      littleEndian ((((image (fileOffset / 4096)).drop (fileOffset % 4096)).drop 16).take 8) := by
  obtain ⟨data, stored, read⟩ := bind_eq_ok.mp read
  obtain ⟨long, rfl⟩ := Image.readBufferAtOffset_ok stored
  have size : (((image (fileOffset / 4096)).drop (fileOffset % 4096)).take 32).length = 32 := by
    rw [List.length_take, Nat.min_eq_left long]
  unfold readData at read
  split_ifs at read
  · cases read
  · obtain ⟨_, _, read⟩ := bind_eq_ok.mp read
    obtain ⟨transaction, transactionRead, read⟩ := bind_eq_ok.mp read
    obtain ⟨_, _, read⟩ := bind_eq_ok.mp read
    obtain ⟨_, _, read⟩ := bind_eq_ok.mp read
    cases read
    have loaded := Except.ok.inj (transactionRead.symm.trans (loadLittleEndian_ok (by omega)))
    rw [loaded, List.drop_take, List.take_take, Nat.min_eq_left (by omega)]

end Object

namespace ContainerSuperblock

abbrev Stored := { superblock : ContainerSuperblock // superblock.Checked }

def readFileIoHandle (image : Image) (fileOffset : Nat) : Result Stored :=
  match image.readBufferAtOffset 4096 fileOffset with
  | .error failure => .error failure
  | .ok containerSuperblockData =>
      match read : readData containerSuperblockData with
      | .error failure => .error failure
      | .ok superblock => .ok ⟨superblock, (readData_ok read).1⟩

theorem readFileIoHandle_ok {image : Image} {fileOffset : Nat} {superblock : Stored}
    (read : readFileIoHandle image fileOffset = .ok superblock) : superblock.val.objectTransactionIdentifier =
      littleEndian ((((image (fileOffset / 4096)).drop (fileOffset % 4096)).drop 16).take 8) := by
  unfold readFileIoHandle at read
  split at read
  · cases read
  · rename_i data stored
    obtain ⟨_, rfl⟩ := Image.readBufferAtOffset_ok stored
    split at read
    · cases read
    · rename_i superblock parsed
      cases read
      rw [(readData_ok parsed).2.2.1, List.drop_take, List.take_take, Nat.min_eq_left (by omega)]

theorem readFileIoHandle_stored {image : Image} {number : Nat} {data : List UInt8} {superblock : Stored}
    (there : image number = data) (sized : data.length = 4096) (read : readData data = .ok superblock.val) :
    readFileIoHandle image (number * 4096) = .ok superblock := by
  have stored := Image.whole_block_read there sized
  unfold readFileIoHandle
  split
  · rename_i failed
    rw [stored] at failed
    cases failed
  · rename_i other
    rw [stored] at other
    cases other
    split
    · rename_i failed
      rw [read] at failed
      cases failed
    · rename_i other
      rw [read] at other
      exact congrArg Except.ok (Subtype.ext (Except.ok.inj other).symm)

end ContainerSuperblock

structure Checkpoint where
  superblock : ContainerSuperblock.Stored
  checkpointMapBlockNumber : Nat
  checkpointMapTransactionIdentifier : Nat

namespace Checkpoint
open ContainerSuperblock.Sample (superblockData)

def checkpointMapType : Nat := 0x4000000c

def superblockType : Nat := 0x80000001

def scanBlock (image : Image) (fileOffset metadataBlockIndex : Nat) (found : Checkpoint) : Result Checkpoint := do
  let object ← Object.readFileIoHandle image fileOffset
  if object.type = checkpointMapType then
    if object.transactionIdentifier > found.checkpointMapTransactionIdentifier then
      return { found with
        checkpointMapBlockNumber := found.superblock.val.checkpointDescriptorAreaBlockNumber + metadataBlockIndex
        checkpointMapTransactionIdentifier := object.transactionIdentifier }
    else return found
  else if object.type = superblockType then do
    let superblock ← ContainerSuperblock.readFileIoHandle image fileOffset
    if superblock.val.objectTransactionIdentifier > found.superblock.val.objectTransactionIdentifier then
      return { found with superblock }
    else return found
  else return found

/-- The loop from an index on: the bound is that of the superblock kept so far. -/
def scan (image : Image) (fileOffset metadataBlockIndex : Nat) (found : Checkpoint) : Result Checkpoint :=
  if metadataBlockIndex ≤ found.superblock.val.checkpointDescriptorAreaNumberOfBlocks then do
    let next ← scanBlock image fileOffset metadataBlockIndex found
    scan image (fileOffset + 4096) (metadataBlockIndex + 1) next
  else .ok found
  termination_by 2 ^ 31 - metadataBlockIndex
  decreasing_by
    have bounded := found.superblock.property.bounded
    omega

def scanArea (image : Image) (start : ContainerSuperblock.Stored) : Result Checkpoint :=
  scan image (start.val.checkpointDescriptorAreaBlockNumber * 4096) 0
    { superblock := start, checkpointMapBlockNumber := 0, checkpointMapTransactionIdentifier := 0 }

section blocks

variable (image : Image)

def objectAt (number : Nat) : Option (Nat × Nat) :=
  match Object.readFileIoHandle image (number * 4096) with
  | .ok object => some (object.type, object.transactionIdentifier)
  | .error _ => none

def storedAt (number : Nat) : Option ContainerSuperblock.Stored :=
  match objectAt image number with
  | some (type, _) =>
      if type = superblockType then (ContainerSuperblock.readFileIoHandle image (number * 4096)).toOption else none
  | none => none

/-- A block that does not end the scan with a failure. -/
def Readable (number : Nat) : Prop :=
  ∃ type transactionIdentifier, objectAt image number = some (type, transactionIdentifier) ∧
    (type = superblockType → (storedAt image number).isSome)

/-- The transaction identifier of a checkpoint map, where it is not zero. -/
def mapAt (number : Nat) : Option Nat :=
  match objectAt image number with
  | some (type, transactionIdentifier) =>
      if type = checkpointMapType ∧ 0 < transactionIdentifier then some transactionIdentifier else none
  | none => none

end blocks

section selection

variable (image : Image) (start : ContainerSuperblock.Stored)

/-- The block of an index of the scan. -/
def number (index : Nat) : Nat := start.val.checkpointDescriptorAreaBlockNumber + index

def superblocks (count : Nat) : List ContainerSuperblock.Stored :=
  start :: (List.range count).filterMap fun index => storedAt image (number start index)

def latest (count : Nat) : ContainerSuperblock.Stored :=
  ((superblocks image start count).argmax fun superblock => superblock.val.objectTransactionIdentifier).getD start

def maps (count : Nat) : List (Nat × Nat) :=
  (List.range count).filterMap fun index =>
    (mapAt image (number start index)).map fun transactionIdentifier => (index, transactionIdentifier)

def newestMap (count : Nat) : Option (Nat × Nat) := (maps image start count).argmax Prod.snd

/-- The block number for a map of an index: from the area of the latest superblock before it. -/
def mapNumber (index : Nat) : Nat :=
  (latest image start index).val.checkpointDescriptorAreaBlockNumber + index

def foundAfter (count : Nat) : Checkpoint where
  superblock := latest image start count
  checkpointMapBlockNumber := (newestMap image start count).elim 0 fun newest => mapNumber image start newest.1
  checkpointMapTransactionIdentifier := (newestMap image start count).elim 0 Prod.snd

theorem latest_mem (count : Nat) : latest image start count ∈
    (superblocks image start count).argmax fun superblock => superblock.val.objectTransactionIdentifier := by
  cases found : (superblocks image start count).argmax fun superblock => superblock.val.objectTransactionIdentifier with
  | none => cases List.argmax_eq_none.mp found
  | some superblock =>
      unfold latest
      rw [found]
      rfl

theorem superblocks_succ (count : Nat) : superblocks image start (count + 1) =
    superblocks image start count ++ (storedAt image (number start count)).toList := by
  unfold superblocks
  rw [List.range_succ, List.filterMap_append, List.cons_append]
  cases stored : storedAt image (number start count) <;> simp [stored]

theorem latest_succ (count : Nat) : latest image start (count + 1) =
    match storedAt image (number start count) with
    | none => latest image start count
    | some superblock =>
        if (latest image start count).val.objectTransactionIdentifier < superblock.val.objectTransactionIdentifier
        then superblock else latest image start count := by
  have before := latest_mem image start count
  have after := latest_mem image start (count + 1)
  rw [superblocks_succ] at after
  cases stored : storedAt image (number start count) with
  | none =>
      rw [stored, Option.toList_none, List.append_nil] at after
      exact Option.mem_unique after before
  | some superblock =>
      rw [stored, Option.toList_some, List.argmax_concat, Option.mem_def.mp before] at after
      dsimp only at after ⊢
      split_ifs at after ⊢ <;> exact (Option.some.inj after).symm

theorem maps_succ (count : Nat) : maps image start (count + 1) = maps image start count ++
    ((mapAt image (number start count)).map fun transactionIdentifier => (count, transactionIdentifier)).toList := by
  unfold maps
  rw [List.range_succ, List.filterMap_append]
  cases stored : mapAt image (number start count) <;> simp [stored]

theorem newestMap_succ (count : Nat) : newestMap image start (count + 1) =
    match mapAt image (number start count), newestMap image start count with
    | none, newest => newest
    | some transactionIdentifier, none => some (count, transactionIdentifier)
    | some transactionIdentifier, some newest =>
        if newest.2 < transactionIdentifier then some (count, transactionIdentifier) else some newest := by
  unfold newestMap
  rw [maps_succ]
  cases stored : mapAt image (number start count) with
  | none => simp
  | some transactionIdentifier =>
      rw [Option.map_some, Option.toList_some, List.argmax_concat]
      cases (maps image start count).argmax Prod.snd <;> rfl

end selection

section maxima

variable {image : Image} {start : ContainerSuperblock.Stored} {count : Nat}

theorem mem_superblocks {superblock : ContainerSuperblock.Stored} : superblock ∈ superblocks image start count ↔
    superblock = start ∨ ∃ index < count, storedAt image (number start index) = some superblock := by
  unfold superblocks
  simp

variable (image start count) in
theorem latest_superblock : latest image start count ∈ superblocks image start count :=
  List.argmax_mem (latest_mem image start count)

variable (image start count) in
theorem latest_source : latest image start count = start ∨
    ∃ index < count, storedAt image (number start index) = some (latest image start count) :=
  mem_superblocks.mp (latest_superblock image start count)

theorem le_latest {superblock : ContainerSuperblock.Stored} (member : superblock ∈ superblocks image start count) :
    superblock.val.objectTransactionIdentifier ≤ (latest image start count).val.objectTransactionIdentifier :=
  List.le_of_mem_argmax (f := fun superblock : ContainerSuperblock.Stored => superblock.val.objectTransactionIdentifier) member
    (latest_mem image start count)

theorem mem_maps {index transactionIdentifier : Nat} : (index, transactionIdentifier) ∈ maps image start count ↔
    index < count ∧ mapAt image (number start index) = some transactionIdentifier := by
  unfold maps
  simp only [List.mem_filterMap, List.mem_range, Option.map_eq_some_iff]
  constructor
  · rintro ⟨index, less, transactionIdentifier, map, same⟩
    cases same
    exact ⟨less, map⟩
  · rintro ⟨less, map⟩
    exact ⟨index, less, transactionIdentifier, map, rfl⟩

theorem newestMap_index {newest : Nat × Nat} (found : newestMap image start count = some newest) :
    newest.1 < count ∧ mapAt image (number start newest.1) = some newest.2 :=
  mem_maps.mp (List.argmax_mem (Option.mem_def.mpr found))

theorem le_newestMap {newest : Nat × Nat} {index transactionIdentifier : Nat}
    (found : newestMap image start count = some newest) (less : index < count)
    (map : mapAt image (number start index) = some transactionIdentifier) : transactionIdentifier ≤ newest.2 :=
  List.le_of_mem_argmax (mem_maps.mpr ⟨less, map⟩) (Option.mem_def.mpr found)

theorem newestMap_none {index : Nat} (absent : newestMap image start count = none) (less : index < count) :
    mapAt image (number start index) = none := by
  cases map : mapAt image (number start index) with
  | none => rfl
  | some transactionIdentifier =>
      have member := mem_maps.mpr ⟨less, map⟩
      rw [List.argmax_eq_none.mp absent] at member
      cases member

end maxima

section steps

variable {image : Image} {start : ContainerSuperblock.Stored}

theorem objectAt_some {number type transactionIdentifier : Nat}
    (found : objectAt image number = some (type, transactionIdentifier)) :
    ∃ object, Object.readFileIoHandle image (number * 4096) = .ok object ∧ object.type = type ∧
      object.transactionIdentifier = transactionIdentifier := by
  unfold objectAt at found
  cases read : Object.readFileIoHandle image (number * 4096) with
  | error failure =>
      rw [read] at found
      cases found
  | ok object =>
      rw [read] at found
      cases found
      exact ⟨object, rfl, rfl, rfl⟩

theorem storedAt_none {number type transactionIdentifier : Nat}
    (found : objectAt image number = some (type, transactionIdentifier)) (other : type ≠ superblockType) :
    storedAt image number = none := by
  unfold storedAt
  rw [found]
  exact if_neg other

theorem storedAt_superblock {number transactionIdentifier : Nat}
    (found : objectAt image number = some (superblockType, transactionIdentifier)) :
    storedAt image number = (ContainerSuperblock.readFileIoHandle image (number * 4096)).toOption := by
  unfold storedAt
  rw [found]
  exact if_pos rfl

theorem mapAt_none {number type transactionIdentifier : Nat}
    (found : objectAt image number = some (type, transactionIdentifier))
    (zero : type = checkpointMapType → transactionIdentifier = 0) : mapAt image number = none := by
  unfold mapAt
  rw [found]
  exact if_neg fun both => (Nat.ne_of_gt both.2) (zero both.1)

theorem mapAt_some {number type transactionIdentifier : Nat}
    (found : objectAt image number = some (type, transactionIdentifier)) (isMap : type = checkpointMapType)
    (positive : 0 < transactionIdentifier) : mapAt image number = some transactionIdentifier := by
  unfold mapAt
  rw [found]
  exact if_pos ⟨isMap, positive⟩

theorem mapAt_object {number transactionIdentifier : Nat} (map : mapAt image number = some transactionIdentifier) :
    objectAt image number = some (checkpointMapType, transactionIdentifier) ∧ 0 < transactionIdentifier := by
  unfold mapAt at map
  split at map
  · rename_i type transactionIdentifier found
    split_ifs at map with both
    cases map
    exact ⟨by rw [found, both.1], both.2⟩
  · cases map

theorem storedAt_read {number : Nat} {superblock : ContainerSuperblock.Stored} (stored : storedAt image number = some superblock) :
    ContainerSuperblock.readFileIoHandle image (number * 4096) = .ok superblock := by
  unfold storedAt at stored
  split at stored
  · split_ifs at stored
    cases parsed : ContainerSuperblock.readFileIoHandle image (number * 4096) with
    | error failure =>
        rw [parsed] at stored
        cases stored
    | ok superblock =>
        rw [parsed] at stored
        cases stored
        rfl
  · cases stored

theorem storedAt_object {number : Nat} {superblock : ContainerSuperblock.Stored} (stored : storedAt image number = some superblock) :
    objectAt image number = some (superblockType, superblock.val.objectTransactionIdentifier) := by
  cases found : objectAt image number with
  | none =>
      unfold storedAt at stored
      rw [found] at stored
      cases stored
  | some pair =>
      obtain ⟨object, read, type, transaction⟩ := objectAt_some found
      by_cases isSuperblock : pair.1 = superblockType
      · rw [Object.readFileIoHandle_ok read] at transaction
        rw [← ContainerSuperblock.readFileIoHandle_ok (storedAt_read stored)] at transaction
        rw [← isSuperblock, transaction]
      · rw [storedAt_none found isSuperblock] at stored
        cases stored

theorem foundAfter_map {count transactionIdentifier : Nat}
    (map : mapAt image (number start count) = some transactionIdentifier)
    (absent : storedAt image (number start count) = none) : foundAfter image start (count + 1) =
      if transactionIdentifier > (foundAfter image start count).checkpointMapTransactionIdentifier then
        { foundAfter image start count with
          checkpointMapBlockNumber :=
            (foundAfter image start count).superblock.val.checkpointDescriptorAreaBlockNumber + count
          checkpointMapTransactionIdentifier := transactionIdentifier }
      else foundAfter image start count := by
  have kept : latest image start (count + 1) = latest image start count := by rw [latest_succ, absent]
  have positive : 0 < transactionIdentifier := (mapAt_object map).2
  have newer := newestMap_succ image start count
  rw [map] at newer
  unfold foundAfter
  cases before : newestMap image start count with
  | none =>
      rw [before] at newer
      rw [kept, newer]
      exact (if_pos positive).symm
  | some newest =>
      rw [before] at newer
      rw [kept, newer]
      dsimp only
      by_cases larger : newest.2 < transactionIdentifier
      · rw [if_pos larger]
        exact (if_pos larger).symm
      · rw [if_neg larger]
        exact (if_neg larger).symm

theorem foundAfter_superblock {count : Nat} {superblock : ContainerSuperblock.Stored}
    (stored : storedAt image (number start count) = some superblock)
    (absent : mapAt image (number start count) = none) : foundAfter image start (count + 1) =
      if superblock.val.objectTransactionIdentifier >
          (foundAfter image start count).superblock.val.objectTransactionIdentifier then
        { foundAfter image start count with superblock }
      else foundAfter image start count := by
  have newer := latest_succ image start count
  rw [stored] at newer
  unfold foundAfter
  rw [newer, newestMap_succ, absent]
  dsimp only
  by_cases larger : (latest image start count).val.objectTransactionIdentifier <
      superblock.val.objectTransactionIdentifier
  · rw [if_pos larger, if_pos larger]
  · rw [if_neg larger, if_neg larger]

theorem foundAfter_other {count : Nat} (unmapped : mapAt image (number start count) = none)
    (absent : storedAt image (number start count) = none) :
    foundAfter image start (count + 1) = foundAfter image start count := by
  unfold foundAfter
  rw [latest_succ, newestMap_succ, unmapped, absent]

theorem scanBlock_foundAfter {count : Nat} (readable : Readable image (number start count)) :
    scanBlock image (number start count * 4096) count (foundAfter image start count) =
      .ok (foundAfter image start (count + 1)) := by
  obtain ⟨type, transactionIdentifier, found, stored⟩ := readable
  obtain ⟨object, read, rfl, rfl⟩ := objectAt_some found
  unfold scanBlock
  rw [read, ok_bind]
  by_cases isMap : object.type = checkpointMapType
  · have absent := storedAt_none found (by rw [isMap]; decide)
    rw [if_pos isMap]
    by_cases zero : object.transactionIdentifier = 0
    · rw [foundAfter_other (mapAt_none found fun _ => zero) absent, if_neg (by omega)]
      rfl
    · rw [foundAfter_map (mapAt_some found isMap (Nat.pos_of_ne_zero zero)) absent]
      split_ifs <;> rfl
  · have unmapped := mapAt_none found fun isMap' => absurd isMap' isMap
    rw [if_neg isMap]
    by_cases isSuperblock : object.type = superblockType
    · obtain ⟨superblock, stored⟩ := Option.isSome_iff_exists.mp (stored isSuperblock)
      rw [if_pos isSuperblock, storedAt_read stored, ok_bind, foundAfter_superblock stored unmapped]
      split_ifs <;> rfl
    · rw [if_neg isSuperblock, foundAfter_other unmapped (storedAt_none found isSuperblock)]
      rfl

theorem scanBlock_unreadable {count : Nat} (found : Checkpoint) (unreadable : ¬ Readable image (number start count)) :
    ∃ failure, scanBlock image (number start count * 4096) count found = .error failure := by
  unfold scanBlock
  cases read : Object.readFileIoHandle image (number start count * 4096) with
  | error failure => exact ⟨failure, rfl⟩
  | ok object =>
      have same : objectAt image (number start count) = some (object.type, object.transactionIdentifier) := by
        unfold objectAt
        rw [read]
      have isSuperblock : object.type = superblockType := by
        by_contra other
        exact unreadable ⟨object.type, object.transactionIdentifier, same, fun isSuperblock => absurd isSuperblock other⟩
      cases parsed : ContainerSuperblock.readFileIoHandle image (number start count * 4096) with
      | error failure =>
          refine ⟨failure, ?_⟩
          rw [ok_bind, if_neg (by rw [isSuperblock]; decide), if_pos isSuperblock]
          rfl
      | ok superblock =>
          refine absurd ⟨object.type, object.transactionIdentifier, same, fun _ => ?_⟩ unreadable
          rw [isSuperblock] at same
          rw [storedAt_superblock same, parsed]
          rfl

end steps

section runs

variable {image : Image} {start : ContainerSuperblock.Stored}

/-- The scan reads the block of an index: it gets past the blocks before it. -/
def Reached (image : Image) (start : ContainerSuperblock.Stored) (count : Nat) : Prop :=
  ∀ index < count, Readable image (number start index) ∧
    index < (latest image start (index + 1)).val.checkpointDescriptorAreaNumberOfBlocks

theorem Reached.within {count : Nat} (reached : Reached image start count) :
    count ≤ (latest image start count).val.checkpointDescriptorAreaNumberOfBlocks := by
  cases count with
  | zero => exact Nat.zero_le _
  | succ count => exact (reached count (Nat.lt_succ_self count)).2

theorem Reached.mono {count fewer : Nat} (reached : Reached image start count) (le : fewer ≤ count) :
    Reached image start fewer := fun index less => reached index (Nat.lt_of_lt_of_le less le)

theorem number_succ (index : Nat) : number start index * 4096 + 4096 = number start (index + 1) * 4096 := by
  unfold number
  omega

theorem scan_reached {count : Nat} (reached : Reached image start count) :
    scan image (number start count * 4096) count (foundAfter image start count) = (do
      let next ← scanBlock image (number start count * 4096) count (foundAfter image start count)
      scan image (number start (count + 1) * 4096) (count + 1) next) := by
  have within : count ≤ (foundAfter image start count).superblock.val.checkpointDescriptorAreaNumberOfBlocks :=
    reached.within
  rw [scan, if_pos within, number_succ]

theorem scanArea_reached {count : Nat} (reached : Reached image start count) :
    scanArea image start = scan image (number start count * 4096) count (foundAfter image start count) := by
  induction count with
  | zero => rfl
  | succ count ih =>
      have before := reached.mono (Nat.le_succ count)
      rw [ih before, scan_reached before, scanBlock_foundAfter (reached count (Nat.lt_succ_self count)).1, ok_bind]

theorem scanArea_completes {count : Nat} (reached : Reached image start count)
    (readable : Readable image (number start count))
    (stops : (latest image start (count + 1)).val.checkpointDescriptorAreaNumberOfBlocks ≤ count) :
    scanArea image start = .ok (foundAfter image start (count + 1)) := by
  rw [scanArea_reached reached, scan_reached reached, scanBlock_foundAfter readable, ok_bind, scan]
  exact if_neg (Nat.not_le.mpr (Nat.lt_succ_of_le stops))

theorem scanArea_fails_with {count : Nat} {failure : Failure} (reached : Reached image start count)
    (failed : scanBlock image (number start count * 4096) count (foundAfter image start count) = .error failure) :
    scanArea image start = .error failure := by
  rw [scanArea_reached reached, scan_reached reached, failed]
  rfl

theorem scanArea_fails {count : Nat} (reached : Reached image start count)
    (unreadable : ¬ Readable image (number start count)) : ∃ failure, scanArea image start = .error failure := by
  obtain ⟨failure, failed⟩ := scanBlock_unreadable (foundAfter image start count) unreadable
  exact ⟨failure, scanArea_fails_with reached failed⟩

/-- Every scan ends: with a block that it cannot read or with the bound of the latest superblock. -/
theorem exists_last (image : Image) (start : ContainerSuperblock.Stored) : ∃ last, Reached image start last ∧
    (¬ Readable image (number start last) ∨
      (latest image start (last + 1)).val.checkpointDescriptorAreaNumberOfBlocks ≤ last) := by
  have stops : ∃ last, ¬ (Readable image (number start last) ∧
      last < (latest image start (last + 1)).val.checkpointDescriptorAreaNumberOfBlocks) := by
    refine ⟨2 ^ 31, fun both => ?_⟩
    have bounded := (latest image start (2 ^ 31 + 1)).property.bounded
    omega
  classical
  refine ⟨Nat.find stops, fun index less => ?_, ?_⟩
  · exact not_not.mp (Nat.find_min stops less)
  · have last := Nat.find_spec stops
    rw [not_and_or, Nat.not_lt] at last
    exact last

end runs

section contents

variable {image other : Image} {start : ContainerSuperblock.Stored}

theorem readBufferAtOffset_congr {size number : Nat} (same : other number = image number) :
    other.readBufferAtOffset size (number * 4096) = image.readBufferAtOffset size (number * 4096) := by
  unfold Image.readBufferAtOffset
  rw [Nat.mul_div_cancel number (by omega), same]

theorem objectAt_congr {number : Nat} (same : other number = image number) :
    objectAt other number = objectAt image number := by
  unfold objectAt Object.readFileIoHandle
  rw [readBufferAtOffset_congr same]

theorem storedAt_congr {number : Nat} (same : other number = image number) :
    storedAt other number = storedAt image number := by
  unfold storedAt ContainerSuperblock.readFileIoHandle
  rw [objectAt_congr same, readBufferAtOffset_congr same]

theorem mapAt_congr {number : Nat} (same : other number = image number) :
    mapAt other number = mapAt image number := by
  unfold mapAt
  rw [objectAt_congr same]

theorem scanBlock_congr {number metadataBlockIndex : Nat} {found : Checkpoint} (same : other number = image number) :
    scanBlock other (number * 4096) metadataBlockIndex found =
      scanBlock image (number * 4096) metadataBlockIndex found := by
  unfold scanBlock Object.readFileIoHandle ContainerSuperblock.readFileIoHandle
  rw [readBufferAtOffset_congr same, readBufferAtOffset_congr same]

theorem readable_congr {number : Nat} (same : other number = image number) :
    Readable other number ↔ Readable image number := by
  unfold Readable
  rw [objectAt_congr same, storedAt_congr same]

section prefixes

variable {count : Nat} (same : ∀ index < count, other (number start index) = image (number start index))

include same

theorem latest_congr : latest other start count = latest image start count := by
  unfold latest superblocks
  rw [List.filterMap_congr fun index member => storedAt_congr (same index (List.mem_range.mp member))]

theorem newestMap_congr : newestMap other start count = newestMap image start count := by
  unfold newestMap maps
  rw [List.filterMap_congr fun index member => by rw [mapAt_congr (same index (List.mem_range.mp member))]]

theorem foundAfter_congr : foundAfter other start count = foundAfter image start count := by
  unfold foundAfter
  rw [latest_congr same, newestMap_congr same]
  cases found : newestMap image start count with
  | none => rfl
  | some newest =>
      have index := (newestMap_index found).1
      have before : latest other start newest.1 = latest image start newest.1 :=
        latest_congr fun index less => same index (by omega)
      dsimp only [Option.elim_some]
      unfold mapNumber
      rw [before]

theorem reached_congr : Reached other start count ↔ Reached image start count := by
  refine forall₂_congr fun index less => ?_
  rw [readable_congr (same index less), latest_congr fun before less' => same before (by omega)]

end prefixes

end contents

section area

/-- What the scan is to keep: the latest superblock and the newest checkpoint map of an area. -/
structure Selects (image : Image) (start : ContainerSuperblock.Stored) (area numberOfBlocks : Nat) (found : Checkpoint) : Prop where
  kept : found.superblock = start ∨ ∃ index < numberOfBlocks, storedAt image (area + index) = some found.superblock
  start : start.val.objectTransactionIdentifier ≤ found.superblock.val.objectTransactionIdentifier
  latest : ∀ index < numberOfBlocks, ∀ transactionIdentifier,
    objectAt image (area + index) = some (superblockType, transactionIdentifier) →
      transactionIdentifier ≤ found.superblock.val.objectTransactionIdentifier
  map : (found.checkpointMapBlockNumber = 0 ∧ ∀ index < numberOfBlocks, mapAt image (area + index) = none) ∨
    ∃ index < numberOfBlocks, found.checkpointMapBlockNumber = area + index ∧ ∃ newest,
      mapAt image (area + index) = some newest ∧
        ∀ other < numberOfBlocks, ∀ transactionIdentifier, mapAt image (area + other) = some transactionIdentifier →
          transactionIdentifier ≤ newest

/-- The blocks of the area from a count on hold nothing newer, and the number for the newest map before them is that
of a block with a newest map. -/
structure Settled (image : Image) (start : ContainerSuperblock.Stored) (area numberOfBlocks count : Nat) : Prop where
  superblocks : ∀ index < numberOfBlocks, count ≤ index → ∀ transactionIdentifier,
    objectAt image (area + index) = some (superblockType, transactionIdentifier) →
      transactionIdentifier ≤ (latest image start count).val.objectTransactionIdentifier
  unmapped : newestMap image start count = none →
    ∀ index < numberOfBlocks, count ≤ index → mapAt image (area + index) = none
  mapped : ∀ newest, newestMap image start count = some newest →
    ∃ index < numberOfBlocks, mapNumber image start newest.1 = area + index ∧ ∃ transactionIdentifier,
      mapAt image (area + index) = some transactionIdentifier ∧ newest.2 ≤ transactionIdentifier ∧
        ∀ later < numberOfBlocks, count ≤ later → ∀ other, mapAt image (area + later) = some other →
          other ≤ transactionIdentifier

/-- The scan ends within the area: at a block that it cannot read, or at one after which the latest superblock
describes no more blocks than that and all of the area is settled. -/
def EndsWithin (image : Image) (start : ContainerSuperblock.Stored) (area numberOfBlocks : Nat) : Prop :=
  area < 2 ^ 32 ∧ ∃ last < numberOfBlocks, Reached image start last ∧
    (¬ Readable image (area + last) ∨
      (latest image start (last + 1)).val.checkpointDescriptorAreaNumberOfBlocks ≤ last ∧
        Settled image start area numberOfBlocks (last + 1))

variable {image : Image} {start : ContainerSuperblock.Stored} {area numberOfBlocks count : Nat}

theorem stored_le_latest {index transactionIdentifier : Nat} (readable : Readable image (number start index))
    (less : index < count)
    (object : objectAt image (number start index) = some (superblockType, transactionIdentifier)) :
    transactionIdentifier ≤ (latest image start count).val.objectTransactionIdentifier := by
  obtain ⟨type, transaction, found, stored⟩ := readable
  obtain ⟨rfl, rfl⟩ := Prod.mk.inj (Option.some.inj (found.symm.trans object))
  obtain ⟨superblock, stored⟩ := Option.isSome_iff_exists.mp (stored rfl)
  obtain ⟨_, same⟩ := Prod.mk.inj (Option.some.inj (object.symm.trans (storedAt_object stored)))
  rw [same]
  exact le_latest (mem_superblocks.mpr (Or.inr ⟨index, less, stored⟩))

section settled

variable (own : ∀ index, number start index = area + index) (inside : count ≤ numberOfBlocks)

include own inside

theorem Selects.settled (positive : 0 < count)
    (selects : Selects image start area numberOfBlocks (foundAfter image start count)) :
    Settled image start area numberOfBlocks count where
  superblocks index less _ := selects.latest index less
  unmapped absent index less _ := by
    rcases selects.map with ⟨_, all⟩ | ⟨found, _, number, newest, map, _⟩
    · exact all index less
    · have zero : area + found = 0 := by
        rw [← number]
        unfold foundAfter
        rw [absent]
        rfl
      have less : found < count := by omega
      have missing := newestMap_none absent less
      rw [own, map] at missing
      cases missing
  mapped newest found := by
    obtain ⟨less, map⟩ := newestMap_index found
    rw [own] at map
    have recorded : (foundAfter image start count).checkpointMapBlockNumber = mapNumber image start newest.1 := by
      unfold foundAfter
      rw [found]
      rfl
    rcases selects.map with ⟨_, all⟩ | ⟨index, within, number, transactionIdentifier, stored, largest⟩
    · rw [all newest.1 (by omega)] at map
      cases map
    · refine ⟨index, within, recorded.symm.trans number, transactionIdentifier, stored, ?_, ?_⟩
      · exact largest newest.1 (by omega) newest.2 map
      · exact fun later within _ => largest later within

theorem Settled.selects (readable : ∀ index < count, Readable image (number start index))
    (settled : Settled image start area numberOfBlocks count) :
    Selects image start area numberOfBlocks (foundAfter image start count) where
  kept := by
    rcases latest_source image start count with same | ⟨index, less, stored⟩
    · exact Or.inl same
    · rw [own] at stored
      exact Or.inr ⟨index, by omega, stored⟩
  start := le_latest (mem_superblocks.mpr (Or.inl rfl))
  latest index less transactionIdentifier object := by
    by_cases scanned : index < count
    · rw [← own] at object
      exact stored_le_latest (readable index scanned) scanned object
    · exact settled.superblocks index less (by omega) transactionIdentifier object
  map := by
    unfold foundAfter
    cases found : newestMap image start count with
    | none =>
        refine Or.inl ⟨rfl, fun index less => ?_⟩
        by_cases scanned : index < count
        · have missing := newestMap_none found scanned
          rw [own] at missing
          exact missing
        · exact settled.unmapped found index less (by omega)
    | some newest =>
        obtain ⟨index, less, number, transactionIdentifier, map, newer, largest⟩ := settled.mapped newest found
        refine Or.inr ⟨index, less, number, transactionIdentifier, map, fun other within stored map' => ?_⟩
        by_cases scanned : other < count
        · rw [← own] at map'
          exact Nat.le_trans (le_newestMap found scanned map') newer
        · exact largest other within (by omega) stored map'

end settled

def withOutside (image : Image) (area numberOfBlocks : Nat) (block : List UInt8) : Image := fun number =>
  if area ≤ number ∧ number < area + numberOfBlocks then image number else block

theorem withOutside_inside {block : List UInt8} {number : Nat}
    (inside : area ≤ number ∧ number < area + numberOfBlocks) :
    withOutside image area numberOfBlocks block number = image number := if_pos inside

theorem withOutside_outside {block : List UInt8} {number : Nat}
    (outside : ¬ (area ≤ number ∧ number < area + numberOfBlocks)) :
    withOutside image area numberOfBlocks block number = block := if_neg outside

theorem empty_unreadable {number : Nat} (empty : image number = []) : ¬ Readable image number := by
  rintro ⟨type, transactionIdentifier, found, _⟩
  obtain ⟨object, read, _⟩ := objectAt_some found
  obtain ⟨data, stored, _⟩ := bind_eq_ok.mp read
  have long := (Image.readBufferAtOffset_ok stored).1
  rw [Nat.mul_div_cancel number (by omega), empty] at long
  simp at long

def zeroBlock : List UInt8 := List.replicate 4096 0

theorem zeroBlock_object {number : Nat} (zero : image number = zeroBlock) : objectAt image number = some (0, 0) := by
  unfold objectAt Object.readFileIoHandle Image.readBufferAtOffset
  rw [Nat.mul_div_cancel number (by omega), Nat.mul_mod_left, zero]
  decide +kernel

theorem zeroBlock_readable {number : Nat} (zero : image number = zeroBlock) : Readable image number :=
  ⟨0, 0, zeroBlock_object zero, fun isSuperblock => by cases isSuperblock⟩

/-- A scan that reads a block outside of the area depends on the blocks there. -/
theorem outside_matters (area numberOfBlocks : Nat) (reached : Reached image start count)
    (inside : ∀ index < count, area ≤ number start index ∧ number start index < area + numberOfBlocks)
    (outside : ∀ index, count ≤ index → index < 2 ^ 31 →
      ¬ (area ≤ number start index ∧ number start index < area + numberOfBlocks)) :
    ∃ other : Image, (∀ index < numberOfBlocks, other (area + index) = image (area + index)) ∧
      scanArea other start ≠ scanArea image start := by
  have agrees : ∀ block, ∀ index < numberOfBlocks,
      withOutside image area numberOfBlocks block (area + index) = image (area + index) :=
    fun block index less => withOutside_inside ⟨by omega, by omega⟩
  have reaches : ∀ block, Reached (withOutside image area numberOfBlocks block) start count := fun block =>
    (reached_congr fun index less => withOutside_inside (inside index less)).mpr reached
  have bounded : count < 2 ^ 31 :=
    Nat.lt_of_le_of_lt reached.within (latest image start count).property.bounded
  -- with unreadable blocks outside the scan fails, with zero blocks it does not
  obtain ⟨failure, fails⟩ := scanArea_fails (reaches [])
    (empty_unreadable (withOutside_outside (outside count (Nat.le_refl count) bounded)))
  have completes : ∃ found, scanArea (withOutside image area numberOfBlocks zeroBlock) start = .ok found := by
    obtain ⟨last, reached, ends⟩ := exists_last (withOutside image area numberOfBlocks zeroBlock) start
    have late : count ≤ last := by
      by_contra early
      have goesOn := reaches zeroBlock last (by omega)
      rcases ends with unreadable | stops
      · exact unreadable goesOn.1
      · omega
    have below : last < 2 ^ 31 := Nat.lt_of_le_of_lt reached.within
      (latest (withOutside image area numberOfBlocks zeroBlock) start last).property.bounded
    have readable : Readable (withOutside image area numberOfBlocks zeroBlock) (number start last) :=
      zeroBlock_readable (withOutside_outside (outside last late below))
    exact ⟨_, scanArea_completes reached readable (ends.resolve_left (not_not.mpr readable))⟩
  obtain ⟨found, completes⟩ := completes
  by_cases same : scanArea (withOutside image area numberOfBlocks []) start = scanArea image start
  · refine ⟨_, agrees zeroBlock, ?_⟩
    rw [completes, ← same, fails]
    simp
  · exact ⟨_, agrees [], same⟩

/-- The scan keeps the latest superblock and the newest map of the area and depends on nothing else just if it ends
within the area. -/
theorem scanArea_selects {data : List UInt8} (read : ContainerSuperblock.readData data = .ok start.val)
    (stored : area = littleEndian ((data.drop 112).take 8)) :
    ((∀ found, scanArea image start = .ok found →
        Selects image start area start.val.checkpointDescriptorAreaNumberOfBlocks found) ∧
      ∀ other : Image, (∀ index < start.val.checkpointDescriptorAreaNumberOfBlocks,
        other (area + index) = image (area + index)) → scanArea other start = scanArea image start) ↔
      EndsWithin image start area start.val.checkpointDescriptorAreaNumberOfBlocks := by
  have truncated : start.val.checkpointDescriptorAreaBlockNumber = area % 2 ^ 32 := by
    rw [stored]
    exact (ContainerSuperblock.readData_ok read).2.2.2.2
  have bounded := start.property.bounded
  constructor
  · rintro ⟨selects, independent⟩
    have small : area < 2 ^ 32 := by
      by_contra large
      have reached : Reached image start 0 := fun _ less => absurd less (Nat.not_lt_zero _)
      obtain ⟨other, agrees, differs⟩ := outside_matters area start.val.checkpointDescriptorAreaNumberOfBlocks reached
        (fun _ less => absurd less (Nat.not_lt_zero _))
        (fun index _ less => by unfold number; omega)
      exact differs (independent other agrees)
    have own : ∀ index, number start index = area + index := by
      intro index
      unfold number
      rw [truncated, Nat.mod_eq_of_lt small]
    obtain ⟨last, reached, ends⟩ := exists_last image start
    have within : last < start.val.checkpointDescriptorAreaNumberOfBlocks := by
      by_contra late
      obtain ⟨other, agrees, differs⟩ := outside_matters area start.val.checkpointDescriptorAreaNumberOfBlocks
        (reached.mono (Nat.not_lt.mp late))
        (fun index less => by rw [own]; omega) (fun index _ _ => by rw [own]; omega)
      exact differs (independent other agrees)
    refine ⟨small, last, within, reached, ?_⟩
    by_cases readable : Readable image (area + last)
    · rw [← own] at readable
      have stops := ends.resolve_left (not_not.mpr readable)
      have kept := selects _ (scanArea_completes reached readable stops)
      exact Or.inr ⟨stops, kept.settled own within (Nat.succ_pos last)⟩
    · exact Or.inl readable
  · rintro ⟨small, last, within, reached, ends⟩
    have own : ∀ index, number start index = area + index := by
      intro index
      unfold number
      rw [truncated, Nat.mod_eq_of_lt small]
    rw [← own] at ends
    have follows : ∀ other : Image, (∀ index < start.val.checkpointDescriptorAreaNumberOfBlocks,
        other (area + index) = image (area + index)) →
        ∀ index < last + 1, other (number start index) = image (number start index) := by
      intro other agrees index less
      rw [own]
      exact agrees index (by omega)
    by_cases readable : Readable image (number start last)
    · obtain ⟨stops, settled⟩ := ends.resolve_left (not_not.mpr readable)
      have completes := scanArea_completes reached readable stops
      constructor
      · intro found scanned
        rw [completes] at scanned
        cases scanned
        refine settled.selects own within fun index less => ?_
        rcases Nat.lt_succ_iff_lt_or_eq.mp less with before | rfl
        · exact (reached index before).1
        · exact readable
      · intro other agrees
        have same := follows other agrees
        rw [completes, scanArea_completes ((reached_congr fun index less => same index (by omega)).mpr reached)
          ((readable_congr (same last (Nat.lt_succ_self last))).mpr readable) (by rw [latest_congr same]; exact stops),
          foundAfter_congr same]
    · obtain ⟨failure, failed⟩ := scanBlock_unreadable (foundAfter image start last) readable
      have fails := scanArea_fails_with reached failed
      constructor
      · intro found scanned
        rw [fails] at scanned
        cases scanned
      · intro other agrees
        have same := follows other agrees
        have before : ∀ index < last, other (number start index) = image (number start index) :=
          fun index less => same index (by omega)
        rw [← scanBlock_congr (same last (Nat.lt_succ_self last)), ← foundAfter_congr before] at failed
        rw [fails, scanArea_fails_with ((reached_congr before).mpr reached) failed]

end area

namespace Sample

def mapData (transactionIdentifier : Nat) : List UInt8 :=
  littleEndianBytes 8 0 ++ littleEndianBytes 8 2 ++ littleEndianBytes 8 transactionIdentifier ++
    littleEndianBytes 4 checkpointMapType ++ List.replicate (4096 - 28) 0

def image (following : List UInt8) : Image
  | 1 => mapData 5
  | 2 => following
  | _ => zeroBlock

/-- The area of four blocks begins with a newer superblock, whose area is its first block. -/
def shrunk : Image
  | 1 => superblockData 5 1 1 []
  | 2 => mapData 7
  | _ => zeroBlock

theorem superblocks_read :
    ContainerSuperblock.readData (superblockData 5 1 1 []) = .ok (ContainerSuperblock.Sample.superblock 5 1 1 []) ∧
    ContainerSuperblock.readData (superblockData 3 4 1 []) = .ok (ContainerSuperblock.Sample.superblock 3 4 1 []) ∧
    (superblockData 5 1 1 []).length = 4096 := by
  decide +kernel

theorem areas_stored : 1 = littleEndian (((superblockData 5 1 1 []).drop 112).take 8) ∧
    1 = littleEndian (((superblockData 3 4 1 []).drop 112).take 8) := by
  decide +kernel

theorem objects_stored : objectAt (image []) 1 = some (checkpointMapType, 5) ∧
    objectAt (image (mapData 9)) 2 = some (checkpointMapType, 9) ∧ objectAt shrunk 1 = some (superblockType, 5) ∧
    objectAt shrunk 2 = some (checkpointMapType, 7) := by
  decide +kernel

def start : ContainerSuperblock.Stored :=
  ⟨ContainerSuperblock.Sample.superblock 5 1 1 [], (ContainerSuperblock.readData_ok superblocks_read.1).1⟩

def wide : ContainerSuperblock.Stored :=
  ⟨ContainerSuperblock.Sample.superblock 3 4 1 [], (ContainerSuperblock.readData_ok superblocks_read.2.1).1⟩

theorem own_map (following : List UInt8) : objectAt (image following) 1 = some (checkpointMapType, 5) := by
  have same : image following 1 = image [] 1 := rfl
  rw [objectAt_congr same]
  exact objects_stored.1

theorem map_readable {block transactionIdentifier : Nat} {image : Image}
    (found : objectAt image block = some (checkpointMapType, transactionIdentifier)) : Readable image block :=
  ⟨checkpointMapType, transactionIdentifier, found, fun isSuperblock => absurd isSuperblock (by decide)⟩

theorem latest_start {following : List UInt8} : latest (image following) start 1 = start := by
  have absent : storedAt (image following) (number start 0) = none :=
    storedAt_none (own_map following) (by decide)
  rw [latest_succ, absent]
  rfl

theorem reached_following (following : List UInt8) : Reached (image following) start 1 := by
  intro index less
  obtain rfl : index = 0 := by omega
  have bound : start.val.checkpointDescriptorAreaNumberOfBlocks = 1 := rfl
  refine ⟨map_readable (own_map following), ?_⟩
  rw [latest_start, bound]
  exact Nat.zero_lt_one

theorem latest_following : latest (image (mapData 9)) start 2 = start := by
  have absent : storedAt (image (mapData 9)) (number start 1) = none := storedAt_none objects_stored.2.1 (by decide)
  rw [latest_succ, absent]
  exact latest_start

theorem unreadable_following : ¬ Readable (image []) (number start 1) := by
  have after : number start 1 = 2 := rfl
  rw [after]
  exact empty_unreadable rfl

theorem newest_following : newestMap (image (mapData 9)) start 2 = some (1, 9) := by
  have own : mapAt (image (mapData 9)) (number start 0) = some 5 := mapAt_some (own_map _) rfl (by omega)
  have following : mapAt (image (mapData 9)) (number start 1) = some 9 := mapAt_some objects_stored.2.1 rfl (by omega)
  rw [newestMap_succ, following, newestMap_succ, own]
  rfl

theorem shrunk_stored : storedAt shrunk 1 = some start ∧ storedAt shrunk 2 = none := by
  refine ⟨?_, storedAt_none objects_stored.2.2.2 (by decide)⟩
  have read : ContainerSuperblock.readFileIoHandle shrunk (1 * 4096) = .ok start :=
    ContainerSuperblock.readFileIoHandle_stored rfl superblocks_read.2.2 superblocks_read.1
  rw [storedAt_superblock objects_stored.2.2.1, read]
  rfl

theorem shrunk_latest : latest shrunk wide 1 = start ∧ latest shrunk wide 2 = start := by
  have first : latest shrunk wide 1 = start := by
    rw [latest_succ, show storedAt shrunk (number wide 0) = some start from shrunk_stored.1]
    rfl
  refine ⟨first, ?_⟩
  rw [latest_succ, show storedAt shrunk (number wide 1) = none from shrunk_stored.2, first]

theorem shrunk_newest : newestMap shrunk wide 2 = some (1, 7) := by
  have first : mapAt shrunk (number wide 0) = none :=
    mapAt_none objects_stored.2.2.1 fun same => absurd same (by decide)
  have second : mapAt shrunk (number wide 1) = some 7 := mapAt_some objects_stored.2.2.2 rfl (by decide)
  rw [newestMap_succ, second, newestMap_succ, first]
  rfl

theorem shrunk_settled : Settled shrunk wide 1 4 2 := by
  have behind : ∀ index < 4, 2 ≤ index → objectAt shrunk (1 + index) = some (0, 0) := by
    intro index less later
    refine zeroBlock_object ?_
    obtain rfl | rfl : index = 2 ∨ index = 3 := by omega
    · rfl
    · rfl
  have unmapped : ∀ index < 4, 2 ≤ index → mapAt shrunk (1 + index) = none := fun index less later =>
    mapAt_none (behind index less later) fun _ => rfl
  refine ⟨fun index less later transactionIdentifier object => ?_, fun _ => unmapped, fun newest found => ?_⟩
  · rw [behind index less later] at object
    cases object
  · obtain rfl := Option.some.inj (shrunk_newest.symm.trans found)
    refine ⟨1, by decide, ?_, 7, mapAt_some objects_stored.2.2.2 rfl (by decide), Nat.le_refl 7,
      fun later less after other map => ?_⟩
    · rw [mapNumber, shrunk_latest.1]
      rfl
    · rw [unmapped later less after] at map
      cases map

theorem shrunk_endsWithin : EndsWithin shrunk wide 1 4 := by
  refine ⟨by decide, 1, by decide, fun index less => ?_, Or.inr ⟨?_, shrunk_settled⟩⟩
  · obtain rfl : index = 0 := by omega
    refine ⟨⟨_, _, objects_stored.2.2.1, fun _ => ?_⟩, ?_⟩
    · rw [show storedAt shrunk (number wide 0) = some start from shrunk_stored.1]
      rfl
    · rw [shrunk_latest.1]
      exact Nat.zero_lt_one
  · rw [shrunk_latest.2]
    exact Nat.le_refl 1

end Sample

theorem scanArea_selects_sample :
    (∀ found, scanArea Sample.shrunk Sample.wide = .ok found → Selects Sample.shrunk Sample.wide 1 4 found) ∧
    (∀ other : Image, (∀ index < 4, other (1 + index) = Sample.shrunk (1 + index)) →
      scanArea other Sample.wide = scanArea Sample.shrunk Sample.wide) ∧
    ¬EndsWithin (Sample.image []) Sample.start 1 1 := by
  obtain ⟨selects, independent⟩ := (scanArea_selects Sample.superblocks_read.2.1 Sample.areas_stored.2).mpr Sample.shrunk_endsWithin
  refine ⟨selects, independent, fun ends => ?_⟩
  have same := ((scanArea_selects Sample.superblocks_read.1 Sample.areas_stored.1).mpr ends).2
  obtain ⟨failure, failed⟩ := scanArea_fails (Sample.reached_following []) Sample.unreadable_following
  have completes := scanArea_completes (Sample.reached_following (Sample.mapData 9))
    (Sample.map_readable Sample.objects_stored.2.1) (by rw [Sample.latest_following]; exact Nat.le_refl 1)
  have agrees : ∀ index < 1, Sample.image (Sample.mapData 9) (1 + index) = Sample.image [] (1 + index) := by
    intro index less
    rw [Nat.lt_one_iff.mp less]
    rfl
  rw [same (Sample.image (Sample.mapData 9)) agrees] at completes
  cases failed.symm.trans completes

/-- The block after the area decides: with a newer map there the scan keeps its number, and without data it fails. -/
theorem scanArea_outside :
    ContainerSuperblock.readData (superblockData 5 1 1 []) = .ok Sample.start.val ∧
    Sample.start.val.checkpointDescriptorAreaNumberOfBlocks = 1 ∧
    (∃ found, scanArea (Sample.image (Sample.mapData 9)) Sample.start = .ok found ∧
      found.checkpointMapBlockNumber = 2 ∧
      ¬ Selects (Sample.image (Sample.mapData 9)) Sample.start 1 1 found) ∧
    ∃ failure, scanArea (Sample.image []) Sample.start = .error failure := by
  have completes := scanArea_completes (Sample.reached_following (Sample.mapData 9))
    (Sample.map_readable Sample.objects_stored.2.1) (by rw [Sample.latest_following]; exact Nat.le_refl 1)
  have number : (foundAfter (Sample.image (Sample.mapData 9)) Sample.start 2).checkpointMapBlockNumber = 2 := by
    unfold foundAfter
    rw [Sample.newest_following]
    dsimp only [Option.elim_some]
    unfold mapNumber
    rw [Sample.latest_start]
    rfl
  refine ⟨Sample.superblocks_read.1, rfl, ⟨_, completes, number, fun selects => ?_⟩,
    scanArea_fails (Sample.reached_following []) Sample.unreadable_following⟩
  rcases selects.map with ⟨zero, _⟩ | ⟨index, less, same, _⟩
  · rw [number] at zero
    cases zero
  · rw [number] at same
    omega

end Checkpoint

end Fsapfs
