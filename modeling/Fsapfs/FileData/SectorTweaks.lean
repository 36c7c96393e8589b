import Fsapfs.ByteStream
import Fsapfs.FileData.Reads

namespace Fsapfs
open Program

/-- AES-XTS as libcaes computes it, from a tweak value and data; it keeps the size of the data. -/
structure AesXts where
  decrypt : List UInt8 → List UInt8 → List UInt8
  length : ∀ tweakValue data, (decrypt tweakValue data).length = data.length

def tweakValue (sectorNumber : Nat) : List UInt8 := littleEndianBytes 8 sectorNumber ++ List.replicate 8 0

section crypt

variable (aesXts : AesXts) (bytesPerSector : Nat)

def cryptSectors : Nat → Nat → List UInt8 → Result (List UInt8)
  | _, _, [] => .ok []
  | 0, _, _ :: _ => .error .unfinished
  | fuel + 1, sectorNumber, byte :: data =>
      if (byte :: data).length < bytesPerSector then .error .undefined
      else do
        let output := aesXts.decrypt (tweakValue sectorNumber) ((byte :: data).take bytesPerSector)
        let rest ← cryptSectors fuel ((sectorNumber + 1) % 2 ^ 64) ((byte :: data).drop bytesPerSector)
        return output ++ rest

def crypt (sectorNumber : Nat) (data : List UInt8) : Result (List UInt8) :=
  if data.length > ssizeMax then fail .valueExceedsMaximum
  else cryptSectors aesXts bytesPerSector data.length sectorNumber data

variable {aesXts bytesPerSector}

theorem cryptSectors_length {fuel sectorNumber : Nat} {data output : List UInt8}
    (decrypted : cryptSectors aesXts bytesPerSector fuel sectorNumber data = .ok output) :
    output.length = data.length := by
  induction fuel generalizing sectorNumber data output with
  | zero =>
      cases data with
      | nil => cases Except.ok.inj decrypted; rfl
      | cons byte data => cases decrypted
  | succ fuel ih =>
      cases data with
      | nil => cases Except.ok.inj decrypted; rfl
      | cons byte data =>
          unfold cryptSectors at decrypted
          split at decrypted
          · cases decrypted
          next whole =>
            obtain ⟨rest, after, same⟩ := bind_eq_ok.mp decrypted
            cases Except.ok.inj same
            rw [List.length_append, aesXts.length, ih after, ← List.length_append, List.take_append_drop]

theorem crypt_length {sectorNumber : Nat} {data output : List UInt8}
    (decrypted : crypt aesXts bytesPerSector sectorNumber data = .ok output) : output.length = data.length := by
  unfold crypt at decrypted
  split at decrypted
  · cases decrypted
  · exact cryptSectors_length decrypted

theorem cryptSectors_ok (positive : 0 < bytesPerSector) {sectors fuel sectorNumber : Nat} {data : List UInt8}
    (whole : data.length = sectors * bytesPerSector) (enough : sectors ≤ fuel) (small : sectorNumber + sectors < 2 ^ 64) :
    ∃ output, cryptSectors aesXts bytesPerSector fuel sectorNumber data = .ok output ∧ ∀ index < sectors,
      (output.drop (index * bytesPerSector)).take bytesPerSector =
        aesXts.decrypt (tweakValue (sectorNumber + index)) ((data.drop (index * bytesPerSector)).take bytesPerSector) := by
  induction sectors generalizing fuel sectorNumber data with
  | zero =>
      rw [Nat.zero_mul, List.length_eq_zero_iff] at whole
      subst whole
      exact ⟨[], by cases fuel <;> rfl, fun index inside => absurd inside (Nat.not_lt_zero index)⟩
  | succ sectors ih =>
      obtain ⟨fuel, rfl⟩ := Nat.exists_eq_succ_of_ne_zero (show fuel ≠ 0 by omega)
      rw [Nat.succ_mul] at whole
      have left : (data.drop bytesPerSector).length = sectors * bytesPerSector := by
        rw [List.length_drop]
        omega
      obtain ⟨rest, run, each⟩ := ih left (show sectors ≤ fuel by omega) (show sectorNumber + 1 + sectors < 2 ^ 64 by omega)
      have first : (aesXts.decrypt (tweakValue sectorNumber) (data.take bytesPerSector)).length = bytesPerSector := by
        rw [aesXts.length, List.length_take]
        omega
      refine ⟨aesXts.decrypt (tweakValue sectorNumber) (data.take bytesPerSector) ++ rest, ?_, ?_⟩
      · cases data with
        | nil =>
            rw [List.length_nil] at whole
            omega
        | cons byte data =>
            rw [cryptSectors, if_neg (by omega), Nat.mod_eq_of_lt (by omega), run]
            rfl
      · intro index inside
        cases index with
        | zero => rw [Nat.zero_mul, List.drop_zero, List.drop_zero, List.take_left' first]; rfl
        | succ index =>
            have next : (index + 1) * bytesPerSector = bytesPerSector + index * bytesPerSector := by
              rw [Nat.succ_mul, Nat.add_comm]
            rw [next, ← List.drop_drop, ← List.drop_drop, List.drop_left' first, each index (by omega),
              Nat.add_assoc, Nat.add_comm 1]

end crypt

/-- The context of a volume key: it decrypts the sectors of a block one by one. -/
def EncryptionContext.ofXts (aesXts : AesXts) (bytesPerSector : Nat) : EncryptionContext where
  crypt := Fsapfs.crypt aesXts bytesPerSector
  length := crypt_length

section blocks

variable {aesXts : AesXts} {ioHandle : IoHandle} {content : Nat → UInt8} {storageSize : Nat}

/-- The sector sizes go into the block sizes. -/
structure IoHandle.Sectored (ioHandle : IoHandle) : Prop extends ioHandle.Valid where
  divides : ioHandle.bytesPerSector ∣ ioHandle.blockSize

theorem IoHandle.Sectored.positive (sectored : ioHandle.Sectored) : 0 < ioHandle.bytesPerSector :=
  Nat.pos_of_ne_zero sectored.bytesPerSector

theorem sector_inside {sector : Nat} (below : sector < ioHandle.blockSize / ioHandle.bytesPerSector) :
    sector * ioHandle.bytesPerSector + ioHandle.bytesPerSector ≤ ioHandle.blockSize := by
  rw [← Nat.succ_mul]
  exact Nat.le_trans (Nat.mul_le_mul_right _ below) (Nat.div_mul_le_self _ _)

variable (aesXts ioHandle content) in
def decryptedSector (identifier offset sector : Nat) : List UInt8 :=
  aesXts.decrypt (tweakValue (identifier * (ioHandle.blockSize / ioHandle.bytesPerSector) + sector))
    (contents content (offset + sector * ioHandle.bytesPerSector) ioHandle.bytesPerSector)

/-- A block in which every sector is decrypted with its own number. -/
structure DecryptedBlock (aesXts : AesXts) (ioHandle : IoHandle) (content : Nat → UInt8) (identifier offset : Nat)
    (block : List UInt8) : Prop where
  length : block.length = ioHandle.blockSize
  sectors : ∀ sector < ioHandle.blockSize / ioHandle.bytesPerSector,
    (block.drop (sector * ioHandle.bytesPerSector)).take ioHandle.bytesPerSector =
      decryptedSector aesXts ioHandle content identifier offset sector

theorem readDataBlockAt_decrypts (sectored : ioHandle.Sectored) {identifier offset : Nat}
    (small : (identifier + 1) * ioHandle.blockSize < 2 ^ 64) (stored : offset + ioHandle.blockSize ≤ storageSize) :
    ∃ block, readDataBlockAt ioHandle (some (.ofXts aesXts ioHandle.bytesPerSector)) (.ofContent content storageSize)
        ioHandle.blockSize offset identifier = .ok block ∧
      DecryptedBlock aesXts ioHandle content identifier offset block := by
  have positive := sectored.positive
  have addressable : ioHandle.blockSize ≤ ssizeMax := Nat.le_trans sectored.blockSize_le (by decide)
  have whole := Nat.div_mul_cancel sectored.divides
  have number : identifier * ioHandle.blockSize % 2 ^ 64 / ioHandle.bytesPerSector =
      identifier * (ioHandle.blockSize / ioHandle.bytesPerSector) := by
    rw [Nat.succ_mul] at small
    rw [Nat.mod_eq_of_lt (by omega), Nat.mul_div_assoc _ sectored.divides]
  have fits : identifier * (ioHandle.blockSize / ioHandle.bytesPerSector) +
      ioHandle.blockSize / ioHandle.bytesPerSector < 2 ^ 64 := by
    rw [← Nat.succ_mul]
    exact Nat.lt_of_le_of_lt (Nat.mul_le_mul_left _ (Nat.div_le_self _ _)) small
  have length : (contents content offset ioHandle.blockSize).length =
      ioHandle.blockSize / ioHandle.bytesPerSector * ioHandle.bytesPerSector := by rw [contents_length, whole]
  obtain ⟨block, decrypted, each⟩ := @cryptSectors_ok aesXts _ positive _ ioHandle.blockSize _ _ length
    (Nat.div_le_self _ _) fits
  refine ⟨block, ?_, ?_, fun sector below => ?_⟩
  · unfold readDataBlockAt
    rw [if_neg (Nat.ne_of_gt sectored.blockSize), if_neg (Nat.not_lt.mpr addressable), if_neg sectored.bytesPerSector,
      DataStream.readExactly_ofContent content addressable stored, ok_bind, number]
    change Fsapfs.crypt aesXts _ _ _ = _
    unfold Fsapfs.crypt
    rw [contents_length, if_neg (Nat.not_lt.mpr addressable), decrypted]
  · rw [cryptSectors_length decrypted, contents_length]
  · have inside := sector_inside below
    rw [each sector below, decryptedSector]
    congr 1
    obtain ⟨rest, size⟩ := Nat.exists_eq_add_of_le (show sector * ioHandle.bytesPerSector ≤ ioHandle.blockSize by omega)
    rw [size, drop_contents, take_contents content _ (by omega)]

theorem encryptionIdentifier_extent {handle : FileSystemDataHandle} {extents : List FileExtent} {index : Nat}
    {extent : FileExtent} (given : handle.fileExtents = some extents) (found : extents[index]? = some extent)
    {blockSize block : Nat} (positive : 0 < blockSize) (near : extent.physicalBlockNumber < 2 ^ 64)
    (small : extent.encryptionIdentifier + block < 2 ^ 64) (isSparse : Bool) :
    handle.encryptionIdentifier ⟨index, extent.physicalBlockNumber * blockSize + block * blockSize, blockSize, isSparse⟩ =
      .ok (extent.encryptionIdentifier + block) := by
  unfold FileSystemDataHandle.encryptionIdentifier
  rw [given]
  dsimp only
  rw [found]
  dsimp only
  rw [← Nat.add_mul, Nat.mul_div_cancel _ positive, Nat.mod_eq_of_lt near]
  exact congrArg Except.ok (by omega)

theorem encryptionIdentifier_block {handle : FileSystemDataHandle} (none : handle.fileExtents = none)
    {blockSize block : Nat} (positive : 0 < blockSize) (index : Nat) (isSparse : Bool) :
    handle.encryptionIdentifier ⟨index, block * blockSize, blockSize, isSparse⟩ = .ok block := by
  unfold FileSystemDataHandle.encryptionIdentifier
  rw [none]
  exact congrArg Except.ok (Nat.mul_div_cancel _ positive)

theorem readDataBlock_decrypts {handle : FileSystemDataHandle} (sectored : handle.ioHandle.Sectored)
    (encrypted : handle.encryptionContext = some (.ofXts aesXts handle.ioHandle.bytesPerSector))
    {index offset identifier : Nat}
    (identified : handle.encryptionIdentifier ⟨index, offset, handle.ioHandle.blockSize, false⟩ = .ok identifier)
    (small : (identifier + 1) * handle.ioHandle.blockSize < 2 ^ 64)
    (stored : offset + handle.ioHandle.blockSize ≤ storageSize) :
    ∃ block, handle.readDataBlock (.ofContent content storageSize)
        ⟨index, offset, handle.ioHandle.blockSize, false⟩ = .ok block ∧
      DecryptedBlock aesXts handle.ioHandle content identifier offset block := by
  obtain ⟨block, read, decrypted⟩ := @readDataBlockAt_decrypts aesXts _ content _ sectored _ _ small stored
  have addressable : handle.ioHandle.blockSize ≤ ssizeMax := Nat.le_trans sectored.blockSize_le (by decide)
  refine ⟨block, ?_, decrypted⟩
  unfold FileSystemDataHandle.readDataBlock
  dsimp only
  rw [if_neg (Nat.not_lt.mpr addressable), if_neg (Nat.not_lt.mpr sectored.blockSize_le), if_neg (by decide),
    if_neg (Nat.ne_of_gt sectored.blockSize), identified, ok_bind, encrypted, read]

end blocks

section reads

variable {aesXts : AesXts} {ioHandle : IoHandle} {content : Nat → UInt8} {storageSize : Nat}
  {extents : List FileExtent} {isSparse : Bool}

theorem appendExtents_segment {blockSize index position : Nat} {segments : List Segment}
    (created : DataBlockVector.appendExtents blockSize isSparse extents index position = .ok segments)
    (ends : ∀ extent ∈ extents, extent.logicalOffset + extent.dataSize < 2 ^ 64) {place : Nat} {extent : FileExtent}
    (found : extents[place]? = some extent) :
    ∃ before after,
      segments = before ++ DataBlockVector.extentSegment blockSize isSparse (index + place) extent :: after ∧
      position + vectorSize before = extent.logicalOffset := by
  induction extents generalizing index position segments place with
  | nil => cases found
  | cons first extents ih =>
      obtain ⟨near, ends⟩ := List.forall_mem_cons.mp ends
      unfold DataBlockVector.appendExtents at created
      split at created
      · cases created
      next follows =>
        split at created
        · cases created
        obtain ⟨rest, after, same⟩ := bind_eq_ok.mp created
        cases Except.ok.inj same
        rw [Nat.mod_eq_of_lt near] at after
        cases place with
        | zero =>
            cases Option.some.inj found
            refine ⟨DataBlockVector.gapSegment (extent.logicalOffset - position), rest, rfl, ?_⟩
            rw [vectorSize_gap]
            omega
        | succ place =>
            obtain ⟨before, others, split, reaches⟩ := ih after ends found
            refine ⟨DataBlockVector.gapSegment (first.logicalOffset - position) ++
              DataBlockVector.extentSegment blockSize isSparse index first :: before, others, ?_, ?_⟩
            · rw [split, List.append_assoc, List.cons_append, Nat.add_assoc, Nat.add_comm 1]
            · rw [vectorSize_append, vectorSize_gap, vectorSize_cons]
              change position + (first.logicalOffset - position + (first.dataSize + vectorSize before)) = _
              omega

theorem elementAt_sector (libfdata : Libfdata) (sectored : ioHandle.Sectored) (before after : List Segment)
    {segment : Segment} {block sector : Nat} (whole : ioHandle.blockSize ∣ segment.size)
    (inside : block * ioHandle.blockSize < segment.size)
    (below : sector < ioHandle.blockSize / ioHandle.bytesPerSector) :
    block * ioHandle.blockSize + ioHandle.blockSize ≤ segment.size ∧
      libfdata.elementAt ioHandle.blockSize (before ++ segment :: after)
        (vectorSize before + (block * ioHandle.blockSize + sector * ioHandle.bytesPerSector)) =
      some (⟨segment.fileIndex, segment.offset + block * ioHandle.blockSize, ioHandle.blockSize, segment.isSparse⟩,
        sector * ioHandle.bytesPerSector) := by
  have inSector := sector_inside below
  have positive := sectored.positive
  have fits : block * ioHandle.blockSize + ioHandle.blockSize ≤ segment.size := by
    obtain ⟨blocks, size⟩ := whole
    rw [size, Nat.mul_comm] at inside
    rw [size, Nat.mul_comm ioHandle.blockSize, ← Nat.succ_mul]
    exact Nat.mul_le_mul_right _ (Nat.lt_of_mul_lt_mul_left inside)
  have quotient : (block * ioHandle.blockSize + sector * ioHandle.bytesPerSector) / ioHandle.blockSize = block := by
    rw [Nat.add_comm, Nat.add_mul_div_right _ _ sectored.blockSize, Nat.div_eq_of_lt (by omega), Nat.zero_add]
  have remainder : (block * ioHandle.blockSize + sector * ioHandle.bytesPerSector) % ioHandle.blockSize =
      sector * ioHandle.bytesPerSector := by
    rw [Nat.add_comm, Nat.add_mul_mod_self_right, Nat.mod_eq_of_lt (by omega)]
  refine ⟨fits, ?_⟩
  rw [libfdata.maps before after sectored.blockSize (by omega), quotient, remainder, Segment.element,
    Nat.min_eq_left (by omega)]

/-- The extent of a position in encrypted data: a block in an extent that has stored bytes. -/
structure EncryptedBlock (ioHandle : IoHandle) (storageSize : Nat) (isSparse : Bool) (extents : List FileExtent)
    (index : Nat) (extent : FileExtent) (block : Nat) : Prop where
  found : extents[index]? = some extent
  plain : ¬extent.IsHole isSparse
  inside : block * ioHandle.blockSize < extent.dataSize
  small : (extent.encryptionIdentifier + block + 1) * ioHandle.blockSize < 2 ^ 64
  stored : extent.physicalBlockNumber * ioHandle.blockSize + (block + 1) * ioHandle.blockSize ≤ storageSize

/-- The extents are whole blocks that end at offsets of 64 bits. -/
structure WholeBlocks (blockSize : Nat) (extents : List FileExtent) : Prop where
  whole : ∀ extent ∈ extents, blockSize ∣ extent.dataSize
  ends : ∀ extent ∈ extents, extent.logicalOffset + extent.dataSize < 2 ^ 64

variable {index block sector size : Nat} {extent : FileExtent} {handle after : DataBlockDataHandle}

theorem getElementValueAtOffset_decrypts (libfdata : Libfdata) (sectored : ioHandle.Sectored)
    (storage : storageSize ≤ off64Max)
    (created : DataBlockDataHandle.create ioHandle (some (.ofXts aesXts ioHandle.bytesPerSector)) extents isSparse =
      .ok handle)
    (blocks : WholeBlocks ioHandle.blockSize extents)
    (position : EncryptedBlock ioHandle storageSize isSparse extents index extent block)
    (below : sector < ioHandle.blockSize / ioHandle.bytesPerSector) (moved : Moved handle after)
    (current : after.currentOffset =
      extent.logicalOffset + block * ioHandle.blockSize + sector * ioHandle.bytesPerSector) :
    after.currentOffset < after.dataSize ∧ ∃ data,
      after.getElementValueAtOffset libfdata (.ofContent content storageSize) =
        .ok (data, sector * ioHandle.bytesPerSector) ∧
      DecryptedBlock aesXts ioHandle content (extent.encryptionIdentifier + block)
        (extent.physicalBlockNumber * ioHandle.blockSize + block * ioHandle.blockSize) data := by
  obtain ⟨segments, built, same⟩ := bind_eq_ok.mp created
  cases Except.ok.inj same
  obtain ⟨offset, rfl⟩ := moved
  change offset = _ at current
  obtain ⟨before, others, vector, reaches⟩ := appendExtents_segment built blocks.ends position.found
  rw [Nat.zero_add] at reaches vector
  have whole := blocks.whole extent (List.mem_of_getElem? position.found)
  obtain ⟨fits, element⟩ := elementAt_sector libfdata sectored before others
    (show ioHandle.blockSize ∣ (DataBlockVector.extentSegment ioHandle.blockSize isSparse index extent).size from whole)
    position.inside below
  change block * ioHandle.blockSize + ioHandle.blockSize ≤ extent.dataSize at fits
  have inSector := sector_inside below
  have positive := sectored.positive
  have stored := position.stored
  rw [Nat.succ_mul] at stored
  have near : extent.physicalBlockNumber * ioHandle.blockSize < 2 ^ 64 := by
    unfold off64Max at storage
    omega
  have place : vectorSize before + (block * ioHandle.blockSize + sector * ioHandle.bytesPerSector) = offset := by omega
  have plain : (DataBlockVector.extentSegment ioHandle.blockSize isSparse index extent).isSparse = false :=
    Bool.eq_false_iff.mpr (mt extentSegment_isSparse.mp position.plain)
  have start : (DataBlockVector.extentSegment ioHandle.blockSize isSparse index extent).offset =
      extent.physicalBlockNumber * ioHandle.blockSize := Nat.mod_eq_of_lt near
  have file : (DataBlockVector.extentSegment ioHandle.blockSize isSparse index extent).fileIndex = index := rfl
  rw [place, ← vector, plain, start, file] at element
  have identified := @encryptionIdentifier_extent
    ⟨ioHandle, some (.ofXts aesXts ioHandle.bytesPerSector), some extents⟩ extents index extent rfl position.found
    ioHandle.blockSize block sectored.blockSize
    (Nat.lt_of_le_of_lt (Nat.le_mul_of_pos_right _ sectored.blockSize) near)
    (Nat.lt_of_le_of_lt (Nat.le_trans (Nat.le_succ _) (Nat.le_mul_of_pos_right _ sectored.blockSize)) position.small)
    false
  obtain ⟨data, read, decrypted⟩ := @readDataBlock_decrypts aesXts content storageSize
    ⟨ioHandle, some (.ofXts aesXts ioHandle.bytesPerSector), some extents⟩ sectored rfl _ _ _ identified position.small
    (by dsimp only; omega)
  constructor
  · change offset < vectorSize segments
    rw [vector, vectorSize_append, vectorSize_cons]
    change offset < vectorSize before + (extent.dataSize + vectorSize others)
    omega
  · refine ⟨data, ?_, decrypted⟩
    unfold DataBlockDataHandle.getElementValueAtOffset
    dsimp only [DataBlockDataHandle.setCurrentOffset] at read ⊢
    rw [element]
    dsimp only
    rw [read]
    rfl

theorem readBufferAtOffset_one {libfdata : Libfdata} {fileIoHandle : DataStream} {streamSize offset dataBlockOffset : Nat}
    {data : List UInt8} (inside : offset + size ≤ addressable streamSize) (positive : 0 < size)
    (reached : offset < handle.dataSize)
    (element : (DataBlockDataHandle.setCurrentOffset offset handle).getElementValueAtOffset libfdata fileIoHandle =
      .ok (data, dataBlockOffset))
    (enough : dataBlockOffset + size ≤ data.length) :
    (DataBlockDataHandle.readBufferAtOffset libfdata fileIoHandle streamSize offset size handle).1 =
      .ok ((data.drop dataBlockOffset).take size) := by
  unfold addressable at inside
  have near : offset + size ≤ off64Max := Nat.le_trans inside (Nat.min_le_right _ _)
  have sought : DataBlockDataHandle.seekSegmentOffset 0 offset handle =
      (.ok (offset : Int), DataBlockDataHandle.setCurrentOffset offset handle) := by
    unfold DataBlockDataHandle.seekSegmentOffset
    rw [if_neg (by decide), if_neg (by omega)]
    rfl
  have length : ((data.drop dataBlockOffset).take size).length = size := by
    rw [List.length_take, List.length_drop]
    omega
  obtain ⟨fuel, rfl⟩ := Nat.exists_eq_add_of_lt positive
  rw [Nat.zero_add] at *
  have blocks : (DataBlockDataHandle.readBlocks libfdata fileIoHandle (fuel + 1) (fuel + 1)
      (DataBlockDataHandle.setCurrentOffset offset handle)).1 = .ok ((data.drop dataBlockOffset).take (fuel + 1)) := by
    unfold DataBlockDataHandle.readBlocks
    rw [Call.self_bind, Call.bind_of_ok (Call.lift_run _ _ |>.trans (by rw [element]))]
    dsimp only
    rw [if_neg (by omega), length, if_neg (by change ¬offset + (fuel + 1) > off64Max; omega), Call.update_bind]
    split
    · rfl
    · rw [Nat.sub_self]
      have none (fuel : Nat) : DataBlockDataHandle.readBlocks libfdata fileIoHandle fuel 0 = pure [] := by
        cases fuel <;> rfl
      rw [none]
      change Except.ok (_ ++ []) = _
      rw [List.append_nil]
  unfold DataBlockDataHandle.readBufferAtOffset
  rw [if_neg (by omega), Call.bind_of_ok sought, Nat.min_eq_left (by omega)]
  unfold DataBlockDataHandle.readSegmentData
  rw [if_neg (by decide), if_neg (by unfold ssizeMax; unfold off64Max at near; omega), Call.self_bind,
    if_neg (show ¬(DataBlockDataHandle.setCurrentOffset offset handle).currentOffset ≥
      (DataBlockDataHandle.setCurrentOffset offset handle).dataSize from Nat.not_le.mpr reached)]
  exact blocks

/-- A sector is what the vector has at its offset, and what a read of it returns after any reads. -/
def ReadsSector (libfdata : Libfdata) (fileIoHandle : DataStream) (stream : FileDataStream) (offset bytesPerSector : Nat)
    (bytes : List UInt8) : Prop :=
  (∀ after, Moved stream.handle after → after.currentOffset = offset → ∃ data dataBlockOffset,
    after.getElementValueAtOffset libfdata fileIoHandle = .ok (data, dataBlockOffset) ∧
    (data.drop dataBlockOffset).take bytesPerSector = bytes) ∧
  (offset + bytesPerSector ≤ addressable stream.size → ∀ reads,
    ((run (FileDataStream.step libfdata fileIoHandle) stream reads).readBufferAtOffset libfdata fileIoHandle offset
      bytesPerSector).1 = .ok bytes)

theorem readsSector_extent (libfdata : Libfdata) (sectored : ioHandle.Sectored) (storage : storageSize ≤ off64Max)
    {stream : FileDataStream}
    (created : FileDataStream.createFromFileExtents ioHandle (some (.ofXts aesXts ioHandle.bytesPerSector)) extents size
      isSparse = .ok stream)
    (blocks : WholeBlocks ioHandle.blockSize extents)
    (position : EncryptedBlock ioHandle storageSize isSparse extents index extent block)
    (below : sector < ioHandle.blockSize / ioHandle.bytesPerSector) :
    ReadsSector libfdata (.ofContent content storageSize) stream
      (extent.logicalOffset + block * ioHandle.blockSize + sector * ioHandle.bytesPerSector) ioHandle.bytesPerSector
      (decryptedSector aesXts ioHandle content (extent.encryptionIdentifier + block)
        (extent.physicalBlockNumber * ioHandle.blockSize + block * ioHandle.blockSize) sector) := by
  obtain ⟨handle, made, same⟩ := bind_eq_ok.mp created
  cases Except.ok.inj same
  have inSector := sector_inside below
  constructor
  · intro after moved current
    obtain ⟨_, data, element, decrypted⟩ := @getElementValueAtOffset_decrypts aesXts ioHandle content _ _ _ _ _ _ _ _ _
      libfdata sectored storage made blocks position below moved current
    exact ⟨data, _, element, decrypted.sectors sector below⟩
  · intro inside reads
    obtain ⟨handle', ran, moved⟩ := FileDataStream.run_moved libfdata content storageSize ⟨size, handle⟩ reads
    have moved' : Moved handle (DataBlockDataHandle.setCurrentOffset
        (extent.logicalOffset + block * ioHandle.blockSize + sector * ioHandle.bytesPerSector) handle') :=
      moved.trans ⟨_, rfl⟩
    obtain ⟨reached, data, element, decrypted⟩ := @getElementValueAtOffset_decrypts aesXts ioHandle content _ _ _ _ _ _ _ _ _
      libfdata sectored storage made blocks position below moved' rfl
    have enough : sector * ioHandle.bytesPerSector + ioHandle.bytesPerSector ≤ data.length := by
      rw [decrypted.length]
      exact inSector
    rw [ran, ← decrypted.sectors sector below]
    exact @readBufferAtOffset_one _ handle' _ _ _ _ _ _ inside sectored.positive reached element enough

def containerSegment (containerSize : Nat) : Segment := ⟨0, 0, containerSize, false⟩

theorem readDataBlock_metadata (sectored : ioHandle.Sectored) {containerSize : Nat}
    (inside : (block + 1) * ioHandle.blockSize ≤ containerSize)
    (small : (block + 1) * ioHandle.blockSize < 2 ^ 64) (stored : (block + 1) * ioHandle.blockSize ≤ storageSize) :
    ∃ data, FileSystemDataHandle.readDataBlock ⟨ioHandle, some (.ofXts aesXts ioHandle.bytesPerSector), none⟩
        (.ofContent content storageSize) ((containerSegment containerSize).element ioHandle.blockSize block) = .ok data ∧
      DecryptedBlock aesXts ioHandle content block (block * ioHandle.blockSize) data := by
  have element : (containerSegment containerSize).element ioHandle.blockSize block =
      ⟨0, block * ioHandle.blockSize, ioHandle.blockSize, false⟩ := by
    rw [Nat.succ_mul] at inside
    unfold Segment.element containerSegment
    dsimp only
    rw [Nat.zero_add, Nat.min_eq_left (by omega)]
  rw [Nat.succ_mul] at stored
  rw [element]
  exact @readDataBlock_decrypts aesXts content storageSize
    ⟨ioHandle, some (.ofXts aesXts ioHandle.bytesPerSector), none⟩ sectored rfl _ _ _
    (encryptionIdentifier_block rfl sectored.blockSize 0 false) small stored

/-- Every sector of an extent that has stored bytes is decrypted with its own number, counted from the identifier of
the extent on, and every sector of another block with that of the block. -/
theorem sectors_decrypted (libfdata : Libfdata) (aesXts : AesXts) (content : Nat → UInt8) (sectored : ioHandle.Sectored)
    (storage : storageSize ≤ off64Max) :
    (∀ extents isSparse size stream,
      FileDataStream.createFromFileExtents ioHandle (some (.ofXts aesXts ioHandle.bytesPerSector)) extents size
        isSparse = .ok stream → WholeBlocks ioHandle.blockSize extents →
      ∀ index extent block, EncryptedBlock ioHandle storageSize isSparse extents index extent block →
      ∀ sector < ioHandle.blockSize / ioHandle.bytesPerSector,
        ReadsSector libfdata (.ofContent content storageSize) stream
          (extent.logicalOffset + block * ioHandle.blockSize + sector * ioHandle.bytesPerSector) ioHandle.bytesPerSector
          (aesXts.decrypt
            (tweakValue ((extent.encryptionIdentifier + block) * (ioHandle.blockSize / ioHandle.bytesPerSector) + sector))
            (contents content (extent.physicalBlockNumber * ioHandle.blockSize + block * ioHandle.blockSize +
              sector * ioHandle.bytesPerSector) ioHandle.bytesPerSector))) ∧
    (∀ containerSize block, (block + 1) * ioHandle.blockSize ≤ containerSize →
      (block + 1) * ioHandle.blockSize < 2 ^ 64 → (block + 1) * ioHandle.blockSize ≤ storageSize →
      ∃ data, FileSystemDataHandle.readDataBlock ⟨ioHandle, some (.ofXts aesXts ioHandle.bytesPerSector), none⟩
          (.ofContent content storageSize) ((containerSegment containerSize).element ioHandle.blockSize block) = .ok data ∧
        ∀ sector < ioHandle.blockSize / ioHandle.bytesPerSector,
          (data.drop (sector * ioHandle.bytesPerSector)).take ioHandle.bytesPerSector =
            aesXts.decrypt (tweakValue (block * (ioHandle.blockSize / ioHandle.bytesPerSector) + sector))
              (contents content (block * ioHandle.blockSize + sector * ioHandle.bytesPerSector)
                ioHandle.bytesPerSector)) := by
  constructor
  · intro extents isSparse size stream created blocks index extent block position sector below
    exact readsSector_extent libfdata sectored storage created blocks position below
  · intro containerSize block inside small stored
    obtain ⟨data, read, decrypted⟩ := readDataBlock_metadata sectored inside small stored
    exact ⟨data, read, decrypted.sectors⟩

end reads

namespace Sample

def sectorIoHandle : IoHandle := ⟨16, 32⟩

theorem sectorIoHandle_sectored : sectorIoHandle.Sectored where
  blockSize := by decide
  blockSize_le := by decide
  bytesPerSector := by decide
  divides := by decide

def aesXts : AesXts where
  decrypt tweakValue data :=
    if tweakValue = Fsapfs.tweakValue 17 ∧ data = contents UInt8.ofNat 208 16 then
      [154, 255, 47, 154, 230, 82, 41, 80, 223, 122, 111, 57, 180, 12, 8, 71]
    else if tweakValue = Fsapfs.tweakValue 14 ∧ data = contents UInt8.ofNat 0 16 then
      [207, 76, 171, 99, 232, 156, 87, 124, 45, 108, 53, 253, 203, 217, 172, 27]
    else data
  length tweakValue data := by
    split
    next known => rw [known.2, contents_length]; rfl
    next =>
      split
      next known => rw [known.2, contents_length]; rfl
      next => rfl

def encryptedExtents (physicalBlockNumber : Nat) : List FileExtent :=
  [⟨.fileExtent, 20, 0, physicalBlockNumber, 64, 7⟩]

def encryptedStream (physicalBlockNumber : Nat) (isSparse : Bool) : FileDataStream where
  size := 64
  handle := {
    currentOffset := 0
    dataSize := 64
    fileSystemDataHandle := ⟨sectorIoHandle, some (.ofXts aesXts 16), some (encryptedExtents physicalBlockNumber)⟩
    dataBlockVector := [⟨0, physicalBlockNumber * 32, 64, isSparse⟩] }

theorem encryptedExtents_wholeBlocks (physicalBlockNumber : Nat) :
    WholeBlocks 32 (encryptedExtents physicalBlockNumber) where
  whole extent member := by
    rw [List.mem_singleton.mp member]
    exact ⟨2, rfl⟩
  ends extent member := by
    rw [List.mem_singleton.mp member]
    exact (by decide : 0 + 64 < 2 ^ 64)

end Sample

theorem sectors_decrypted_sample :
    ReadsSector .inOrder (.ofContent UInt8.ofNat 1000) (Sample.encryptedStream 5 false) 48 16
      [154, 255, 47, 154, 230, 82, 41, 80, 223, 122, 111, 57, 180, 12, 8, 71] := by
  have position : EncryptedBlock Sample.sectorIoHandle 1000 false (Sample.encryptedExtents 5) 0
      ⟨.fileExtent, 20, 0, 5, 64, 7⟩ 1 := ⟨rfl, by decide, by decide, by decide, by decide⟩
  have stored : 1000 ≤ off64Max := by decide
  exact (sectors_decrypted .inOrder Sample.aesXts UInt8.ofNat Sample.sectorIoHandle_sectored stored).1 _ _ 64 _ rfl
    (Sample.encryptedExtents_wholeBlocks 5) 0 _ 1 position 1 (by decide)

/-- An extent of sparse data at block 0 is read as zeros. -/
theorem hole_zeros :
    FileDataStream.createFromFileExtents Sample.sectorIoHandle (some (.ofXts Sample.aesXts 16))
        (Sample.encryptedExtents 0) 64 true = .ok (Sample.encryptedStream 0 true) ∧
      WholeBlocks 32 (Sample.encryptedExtents 0) ∧
      ((Sample.encryptedStream 0 true).readBufferAtOffset .inOrder (.ofContent UInt8.ofNat 1000) 0 16).1 =
        .ok (List.replicate 16 0) ∧
      Sample.aesXts.decrypt (tweakValue ((7 + 0) * (32 / 16) + 0)) (contents UInt8.ofNat (0 * 32 + 0 * 32 + 0 * 16) 16) ≠
        List.replicate 16 0 :=
  ⟨rfl, Sample.encryptedExtents_wholeBlocks 0, by decide, by decide⟩

end Fsapfs
