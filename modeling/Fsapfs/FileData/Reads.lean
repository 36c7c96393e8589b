import Fsapfs.FileData.Extents

namespace Fsapfs
open Program

/-- The block and sector sizes that the volume checks let through. -/
structure IoHandle.Valid (ioHandle : IoHandle) : Prop where
  blockSize : 0 < ioHandle.blockSize
  blockSize_le : ioHandle.blockSize ≤ memoryMaximumAllocationSize
  bytesPerSector : ioHandle.bytesPerSector ≠ 0

section moved

variable (libfdata : Libfdata) (fileIoHandle : DataStream) (handle : DataBlockDataHandle)

theorem setCurrentOffset_moved (offset : Nat) (after : DataBlockDataHandle) (moved : Moved handle after) :
    Moved handle (DataBlockDataHandle.setCurrentOffset offset after) :=
  moved.trans ⟨offset, rfl⟩

theorem readBlocks_moves (fuel size : Nat) :
    Call.Keeps (Moved handle) (DataBlockDataHandle.readBlocks libfdata fileIoHandle fuel size) := by
  induction fuel generalizing size with
  | zero =>
      cases size with
      | zero => exact Call.keeps_pure []
      | succ size => exact Call.keeps_lift _
  | succ fuel ih =>
      cases size with
      | zero => exact Call.keeps_pure []
      | succ size =>
          unfold DataBlockDataHandle.readBlocks
          refine Call.keeps_self.bind fun before => (Call.keeps_lift _).bind fun value => ?_
          dsimp only
          split_ifs
          · exact Call.keeps_lift _
          · exact Call.keeps_lift _
          · exact (Call.keeps_update (setCurrentOffset_moved handle _)).bind fun _ => Call.keeps_pure _
          · exact (Call.keeps_update (setCurrentOffset_moved handle _)).bind fun _ =>
              (ih _).bind fun _ => Call.keeps_pure _

theorem readBufferAtOffset_moves (streamSize offset size : Nat) :
    Call.Keeps (Moved handle)
      (DataBlockDataHandle.readBufferAtOffset libfdata fileIoHandle streamSize offset size) := by
  unfold DataBlockDataHandle.readBufferAtOffset
  split_ifs
  · exact Call.keeps_pure []
  · refine Call.Keeps.bind ?_ fun _ => ?_
    · unfold DataBlockDataHandle.seekSegmentOffset
      split_ifs
      · exact Call.keeps_lift _
      · exact Call.keeps_lift _
      · exact (Call.keeps_update (setCurrentOffset_moved handle _)).bind fun _ => Call.keeps_pure _
    · unfold DataBlockDataHandle.readSegmentData
      rw [if_neg (by decide)]
      split_ifs
      · exact Call.keeps_lift _
      · refine Call.keeps_self.bind fun before => ?_
        split_ifs
        · exact Call.keeps_pure []
        · exact readBlocks_moves libfdata fileIoHandle handle _ _

end moved

namespace FileDataStream

/-- Every read of a range of the stream, after any reads, returns the bytes of that range. -/
def Returns (libfdata : Libfdata) (fileIoHandle : DataStream) (stream : FileDataStream)
    (byteAt : Nat → UInt8) : Prop :=
  ∀ (reads : List (Nat × Nat)) (offset size : Nat), offset + size ≤ addressable stream.size →
    ((run (step libfdata fileIoHandle) stream reads).readBufferAtOffset libfdata fileIoHandle offset size).1 =
      .ok (contents byteAt offset size)

section read

variable (libfdata : Libfdata) (content : Nat → UInt8) (storageSize : Nat)

theorem run_moved (stream : FileDataStream) (reads : List (Nat × Nat)) :
    ∃ handle, run (step libfdata (.ofContent content storageSize)) stream reads = ⟨stream.size, handle⟩ ∧
      Moved stream.handle handle := by
  induction reads generalizing stream with
  | nil => exact ⟨stream.handle, rfl, stream.handle.currentOffset, rfl⟩
  | cons read reads ih =>
      obtain ⟨handle, ran, moved⟩ := ih (stream.step libfdata (.ofContent content storageSize) read)
      have first : Moved stream.handle (stream.step libfdata (.ofContent content storageSize) read).handle :=
        readBufferAtOffset_moves libfdata _ _ _ _ _ _ ⟨stream.handle.currentOffset, rfl⟩
      exact ⟨handle, ran, first.trans moved⟩

theorem read_after {stream : FileDataStream} (readable : Readable stream.handle) (reads : List (Nat × Nat))
    {offset size : Nat} (inside : offset + size ≤ addressable stream.size) :
    Except.isOk ((run (step libfdata (.ofContent content storageSize)) stream reads).readBufferAtOffset libfdata
        (.ofContent content storageSize) offset size).1 = false ∧ ¬Stored storageSize stream.handle ∨
      ((run (step libfdata (.ofContent content storageSize)) stream reads).readBufferAtOffset libfdata
        (.ofContent content storageSize) offset size).1 =
      .ok (contents (segmentByte content stream.handle.dataBlockVector) offset
        (min size (stream.handle.dataSize - offset))) := by
  obtain ⟨handle, ran, moved⟩ := run_moved libfdata content storageSize stream reads
  have readable' := moved.readable readable
  have ends := readBufferAtOffset_ends content storageSize libfdata readable' inside
  rw [ran]
  obtain ⟨position, rfl⟩ := moved
  unfold Call.Ends at ends
  unfold readBufferAtOffset
  dsimp only
  cases ended : DataBlockDataHandle.readBufferAtOffset libfdata (.ofContent content storageSize) stream.size
      offset size (DataBlockDataHandle.setCurrentOffset position stream.handle) with
  | mk result after =>
      rw [ended] at ends
      cases result with
      | error failure => exact Or.inl ⟨rfl, ends.1⟩
      | ok data => exact Or.inr (congrArg Except.ok ends.1)

end read

variable {libfdata : Libfdata} {content : Nat → UInt8} {storageSize : Nat} {stream : FileDataStream}

theorem returns_of_bytes (readable : Readable stream.handle) (stored : Stored storageSize stream.handle)
    {byteAt : Nat → UInt8} (reaches : addressable stream.size ≤ stream.handle.dataSize)
    (bytes : ∀ offset < addressable stream.size,
      segmentByte content stream.handle.dataBlockVector offset = byteAt offset) :
    stream.Returns libfdata (.ofContent content storageSize) byteAt := by
  intro reads offset size inside
  rcases read_after libfdata content storageSize readable reads inside with failed | read
  · exact absurd stored failed.2
  · rw [read, Nat.min_eq_left (by omega)]
    exact congrArg Except.ok (contents_congr fun i h => bytes (offset + i) (by omega))

theorem Returns.bytes {byteAt : Nat → UInt8} {offset : Nat}
    (returns : stream.Returns libfdata (.ofContent content storageSize) byteAt)
    (readable : Readable stream.handle)
    (inside : offset < addressable stream.size) :
    offset < stream.handle.dataSize ∧
      segmentByte content stream.handle.dataBlockVector offset = byteAt offset := by
  have expected := returns [] offset 1 inside
  have whole : offset + 1 ≤ addressable stream.size := inside
  rcases read_after libfdata content storageSize readable [] whole with failed | read
  · rw [expected] at failed
    cases failed.1
  · have same := Except.ok.inj (expected.symm.trans read)
    have length := congrArg List.length same
    rw [contents_length, contents_length] at length
    have reached : offset < stream.handle.dataSize := by omega
    rw [show min 1 (stream.handle.dataSize - offset) = 1 by omega] at same
    exact ⟨reached, (contents_inj same Nat.zero_lt_one).symm⟩

structure OfExtents (ioHandle : IoHandle) (isSparse : Bool) (extents : List FileExtent) (size : Nat)
    (stream : FileDataStream) : Prop where
  size : stream.size = size
  readable : Readable stream.handle
  blockSize : stream.handle.fileSystemDataHandle.ioHandle.blockSize = ioHandle.blockSize
  represents : Represents ioHandle.blockSize isSparse 0 extents 0 stream.handle.dataBlockVector

theorem createFromFileExtents_created {ioHandle : IoHandle} (valid : ioHandle.Valid)
    (encryptionContext : Option EncryptionContext) {extents : List FileExtent} (follow : Follow 0 extents)
    (small : extentsEnd 0 extents < 2 ^ 64)
    (reached : ∀ extent ∈ extents, extent.physicalBlockNumber * ioHandle.blockSize ≤ off64Max)
    (isSparse : Bool) (size : Nat) :
    ∃ stream, createFromFileExtents ioHandle encryptionContext extents size isSparse = .ok stream ∧
      stream.size = size ∧ (encryptionContext = none → OfExtents ioHandle isSparse extents size stream) := by
  have vector : ∃ segments, DataBlockVector.create ioHandle extents isSparse = .ok segments ∧
      Represents ioHandle.blockSize isSparse 0 extents 0 segments :=
    appendExtents_represents follow small reached
  obtain ⟨segments, built, represents⟩ := vector
  refine ⟨⟨size, 0, vectorSize segments, ⟨ioHandle, encryptionContext, some extents⟩, segments⟩, ?_, rfl, ?_⟩
  · unfold createFromFileExtents DataBlockDataHandle.create
    rw [built]
    rfl
  · intro plain
    refine ⟨rfl, ⟨valid.blockSize, valid.blockSize_le, valid.bytesPerSector, plain, ?_, rfl⟩, rfl, represents⟩
    intro fileExtents given segment member stored
    cases given
    have indexed := represents.indexed segment member stored
    rwa [Nat.zero_add] at indexed

theorem createFromFileExtents_ok {ioHandle : IoHandle} (valid : ioHandle.Valid) {extents : List FileExtent}
    (follow : Follow 0 extents) (small : extentsEnd 0 extents < 2 ^ 64)
    (reached : ∀ extent ∈ extents, extent.physicalBlockNumber * ioHandle.blockSize ≤ off64Max)
    (isSparse : Bool) (size : Nat) :
    ∃ stream, createFromFileExtents ioHandle none extents size isSparse = .ok stream ∧
      OfExtents ioHandle isSparse extents size stream := by
  obtain ⟨stream, created, _, ofExtents⟩ := createFromFileExtents_created valid none follow small reached isSparse size
  exact ⟨stream, created, ofExtents rfl⟩

variable {ioHandle : IoHandle} {isSparse : Bool} {extents : List FileExtent} {size : Nat}

theorem OfExtents.dataSize (ofExtents : OfExtents ioHandle isSparse extents size stream) :
    stream.handle.dataSize = extentsEnd 0 extents := by
  have whole := ofExtents.represents.size
  rw [Nat.zero_add] at whole
  rw [ofExtents.readable.size, whole]

theorem OfExtents.returns (ofExtents : OfExtents ioHandle isSparse extents size stream)
    (stored : ∀ extent ∈ extents, extent.Stored ioHandle.blockSize storageSize isSparse)
    {byteAt : Nat → UInt8} (reaches : addressable size ≤ extentsEnd 0 extents)
    (bytes : ∀ offset < addressable size,
      extentByte ioHandle.blockSize isSparse content extents offset = byteAt offset) :
    stream.Returns libfdata (.ofContent content storageSize) byteAt := by
  apply returns_of_bytes ofExtents.readable
  · unfold Fsapfs.Stored
    rw [ofExtents.blockSize]
    exact ofExtents.represents.stored storageSize stored
  · rw [ofExtents.size, ofExtents.dataSize]
    exact reaches
  · intro offset inside
    rw [ofExtents.size] at inside
    rw [ofExtents.represents.bytes, Nat.zero_add]
    exact bytes offset inside

theorem OfExtents.bytes (ofExtents : OfExtents ioHandle isSparse extents size stream)
    {byteAt : Nat → UInt8} (returns : stream.Returns libfdata (.ofContent content storageSize) byteAt)
    {offset : Nat} (inside : offset < addressable size) :
    offset < extentsEnd 0 extents ∧
      extentByte ioHandle.blockSize isSparse content extents offset = byteAt offset := by
  rw [← ofExtents.size] at inside
  obtain ⟨reached, byte⟩ := returns.bytes ofExtents.readable inside
  rw [ofExtents.represents.bytes, Nat.zero_add] at byte
  rw [ofExtents.dataSize] at reached
  exact ⟨reached, byte⟩

end FileDataStream

end Fsapfs
