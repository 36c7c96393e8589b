import Fsapfs.DataBlockDataHandle

namespace Fsapfs
open Program

/-- The byte at an offset of a vector over stored content. -/
def segmentByte (content : Nat → UInt8) : List Segment → Nat → UInt8
  | [], _ => 0
  | segment :: segments, offset =>
      if offset < segment.size then
        if segment.isSparse then 0 else content (segment.offset + offset)
      else segmentByte content segments (offset - segment.size)

variable {content : Nat → UInt8} {storageSize : Nat} {libfdata : Libfdata}

theorem segmentByte_append (before : List Segment) (segment : Segment) (after : List Segment)
    {offset : Nat} (inside : offset < segment.size) :
    segmentByte content (before ++ segment :: after) (vectorSize before + offset) =
      if segment.isSparse then 0 else content (segment.offset + offset) := by
  induction before with
  | nil => simp [segmentByte, inside]
  | cons first before ih =>
      rw [List.cons_append, segmentByte, vectorSize_cons, if_neg (by omega), ← ih]
      congr 1
      omega

theorem exists_segment {segments : List Segment} {offset : Nat} (inside : offset < vectorSize segments) :
    ∃ before segment after within, segments = before ++ segment :: after ∧
      offset = vectorSize before + within ∧ within < segment.size := by
  induction segments generalizing offset with
  | nil => cases inside
  | cons first segments ih =>
      by_cases here : offset < first.size
      · exact ⟨[], first, segments, offset, rfl, (Nat.zero_add _).symm, here⟩
      · rw [vectorSize_cons] at inside
        obtain ⟨before, segment, after, within, rfl, place, small⟩ :=
          ih (show offset - first.size < vectorSize segments by omega)
        refine ⟨first :: before, segment, after, within, rfl, ?_, small⟩
        rw [vectorSize_cons]
        omega

theorem contents_zero (start count : Nat) :
    contents (fun _ => (0 : UInt8)) start count = List.replicate count 0 := by
  simp [contents]

/-- A vector whose elements the data handle can read. -/
structure Readable (handle : DataBlockDataHandle) : Prop where
  blockSize : 0 < handle.fileSystemDataHandle.ioHandle.blockSize
  blockSize_le : handle.fileSystemDataHandle.ioHandle.blockSize ≤ memoryMaximumAllocationSize
  bytesPerSector : handle.fileSystemDataHandle.ioHandle.bytesPerSector ≠ 0
  plain : handle.fileSystemDataHandle.encryptionContext = none
  indexed : ∀ fileExtents, handle.fileSystemDataHandle.fileExtents = some fileExtents →
    ∀ segment ∈ handle.dataBlockVector, ¬segment.isSparse → segment.fileIndex < fileExtents.length
  size : handle.dataSize = vectorSize handle.dataBlockVector

/-- The stored content goes as far as the elements of a segment that signed 64-bit offsets reach. -/
def Segment.Stored (blockSize storageSize start : Nat) (segment : Segment) : Prop :=
  ¬segment.isSparse → ∀ offset < segment.size, start + offset < off64Max →
    segment.offset + min segment.size (offset / blockSize * blockSize + blockSize) ≤ storageSize

def StoredFrom (blockSize storageSize : Nat) : Nat → List Segment → Prop
  | _, [] => True
  | start, segment :: segments => segment.Stored blockSize storageSize start ∧
      StoredFrom blockSize storageSize (start + segment.size) segments

theorem StoredFrom.segment {blockSize start : Nat} {before after : List Segment} {segment : Segment}
    (stored : StoredFrom blockSize storageSize start (before ++ segment :: after)) :
    segment.Stored blockSize storageSize (start + vectorSize before) := by
  induction before generalizing start with
  | nil => exact stored.1
  | cons first before ih =>
      rw [vectorSize_cons, ← Nat.add_assoc]
      exact ih stored.2

def Stored (storageSize : Nat) (handle : DataBlockDataHandle) : Prop :=
  StoredFrom handle.fileSystemDataHandle.ioHandle.blockSize storageSize 0 handle.dataBlockVector

def elementByte (content : Nat → UInt8) (element : Element) (offset : Nat) : UInt8 :=
  if element.isSparse then 0 else content offset

theorem readDataBlockAt_plain {ioHandle : IoHandle} {dataSize fileOffset identifier : Nat} {data : List UInt8}
    (read : readDataBlockAt ioHandle none (.ofContent content storageSize) dataSize fileOffset identifier = .ok data) :
    data = contents content fileOffset dataSize := by
  unfold readDataBlockAt at read
  split_ifs at read
  · cases read
  · cases read
  · cases read
  · obtain ⟨found, exact, read⟩ := bind_eq_ok.mp read
    cases read
    obtain ⟨_, bytes, length⟩ := DataStream.readExactly_ok.mp exact
    cases bytes
    rw [contents_length] at length
    rw [length]

theorem readDataBlockAt_stored {ioHandle : IoHandle} {dataSize fileOffset : Nat} (identifier : Nat)
    (some : 0 < dataSize) (small : dataSize ≤ memoryMaximumAllocationSize)
    (sectors : ioHandle.bytesPerSector ≠ 0) (stored : fileOffset + dataSize ≤ storageSize) :
    readDataBlockAt ioHandle none (.ofContent content storageSize) dataSize fileOffset identifier =
      .ok (contents content fileOffset dataSize) := by
  have addressable : dataSize ≤ ssizeMax := by
    unfold memoryMaximumAllocationSize at small
    unfold ssizeMax
    omega
  unfold readDataBlockAt
  rw [if_neg (Nat.pos_iff_ne_zero.mp some), if_neg (Nat.not_lt_of_le addressable), if_neg sectors,
    DataStream.readExactly_ofContent content addressable stored]
  rfl

variable {handle : DataBlockDataHandle}

theorem readDataBlock_sound (plain : handle.fileSystemDataHandle.encryptionContext = none)
    {element : Element} {data : List UInt8}
    (read : handle.fileSystemDataHandle.readDataBlock (.ofContent content storageSize) element = .ok data) :
    data = contents (elementByte content element) element.offset element.size := by
  unfold FileSystemDataHandle.readDataBlock at read
  split_ifs at read with _ _ sparse
  · cases read
  · cases read
  · cases read
  · cases read
    have zeros : elementByte content element = fun _ => 0 := by
      funext offset
      simp [elementByte, sparse]
    rw [zeros, contents_zero]
  · obtain ⟨identifier, _, read⟩ := bind_eq_ok.mp read
    have bytes : elementByte content element = content := by
      funext offset
      simp [elementByte, sparse]
    rw [plain] at read
    rw [bytes]
    exact readDataBlockAt_plain read

theorem readDataBlock_complete (readable : Readable handle) (element : Element) (nonempty : 0 < element.size)
    (small : element.size ≤ handle.fileSystemDataHandle.ioHandle.blockSize)
    (indexed : ∀ fileExtents, handle.fileSystemDataHandle.fileExtents = some fileExtents →
      ¬element.isSparse → element.fileIndex < fileExtents.length)
    (stored : ¬element.isSparse → element.offset + element.size ≤ storageSize) :
    ∃ data, handle.fileSystemDataHandle.readDataBlock (.ofContent content storageSize) element = .ok data := by
  have limit : element.size ≤ memoryMaximumAllocationSize := Nat.le_trans small readable.blockSize_le
  have addressable : element.size ≤ ssizeMax := by
    unfold memoryMaximumAllocationSize at limit
    unfold ssizeMax
    omega
  have positive := Nat.pos_iff_ne_zero.mp nonempty
  unfold FileSystemDataHandle.readDataBlock
  rw [if_neg (Nat.not_lt_of_le addressable), if_neg (Nat.not_lt_of_le limit)]
  split_ifs with sparse
  · exact ⟨_, rfl⟩
  · have identified : ∃ identifier, handle.fileSystemDataHandle.encryptionIdentifier element = .ok identifier := by
      unfold FileSystemDataHandle.encryptionIdentifier
      cases extents : handle.fileSystemDataHandle.fileExtents with
      | none => exact ⟨_, rfl⟩
      | some fileExtents =>
          dsimp only
          rw [List.getElem?_eq_getElem (indexed fileExtents extents sparse)]
          exact ⟨_, rfl⟩
    obtain ⟨identifier, identified⟩ := identified
    rw [identified, ok_bind, readable.plain]
    exact ⟨_, readDataBlockAt_stored identifier nonempty limit readable.bytesPerSector (stored sparse)⟩

theorem located (libfdata : Libfdata) (readable : Readable handle) (inside : handle.currentOffset < handle.dataSize) :
    ∃ before segment after offset, handle.dataBlockVector = before ++ segment :: after ∧
      handle.currentOffset = vectorSize before + offset ∧ offset < segment.size ∧
      handle.dataSize = vectorSize before + (segment.size + vectorSize after) ∧
      libfdata.elementAt handle.fileSystemDataHandle.ioHandle.blockSize handle.dataBlockVector
        handle.currentOffset =
        some (segment.element handle.fileSystemDataHandle.ioHandle.blockSize
          (offset / handle.fileSystemDataHandle.ioHandle.blockSize),
          offset % handle.fileSystemDataHandle.ioHandle.blockSize) := by
  rw [readable.size] at inside
  obtain ⟨before, segment, after, offset, vector, place, small⟩ := exists_segment inside
  refine ⟨before, segment, after, offset, vector, place, small, ?_, ?_⟩
  · rw [readable.size, vector, vectorSize_append, vectorSize_cons]
  · rw [vector, place]
    exact libfdata.maps before after readable.blockSize small

theorem getElementValueAtOffset_sound (readable : Readable handle)
    (inside : handle.currentOffset < handle.dataSize) {block : List UInt8} {dataBlockOffset : Nat}
    (read : handle.getElementValueAtOffset libfdata (.ofContent content storageSize) =
      .ok (block, dataBlockOffset)) :
    dataBlockOffset < block.length ∧
      handle.currentOffset + (block.length - dataBlockOffset) ≤ handle.dataSize ∧
      block.drop dataBlockOffset = contents (segmentByte content handle.dataBlockVector)
        handle.currentOffset (block.length - dataBlockOffset) := by
  obtain ⟨before, segment, after, offset, vector, place, small, total, found⟩ :=
    located libfdata readable inside
  have positive := readable.blockSize
  unfold DataBlockDataHandle.getElementValueAtOffset at read
  rw [found] at read
  obtain ⟨data, loaded, same⟩ := bind_eq_ok.mp read
  cases same
  have bytes := readDataBlock_sound readable.plain loaded
  generalize handle.fileSystemDataHandle.ioHandle.blockSize = b at *
  have split : offset / b * b + offset % b = offset := by
    rw [Nat.mul_comm]
    exact Nat.div_add_mod offset b
  have within : offset % b < b := Nat.mod_lt offset positive
  have length : block.length = min b (segment.size - offset / b * b) := by
    rw [bytes, contents_length]
    rfl
  refine ⟨by omega, by omega, ?_⟩
  obtain ⟨rest, size⟩ := Nat.exists_eq_add_of_le (show offset % b ≤ block.length by omega)
  have tail : block.drop (offset % b) =
      contents (elementByte content (segment.element b (offset / b))) (segment.offset + offset) rest := by
    have start : (segment.element b (offset / b)).offset + offset % b = segment.offset + offset := by
      change segment.offset + offset / b * b + offset % b = _
      omega
    rw [bytes, show (segment.element b (offset / b)).size = offset % b + rest by
      rw [← size, bytes, contents_length], drop_contents, start]
  rw [tail, show block.length - offset % b = rest by omega]
  apply contents_congr
  intro i h
  rw [vector, place, Nat.add_assoc, Nat.add_assoc, segmentByte_append before segment after (by omega)]
  rfl

theorem getElementValueAtOffset_complete (readable : Readable handle) (stored : Stored storageSize handle)
    (inside : handle.currentOffset < handle.dataSize) (reached : handle.currentOffset < off64Max) :
    ∃ value, handle.getElementValueAtOffset libfdata (.ofContent content storageSize) = .ok value := by
  obtain ⟨before, segment, after, offset, vector, place, small, total, found⟩ :=
    located libfdata readable inside
  have positive := readable.blockSize
  have member : segment ∈ handle.dataBlockVector := by simp [vector]
  have start : offset / handle.fileSystemDataHandle.ioHandle.blockSize *
      handle.fileSystemDataHandle.ioHandle.blockSize ≤ offset := Nat.div_mul_le_self ..
  have loaded : ∃ data, handle.fileSystemDataHandle.readDataBlock (.ofContent content storageSize)
      (segment.element handle.fileSystemDataHandle.ioHandle.blockSize
        (offset / handle.fileSystemDataHandle.ioHandle.blockSize)) = .ok data := by
    apply readDataBlock_complete readable
    · simp only [Segment.element]
      omega
    · exact Nat.min_le_left _ _
    · intro fileExtents extents sparse
      exact readable.indexed fileExtents extents segment member sparse
    · intro sparse
      unfold Stored at stored
      rw [vector] at stored
      have bound := stored.segment sparse offset small (by omega)
      simp only [Segment.element]
      omega
  obtain ⟨data, loaded⟩ := loaded
  unfold DataBlockDataHandle.getElementValueAtOffset
  rw [found]
  dsimp only
  rw [loaded]
  exact ⟨_, rfl⟩

def Moved (handle after : DataBlockDataHandle) : Prop :=
  ∃ offset, after = DataBlockDataHandle.setCurrentOffset offset handle

theorem Moved.readable {after : DataBlockDataHandle} (moved : Moved handle after)
    (readable : Readable handle) : Readable after := by
  obtain ⟨offset, rfl⟩ := moved
  exact ⟨readable.blockSize, readable.blockSize_le, readable.bytesPerSector, readable.plain,
    readable.indexed, readable.size⟩

theorem Moved.trans {middle after : DataBlockDataHandle} (first : Moved handle middle)
    (second : Moved middle after) : Moved handle after := by
  obtain ⟨_, rfl⟩ := first
  obtain ⟨offset, rfl⟩ := second
  exact ⟨offset, rfl⟩

theorem readBlocks_ends (readable : Readable handle) (inside : handle.currentOffset < handle.dataSize)
    {fuel size : Nat} (enough : size ≤ fuel) :
    (DataBlockDataHandle.readBlocks libfdata (.ofContent content storageSize) fuel size).Ends handle
      (fun data after => data = contents (segmentByte content handle.dataBlockVector) handle.currentOffset
        (min size (handle.dataSize - handle.currentOffset)) ∧ Moved handle after)
      (fun after => ¬(Stored storageSize handle ∧
        handle.currentOffset + min size (handle.dataSize - handle.currentOffset) ≤ off64Max) ∧
        Moved handle after) := by
  have stayed : Moved handle handle := ⟨handle.currentOffset, rfl⟩
  induction fuel generalizing handle size with
  | zero =>
      cases Nat.le_zero.mp enough
      exact ⟨by simp [contents], stayed⟩
  | succ fuel ih =>
  cases size with
  | zero => exact ⟨by simp [contents], stayed⟩
  | succ size =>
  unfold DataBlockDataHandle.readBlocks
  rw [Call.ends_self_bind]
  cases loaded : handle.getElementValueAtOffset libfdata (.ofContent content storageSize) with
  | error failure =>
      refine ⟨?_, stayed⟩
      rintro ⟨stored, near⟩
      have found : ∃ value, handle.getElementValueAtOffset libfdata (.ofContent content storageSize) =
        .ok value := getElementValueAtOffset_complete readable stored inside (by omega)
      obtain ⟨value, found⟩ := found
      cases loaded.symm.trans found
  | ok value =>
  obtain ⟨block, dataBlockOffset⟩ := value
  obtain ⟨within, ends, bytes⟩ := getElementValueAtOffset_sound readable inside loaded
  rw [Call.ends_lift_ok_bind]
  dsimp only
  rw [if_neg (Nat.not_le_of_lt within), bytes, take_contents_min, contents_length]
  have piece : 0 < min (size + 1) (block.length - dataBlockOffset) := by omega
  split_ifs with far last
  · refine ⟨?_, stayed⟩
    rintro ⟨_, near⟩
    omega
  · rw [Call.ends_update_bind]
    refine ⟨?_, _, rfl⟩
    congr 1
    omega
  · rw [Call.ends_update_bind]
    have moved : Moved handle (DataBlockDataHandle.setCurrentOffset
        (handle.currentOffset + min (size + 1) (block.length - dataBlockOffset)) handle) := ⟨_, rfl⟩
    have fewer : size + 1 - min (size + 1) (block.length - dataBlockOffset) ≤ fuel := by omega
    apply ((ih (moved.readable readable) (Nat.lt_of_not_le last) fewer ⟨_, rfl⟩).mono (fun _ _ h => h) _).bind
    · intro rest after read
      obtain ⟨bytes', moved'⟩ := read
      refine ⟨?_, moved.trans moved'⟩
      rw [bytes']
      change _ ++ contents (segmentByte content handle.dataBlockVector)
        (handle.currentOffset + min (size + 1) (block.length - dataBlockOffset))
        (min _ (handle.dataSize -
          (handle.currentOffset + min (size + 1) (block.length - dataBlockOffset)))) = _
      rw [← contents_add]
      congr 1
      omega
    · intro after failed
      obtain ⟨refused, moved'⟩ := failed
      refine ⟨?_, moved.trans moved'⟩
      rintro ⟨stored, near⟩
      refine refused ⟨stored, ?_⟩
      change handle.currentOffset + min (size + 1) (block.length - dataBlockOffset) +
        min _ (handle.dataSize -
          (handle.currentOffset + min (size + 1) (block.length - dataBlockOffset))) ≤ off64Max
      omega

def addressable (size : Nat) : Nat := min size off64Max

variable (libfdata) (content) (storageSize) in
theorem readBufferAtOffset_ends (readable : Readable handle) {streamSize offset size : Nat}
    (inside : offset + size ≤ addressable streamSize) :
    (DataBlockDataHandle.readBufferAtOffset libfdata (.ofContent content storageSize) streamSize
      offset size).Ends handle
      (fun data after => data = contents (segmentByte content handle.dataBlockVector) offset
        (min size (handle.dataSize - offset)) ∧ Moved handle after)
      (fun after => ¬Stored storageSize handle ∧ Moved handle after) := by
  unfold addressable at inside
  have moved : Moved handle (DataBlockDataHandle.setCurrentOffset offset handle) := ⟨offset, rfl⟩
  unfold DataBlockDataHandle.readBufferAtOffset
  split_ifs with past
  · exact ⟨by simp [show size = 0 by omega, contents], handle.currentOffset, rfl⟩
  · have sought : DataBlockDataHandle.seekSegmentOffset 0 offset handle =
        (.ok (offset : Int), DataBlockDataHandle.setCurrentOffset offset handle) := by
      unfold DataBlockDataHandle.seekSegmentOffset
      rw [if_neg (by decide), if_neg (by omega)]
      rfl
    have whole : min size (streamSize - offset) = size := by omega
    unfold Call.Ends
    rw [Call.bind_of_ok sought, whole]
    change (DataBlockDataHandle.readSegmentData libfdata _ 0 size).Ends _ _ _
    unfold DataBlockDataHandle.readSegmentData
    rw [if_neg (by decide), if_neg (by unfold ssizeMax off64Max at *; omega), Call.ends_self_bind]
    split_ifs with beyond
    · change handle.dataSize ≤ offset at beyond
      exact ⟨by simp [show handle.dataSize - offset = 0 by omega, contents], moved⟩
    · apply (readBlocks_ends (moved.readable readable) (Nat.lt_of_not_le beyond) (Nat.le_refl size)).mono
      · intro data after read
        exact ⟨read.1, moved.trans read.2⟩
      · intro after failed
        refine ⟨fun stored => failed.1 ⟨stored, ?_⟩, moved.trans failed.2⟩
        change offset + min size (handle.dataSize - offset) ≤ off64Max
        omega

end Fsapfs
