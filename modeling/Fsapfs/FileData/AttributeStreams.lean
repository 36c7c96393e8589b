import Fsapfs.FileData.AttributeReruns
import Fsapfs.FileData.SealedContents

namespace Fsapfs
open Program

/-- Extents of whole blocks, each starting where the one before it ends. -/
def Contiguous (blockSize : Nat) : Nat → List FileExtent → Prop
  | _, [] => True
  | position, extent :: extents => extent.logicalOffset = position ∧ 0 < extent.dataSize ∧
      blockSize ∣ extent.dataSize ∧ Contiguous blockSize (position + extent.dataSize) extents

instance contiguousDecidable (blockSize : Nat) : ∀ position extents, Decidable (Contiguous blockSize position extents)
  | _, [] => isTrue trivial
  | position, extent :: extents =>
      have := contiguousDecidable blockSize (position + extent.dataSize) extents
      inferInstanceAs (Decidable (_ ∧ _ ∧ _ ∧ _))

def trimmed (usedSize : Nat) (extents : List FileExtent) : List FileExtent :=
  (extents.filter (·.logicalOffset < usedSize)).map fun extent =>
    extent.resize (min extent.dataSize (usedSize - extent.logicalOffset))

section trimmed

variable {blockSize position usedSize : Nat} {extent : FileExtent} {extents : List FileExtent}

theorem trimmed_cons_below (below : extent.logicalOffset < usedSize) : trimmed usedSize (extent :: extents) =
    extent.resize (min extent.dataSize (usedSize - extent.logicalOffset)) :: trimmed usedSize extents := by
  simp [trimmed, below]

theorem trimmed_cons_beyond (beyond : usedSize ≤ extent.logicalOffset) :
    trimmed usedSize (extent :: extents) = trimmed usedSize extents := by
  simp [trimmed, beyond]

theorem Contiguous.trimmed_beyond (contiguous : Contiguous blockSize position extents) (beyond : usedSize ≤ position) :
    trimmed usedSize extents = [] := by
  induction extents generalizing position with
  | nil => rfl
  | cons extent extents ih =>
      obtain ⟨rfl, _, _, rest⟩ := contiguous
      rw [trimmed_cons_beyond beyond]
      exact ih rest (Nat.le_trans beyond (Nat.le_add_right _ _))

theorem Contiguous.extentsEnd_cons (contiguous : Contiguous blockSize position (extent :: extents)) :
    extentsEnd position (extent :: extents) = extentsEnd (position + extent.dataSize) extents := by
  rw [extentsEnd, contiguous.1]

theorem Contiguous.trimmed_follow (contiguous : Contiguous blockSize position extents) (below : position ≤ usedSize)
    (total : usedSize ≤ extentsEnd position extents) :
    Follow position (trimmed usedSize extents) ∧ extentsEnd position (trimmed usedSize extents) = usedSize := by
  induction extents generalizing position with
  | nil => exact ⟨trivial, Nat.le_antisymm below total⟩
  | cons extent extents ih =>
      rw [contiguous.extentsEnd_cons] at total
      obtain ⟨rfl, _, _, rest⟩ := contiguous
      by_cases reached : usedSize ≤ extent.logicalOffset
      · rw [trimmed_cons_beyond reached, rest.trimmed_beyond (Nat.le_trans reached (Nat.le_add_right _ _))]
        exact ⟨trivial, Nat.le_antisymm below reached⟩
      · rw [trimmed_cons_below (Nat.lt_of_not_le reached)]
        change (extent.logicalOffset ≤ extent.logicalOffset ∧
          Follow (extent.logicalOffset + min extent.dataSize (usedSize - extent.logicalOffset)) _) ∧
          extentsEnd (extent.logicalOffset + min extent.dataSize (usedSize - extent.logicalOffset)) _ = usedSize
        by_cases cut : extent.logicalOffset + extent.dataSize ≤ usedSize
        · obtain ⟨follow, ends⟩ := ih rest cut total
          rw [Nat.min_eq_left (by omega)]
          exact ⟨⟨Nat.le_refl _, follow⟩, ends⟩
        · rw [rest.trimmed_beyond (Nat.le_of_not_le cut), Nat.min_eq_right (by omega)]
          exact ⟨⟨Nat.le_refl _, trivial⟩, Nat.add_sub_cancel' below⟩

theorem trimmed_byte {isSparse : Bool} {content : Nat → UInt8} {offset : Nat} (inside : offset < usedSize) :
    extentByte blockSize isSparse content (trimmed usedSize extents) offset =
      extentByte blockSize isSparse content extents offset := by
  induction extents with
  | nil => rfl
  | cons extent extents ih =>
      by_cases below : extent.logicalOffset < usedSize
      · have covers : (extent.resize (min extent.dataSize (usedSize - extent.logicalOffset))).Covers offset ↔
            extent.Covers offset := by
          unfold FileExtent.Covers
          rw [FileExtent.resize_logicalOffset, FileExtent.resize_dataSize]
          omega
        rw [trimmed_cons_below below, extentByte, extentByte, ih]
        by_cases covered : extent.Covers offset
        · rw [if_pos (covers.mpr covered), if_pos covered]
          rfl
        · rw [if_neg (mt covers.mp covered), if_neg covered]
      · have uncovered : ¬extent.Covers offset := by
          unfold FileExtent.Covers
          omega
        rw [trimmed_cons_beyond (Nat.le_of_not_lt below), ih, extentByte, if_neg uncovered]

theorem mem_trimmed (member : extent ∈ trimmed usedSize extents) : ∃ record ∈ extents,
    record.logicalOffset < usedSize ∧
      extent = record.resize (min record.dataSize (usedSize - record.logicalOffset)) := by
  obtain ⟨record, kept, rfl⟩ := List.mem_map.mp member
  obtain ⟨recorded, below⟩ := List.mem_filter.mp kept
  exact ⟨record, recorded, of_decide_eq_true below, rfl⟩

end trimmed

namespace AttributeValues

variable {blockSize position usedSize : Nat} {extents : List FileExtent}

theorem contiguous_ordered {extent next : FileExtent} (contiguous : Contiguous blockSize position (extent :: next :: extents)) :
    Ordered usedSize extent (next :: extents) := by
  obtain ⟨rfl, _, _, starts, _⟩ := contiguous
  change extent.logicalOffset ≤ next.logicalOffset
  rw [starts]
  exact Nat.le_add_right _ _

theorem sized_ok_iff (contiguous : Contiguous blockSize position extents)
    (plain : ∀ extent ∈ extents, extent.fileSystemDataType = .fileExtent) :
    (sized usedSize extents).1 = .ok () ↔ ∀ last ∈ extents.getLast?, last.logicalOffset ≤ usedSize := by
  induction extents generalizing position with
  | nil => simp [sized, updateEach]
  | cons extent extents ih =>
      obtain ⟨first, plain⟩ := List.forall_mem_cons.mp plain
      cases extents with
      | nil =>
          have ordered : Ordered usedSize extent [] ↔ extent.logicalOffset ≤ usedSize := by
            simp [Ordered, FileExtent.isSealed, first]
          by_cases reaches : extent.logicalOffset ≤ usedSize
          · rw [sized_cons_of_ordered (ordered.mpr reaches)]
            simp [sized, updateEach, reaches]
          · rw [sized_cons_of_not_ordered (mt ordered.mp reaches)]
            simp [fail, reaches]
      | cons next extents =>
          have rest := ih contiguous.2.2.2 plain
          rw [sized_cons_of_ordered (contiguous_ordered contiguous), List.getLast?_cons_cons, ← rest]

theorem used_trimmed (contiguous : Contiguous blockSize position extents) (total : usedSize ≤ extentsEnd position extents)
    (ok : (sized usedSize extents).1 = .ok ()) : used usedSize extents = trimmed usedSize extents := by
  induction extents generalizing position with
  | nil => rfl
  | cons extent extents ih =>
      obtain ⟨ordered, rest⟩ := sized_cons_ok ok
      rw [contiguous.extentsEnd_cons] at total
      have size : usedSize ≤ extent.logicalOffset ∧ AttributeValues.usedSize usedSize extent extents = 0 ∨
          extent.logicalOffset < usedSize ∧ 0 < AttributeValues.usedSize usedSize extent extents ∧
            AttributeValues.usedSize usedSize extent extents =
              min extent.dataSize (usedSize - extent.logicalOffset) := by
        obtain ⟨rfl, positive, _, follows⟩ := contiguous
        unfold AttributeValues.usedSize
        cases extents with
        | nil =>
            change usedSize ≤ extent.logicalOffset + extent.dataSize at total
            dsimp only [followingOffset]
            omega
        | cons next extents =>
            have starts := follows.1
            dsimp only [followingOffset]
            omega
      rw [used_cons ordered, ih contiguous.2.2.2 total rest]
      rcases size with ⟨beyond, none⟩ | ⟨below, some, same⟩
      · rw [if_pos none, trimmed_cons_beyond beyond]
      · rw [if_neg (Nat.ne_of_gt some), trimmed_cons_below below, same]

section streams

variable {source : ExtentSource} {values : AttributeValues} {records left : List FileExtent} {ioHandle : IoHandle}
  {encryptionContext : Option EncryptionContext} {dataStream : FileDataStream}

variable (source) in
theorem determined_plain (plain : ∀ extent ∈ extents, extent.fileSystemDataType = .fileExtent)
    (ok : (sized usedSize extents).1 = .ok ()) : determined source usedSize extents = (.ok (), used usedSize extents) := by
  have unsealed : ¬extents.any FileExtent.isSealed = true := by
    intro found
    obtain ⟨extent, member, isSealed⟩ := List.any_eq_true.mp found
    simp [FileExtent.isSealed, plain extent member] at isSealed
  rw [determined, ok, if_neg unsealed]

theorem getDataStream_ok (flags : values.flags &&& 0x0001 ≠ 0)
    (required : requireFileExtents source values = (.ok (), values.setFileExtents extents))
    (determined : determined source values.valueDataSize extents = (.ok (), left))
    (created : FileDataStream.createFromFileExtents ioHandle encryptionContext left values.valueDataSize false =
      .ok dataStream) :
    getDataStream source ioHandle encryptionContext values =
      (.ok (some (.fileExtents dataStream)), values.setFileExtents left) := by
  have run : determineFileExtents source (values.setFileExtents extents) = (.ok (), values.setFileExtents left) := by
    rw [determineFileExtents_eq rfl]
    change ((AttributeValues.determined source values.valueDataSize extents).1, _) = _
    rw [determined]
    change (_, (values.setFileExtents extents).setFileExtents
      (AttributeValues.determined source values.valueDataSize extents).2) = _
    rw [determined]
    rfl
  have read : fileExtents (values.setFileExtents left) = (.ok left, values.setFileExtents left) := rfl
  unfold getDataStream
  rw [Call.self_bind, if_pos flags, Call.bind_of_ok required, Call.bind_of_ok run, Call.bind_of_ok read, created]
  rfl

theorem getDataStream_unsized (flags : values.flags &&& 0x0001 ≠ 0)
    (required : requireFileExtents source values = (.ok (), values.setFileExtents extents))
    {stream : Option ValueDataStream} {values' : AttributeValues}
    (run : getDataStream source ioHandle encryptionContext values = (.ok stream, values')) :
    (sized values.valueDataSize extents).1 = .ok () := by
  unfold getDataStream at run
  rw [Call.self_bind, if_pos flags, Call.bind_of_ok required] at run
  cases size : (sized values.valueDataSize extents).1 with
  | ok => rfl
  | error failure =>
      have failed : determineFileExtents source (values.setFileExtents extents) =
          (.error failure, values.setFileExtents (sized values.valueDataSize extents).2) := by
        rw [determineFileExtents_eq rfl]
        change ((determined source values.valueDataSize extents).1,
          (values.setFileExtents extents).setFileExtents (determined source values.valueDataSize extents).2) = _
        rw [determined, size]
        rfl
      rw [Call.bind_of_error failed] at run
      cases run

/-- The records of the value data stream: contiguous, with the blocks below the used size in the storage. -/
structure StreamRecords (blockSize storageSize usedSize : Nat) (records : List FileExtent) : Prop where
  plain : ∀ record ∈ records, record.fileSystemDataType = .fileExtent
  contiguous : Contiguous blockSize 0 records
  total : usedSize ≤ extentsEnd 0 records
  stored : ∀ record ∈ records, record.logicalOffset < usedSize →
    record.physicalBlockNumber * blockSize + record.dataSize ≤ storageSize

/-- However often it is asked for, the stream is the same one and the values are left with the trimmed extents; it
returns the stored bytes. -/
def Stable (values : AttributeValues) (source : ExtentSource) (ioHandle : IoHandle)
    (encryptionContext : Option EncryptionContext) (libfdata : Libfdata) (content : Nat → UInt8) (storageSize : Nat)
    (records : List FileExtent) : Prop :=
  ∃ dataStream,
    (∀ calls, outcomes (fun _ => getDataStream source ioHandle encryptionContext) values (List.replicate calls ()) =
      List.replicate calls (.ok (some (.fileExtents dataStream)),
        values.setFileExtents (trimmed values.valueDataSize records))) ∧
    dataStream.size = values.valueDataSize ∧
    (encryptionContext = none → dataStream.Returns libfdata (.ofContent content storageSize)
      (extentByte ioHandle.blockSize false content records))

theorem outcomes_stable {ρ σ : Type} {perform : σ → ρ × σ} {s : σ} {outcome : ρ × σ} (first : perform s = outcome)
    (again : perform outcome.2 = outcome) (calls : Nat) :
    outcomes (fun _ => perform) s (List.replicate calls ()) = List.replicate calls outcome := by
  induction calls generalizing s with
  | zero => rfl
  | succ calls ih =>
      rw [List.replicate_succ, List.replicate_succ, outcomes, first, ih again]

theorem StreamRecords.stream {storageSize : Nat} (recorded : StreamRecords ioHandle.blockSize storageSize usedSize records)
    (valid : ioHandle.Valid) (storage : storageSize ≤ off64Max) (small : usedSize < 2 ^ 64)
    (encryptionContext : Option EncryptionContext) (libfdata : Libfdata) (content : Nat → UInt8) :
    ∃ dataStream, FileDataStream.createFromFileExtents ioHandle encryptionContext (trimmed usedSize records) usedSize
        false = .ok dataStream ∧ dataStream.size = usedSize ∧
      (encryptionContext = none → dataStream.Returns libfdata (.ofContent content storageSize)
        (extentByte ioHandle.blockSize false content records)) := by
  obtain ⟨follow, ends⟩ := recorded.contiguous.trimmed_follow (Nat.zero_le _) recorded.total
  have reached : ∀ extent ∈ trimmed usedSize records, extent.physicalBlockNumber * ioHandle.blockSize ≤ off64Max := by
    intro extent member
    obtain ⟨record, found, below, rfl⟩ := mem_trimmed member
    have stored := recorded.stored record found below
    rw [FileExtent.resize_physicalBlockNumber]
    omega
  obtain ⟨dataStream, created, size, ofExtents⟩ := FileDataStream.createFromFileExtents_created valid encryptionContext
    follow (by rwa [ends]) reached false usedSize
  refine ⟨dataStream, created, size, fun plain => ?_⟩
  apply (ofExtents plain).returns
  · intro extent member _ offset inside _
    obtain ⟨record, found, below, rfl⟩ := mem_trimmed member
    have stored := recorded.stored record found below
    rw [FileExtent.resize_physicalBlockNumber]
    rw [FileExtent.resize_dataSize] at inside ⊢
    omega
  · rw [ends]
    exact Nat.min_le_left _ _
  · intro offset inside
    exact trimmed_byte (Nat.lt_of_lt_of_le inside (Nat.min_le_left _ _))

/-- The stream of an attribute is stable just if no extent starts beyond the used size, that is the last one does
not. -/
theorem getDataStream_stable_iff (unread : Unread values) (valid : ioHandle.Valid) {storageSize : Nat}
    (given : source.getFileExtents values.valueDataStreamIdentifier = .ok records)
    (recorded : StreamRecords ioHandle.blockSize storageSize values.valueDataSize records)
    (storage : storageSize ≤ off64Max) (small : values.valueDataSize < 2 ^ 64)
    (encryptionContext : Option EncryptionContext) (libfdata : Libfdata) (content : Nat → UInt8) :
    Stable values source ioHandle encryptionContext libfdata content storageSize records ↔
      ∀ last ∈ records.getLast?, last.logicalOffset ≤ values.valueDataSize := by
  rw [← sized_ok_iff recorded.contiguous recorded.plain]
  have required := requireFileExtents_read unread given
  constructor
  · rintro ⟨dataStream, calls, _⟩
    have first := (List.cons.inj (calls 1)).1
    exact getDataStream_unsized unread.flags required first
  · intro ok
    obtain ⟨dataStream, created, size, returns⟩ := recorded.stream valid storage small encryptionContext libfdata content
    have same := used_trimmed recorded.contiguous recorded.total ok
    have plain : ∀ extent ∈ trimmed values.valueDataSize records, extent.fileSystemDataType = .fileExtent := by
      intro extent member
      obtain ⟨record, found, _, rfl⟩ := mem_trimmed member
      exact recorded.plain record found
    have sized' := sized_used ok
    rw [same] at sized'
    have again : used values.valueDataSize (trimmed values.valueDataSize records) =
        trimmed values.valueDataSize records := by
      rw [used, sized', ← same, used, List.filter_filter]
      simp
    refine ⟨dataStream, outcomes_stable ?_ ?_, size, returns⟩
    · exact getDataStream_ok unread.flags required ((determined_plain source recorded.plain ok).trans (by rw [same])) created
    · have flags : (values.setFileExtents (trimmed values.valueDataSize records)).flags &&& 0x0001 ≠ 0 := unread.flags
      have determined' := determined_plain source plain (congrArg Prod.fst sized')
      rw [again] at determined'
      exact getDataStream_ok flags rfl determined' created

end streams

end AttributeValues

def preallocatedValues (valueDataSize : Nat) : AttributeValues where
  flags := 1
  valueData := []
  valueDataSize := valueDataSize
  valueDataStreamIdentifier := 20
  valueDataFileExtents := none

def twoExtents : List FileExtent := [⟨.fileExtent, 20, 0, 10, 4096, 0⟩, ⟨.fileExtent, 20, 4096, 20, 4096, 0⟩]

theorem twoExtents_records (usedSize : Nat) (small : usedSize ≤ 8192) :
    AttributeValues.StreamRecords 4096 1000000 usedSize twoExtents where
  plain := by decide
  contiguous := by decide
  total := small
  stored record member _ := (show ∀ record ∈ twoExtents, record.physicalBlockNumber * 4096 + record.dataSize ≤ 1000000 by
    decide) record member

namespace AttributeValues

theorem getDataStream_stable_sample :
    Stable (preallocatedValues 4096) (FileEntry.plainSource twoExtents) FileEntry.volumeIoHandle none .inOrder
        UInt8.ofNat 1000000 twoExtents ↔
      ∀ last ∈ twoExtents.getLast?, last.logicalOffset ≤ 4096 := by
  have recorded : StreamRecords FileEntry.volumeIoHandle.blockSize 1000000 (preallocatedValues 4096).valueDataSize
    twoExtents := twoExtents_records 4096 (by decide)
  exact getDataStream_stable_iff ⟨by decide, rfl⟩ FileEntry.volumeIoHandle_valid rfl recorded (by decide) (by decide)
    none .inOrder UInt8.ofNat

/-- A value of five bytes cannot be read where its second block was allocated beforehand. -/
theorem preallocated_refused : StreamRecords 4096 1000000 5 twoExtents ∧
    (getDataStream (FileEntry.plainSource twoExtents) FileEntry.volumeIoHandle none (preallocatedValues 5)).1 =
      fail .valueOutOfBounds :=
  ⟨twoExtents_records 5 (by decide), rfl⟩

end AttributeValues

end Fsapfs
