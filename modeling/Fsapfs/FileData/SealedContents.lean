import Fsapfs.Attributes
import Fsapfs.FileData.SealedExtents

namespace Fsapfs
open Program

variable {tree : SealedExtentTree} {blockSize storageSize identifier size : Nat}

theorem sizeExtent_ok {record : FileExtent} {records : List FileExtent}
    (ordered : record.logicalOffset < followingOffset size records)
    (limit : followingOffset size records ≤ size) :
    AttributeValues.sizeExtent size record records =
      .ok (record.resize (followingOffset size records - record.logicalOffset)) := by
  have inside : ¬record.logicalOffset ≥ size := Nat.not_le_of_lt (Nat.lt_of_lt_of_le ordered limit)
  have cut : min (followingOffset size records - record.logicalOffset) (size - record.logicalOffset) =
      followingOffset size records - record.logicalOffset := Nat.min_eq_left (Nat.sub_le_sub_right limit _)
  rw [← cut]
  unfold AttributeValues.sizeExtent
  cases records with
  | nil =>
      dsimp only
      rw [if_neg fun past => inside (Nat.le_of_lt past), ok_bind, if_neg inside]
      rfl
  | cons next records =>
      change record.logicalOffset < next.logicalOffset at ordered
      dsimp only
      rw [if_neg (Nat.not_lt_of_le (Nat.le_of_lt ordered)), ok_bind, if_neg inside]
      rfl

section resolve

variable (storage : SealedStorage tree blockSize storageSize identifier size) (blocks : 0 < blockSize)
  (small : storageSize ≤ off64Max)
include storage blocks small

theorem resolveExtent_ok {record : FileExtent} (isSealed : record.fileSystemDataType = .fileExtent2)
    (same : record.identifier = identifier) (aligned : blockSize ∣ record.logicalOffset)
    (inside : record.logicalOffset < size) (following : Nat) :
    ∃ extent, resolveExtent tree (record.resize (following - record.logicalOffset)) = .ok extent ∧
      Resolves tree blockSize identifier following record extent := by
  obtain ⟨sealedExtent, member, found, first, last⟩ := storage.maps.covers record.logicalOffset inside
  have contains : sealedExtent.Contains identifier record.logicalOffset := ⟨found, first, last⟩
  have whole := storage.aligned member contains inside aligned
  have stored := storage.stored sealedExtent member found
  have physical : (sealedExtent.physicalBlockNumber +
      (record.logicalOffset - sealedExtent.logicalOffset) / blockSize) % 2 ^ 64 =
      sealedExtent.physicalBlockNumber + (record.logicalOffset - sealedExtent.logicalOffset) / blockSize := by
    apply Nat.mod_eq_of_lt
    have place := Nat.le_mul_of_pos_right (sealedExtent.physicalBlockNumber +
      (record.logicalOffset - sealedExtent.logicalOffset) / blockSize) blocks
    rw [Nat.add_mul, Nat.div_mul_cancel whole] at place
    unfold off64Max at small
    omega
  have lookup : tree.lookup identifier record.logicalOffset = .ok (some
      (sealedExtent.physicalBlockNumber + (record.logicalOffset - sealedExtent.logicalOffset) / blockSize,
        sealedExtent.dataSize - (record.logicalOffset - sealedExtent.logicalOffset))) := by
    rw [SealedExtentTree.lookup_ok storage.built storage.maps (by rw [storage.blocks]; exact blocks) member found
      ⟨first, last⟩ (by rw [storage.blocks]; exact Nat.mod_eq_zero_of_dvd whole), storage.blocks, physical]
  have type : (record.resize (following - record.logicalOffset)).isSealed = true := by
    unfold FileExtent.isSealed
    change (record.fileSystemDataType == _) = true
    rw [isSealed]
    rfl
  unfold resolveExtent
  rw [if_pos type]
  change ∃ extent, (tree.lookup record.identifier record.logicalOffset >>= _) = _ ∧ _
  rw [same, lookup]
  exact ⟨_, rfl, sealedExtent, member, contains, whole, rfl, rfl, rfl⟩

theorem resolve_records {records : List FileExtent} (recorded : SealedRecords blockSize identifier size records) :
    ∃ resized extents, resizeExtents size records = .ok resized ∧
      resized.mapM (resolveExtent tree) = .ok extents ∧
      Resolved tree blockSize identifier size records extents ∧
      (∀ extent ∈ resized, extent.isSealed ∧ extent.dataSize ≠ 0) ∧
      updateEach (AttributeValues.sizeExtent size) records = (.ok (), resized) := by
  induction records with
  | nil => exact ⟨[], [], rfl, rfl, trivial, by simp, rfl⟩
  | cons record records ih =>
      obtain ⟨resized, extents, resize, resolve, resolved, used, sized⟩ := ih recorded.tail
      have ordered := recorded.increasing.1
      have limit := recorded.increasing.2.following_le
      have inside : record.logicalOffset < size := Nat.lt_of_lt_of_le ordered limit
      obtain ⟨extent, read, resolves⟩ := resolveExtent_ok storage blocks small
        (recorded.isSealed record (List.mem_cons_self ..)) (recorded.identifier record (List.mem_cons_self ..))
        (recorded.aligned record (List.mem_cons_self ..)) inside (followingOffset size records)
      refine ⟨record.resize (followingOffset size records - record.logicalOffset) :: resized, extent :: extents,
        ?_, ?_, ⟨resolves, resolved⟩, ?_, ?_⟩
      · unfold resizeExtents
        rw [if_neg (Nat.not_lt_of_le (Nat.le_of_lt ordered)), resize]
        rfl
      · rw [List.mapM_cons, read, ok_bind, resolve]
        rfl
      · intro extent' member
        cases member with
        | head =>
            constructor
            · simp [FileExtent.isSealed, FileExtent.resize, recorded.isSealed record (List.mem_cons_self ..)]
            · rw [FileExtent.resize_dataSize]
              omega
        | tail _ member => exact used extent' member
      · rw [updateEach, sizeExtent_ok ordered limit, sized]

end resolve

theorem updateEach_of_mapM {change : FileExtent → Result FileExtent} {extents extents' : List FileExtent}
    (changed : extents.mapM change = .ok extents') :
    updateEach (fun extent _ => change extent) extents = (.ok (), extents') := by
  induction extents generalizing extents' with
  | nil =>
      cases changed
      rfl
  | cons extent extents ih =>
      rw [List.mapM_cons] at changed
      obtain ⟨first, read, changed⟩ := bind_eq_ok.mp changed
      obtain ⟨rest, reads, same⟩ := bind_eq_ok.mp changed
      cases same
      rw [updateEach, read, ih reads]

theorem resolveUsed_mapM {extents : List FileExtent} (used : ∀ extent ∈ extents, extent.dataSize ≠ 0) :
    extents.mapM (AttributeValues.resolveUsedExtent tree) = extents.mapM (resolveExtent tree) := by
  induction extents with
  | nil => rfl
  | cons extent extents ih =>
      have first : AttributeValues.resolveUsedExtent tree extent = resolveExtent tree extent :=
        if_neg (used extent (List.mem_cons_self ..))
      rw [List.mapM_cons, List.mapM_cons, first, ih fun extent' member => used extent' (List.mem_cons_of_mem _ member)]

namespace Resolved

variable {libfdata : Libfdata} {ioHandle : IoHandle} {isSparse : Bool} {records extents : List FileExtent}
  {dataStream : FileDataStream}

theorem stream (storage : SealedStorage tree ioHandle.blockSize storageSize identifier size)
    (valid : ioHandle.Valid) (small : storageSize ≤ off64Max)
    (resolved : Resolved tree ioHandle.blockSize identifier size records extents)
    (increasing : Increasing size records) (limit : size < 2 ^ 64) (isSparse : Bool) :
    ∃ dataStream, FileDataStream.createFromFileExtents ioHandle none extents size isSparse = .ok dataStream ∧
      FileDataStream.OfExtents ioHandle isSparse extents size dataStream := by
  obtain ⟨follow, ends⟩ := resolved.follow increasing (Nat.zero_le _) (Nat.zero_le _)
  apply FileDataStream.createFromFileExtents_ok valid follow (Nat.lt_of_le_of_lt ends limit)
  intro extent member
  obtain ⟨following, record, _, resolves⟩ := resolved.member member
  have stored := resolves.stored storage
  omega

theorem returns (storage : SealedStorage tree ioHandle.blockSize storageSize identifier size)
    (resolved : Resolved tree ioHandle.blockSize identifier size records extents)
    (increasing : Increasing size records) (start : followingOffset size records = 0) (some : records ≠ [])
    (ofExtents : FileDataStream.OfExtents ioHandle isSparse extents size dataStream)
    (reaching : Reaching tree identifier size records)
    (placed : isSparse = true → Placed tree identifier size records) (content : Nat → UInt8) :
    dataStream.Returns libfdata (.ofContent content storageSize) (sealedByte content tree identifier) := by
  apply ofExtents.returns
  · intro extent member plain offset within reached
    obtain ⟨following, record, _, resolves⟩ := resolved.member member
    have stored := resolves.stored storage
    omega
  · exact resolved.reaches storage reaching some
  · intro offset inside
    exact resolved.bytes storage increasing reaching placed (by omega) inside

theorem reaching_of_returns (storage : SealedStorage tree ioHandle.blockSize storageSize identifier size)
    (resolved : Resolved tree ioHandle.blockSize identifier size records extents)
    (increasing : Increasing size records)
    (ofExtents : FileDataStream.OfExtents ioHandle isSparse extents size dataStream)
    (returns : dataStream.Returns libfdata (.ofContent (fun _ => 1) storageSize)
      (sealedByte (fun _ => 1) tree identifier)) :
    Reaching tree identifier size records ∧ (isSparse = true → Placed tree identifier size records) := by
  apply resolved.reaching storage increasing
  intro offset inside _
  rw [(ofExtents.bytes returns inside).2]
  obtain ⟨extent, member, contains⟩ := storage.maps.covers offset (lt_of_addressable inside)
  rw [storage.byte (fun _ => 1) member contains]

end Resolved

namespace AttributeValues

structure Unread (values : AttributeValues) : Prop where
  flags : values.flags &&& 0x0001 ≠ 0
  fileExtents : values.valueDataFileExtents = none

/-- The data stream is built, and every read of it returns the bytes. -/
def Holds (values : AttributeValues) (source : ExtentSource) (ioHandle : IoHandle) (libfdata : Libfdata)
    (fileIoHandle : DataStream) (byteAt : Nat → UInt8) : Prop :=
  ∃ dataStream values', getDataStream source ioHandle none values =
      (.ok (some (.fileExtents dataStream)), values') ∧
    dataStream.size = values.valueDataSize ∧ dataStream.Returns libfdata fileIoHandle byteAt

variable {source : ExtentSource} {values : AttributeValues}

theorem determineFileExtents_run {records resized extents : List FileExtent}
    (given : values.valueDataFileExtents = some records)
    (mapped : source.getSealedExtentTree = .ok (some tree))
    (sized : updateEach (sizeExtent values.valueDataSize) records = (.ok (), resized))
    (used : ∀ extent ∈ resized, extent.isSealed ∧ extent.dataSize ≠ 0)
    (isSealed : records.any FileExtent.isSealed = true)
    (resolve : resized.mapM (resolveExtent tree) = .ok extents) :
    determineFileExtents source values = (.ok (), values.setFileExtents extents) := by
  have kept : resized.filter (·.dataSize ≠ 0) = resized := by
    apply List.filter_eq_self.mpr
    intro extent member
    exact decide_eq_true (used extent member).2
  have resolve' : updateEach (fun extent _ => resolveUsedExtent tree extent) resized = (.ok (), extents) := by
    apply updateEach_of_mapM
    rw [resolveUsed_mapM fun extent member => (used extent member).2, resolve]
  have read : fileExtents values = (.ok records, values) := by
    unfold fileExtents
    rw [Call.self_bind, given]
    rfl
  unfold determineFileExtents
  rw [Call.self_bind, Call.bind_of_ok read, sized]
  have replaced : replaceFileExtents (.ok (), resized) values = (.ok (), values.setFileExtents resized) := rfl
  have read' : fileExtents (values.setFileExtents resized) = (.ok resized, values.setFileExtents resized) := rfl
  rw [Call.bind_of_ok replaced, Call.bind_of_ok read']
  rw [kept, Call.update_bind, if_pos isSealed, mapped]
  change replaceFileExtents (updateEach _ resized) _ = _
  rw [resolve']
  rfl

theorem requireFileExtents_read (unread : Unread values) {records : List FileExtent}
    (given : source.getFileExtents values.valueDataStreamIdentifier = .ok records) :
    requireFileExtents source values = (.ok (), values.setFileExtents records) := by
  unfold requireFileExtents getFileExtents
  rw [Call.self_bind, if_pos (by simp [unread.fileExtents]), Call.self_bind, if_neg (by simp [unread.fileExtents]),
    given]
  rfl

theorem getDataStream_run {records extents : List FileExtent} {ioHandle : IoHandle}
    {dataStream : FileDataStream} (unread : Unread values)
    (given : source.getFileExtents values.valueDataStreamIdentifier = .ok records)
    (determined : determineFileExtents source (values.setFileExtents records) =
      (.ok (), values.setFileExtents extents))
    (created : FileDataStream.createFromFileExtents ioHandle none extents values.valueDataSize false =
      .ok dataStream) :
    getDataStream source ioHandle none values =
      (.ok (some (.fileExtents dataStream)), values.setFileExtents extents) := by
  have required := requireFileExtents_read unread given
  have read : fileExtents (values.setFileExtents extents) = (.ok extents, values.setFileExtents extents) := rfl
  unfold getDataStream
  rw [Call.self_bind, if_pos unread.flags, Call.bind_of_ok required, Call.bind_of_ok determined, Call.bind_of_ok read, created]
  rfl

theorem holds_iff {ioHandle : IoHandle} {dataStream : FileDataStream} {values' : AttributeValues}
    (stream : getDataStream source ioHandle none values = (.ok (some (.fileExtents dataStream)), values'))
    (size : dataStream.size = values.valueDataSize) {libfdata : Libfdata} {fileIoHandle : DataStream}
    {byteAt : Nat → UInt8} :
    values.Holds source ioHandle libfdata fileIoHandle byteAt ↔
      dataStream.Returns libfdata fileIoHandle byteAt := by
  constructor
  · rintro ⟨dataStream', values'', stream', _, returns⟩
    cases stream.symm.trans stream'
    exact returns
  · intro returns
    exact ⟨dataStream, values', stream, size, returns⟩

end AttributeValues

/-- A sealed volume: its tree, and the records of a data stream of an identifier. -/
structure SealedVolume (source : ExtentSource) (ioHandle : IoHandle) (tree : SealedExtentTree)
    (storageSize identifier size : Nat) (records : List FileExtent) : Prop where
  mapped : source.getSealedExtentTree = .ok (some tree)
  storage : SealedStorage tree ioHandle.blockSize storageSize identifier size
  recorded : SealedRecords ioHandle.blockSize identifier size records
  start : followingOffset size records = 0
  nonempty : 0 < size
  limit : size < 2 ^ 64
  small : storageSize ≤ off64Max

section sealedVolume

variable {source : ExtentSource} {ioHandle : IoHandle} {records : List FileExtent}

theorem SealedVolume.records_ne_nil
    (volume : SealedVolume source ioHandle tree storageSize identifier size records) : records ≠ [] := by
  intro none
  have start := volume.start
  rw [none] at start
  exact absurd start (Nat.pos_iff_ne_zero.mp volume.nonempty)

theorem SealedVolume.any_isSealed
    (volume : SealedVolume source ioHandle tree storageSize identifier size records) {resized : List FileExtent}
    (resize : resizeExtents size records = .ok resized) (isSealed : ∀ extent ∈ resized, extent.isSealed) :
    resized.any FileExtent.isSealed = true ∧ records.any FileExtent.isSealed = true := by
  cases records with
  | nil => exact absurd rfl volume.records_ne_nil
  | cons record records =>
      obtain ⟨_, rest, _, rfl⟩ := resize_cons resize
      have first := isSealed _ (List.mem_cons_self ..)
      have recorded : record.isSealed = true := first
      exact ⟨by rw [List.any_cons, first, Bool.true_or], by rw [List.any_cons, recorded, Bool.true_or]⟩

end sealedVolume

namespace FileEntry

variable {source : ExtentSource} {entry : FileEntry} {records : List FileExtent} {libfdata : Libfdata}

theorem determineFileExtents_sealed (valid : entry.ioHandle.Valid)
    (volume : SealedVolume source entry.ioHandle tree storageSize identifier entry.dataStreamSize records)
    (given : source.getFileExtents entry.dataStreamIdentifier = .ok records) :
    ∃ extents, entry.determineFileExtents source = .ok extents ∧
      Resolved tree entry.ioHandle.blockSize identifier entry.dataStreamSize records extents := by
  obtain ⟨resized, extents, resize, resolve, resolved, used, _⟩ :=
    resolve_records volume.storage valid.blockSize volume.small volume.recorded
  have isSealed := (volume.any_isSealed resize fun extent member => (used extent member).1).1
  refine ⟨extents, ?_, resolved⟩
  unfold determineFileExtents
  rw [given, ok_bind, resize, ok_bind, if_pos isSealed, volume.mapped]
  exact resolve

theorem holds_sealed (unread : Unread entry)
    (volume : SealedVolume source entry.ioHandle tree storageSize identifier entry.dataStreamSize records)
    (given : source.getFileExtents entry.dataStreamIdentifier = .ok records)
    (reaching : Reaching tree identifier entry.dataStreamSize records)
    (placed : entry.isSparse = true → Placed tree identifier entry.dataStreamSize records)
    (content : Nat → UInt8) :
    entry.Holds source libfdata (.ofContent content storageSize) (sealedByte content tree identifier) := by
  obtain ⟨extents, determined, resolved⟩ := determineFileExtents_sealed unread.ioHandle volume given
  obtain ⟨dataStream, created, ofExtents⟩ := resolved.stream volume.storage unread.ioHandle volume.small
    volume.recorded.increasing volume.limit entry.isSparse
  exact (holds_iff unread determined created ofExtents).mpr (resolved.returns volume.storage
    volume.recorded.increasing volume.start volume.records_ne_nil ofExtents reaching placed content)

theorem reaching_of_holds (unread : Unread entry)
    (volume : SealedVolume source entry.ioHandle tree storageSize identifier entry.dataStreamSize records)
    (given : source.getFileExtents entry.dataStreamIdentifier = .ok records)
    (holds : entry.Holds source libfdata (.ofContent (fun _ => 1) storageSize)
      (sealedByte (fun _ => 1) tree identifier)) :
    Reaching tree identifier entry.dataStreamSize records ∧
      (entry.isSparse = true → Placed tree identifier entry.dataStreamSize records) := by
  obtain ⟨extents, determined, resolved⟩ := determineFileExtents_sealed unread.ioHandle volume given
  obtain ⟨dataStream, created, ofExtents⟩ := resolved.stream volume.storage unread.ioHandle volume.small
    volume.recorded.increasing volume.limit entry.isSparse
  exact resolved.reaching_of_returns volume.storage volume.recorded.increasing ofExtents
    ((holds_iff unread determined created ofExtents).mp holds)

end FileEntry

namespace AttributeValues

variable {source : ExtentSource} {values : AttributeValues} {ioHandle : IoHandle} {records : List FileExtent}
  {libfdata : Libfdata}

theorem getDataStream_sealed (unread : Unread values) (valid : ioHandle.Valid)
    (volume : SealedVolume source ioHandle tree storageSize identifier values.valueDataSize records)
    (given : source.getFileExtents values.valueDataStreamIdentifier = .ok records) :
    ∃ extents dataStream, getDataStream source ioHandle none values =
        (.ok (some (.fileExtents dataStream)), values.setFileExtents extents) ∧
      Resolved tree ioHandle.blockSize identifier values.valueDataSize records extents ∧
      FileDataStream.OfExtents ioHandle false extents values.valueDataSize dataStream := by
  obtain ⟨resized, extents, resize, resolve, resolved, used, sized⟩ :=
    resolve_records volume.storage valid.blockSize volume.small volume.recorded
  have isSealed := (volume.any_isSealed resize fun extent member => (used extent member).1).2
  obtain ⟨dataStream, created, ofExtents⟩ := resolved.stream volume.storage valid volume.small
    volume.recorded.increasing volume.limit false
  have determined : determineFileExtents source (values.setFileExtents records) =
      (.ok (), values.setFileExtents extents) :=
    determineFileExtents_run rfl volume.mapped sized used isSealed resolve
  exact ⟨extents, dataStream, getDataStream_run unread given determined created, resolved, ofExtents⟩

theorem holds_sealed (unread : Unread values) (valid : ioHandle.Valid)
    (volume : SealedVolume source ioHandle tree storageSize identifier values.valueDataSize records)
    (given : source.getFileExtents values.valueDataStreamIdentifier = .ok records)
    (reaching : Reaching tree identifier values.valueDataSize records) (content : Nat → UInt8) :
    values.Holds source ioHandle libfdata (.ofContent content storageSize)
      (sealedByte content tree identifier) := by
  obtain ⟨extents, dataStream, stream, resolved, ofExtents⟩ := getDataStream_sealed unread valid volume given
  exact (holds_iff stream ofExtents.size).mpr (resolved.returns volume.storage volume.recorded.increasing
    volume.start volume.records_ne_nil ofExtents reaching (by simp) content)

theorem reaching_of_holds (unread : Unread values) (valid : ioHandle.Valid)
    (volume : SealedVolume source ioHandle tree storageSize identifier values.valueDataSize records)
    (given : source.getFileExtents values.valueDataStreamIdentifier = .ok records)
    (holds : values.Holds source ioHandle libfdata (.ofContent (fun _ => 1) storageSize)
      (sealedByte (fun _ => 1) tree identifier)) : Reaching tree identifier values.valueDataSize records := by
  obtain ⟨extents, dataStream, stream, resolved, ofExtents⟩ := getDataStream_sealed unread valid volume given
  exact (resolved.reaching_of_returns volume.storage volume.recorded.increasing ofExtents
    ((holds_iff stream ofExtents.size).mp holds)).1

end AttributeValues

/-- On a sealed volume the file entry and the attribute values give the bytes of the tree exactly when the
sealed extent at the start of every record reaches the next record; a sparse file entry takes, besides, the
first block of the container for a hole. -/
theorem sealed_contents_iff (libfdata : Libfdata) {source : ExtentSource} {entry : FileEntry}
    {values : AttributeValues} {records : List FileExtent} (unread : FileEntry.Unread entry)
    (unreadValues : AttributeValues.Unread values) (size : values.valueDataSize = entry.dataStreamSize)
    (volume : SealedVolume source entry.ioHandle tree storageSize identifier entry.dataStreamSize records)
    (given : source.getFileExtents entry.dataStreamIdentifier = .ok records)
    (givenValues : source.getFileExtents values.valueDataStreamIdentifier = .ok records) :
    ((∀ content, entry.Holds source libfdata (.ofContent content storageSize)
        (sealedByte content tree identifier)) ↔
      Reaching tree identifier entry.dataStreamSize records ∧
        (entry.isSparse = true → Placed tree identifier entry.dataStreamSize records)) ∧
    ((∀ content, values.Holds source entry.ioHandle libfdata (.ofContent content storageSize)
        (sealedByte content tree identifier)) ↔
      Reaching tree identifier entry.dataStreamSize records) := by
  constructor
  · constructor
    · intro holds
      exact FileEntry.reaching_of_holds unread volume given (holds _)
    · rintro ⟨reaching, placed⟩ content
      exact FileEntry.holds_sealed unread volume given reaching placed content
  · rw [← size] at volume ⊢
    exact ⟨fun holds => AttributeValues.reaching_of_holds unreadValues unread.ioHandle volume givenValues (holds _),
      AttributeValues.holds_sealed unreadValues unread.ioHandle volume givenValues⟩

def sealedTree (entries : List SealedExtent) : SealedExtentTree where
  blockSize := 4096
  rootNodeBlockNumber := 30
  entries := entries
  isBuilt := true

def sealedRecords : List FileExtent :=
  [⟨.fileExtent2, 20, 0, 0, 8192, 0⟩, ⟨.fileExtent2, 20, 8192, 0, 8192, 0⟩]

def sealedSource (entries : List SealedExtent) : ExtentSource where
  getFileExtents _ := .ok sealedRecords
  getSealedExtentTree := .ok (some (sealedTree entries))

def sealedValues (valueDataSize : Nat) : AttributeValues where
  flags := 1
  valueData := []
  valueDataSize := valueDataSize
  valueDataStreamIdentifier := 20
  valueDataFileExtents := none

def spanningExtents : List SealedExtent := [⟨19, 0, 4096, 5⟩, ⟨20, 0, 16384, 10⟩]

def dividingExtents : List SealedExtent := [⟨20, 0, 4096, 10⟩, ⟨20, 4096, 12288, 50⟩]

theorem sealedVolume_of_entries {entries : List SealedExtent}
    (maps : SealedExtentTree.Maps (sealedTree entries) 20 13000)
    (sorted : entries.Pairwise fun entry entry' => SealedExtentTree.entryCompare entry entry')
    (stored : ∀ extent ∈ entries, extent.identifier = 20 →
      extent.physicalBlockNumber * 4096 + extent.dataSize ≤ 1000000) :
    SealedVolume (sealedSource entries) FileEntry.volumeIoHandle (sealedTree entries) 1000000 20 13000
      sealedRecords where
  mapped := rfl
  storage := ⟨⟨rfl, sorted⟩, maps, rfl, stored⟩
  recorded := ⟨by decide, by decide, by decide, by decide⟩
  start := rfl
  nonempty := by decide
  limit := by decide
  small := by decide

theorem spanningExtents_volume : SealedVolume (sealedSource spanningExtents) FileEntry.volumeIoHandle
    (sealedTree spanningExtents) 1000000 20 13000 sealedRecords := by
  have maps : SealedExtentTree.Maps (sealedTree spanningExtents) 20 13000 := by
    refine ⟨by decide, by decide, fun offset inside => ?_⟩
    exact ⟨⟨20, 0, 16384, 10⟩, by decide, rfl, Nat.zero_le _, Nat.lt_of_lt_of_le inside (by decide)⟩
  exact sealedVolume_of_entries maps (by decide) (by decide)

theorem dividingExtents_volume : SealedVolume (sealedSource dividingExtents) FileEntry.volumeIoHandle
    (sealedTree dividingExtents) 1000000 20 13000 sealedRecords := by
  have maps : SealedExtentTree.Maps (sealedTree dividingExtents) 20 13000 := by
    refine ⟨by decide, by decide, fun offset inside => ?_⟩
    by_cases first : offset < 4096
    · exact ⟨⟨20, 0, 4096, 10⟩, by decide, rfl, Nat.zero_le _, by omega⟩
    · exact ⟨⟨20, 4096, 12288, 50⟩, by decide, rfl, Nat.le_of_not_lt first,
        Nat.lt_of_lt_of_le inside (by decide)⟩
  exact sealedVolume_of_entries maps (by decide) (by decide)

theorem sealedValues_unread (valueDataSize : Nat) : AttributeValues.Unread (sealedValues valueDataSize) :=
  ⟨show 1 &&& 0x0001 ≠ 0 by decide, rfl⟩

theorem spanningExtents_contents :
    (∀ content, (FileEntry.plainEntry 0 13000).Holds (sealedSource spanningExtents) .inOrder
      (.ofContent content 1000000) (sealedByte content (sealedTree spanningExtents) 20)) ∧
    (∀ content, (sealedValues 13000).Holds (sealedSource spanningExtents) FileEntry.volumeIoHandle .inOrder
      (.ofContent content 1000000) (sealedByte content (sealedTree spanningExtents) 20)) := by
  have unread : FileEntry.Unread (FileEntry.plainEntry 0 13000) :=
    FileEntry.plainEntry_unread (by decide) (by decide)
  have contents := sealed_contents_iff .inOrder unread (sealedValues_unread 13000) rfl spanningExtents_volume
    rfl rfl
  exact ⟨contents.1.mpr ⟨by decide, by decide⟩, contents.2.mpr (by decide)⟩

theorem dividingExtents_contents_differ :
    ¬(∀ content, (FileEntry.plainEntry 0 13000).Holds (sealedSource dividingExtents) .inOrder
      (.ofContent content 1000000) (sealedByte content (sealedTree dividingExtents) 20)) ∧
    ¬(∀ content, (sealedValues 13000).Holds (sealedSource dividingExtents) FileEntry.volumeIoHandle .inOrder
      (.ofContent content 1000000) (sealedByte content (sealedTree dividingExtents) 20)) := by
  have short : ¬Reaching (sealedTree dividingExtents) 20 13000 sealedRecords := by decide
  have unread : FileEntry.Unread (FileEntry.plainEntry 0 13000) :=
    FileEntry.plainEntry_unread (by decide) (by decide)
  constructor
  · intro holds
    exact short (FileEntry.reaching_of_holds unread dividingExtents_volume rfl (holds _)).1
  · intro holds
    exact short (AttributeValues.reaching_of_holds (sealedValues_unread 13000) FileEntry.volumeIoHandle_valid
      dividingExtents_volume rfl (holds _))

end Fsapfs
