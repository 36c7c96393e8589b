import Fsapfs.FileData.Reads
import Fsapfs.FileEntry

namespace Fsapfs
open Program

/-- The FILE_EXTENT records of a data stream: whole blocks in order, the stored ones in the storage. -/
structure Records (blockSize storageSize : Nat) (isSparse : Bool) (records : List FileExtent) : Prop where
  plain : ∀ record ∈ records, record.fileSystemDataType = .fileExtent
  whole : ∀ record ∈ records, 0 < record.dataSize ∧ blockSize ∣ record.dataSize
  follow : Follow 0 records
  stored : ∀ record ∈ records, ¬record.IsHole isSparse →
    record.physicalBlockNumber * blockSize + record.dataSize ≤ storageSize

/-- The last extent starts in the data, and every extent that has stored bytes reaches the next one or
the end of the data. -/
def Gapless (isSparse : Bool) (dataStreamSize : Nat) : List FileExtent → Prop
  | [] => True
  | extent :: extents =>
      extent.logicalOffset ≤ followingOffset dataStreamSize extents ∧
      (extent.IsHole isSparse ∨ min (followingOffset dataStreamSize extents) (addressable dataStreamSize) ≤
        extent.logicalOffset + extent.dataSize) ∧
      Gapless isSparse dataStreamSize extents

instance gaplessDecidable (isSparse : Bool) (dataStreamSize : Nat) :
    ∀ extents, Decidable (Gapless isSparse dataStreamSize extents)
  | [] => isTrue trivial
  | _ :: extents =>
      have := gaplessDecidable isSparse dataStreamSize extents
      inferInstanceAs (Decidable (_ ∧ _ ∧ _))

section resize

variable {blockSize storageSize dataStreamSize position : Nat} {isSparse : Bool} {extents : List FileExtent}

theorem Gapless.resize_ok (gapless : Gapless isSparse dataStreamSize extents) :
    ∃ resized, resizeExtents dataStreamSize extents = .ok resized := by
  induction extents with
  | nil => exact ⟨[], rfl⟩
  | cons extent extents ih =>
      obtain ⟨resized, rest⟩ := ih gapless.2.2
      unfold resizeExtents
      rw [if_neg (Nat.not_lt_of_le gapless.1), rest]
      exact ⟨_, rfl⟩

theorem resize_cons {extent : FileExtent} {resized : List FileExtent}
    (resize : resizeExtents dataStreamSize (extent :: extents) = .ok resized) :
    extent.logicalOffset ≤ followingOffset dataStreamSize extents ∧
      ∃ rest, resizeExtents dataStreamSize extents = .ok rest ∧
        resized = extent.resize (followingOffset dataStreamSize extents - extent.logicalOffset) :: rest := by
  unfold resizeExtents at resize
  by_cases past : followingOffset dataStreamSize extents < extent.logicalOffset
  · rw [if_pos past] at resize
    cases resize
  · rw [if_neg past] at resize
    obtain ⟨rest, read, same⟩ := bind_eq_ok.mp resize
    cases same
    exact ⟨Nat.le_of_not_lt past, rest, read, rfl⟩

theorem resize_follow {resized : List FileExtent}
    (resize : resizeExtents dataStreamSize extents = .ok resized)
    (start : position ≤ followingOffset dataStreamSize extents) :
    Follow position resized ∧ (extents ≠ [] → extentsEnd position resized = dataStreamSize) := by
  induction extents generalizing position resized with
  | nil =>
      cases resize
      exact ⟨trivial, fun some => absurd rfl some⟩
  | cons extent extents ih =>
      obtain ⟨reaches, rest, read, rfl⟩ := resize_cons resize
      obtain ⟨follow, ends⟩ := ih read (Nat.le_refl (followingOffset dataStreamSize extents))
      have next : (extent.resize (followingOffset dataStreamSize extents - extent.logicalOffset)).logicalOffset +
          (extent.resize (followingOffset dataStreamSize extents - extent.logicalOffset)).dataSize =
          followingOffset dataStreamSize extents := Nat.add_sub_cancel' reaches
      constructor
      · refine ⟨start, ?_⟩
        rw [next]
        exact follow
      · intro _
        unfold extentsEnd
        rw [next]
        cases extents with
        | nil =>
            cases read
            rfl
        | cons _ _ => exact ends (List.cons_ne_nil _ _)

theorem resize_kept {resized : List FileExtent}
    (resize : resizeExtents dataStreamSize extents = .ok resized) {extent : FileExtent}
    (member : extent ∈ resized) : ∃ record ∈ extents, ∃ dataSize, extent = record.resize dataSize := by
  induction extents generalizing resized with
  | nil =>
      cases resize
      cases member
  | cons first extents ih =>
      obtain ⟨reaches, rest, read, rfl⟩ := resize_cons resize
      cases member with
      | head => exact ⟨first, List.mem_cons_self .., _, rfl⟩
      | tail _ member =>
          obtain ⟨record, found, kept⟩ := ih read member
          exact ⟨record, List.mem_cons_of_mem _ found, kept⟩

variable {content : Nat → UInt8}

theorem extentByte_next (follow : Follow position extents) {offset : Nat}
    (before : offset < followingOffset dataStreamSize extents) :
    extentByte blockSize isSparse content extents offset = 0 := by
  cases extents with
  | nil => rfl
  | cons extent extents =>
      have follow' : Follow extent.logicalOffset (extent :: extents) := ⟨Nat.le_refl _, follow.2⟩
      exact extentByte_before follow' before

theorem follow_le (follow : Follow position extents) {offset : Nat} (inside : offset < dataStreamSize)
    (after : followingOffset dataStreamSize extents ≤ offset) : position ≤ offset := by
  cases extents with
  | nil => exact absurd after (Nat.not_le_of_lt inside)
  | cons extent extents => exact Nat.le_trans follow.1 after

theorem lt_of_addressable {offset size : Nat} (inside : offset < addressable size) : offset < size :=
  Nat.lt_of_lt_of_le inside (Nat.min_le_left ..)

theorem resize_covers {extent : FileExtent} {following offset : Nat} (reaches : extent.logicalOffset ≤ following) :
    (extent.resize (following - extent.logicalOffset)).Covers offset ↔
      extent.logicalOffset ≤ offset ∧ offset < following := by
  unfold FileExtent.Covers
  rw [FileExtent.resize_logicalOffset, FileExtent.resize_dataSize, Nat.add_sub_cancel' reaches]

theorem Gapless.bytes (gapless : Gapless isSparse dataStreamSize extents) (follow : Follow position extents)
    {resized : List FileExtent} (resize : resizeExtents dataStreamSize extents = .ok resized) {offset : Nat}
    (inside : offset < addressable dataStreamSize) :
    extentByte blockSize isSparse content resized offset = extentByte blockSize isSparse content extents offset := by
  induction extents generalizing position resized with
  | nil =>
      cases resize
      rfl
  | cons extent extents ih =>
      obtain ⟨reaches, rest, read, rfl⟩ := resize_cons resize
      obtain ⟨_, covers, gapless⟩ := gapless
      have same := ih gapless follow.2 read
      have covered : (extent.resize (followingOffset dataStreamSize extents - extent.logicalOffset)).Covers offset ↔
          extent.logicalOffset ≤ offset ∧ offset < followingOffset dataStreamSize extents := resize_covers reaches
      unfold extentByte
      by_cases before : offset < extent.logicalOffset
      · rw [if_neg (fun h => Nat.not_le_of_lt before h.1), if_neg (fun h => Nat.not_le_of_lt before h.1), same]
      by_cases within : offset < followingOffset dataStreamSize extents
      · rw [if_pos (covered.mpr ⟨Nat.le_of_not_lt before, within⟩)]
        by_cases hole : extent.IsHole isSparse
        · have zero : extent.byte blockSize isSparse content offset = 0 := if_pos hole
          rw [extentByte_next follow.2 within, zero, ite_self]
          exact zero
        · have reached := covers.resolve_left hole
          have covered' : extent.Covers offset := ⟨Nat.le_of_not_lt before, by omega⟩
          rw [if_pos covered']
          rfl
      · have past := follow_le follow.2 (lt_of_addressable inside) (Nat.le_of_not_lt within)
        rw [if_neg fun h => within (covered.mp h).2, if_neg (fun h => Nat.not_le_of_lt h.2 past), same]

theorem gapless_of_bytes (follow : Follow position extents) {resized : List FileExtent}
    (resize : resizeExtents dataStreamSize extents = .ok resized)
    (same : ∀ offset < addressable dataStreamSize, extentByte blockSize isSparse (fun _ => 1) resized offset =
      extentByte blockSize isSparse (fun _ => 1) extents offset) : Gapless isSparse dataStreamSize extents := by
  induction extents generalizing position resized with
  | nil => trivial
  | cons extent extents ih =>
      obtain ⟨reaches, rest, read, rfl⟩ := resize_cons resize
      have rest_follow := (resize_follow read (Nat.le_refl (followingOffset dataStreamSize extents))).1
      refine ⟨reaches, ?_, ih follow.2 read ?_⟩
      · by_cases hole : extent.IsHole isSparse
        · exact Or.inl hole
        · refine Or.inr (Nat.le_of_not_lt fun gap => ?_)
          obtain ⟨before, inside⟩ := Nat.lt_min.mp gap
          have byte := same (extent.logicalOffset + extent.dataSize) inside
          have covered := (resize_covers reaches).mpr ⟨Nat.le_add_right _ _, before⟩
          have uncovered : ¬extent.Covers (extent.logicalOffset + extent.dataSize) :=
            fun h => Nat.lt_irrefl _ h.2
          have one : (extent.resize (followingOffset dataStreamSize extents -
              extent.logicalOffset)).byte blockSize isSparse (fun _ => 1)
              (extent.logicalOffset + extent.dataSize) = 1 := if_neg hole
          unfold extentByte at byte
          rw [if_pos covered, one, if_neg uncovered, extentByte_next follow.2 before] at byte
          exact absurd byte (by decide)
      · intro offset inside
        by_cases within : offset < followingOffset dataStreamSize extents
        · rw [extentByte_next follow.2 within, extentByte_before rest_follow within]
        · have past := follow_le follow.2 (lt_of_addressable inside) (Nat.le_of_not_lt within)
          have byte := same offset inside
          unfold extentByte at byte
          rwa [if_neg fun h => within ((resize_covers reaches).mp h).2,
            if_neg (fun h => Nat.not_le_of_lt h.2 past)] at byte

theorem Gapless.following_le (gapless : Gapless isSparse dataStreamSize extents) :
    followingOffset dataStreamSize extents ≤ dataStreamSize := by
  induction extents with
  | nil => exact Nat.le_refl _
  | cons extent extents ih => exact Nat.le_trans gapless.1 (ih gapless.2.2)

theorem blockEnd_le {dataSize offset : Nat} (whole : blockSize ∣ dataSize)
    (inside : offset < dataSize) : offset / blockSize * blockSize + blockSize ≤ dataSize := by
  obtain ⟨count, rfl⟩ := whole
  have block : offset / blockSize < count := Nat.div_lt_of_lt_mul inside
  calc offset / blockSize * blockSize + blockSize = blockSize * (offset / blockSize + 1) := by
        rw [Nat.mul_add, Nat.mul_one, Nat.mul_comm]
    _ ≤ blockSize * count := Nat.mul_le_mul_left _ block

theorem Gapless.stored (gapless : Gapless isSparse dataStreamSize extents)
    (whole : ∀ record ∈ extents, blockSize ∣ record.dataSize)
    (stored : ∀ record ∈ extents, ¬record.IsHole isSparse →
      record.physicalBlockNumber * blockSize + record.dataSize ≤ storageSize)
    {resized : List FileExtent} (resize : resizeExtents dataStreamSize extents = .ok resized)
    {extent : FileExtent} (member : extent ∈ resized) : extent.Stored blockSize storageSize isSparse := by
  induction extents generalizing resized with
  | nil =>
      cases resize
      cases member
  | cons first extents ih =>
      obtain ⟨reaches, rest, read, rfl⟩ := resize_cons resize
      obtain ⟨_, covers, gapless⟩ := gapless
      cases member with
      | head =>
          intro plain offset within reached
          have stored := stored first (List.mem_cons_self ..) plain
          have next := gapless.following_le
          have covers := covers.resolve_left plain
          have upper : first.logicalOffset + offset < followingOffset dataStreamSize extents := by
            change offset < _ - first.logicalOffset at within
            omega
          have inside : first.logicalOffset + offset < addressable dataStreamSize :=
            Nat.lt_min.mpr ⟨Nat.lt_of_lt_of_le upper next, reached⟩
          have block := blockEnd_le (whole first (List.mem_cons_self ..))
            (show offset < first.dataSize by omega)
          rw [FileExtent.resize_physicalBlockNumber]
          omega
      | tail _ member =>
          exact ih gapless (fun record found => whole record (List.mem_cons_of_mem _ found))
            (fun record found => stored record (List.mem_cons_of_mem _ found)) read member

end resize

namespace FileEntry

structure Unread (entry : FileEntry) : Prop where
  ioHandle : entry.ioHandle.Valid
  encryptionContext : entry.encryptionContext = none
  fileExtents : entry.fileExtents = none
  dataStream : entry.dataStream = none
  dataStreamSize : 0 < entry.dataStreamSize
  dataStreamSize_lt : entry.dataStreamSize < 2 ^ 64

/-- The extents are determined, and every read of the data stream built from them returns the bytes. -/
def Holds (entry : FileEntry) (source : ExtentSource) (libfdata : Libfdata) (fileIoHandle : DataStream)
    (byteAt : Nat → UInt8) : Prop :=
  ∃ fileExtents dataStream,
    getFileExtents source entry = (.ok (), entry.setFileExtents fileExtents) ∧
    getDataStream source (entry.setFileExtents fileExtents) =
      (.ok (), (entry.setFileExtents fileExtents).setDataStream dataStream) ∧
    dataStream.size = entry.dataStreamSize ∧ dataStream.Returns libfdata fileIoHandle byteAt

variable {source : ExtentSource} {libfdata : Libfdata} {content : Nat → UInt8} {storageSize : Nat}
  {byteAt : Nat → UInt8} {entry : FileEntry}

theorem getFileExtents_run (unread : Unread entry) {fileExtents : List FileExtent}
    (determined : entry.determineFileExtents source = .ok fileExtents) :
    getFileExtents source entry = (.ok (), entry.setFileExtents fileExtents) := by
  unfold getFileExtents
  rw [Call.self_bind, unread.fileExtents, if_neg (by simp), determined]
  rfl

theorem getDataStream_run (unread : Unread entry) {fileExtents : List FileExtent} {dataStream : FileDataStream}
    (created : FileDataStream.createFromFileExtents entry.ioHandle none fileExtents entry.dataStreamSize
      entry.isSparse = .ok dataStream) :
    getDataStream source (entry.setFileExtents fileExtents) =
      (.ok (), (entry.setFileExtents fileExtents).setDataStream dataStream) := by
  have unset : (entry.setFileExtents fileExtents).dataStream = none := unread.dataStream
  have plain : (entry.setFileExtents fileExtents).encryptionContext = none := unread.encryptionContext
  have created' : FileDataStream.createFromFileExtents (entry.setFileExtents fileExtents).ioHandle none
    fileExtents (entry.setFileExtents fileExtents).dataStreamSize (entry.setFileExtents fileExtents).isSparse =
      .ok dataStream := created
  unfold getDataStream
  rw [Call.self_bind, unset, if_neg (by simp)]
  have required : requireFileExtents source (entry.setFileExtents fileExtents) =
    (.ok fileExtents, entry.setFileExtents fileExtents) := rfl
  rw [Call.bind_of_ok required, plain, created']
  rfl

theorem holds_iff (unread : Unread entry) {fileExtents : List FileExtent} {dataStream : FileDataStream}
    (determined : entry.determineFileExtents source = .ok fileExtents)
    (created : FileDataStream.createFromFileExtents entry.ioHandle none fileExtents entry.dataStreamSize
      entry.isSparse = .ok dataStream)
    (ofExtents : FileDataStream.OfExtents entry.ioHandle entry.isSparse fileExtents entry.dataStreamSize
      dataStream) {fileIoHandle : DataStream} :
    entry.Holds source libfdata fileIoHandle byteAt ↔ dataStream.Returns libfdata fileIoHandle byteAt := by
  have extents := getFileExtents_run unread determined
  have stream : getDataStream source (entry.setFileExtents fileExtents) =
      (.ok (), (entry.setFileExtents fileExtents).setDataStream dataStream) := getDataStream_run unread created
  constructor
  · rintro ⟨fileExtents', dataStream', extents', stream', size, returns⟩
    have same : fileExtents = fileExtents' :=
      Option.some.inj (congrArg FileEntry.fileExtents (Prod.ext_iff.mp (extents.symm.trans extents')).2)
    subst same
    have same : dataStream = dataStream' :=
      Option.some.inj (congrArg FileEntry.dataStream (Prod.ext_iff.mp (stream.symm.trans stream')).2)
    rwa [same]
  · intro returns
    exact ⟨fileExtents, dataStream, extents, stream, ofExtents.size, returns⟩

theorem Holds.determined (holds : entry.Holds source libfdata (.ofContent content storageSize) byteAt) :
    ∃ fileExtents, entry.determineFileExtents source = .ok fileExtents := by
  obtain ⟨fileExtents, _, extents, _⟩ := holds
  unfold getFileExtents at extents
  rw [Call.self_bind] at extents
  by_cases set : entry.fileExtents.isSome
  · rw [if_pos set] at extents
    cases extents
  · rw [if_neg set] at extents
    cases determined : entry.determineFileExtents source with
    | ok fileExtents => exact ⟨fileExtents, rfl⟩
    | error failure =>
        rw [determined] at extents
        cases extents

theorem determineFileExtents_plain {records resized : List FileExtent}
    (given : source.getFileExtents entry.dataStreamIdentifier = .ok records)
    (plain : ∀ record ∈ records, record.fileSystemDataType = .fileExtent)
    (resize : resizeExtents entry.dataStreamSize records = .ok resized) :
    entry.determineFileExtents source = .ok resized := by
  have unsealed : ¬resized.any FileExtent.isSealed = true := by
    intro found
    obtain ⟨extent, member, isSealed⟩ := List.any_eq_true.mp found
    obtain ⟨record, recorded, dataSize, rfl⟩ := resize_kept resize member
    have type : (record.resize dataSize).fileSystemDataType = .fileExtent := plain record recorded
    simp [FileExtent.isSealed, type] at isSealed
  unfold determineFileExtents
  rw [given, ok_bind, resize, ok_bind, if_neg unsealed]
  rfl

theorem plain_stream (unread : Unread entry) {records resized : List FileExtent}
    (recorded : Records entry.ioHandle.blockSize storageSize entry.isSparse records)
    (storage : storageSize ≤ off64Max)
    (resize : resizeExtents entry.dataStreamSize records = .ok resized) :
    ∃ dataStream, FileDataStream.createFromFileExtents entry.ioHandle none resized entry.dataStreamSize
        entry.isSparse = .ok dataStream ∧
      FileDataStream.OfExtents entry.ioHandle entry.isSparse resized entry.dataStreamSize dataStream := by
  obtain ⟨follow, ends⟩ := resize_follow resize (Nat.zero_le _)
  apply FileDataStream.createFromFileExtents_ok unread.ioHandle follow
  · by_cases none : records = []
    · cases none
      cases resize
      exact Nat.two_pow_pos 64
    · rw [ends none]
      exact unread.dataStreamSize_lt
  · intro extent member
    obtain ⟨record, found, dataSize, rfl⟩ := resize_kept resize member
    rw [FileExtent.resize_physicalBlockNumber]
    by_cases hole : record.IsHole entry.isSparse
    · rw [hole.2, Nat.zero_mul]
      exact Nat.zero_le _
    · have stored := recorded.stored record found hole
      omega

theorem gapless_of_holds (libfdata : Libfdata) (unread : Unread entry) {records : List FileExtent}
    (given : source.getFileExtents entry.dataStreamIdentifier = .ok records)
    (recorded : Records entry.ioHandle.blockSize storageSize entry.isSparse records)
    (storage : storageSize ≤ off64Max)
    (holds : entry.Holds source libfdata (.ofContent (fun _ => 1) storageSize)
      (extentByte entry.ioHandle.blockSize entry.isSparse (fun _ => 1) records)) :
    records ≠ [] ∧ Gapless entry.isSparse entry.dataStreamSize records := by
  obtain ⟨resized, resize⟩ : ∃ resized, resizeExtents entry.dataStreamSize records = .ok resized := by
    obtain ⟨fileExtents, determined⟩ := holds.determined
    obtain ⟨records', given', determined⟩ := bind_eq_ok.mp determined
    obtain ⟨resized, resize, _⟩ := bind_eq_ok.mp determined
    cases given.symm.trans given'
    exact ⟨resized, resize⟩
  have determined := determineFileExtents_plain given recorded.plain resize
  have first : 0 < addressable entry.dataStreamSize := Nat.lt_min.mpr ⟨unread.dataStreamSize, by decide⟩
  obtain ⟨dataStream, created, ofExtents⟩ := plain_stream unread recorded storage resize
  have returns := (holds_iff unread determined created ofExtents).mp holds
  have some : records ≠ [] := by
    intro none
    cases none
    cases resize
    exact Nat.not_lt_zero _ (ofExtents.bytes returns first).1
  exact ⟨some, gapless_of_bytes recorded.follow resize fun offset inside =>
    (ofExtents.bytes returns inside).2⟩

theorem holds_of_gapless (libfdata : Libfdata) (unread : Unread entry) {records : List FileExtent}
    (given : source.getFileExtents entry.dataStreamIdentifier = .ok records)
    (recorded : Records entry.ioHandle.blockSize storageSize entry.isSparse records)
    (storage : storageSize ≤ off64Max) (some : records ≠ [])
    (gapless : Gapless entry.isSparse entry.dataStreamSize records) (content : Nat → UInt8) :
    entry.Holds source libfdata (.ofContent content storageSize)
      (extentByte entry.ioHandle.blockSize entry.isSparse content records) := by
  obtain ⟨resized, resize⟩ := gapless.resize_ok
  have determined := determineFileExtents_plain given recorded.plain resize
  obtain ⟨dataStream, created, ofExtents⟩ := plain_stream unread recorded storage resize
  have stored : ∀ extent ∈ resized, extent.Stored entry.ioHandle.blockSize storageSize entry.isSparse :=
    fun extent member => gapless.stored (fun record found => (recorded.whole record found).2)
      recorded.stored resize member
  have ends := (resize_follow resize (Nat.zero_le _)).2 some
  apply (holds_iff unread determined created ofExtents).mpr
  apply ofExtents.returns stored
  · rw [ends]
    exact Nat.min_le_left ..
  · intro offset inside
    exact gapless.bytes recorded.follow resize inside

/-- The contents are the recorded extents and zeros exactly when there is an extent, and none with stored
bytes is followed by a gap. -/
theorem contents_iff (libfdata : Libfdata) (unread : Unread entry) {records : List FileExtent}
    (given : source.getFileExtents entry.dataStreamIdentifier = .ok records)
    (recorded : Records entry.ioHandle.blockSize storageSize entry.isSparse records)
    (storage : storageSize ≤ off64Max) :
    (∀ content, entry.Holds source libfdata (.ofContent content storageSize)
      (extentByte entry.ioHandle.blockSize entry.isSparse content records)) ↔
      records ≠ [] ∧ Gapless entry.isSparse entry.dataStreamSize records :=
  ⟨fun holds => gapless_of_holds libfdata unread given recorded storage (holds _),
    fun gapless => holds_of_gapless libfdata unread given recorded storage gapless.1 gapless.2⟩

def volumeIoHandle : IoHandle := ⟨512, 4096⟩

theorem volumeIoHandle_valid : volumeIoHandle.Valid := ⟨by decide, by decide, by decide⟩

def plainEntry (inodeFlags dataStreamSize : Nat) : FileEntry where
  ioHandle := volumeIoHandle
  encryptionContext := none
  dataStreamIdentifier := 20
  dataStreamSize := dataStreamSize
  inodeFlags := inodeFlags
  fileExtents := none
  dataStream := none

def plainSource (records : List FileExtent) : ExtentSource where
  getFileExtents _ := .ok records
  getSealedExtentTree := .ok none

theorem plainEntry_unread {inodeFlags dataStreamSize : Nat} (some : 0 < dataStreamSize)
    (small : dataStreamSize < 2 ^ 64) : Unread (plainEntry inodeFlags dataStreamSize) :=
  ⟨volumeIoHandle_valid, rfl, rfl, rfl, some, small⟩

def sparseRecords : List FileExtent :=
  [⟨.fileExtent, 20, 0, 100, 8192, 0⟩, ⟨.fileExtent, 20, 8192, 0, 4096, 0⟩,
    ⟨.fileExtent, 20, 20480, 7, 8192, 0⟩]

theorem sparseRecords_contents : sparseRecords.length = 3 ∧
    ∀ content, (plainEntry 0x200 25000).Holds (plainSource sparseRecords) .inOrder
      (.ofContent content 1000000) (extentByte 4096 true content sparseRecords) := by
  have recorded : Records 4096 1000000 true sparseRecords := ⟨by decide, by decide, by decide, by decide⟩
  have unread : Unread (plainEntry 0x200 25000) := plainEntry_unread (by decide) (by decide)
  exact ⟨rfl, (contents_iff .inOrder unread rfl recorded (by decide)).mpr ⟨by decide, by decide⟩⟩

def shortRecords : List FileExtent := [⟨.fileExtent, 20, 0, 10, 4096, 0⟩]

def preallocatedRecords : List FileExtent :=
  [⟨.fileExtent, 20, 0, 10, 4096, 0⟩, ⟨.fileExtent, 20, 8192, 20, 4096, 0⟩]

theorem gap_contents_differ :
    ¬(∀ content, (plainEntry 0 8192).Holds (plainSource shortRecords) .inOrder
      (.ofContent content 1000000) (extentByte 4096 false content shortRecords)) ∧
    ¬(∀ content, (plainEntry 0 4096).Holds (plainSource preallocatedRecords) .inOrder
      (.ofContent content 1000000) (extentByte 4096 false content preallocatedRecords)) := by
  constructor
  · intro holds
    have recorded : Records 4096 1000000 false shortRecords := ⟨by decide, by decide, by decide, by decide⟩
    have unread : Unread (plainEntry 0 8192) := plainEntry_unread (by decide) (by decide)
    exact absurd (gapless_of_holds .inOrder unread rfl recorded (by decide) (holds _)).2 (by decide)
  · intro holds
    have recorded : Records 4096 1000000 false preallocatedRecords :=
      ⟨by decide, by decide, by decide, by decide⟩
    have unread : Unread (plainEntry 0 4096) := plainEntry_unread (by decide) (by decide)
    exact absurd (gapless_of_holds .inOrder unread rfl recorded (by decide) (holds _)).2 (by decide)

end FileEntry

end Fsapfs
