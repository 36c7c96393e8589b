import Fsapfs.CompressedData.Coherence
import Fsapfs.Program.Run

namespace Fsapfs.CompressedDataHandle
open Program

/-- The number of blocks and their offsets, as the stream alone determines them. -/
def blockTable (stream : DataStream) (compressionMethod : CompressionMethod) :
    Result (Nat × List Nat) := do
  let header ← stream.readExactly 4 0
  if header = [0x66, 0x70, 0x6d, 0x63] then
    if stream.size > blockSize + 1 then fail .valueOutOfBounds
    else do
      let offsets ← checkLastOffset stream [16]
      readFooter stream compressionMethod
      return (1, offsets)
  else do
    let descriptors ← readDescriptorsHeader stream compressionMethod 0 header
    if compressionMethod = .deflate ∧ descriptors.numberOfCompressedBlocks > (2 ^ 32 - 1) / 8 then
      fail .valueOutOfBounds
    else if descriptors.numberOfCompressedBlocks > memoryMaximumAllocationSize / 4 - 1 then
      fail .valueOutOfBounds
    else do
      let offsets ← readDescriptors stream descriptors
      let offsets ← checkLastOffset stream offsets
      readFooter stream compressionMethod
      return (descriptors.numberOfCompressedBlocks, offsets)

def withTable (numberOfCompressedBlocks : Nat) (offsets : List Nat) (handle : CompressedDataHandle) :
    CompressedDataHandle :=
  { handle with
    numberOfCompressedBlocks
    compressedBlockOffsets := some offsets }

variable {codecs : Codecs} {handle handle' : CompressedDataHandle}

theorem Result.bind_error {α β : Type} {result : Result α} {next : α → Result β}
    (fails : ∀ a, result = .ok a → ∃ failure, next a = .error failure) :
    ∃ failure, (result >>= next) = .error failure := by
  cases result with
  | ok a => exact fails a rfl
  | error failure => exact ⟨failure, rfl⟩

theorem readDescriptors_noDescriptor (stream : DataStream) (numberOfCompressedBlocks : Nat) :
    ∃ failure, readDescriptors stream ⟨numberOfCompressedBlocks, 0, [], 0, 0⟩ = .error failure := by
  unfold readDescriptors
  apply Result.bind_error
  intro data _
  exact ⟨_, by rw [if_pos (Or.inl (Nat.le_refl 0))]; rfl⟩

theorem storeTable_ends {table : Result (List Nat)} {footer : Result Unit} (count : Nat)
    {post : Unit → CompressedDataHandle → Prop} {failed : CompressedDataHandle → Prop}
    (stored : ∀ offsets, (do let offsets ← table; footer; return (count, offsets) : Result (Nat × List Nat)) =
      .ok (count, offsets) → post () (withTable count offsets handle))
    (refused : (∃ failure, (do let offsets ← table; footer; return (count, offsets) : Result (Nat × List Nat)) =
      .error failure) → failed (setNumberOfCompressedBlocks count handle)) :
    (do
      let offsets ← Call.lift table
      Call.lift footer
      Call.update (setCompressedBlockOffsets offsets) : HandleCall Unit).Ends
        (setNumberOfCompressedBlocks count handle) post failed := by
  cases table with
  | error failure => exact refused ⟨failure, rfl⟩
  | ok offsets =>
      cases footer with
      | error failure => exact refused ⟨failure, rfl⟩
      | ok _ => exact stored offsets rfl

theorem describes_or_fails (stream : DataStream) (compressionMethod : CompressionMethod)
    (header : List UInt8) :
    (∀ count count', readDescriptorsHeader stream compressionMethod count header =
      readDescriptorsHeader stream compressionMethod count' header) ∨
    ∀ count, readDescriptorsHeader stream compressionMethod count header =
      .ok ⟨count, 0, [], 0, 0⟩ := by
  cases compressionMethod with
  | none => exact Or.inr fun count => rfl
  | deflate => exact Or.inl fun count count' => rfl
  | lzfse => exact Or.inl fun count count' => rfl
  | lzvn => exact Or.inl fun count count' => rfl
  | zbitmap => exact Or.inl fun count count' => rfl
  | unknown5 => exact Or.inr fun count => rfl

theorem getCompressedBlockOffsets_ends (unset : handle.compressedBlockOffsets = none) :
    getCompressedBlockOffsets.Ends handle
      (fun _ after => ∃ count offsets,
        blockTable handle.compressedDataStream handle.compressionMethod = .ok (count, offsets) ∧
        after = withTable count offsets handle)
      (fun after => (∃ failure,
        blockTable handle.compressedDataStream handle.compressionMethod = .error failure) ∧
        ∃ count, after = setNumberOfCompressedBlocks count handle) := by
  have unchanged : handle = setNumberOfCompressedBlocks handle.numberOfCompressedBlocks handle := rfl
  unfold getCompressedBlockOffsets blockTable
  rw [Call.ends_self_bind]
  dsimp only
  rw [if_neg (by simp [unset])]
  cases handle.compressedDataStream.readExactly 4 0 with
  | error failure => exact ⟨⟨failure, rfl⟩, _, unchanged⟩
  | ok header =>
  rw [Call.ends_lift_ok_bind, ok_bind]
  split_ifs with magic large
  · exact ⟨⟨_, rfl⟩, _, unchanged⟩
  · rw [Call.ends_update_bind]
    exact storeTable_ends 1 (fun offsets ok => ⟨1, offsets, ok, rfl⟩)
      fun error => ⟨error, 1, rfl⟩
  · rcases describes_or_fails handle.compressedDataStream handle.compressionMethod header with
      same | undescribed
    · rw [same handle.numberOfCompressedBlocks 0]
      cases readDescriptorsHeader handle.compressedDataStream handle.compressionMethod 0 header with
      | error failure => exact ⟨⟨failure, rfl⟩, _, unchanged⟩
      | ok descriptors =>
          rw [Call.ends_lift_ok_bind, Call.ends_update_bind, ok_bind]
          split_ifs with many huge
          · exact ⟨⟨_, rfl⟩, _, rfl⟩
          · exact ⟨⟨_, rfl⟩, _, rfl⟩
          · cases readDescriptors handle.compressedDataStream descriptors with
            | error failure => exact ⟨⟨failure, rfl⟩, _, rfl⟩
            | ok offsets =>
                rw [Call.ends_lift_ok_bind, ok_bind]
                exact storeTable_ends _ (fun offsets ok => ⟨_, offsets, ok, rfl⟩)
                  fun error => ⟨error, _, rfl⟩
    · obtain ⟨failure, none⟩ :=
        readDescriptors_noDescriptor handle.compressedDataStream handle.numberOfCompressedBlocks
      obtain ⟨failure', none'⟩ := readDescriptors_noDescriptor handle.compressedDataStream 0
      rw [undescribed, undescribed, Call.ends_lift_ok_bind, Call.ends_update_bind, ok_bind]
      dsimp only
      rw [none, none', error_bind]
      split_ifs <;> exact ⟨⟨_, rfl⟩, _, rfl⟩

def startPlace (handle : CompressedDataHandle) : Nat × Nat :=
  (handle.currentSegmentOffset / blockSize % 2 ^ 32, handle.currentSegmentOffset % blockSize)

def plainData (codecs : Codecs) (handle : CompressedDataHandle) (size : Nat) : Option (List UInt8) :=
  if handle.compressionMethod = .unknown5 then
    some (List.replicate (min size (handle.uncompressedDataSize - handle.currentSegmentOffset)) 0)
  else gather (blockPiece codecs handle) size (startPlace handle)

def available (codecs : Codecs) (handle : CompressedDataHandle) (size : Nat) : Option (List UInt8) :=
  if handle.currentSegmentOffset ≥ handle.uncompressedDataSize then some []
  else (plainData codecs handle size).filter fun data =>
    decide (handle.currentSegmentOffset + data.length ≤ off64Max)

def plainRead (codecs : Codecs) (handle : CompressedDataHandle) (segmentIndex : Int) (size : Nat) :
    Option (List UInt8) :=
  if segmentIndex ≠ 0 ∨ size > ssizeMax then none
  else
    match blockTable handle.compressedDataStream handle.compressionMethod with
    | .error _ => none
    | .ok (count, offsets) => available codecs (withTable count offsets handle) size

def overwritesCurrent (codecs : Codecs) (handle : CompressedDataHandle) (size : Nat) : Bool :=
  decide (handle.currentSegmentOffset < handle.uncompressedDataSize ∧
    handle.compressionMethod ≠ .unknown5) &&
  overwritesFrom codecs handle size
    (decide (handle.currentCompressedBlockIndex < handle.numberOfCompressedBlocks))
    (startPlace handle).1 (startPlace handle).2 size

/-- Whether a read decompresses a spoiled block while the segment data holds another one. -/
def overwrites (codecs : Codecs) (handle : CompressedDataHandle) (segmentIndex : Int) (size : Nat) : Bool :=
  decide (segmentIndex = 0 ∧ size ≤ ssizeMax) &&
  match blockTable handle.compressedDataStream handle.compressionMethod with
  | .error _ => false
  | .ok (count, offsets) => overwritesCurrent codecs (withTable count offsets handle) size

/-- What every call keeps that does not overwrite the cached block. -/
structure Kept (codecs : Codecs) (handle : CompressedDataHandle) : Prop where
  unset : handle.compressedBlockOffsets = none → handle.currentCompressedBlockIndex = 2 ^ 32 - 1
  table : ∀ offsets, handle.compressedBlockOffsets = some offsets →
    blockTable handle.compressedDataStream handle.compressionMethod =
      .ok (handle.numberOfCompressedBlocks, offsets)
  cached : handle.compressedBlockOffsets.isSome → Cached codecs handle

structure SameSource (handle handle' : CompressedDataHandle) : Prop where
  stream : handle'.compressedDataStream = handle.compressedDataStream
  size : handle'.uncompressedDataSize = handle.uncompressedDataSize
  method : handle'.compressionMethod = handle.compressionMethod

structure Moved (distance : Nat) (handle handle' : CompressedDataHandle) : Prop
    extends SameSource handle handle' where
  offset : handle'.currentSegmentOffset = handle.currentSegmentOffset + distance

theorem Kept.coherent (kept : Kept codecs handle) : Coherent codecs handle :=
  fun known valid => (kept.cached known).coherent known valid

theorem Kept.of_same (kept : Kept codecs handle) (same : SameTable handle handle')
    (known : handle.compressedBlockOffsets.isSome) (cached : Cached codecs handle') :
    Kept codecs handle' where
  unset := by
    intro unset
    rw [← same.table, unset] at known
    cases known
  table := by
    intro offsets found
    rw [same.stream, same.method, same.count]
    exact kept.table offsets (same.table ▸ found)
  cached := fun _ => cached

theorem SameTable.moved (same : SameTable handle handle') : Moved 0 handle handle' :=
  ⟨⟨same.stream, same.size, same.method⟩, same.offset⟩

theorem Kept.setOffset (kept : Kept codecs handle) (offset : Nat) :
    Kept codecs (setCurrentSegmentOffset offset handle) :=
  ⟨kept.unset, kept.table, kept.cached⟩

theorem blockTable_count {stream : DataStream} {compressionMethod : CompressionMethod} {count : Nat}
    {offsets : List Nat} (h : blockTable stream compressionMethod = .ok (count, offsets)) :
    count ≤ memoryMaximumAllocationSize / 4 - 1 := by
  unfold blockTable at h
  obtain ⟨header, _, h⟩ := bind_eq_ok.mp h
  split_ifs at h with magic large
  · cases h
  · obtain ⟨table, _, h⟩ := bind_eq_ok.mp h
    obtain ⟨_, _, h⟩ := bind_eq_ok.mp h
    cases h
    decide
  · obtain ⟨descriptors, _, h⟩ := bind_eq_ok.mp h
    split_ifs at h with many huge
    · cases h
    · cases h
    · obtain ⟨table, _, h⟩ := bind_eq_ok.mp h
      obtain ⟨last, _, h⟩ := bind_eq_ok.mp h
      obtain ⟨_, _, h⟩ := bind_eq_ok.mp h
      cases h
      exact Nat.le_of_not_lt huge

theorem Kept.withTable (kept : Kept codecs handle) {count : Nat} {offsets : List Nat}
    (found : blockTable handle.compressedDataStream handle.compressionMethod = .ok (count, offsets))
    (unset : handle.compressedBlockOffsets = none) : Kept codecs (withTable count offsets handle) where
  unset := by
    intro unset
    cases unset
  table := by
    intro offsets' same
    cases same
    exact found
  cached := by
    intro _
    apply cached_of_vacant
    have few := blockTable_count found
    have vacant := kept.unset unset
    change ¬handle.currentCompressedBlockIndex < count
    rw [vacant]
    have limit : memoryMaximumAllocationSize / 4 - 1 < 2 ^ 32 - 1 := by decide
    omega

theorem withTable_self {offsets : List Nat} (known : handle.compressedBlockOffsets = some offsets) :
    CompressedDataHandle.withTable handle.numberOfCompressedBlocks offsets handle = handle := by
  cases handle
  cases known
  rfl

theorem prepareBlockOffsets_ends (kept : Kept codecs handle) :
    prepareBlockOffsets.Ends handle
      (fun _ after => ∃ count offsets,
        blockTable handle.compressedDataStream handle.compressionMethod = .ok (count, offsets) ∧
        after = withTable count offsets handle ∧ Kept codecs after)
      (fun after => (∃ failure,
        blockTable handle.compressedDataStream handle.compressionMethod = .error failure) ∧
        Moved 0 handle after ∧ Kept codecs after) := by
  unfold prepareBlockOffsets
  rw [Call.ends_self_bind]
  cases known : handle.compressedBlockOffsets with
  | some offsets =>
      exact ⟨_, offsets, kept.table offsets known, (withTable_self known).symm, kept⟩
  | none =>
      apply (getCompressedBlockOffsets_ends known).mono
      · intro _ after found
        obtain ⟨count, offsets, table, rfl⟩ := found
        exact ⟨count, offsets, table, rfl, kept.withTable table known⟩
      · intro after missing
        obtain ⟨failure, count, rfl⟩ := missing
        refine ⟨failure, ⟨⟨rfl, rfl, rfl⟩, rfl⟩, fun _ => kept.unset known, ?_, ?_⟩
        · intro offsets found
          exact absurd (known.symm.trans found) (by simp)
        · intro found
          exact absurd found (by simp [setNumberOfCompressedBlocks, known])

theorem advance_ends (kept : Kept codecs handle) (distance : Nat) :
    (advance distance).Ends handle
      (fun _ after => handle.currentSegmentOffset + distance ≤ off64Max ∧
        Moved distance handle after ∧ Kept codecs after)
      (fun after => ¬handle.currentSegmentOffset + distance ≤ off64Max ∧
        Moved 0 handle after ∧ Kept codecs after) := by
  unfold advance
  rw [Call.ends_self_bind]
  split_ifs with far
  · exact ⟨Nat.not_le_of_lt far, ⟨⟨rfl, rfl, rfl⟩, rfl⟩, kept⟩
  · exact ⟨Nat.le_of_not_lt far, ⟨⟨rfl, rfl, rfl⟩, rfl⟩, kept.setOffset _⟩

theorem SameSource.trans {handle'' : CompressedDataHandle} (before : SameSource handle handle')
    (after : SameSource handle' handle'') : SameSource handle handle'' where
  stream := after.stream.trans before.stream
  size := after.size.trans before.size
  method := after.method.trans before.method

theorem Moved.trans {first second : Nat} {handle'' : CompressedDataHandle}
    (before : Moved first handle handle') (after : Moved second handle' handle'') :
    Moved (first + second) handle handle'' where
  toSameSource := before.toSameSource.trans after.toSameSource
  offset := by rw [after.offset, before.offset, Nat.add_assoc]

theorem readData_ends (kept : Kept codecs handle) (known : handle.compressedBlockOffsets.isSome)
    (size : Nat) :
    (readData codecs size).Ends handle
      (fun data after => available codecs handle size = some data ∧
        Moved data.length handle after ∧ Kept codecs after)
      (fun after => available codecs handle size = none ∧ Moved 0 handle after ∧
        (overwritesCurrent codecs handle size = false → Kept codecs after)) := by
  unfold readData available
  rw [Call.ends_self_bind]
  split_ifs with outside silent
  · exact ⟨rfl, ⟨⟨rfl, rfl, rfl⟩, rfl⟩, kept⟩
  · unfold plainData
    rw [if_pos silent, Option.filter_some, List.length_replicate]
    apply ((advance_ends kept _).mono (fun _ _ h => h) _).bind
    · intro _ after moved
      obtain ⟨near, moved, kept⟩ := moved
      exact ⟨by rw [if_pos (decide_eq_true near)], by rwa [List.length_replicate], kept⟩
    · intro after stayed
      obtain ⟨far, moved, kept⟩ := stayed
      exact ⟨by rw [if_neg (by simpa using far)], moved, fun _ => kept⟩
  · unfold plainData
    rw [if_neg silent]
    apply ((readBlocks_ends (kept.cached known) (Nat.le_refl size) (startPlace handle).1
      (startPlace handle).2).mono (fun _ _ h => h) _).bind
    · intro data middle gathered
      obtain ⟨gathered, same, cached⟩ := gathered
      have kept' := kept.of_same same known cached
      rw [show gather (blockPiece codecs handle) size (startPlace handle) = some data from gathered,
        Option.filter_some]
      apply ((advance_ends kept' data.length).mono (fun _ _ h => h) _).bind
      · intro _ after moved
        obtain ⟨near, moved, kept⟩ := moved
        rw [same.offset] at near
        exact ⟨by rw [if_pos (decide_eq_true near)], by simpa using same.moved.trans moved, kept⟩
      · intro after stayed
        obtain ⟨far, moved, kept⟩ := stayed
        rw [same.offset] at far
        exact ⟨by rw [if_neg (by simpa using far)], same.moved.trans moved, fun _ => kept⟩
    · intro after missing
      obtain ⟨missing, same, cached⟩ := missing
      rw [show gather (blockPiece codecs handle) size (startPlace handle) = none from missing,
        Option.filter_none]
      refine ⟨rfl, same.moved, fun safe => kept.of_same same known (cached ?_)⟩
      simpa [overwritesCurrent, Nat.lt_of_not_le outside, silent] using safe

theorem readSegmentData_ends (kept : Kept codecs handle) (segmentIndex : Int) (size : Nat) :
    (readSegmentData codecs segmentIndex size).Ends handle
      (fun data after => plainRead codecs handle segmentIndex size = some data ∧
        Moved data.length handle after ∧ Kept codecs after)
      (fun after => plainRead codecs handle segmentIndex size = none ∧ Moved 0 handle after ∧
        (overwrites codecs handle segmentIndex size = false → Kept codecs after)) := by
  have stayed : Moved 0 handle handle := ⟨⟨rfl, rfl, rfl⟩, rfl⟩
  unfold readSegmentData plainRead
  by_cases other : segmentIndex ≠ 0
  · rw [if_pos other, if_pos (Or.inl other)]
    exact ⟨rfl, stayed, fun _ => kept⟩
  by_cases large : size > ssizeMax
  · rw [if_neg other, if_pos large, if_pos (Or.inr large)]
    exact ⟨rfl, stayed, fun _ => kept⟩
  rw [if_neg other, if_neg large, if_neg (not_or.mpr ⟨other, large⟩)]
  apply ((prepareBlockOffsets_ends kept).mono (fun _ _ h => h) _).bind
  · intro _ middle found
    obtain ⟨count, offsets, table, rfl, kept'⟩ := found
    rw [table]
    apply (readData_ends kept' rfl size).mono
    · intro data after read
      exact ⟨read.1, ⟨⟨read.2.1.stream, read.2.1.size, read.2.1.method⟩, read.2.1.offset⟩, read.2.2⟩
    · intro after missing
      refine ⟨missing.1, ⟨⟨missing.2.1.stream, missing.2.1.size, missing.2.1.method⟩,
        missing.2.1.offset⟩, fun safe => missing.2.2 ?_⟩
      simpa [overwrites, table, Decidable.not_not.mp other, Nat.le_of_not_lt large] using safe
  · intro after missing
    obtain ⟨⟨failure, table⟩, moved, kept'⟩ := missing
    rw [table]
    exact ⟨rfl, moved, fun _ => kept'⟩

theorem SameTable.available (same : SameTable handle handle') (size : Nat) :
    available codecs handle' size = available codecs handle size := by
  unfold CompressedDataHandle.available plainData startPlace
  rw [same.offset, same.size, same.method, same.blockPiece]

theorem SameSource.plainRead (same : SameSource handle handle')
    (offset : handle'.currentSegmentOffset = handle.currentSegmentOffset) (segmentIndex : Int)
    (size : Nat) :
    plainRead codecs handle' segmentIndex size = plainRead codecs handle segmentIndex size := by
  unfold CompressedDataHandle.plainRead
  rw [same.stream, same.method]
  split_ifs
  · rfl
  · cases blockTable handle.compressedDataStream handle.compressionMethod with
    | error failure => rfl
    | ok table =>
        have tabled : SameTable (withTable table.1 table.2 handle) (withTable table.1 table.2 handle') :=
          ⟨offset, same.stream, same.size, same.method, rfl, rfl⟩
        exact tabled.available size

inductive Operation
  | read (segmentIndex : Int) (size : Nat)
  | seek (segmentIndex segmentOffset : Int)

def perform (codecs : Codecs) (handle : CompressedDataHandle) : Operation → CompressedDataHandle
  | .read segmentIndex size => (readSegmentData codecs segmentIndex size handle).2
  | .seek segmentIndex segmentOffset => (seekSegmentOffset segmentIndex segmentOffset handle).2

/-- An operation that does not decompress a spoiled block over another one. -/
def Avoids (codecs : Codecs) (handle : CompressedDataHandle) : Operation → Prop
  | .read segmentIndex size => overwrites codecs handle segmentIndex size = false
  | .seek _ _ => True

instance (codecs : Codecs) (handle : CompressedDataHandle) :
    ∀ operation, Decidable (Avoids codecs handle operation)
  | .read segmentIndex size => inferInstanceAs (Decidable (overwrites codecs handle segmentIndex size = false))
  | .seek _ _ => inferInstanceAs (Decidable True)

theorem create_kept {stream : DataStream} {size : Nat} {compressionMethod : CompressionMethod}
    (created : create stream size compressionMethod = .ok handle) : Kept codecs handle := by
  unfold create at created
  split_ifs at created
  · cases created
  · cases created
    exact ⟨fun _ => rfl, by simp, by simp⟩

theorem seekSegmentOffset_kept (kept : Kept codecs handle) (segmentIndex segmentOffset : Int) :
    SameSource handle (seekSegmentOffset segmentIndex segmentOffset handle).2 ∧
      Kept codecs (seekSegmentOffset segmentIndex segmentOffset handle).2 := by
  unfold seekSegmentOffset
  split_ifs
  · exact ⟨⟨rfl, rfl, rfl⟩, kept⟩
  · exact ⟨⟨rfl, rfl, rfl⟩, kept⟩
  · exact ⟨⟨rfl, rfl, rfl⟩, kept.setOffset _⟩

theorem readSegmentData_kept (kept : Kept codecs handle) {segmentIndex : Int} {size : Nat}
    (avoids : overwrites codecs handle segmentIndex size = false) :
    SameSource handle (readSegmentData codecs segmentIndex size handle).2 ∧
      Kept codecs (readSegmentData codecs segmentIndex size handle).2 := by
  have ends := readSegmentData_ends kept segmentIndex size
  unfold Call.Ends at ends
  split at ends
  next data after eq => exact eq ▸ ⟨ends.2.1.toSameSource, ends.2.2⟩
  next failure after eq => exact eq ▸ ⟨ends.2.1.toSameSource, ends.2.2 avoids⟩

theorem perform_kept {first : CompressedDataHandle} {operation : Operation}
    (kept : SameSource first handle ∧ Kept codecs handle) (avoids : Avoids codecs handle operation) :
    SameSource first (perform codecs handle operation) ∧ Kept codecs (perform codecs handle operation) := by
  cases operation with
  | read segmentIndex size =>
      have after := readSegmentData_kept kept.2 avoids
      exact ⟨kept.1.trans after.1, after.2⟩
  | seek segmentIndex segmentOffset =>
      have after := seekSegmentOffset_kept kept.2 segmentIndex segmentOffset
      exact ⟨kept.1.trans after.1, after.2⟩

theorem readSegmentData_ok (kept : Kept codecs handle) {segmentIndex : Int} {size : Nat} {data : List UInt8} :
    (readSegmentData codecs segmentIndex size handle).1 = .ok data ↔
      plainRead codecs handle segmentIndex size = some data := by
  have ends := readSegmentData_ends kept segmentIndex size
  unfold Call.Ends at ends
  split at ends
  next found after eq =>
    rw [eq, ends.1]
    simp
  next failure after eq =>
    rw [eq, ends.1]
    simp

/-- Along a run that never decompresses a spoiled block over another one the segment data stays the
data of the current block, and a read returns what it returns on a fresh handle. -/
theorem runs_coherent {stream : DataStream} {size : Nat} {compressionMethod : CompressionMethod}
    {first : CompressedDataHandle} (created : create stream size compressionMethod = .ok first)
    {operations : List Operation} (avoids : Along (perform codecs) (Avoids codecs) first operations)
    (reached : handle = run (perform codecs) first operations) :
    Coherent codecs handle ∧ ∀ segmentIndex readSize data,
      (readSegmentData codecs segmentIndex readSize handle).1 = .ok data →
      (readSegmentData codecs segmentIndex readSize
        (seekSegmentOffset 0 handle.currentSegmentOffset first).2).1 = .ok data := by
  have start : Kept codecs first := create_kept created
  have kept : SameSource first handle ∧ Kept codecs handle := by
    rw [reached]
    exact run_invariant (fun handle => SameSource first handle ∧ Kept codecs handle)
      (fun _ _ => perform_kept) ⟨⟨rfl, rfl, rfl⟩, start⟩ avoids
  refine ⟨kept.2.coherent, ?_⟩
  intro segmentIndex readSize data ok
  have sought := seekSegmentOffset_kept start 0 handle.currentSegmentOffset
  rw [readSegmentData_ok kept.2] at ok
  rw [readSegmentData_ok sought.2, ← ok]
  have same : SameSource handle (seekSegmentOffset 0 handle.currentSegmentOffset first).2 :=
    ⟨kept.1.stream.symm, kept.1.size.symm, kept.1.method.symm⟩
  exact same.plainRead rfl segmentIndex readSize

def unavailable : Codec where
  decompress _ _ := none
  leaves _ buffer size := (buffer, size)
  fits := by simp

def storedOnly : Codecs := ⟨unavailable, unavailable, unavailable, unavailable⟩

def spoiledStream : DataStream :=
  .ofContent (fun i => [12, 0, 0, 0, 14, 0, 0, 0, 16, 0, 0, 0, 0x06, 0x42, 0x06, 0x41].getD i 0) 16

def spoiledHandle : CompressedDataHandle where
  currentSegmentOffset := 0
  compressedDataStream := spoiledStream
  uncompressedDataSize := 65537
  compressionMethod := .lzvn
  currentCompressedBlockIndex := 2 ^ 32 - 1
  segmentData := []
  segmentDataSize := 0
  numberOfCompressedBlocks := 0
  compressedBlockOffsets := none

theorem spoiledHandle_coherent :
    let handle := run (perform storedOnly) spoiledHandle [.read 0 1, .seek 0 65536, .read 0 1]
    Coherent storedOnly handle ∧ ∀ segmentIndex readSize data,
      (readSegmentData storedOnly segmentIndex readSize handle).1 = .ok data →
      (readSegmentData storedOnly segmentIndex readSize
        (seekSegmentOffset 0 handle.currentSegmentOffset spoiledHandle).2).1 = .ok data :=
  runs_coherent (show create spoiledStream 65537 .lzvn = .ok spoiledHandle from rfl)
    (by decide +kernel) rfl

/-- Reading the spoiled block fails and leaves its byte as that of the block read before. -/
theorem spoiledHandle_incoherent :
    let handle := run (perform storedOnly) spoiledHandle
      [.seek 0 65536, .read 0 1, .seek 0 0, .read 0 1, .seek 0 65536]
    ¬Coherent storedOnly handle ∧
      (readSegmentData storedOnly 0 1 handle).1 = .ok [0x42] ∧
      (readSegmentData storedOnly 0 1 (seekSegmentOffset 0 65536 spoiledHandle).2).1 = .ok [0x41] := by
  refine ⟨?_, by decide +kernel, by decide +kernel⟩
  intro coherent
  obtain ⟨data, contents, written, _⟩ := coherent (by decide +kernel) (by decide +kernel)
  have current : blockContents storedOnly
      (run (perform storedOnly) spoiledHandle
        [.seek 0 65536, .read 0 1, .seek 0 0, .read 0 1, .seek 0 65536])
      (run (perform storedOnly) spoiledHandle
        [.seek 0 65536, .read 0 1, .seek 0 0, .read 0 1, .seek 0 65536]).currentCompressedBlockIndex =
      some [0x41] := by
    decide +kernel
  cases current.symm.trans contents
  exact absurd written (by decide +kernel)

end Fsapfs.CompressedDataHandle
