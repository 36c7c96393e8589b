import Fsapfs.CompressedDataHandle
import Fsapfs.Program.Gather

namespace Fsapfs.CompressedDataHandle
open Program

def blockContents (codecs : Codecs) (handle : CompressedDataHandle) (index : Nat) :
    Option (List UInt8) :=
  match readCompressedBlock handle.compressedDataStream (handle.compressedBlockOffsets.getD []) index with
  | .ok compressedData => uncompressed codecs handle.compressionMethod compressedData blockSize
  | .error _ => none

/-- The segment data is the data of the current block, if that is a block of the stream. -/
def Coherent (codecs : Codecs) (handle : CompressedDataHandle) : Prop :=
  handle.compressedBlockOffsets.isSome →
  handle.currentCompressedBlockIndex < handle.numberOfCompressedBlocks →
    ∃ data, blockContents codecs handle handle.currentCompressedBlockIndex = some data ∧
      data <+: handle.segmentData ∧ handle.segmentDataSize = data.length

/-- A block is spoiled when its bytes can be read, but do not decompress to data of the size that
its place in the stream asks for. -/
inductive BlockState
  | unreadable
  | spoiled
  | good (data : List UInt8)
  deriving DecidableEq

def blockState (codecs : Codecs) (handle : CompressedDataHandle) (index : Nat) : BlockState :=
  match readCompressedBlock handle.compressedDataStream (handle.compressedBlockOffsets.getD []) index with
  | .error _ => .unreadable
  | .ok compressedData =>
      match uncompressed codecs handle.compressionMethod compressedData blockSize with
      | none => .spoiled
      | some data =>
          if uncompressedBlockOffset index < handle.uncompressedDataSize ∧ data.length ≠ blockSize then
            .spoiled
          else .good data

theorem blockContents_of_good {codecs : Codecs} {handle : CompressedDataHandle} {index : Nat}
    {data : List UInt8} (h : blockState codecs handle index = .good data) :
    blockContents codecs handle index = some data := by
  unfold blockState at h
  unfold blockContents
  split at h
  · cases h
  next compressedData read =>
    rw [read]
    dsimp only
    split at h
    · cases h
    next found eq =>
      split_ifs at h
      cases h
      exact eq

/-- Whether a read from a place in a block on decompresses a spoiled block while the segment data
holds another one. -/
def overwritesFrom (codecs : Codecs) (handle : CompressedDataHandle) :
    Nat → Bool → Nat → Nat → Nat → Bool
  | _, _, _, _, 0 => false
  | 0, _, _, _, _ + 1 => false
  | fuel + 1, occupied, index, dataOffset, size + 1 =>
      decide (index < handle.numberOfCompressedBlocks) &&
      match blockState codecs handle index with
      | .unreadable => false
      | .spoiled => occupied
      | .good data => decide (dataOffset < data.length) &&
          overwritesFrom codecs handle fuel true (index + 1) 0 (size + 1 - (data.length - dataOffset))

/-- The blocks of a read from a place in a block on, as pieces of data. -/
def blockPiece (codecs : Codecs) (handle : CompressedDataHandle) (place : Nat × Nat) :
    Option (List UInt8 × (Nat × Nat)) :=
  if place.1 < handle.numberOfCompressedBlocks then
    match blockState codecs handle place.1 with
    | .good data => some (data.drop place.2, (place.1 + 1, 0))
    | .unreadable => none
    | .spoiled => none
  else none

structure SameTable (handle handle' : CompressedDataHandle) : Prop where
  offset : handle'.currentSegmentOffset = handle.currentSegmentOffset
  stream : handle'.compressedDataStream = handle.compressedDataStream
  size : handle'.uncompressedDataSize = handle.uncompressedDataSize
  method : handle'.compressionMethod = handle.compressionMethod
  count : handle'.numberOfCompressedBlocks = handle.numberOfCompressedBlocks
  table : handle'.compressedBlockOffsets = handle.compressedBlockOffsets

variable {codecs : Codecs} {handle handle' handle'' : CompressedDataHandle} {index : Nat}

theorem SameTable.trans (first : SameTable handle handle') (second : SameTable handle' handle'') :
    SameTable handle handle'' where
  offset := second.offset.trans first.offset
  stream := second.stream.trans first.stream
  size := second.size.trans first.size
  method := second.method.trans first.method
  count := second.count.trans first.count
  table := second.table.trans first.table

theorem SameTable.blockState (same : SameTable handle handle') (index : Nat) :
    blockState codecs handle' index = blockState codecs handle index := by
  simp only [CompressedDataHandle.blockState, same.stream, same.size, same.method, same.table]

theorem SameTable.blockPiece (same : SameTable handle handle') :
    blockPiece codecs handle' = blockPiece codecs handle := by
  funext place
  simp only [CompressedDataHandle.blockPiece, same.blockState, same.count]

theorem SameTable.overwritesFrom (same : SameTable handle handle') (fuel : Nat) (occupied : Bool)
    (index dataOffset size : Nat) :
    overwritesFrom codecs handle' fuel occupied index dataOffset size =
      overwritesFrom codecs handle fuel occupied index dataOffset size := by
  induction fuel generalizing occupied index dataOffset size with
  | zero => cases size <;> rfl
  | succ fuel ih =>
      cases size with
      | zero => rfl
      | succ size => simp only [CompressedDataHandle.overwritesFrom, same.blockState, same.count, ih]

def Holds (codecs : Codecs) (handle : CompressedDataHandle) (index : Nat) : Prop :=
  ∃ data, blockState codecs handle index = .good data ∧ data <+: handle.segmentData ∧
    handle.segmentDataSize = data.length

/-- The current block, if there is one, is good and is the block in the segment data. -/
def Cached (codecs : Codecs) (handle : CompressedDataHandle) : Prop :=
  handle.currentCompressedBlockIndex < handle.numberOfCompressedBlocks →
    Holds codecs handle handle.currentCompressedBlockIndex

theorem Cached.coherent (cached : Cached codecs handle) : Coherent codecs handle := by
  intro _ valid
  obtain ⟨data, good, held⟩ := cached valid
  exact ⟨data, blockContents_of_good good, held⟩

theorem SameTable.refl (handle : CompressedDataHandle) : SameTable handle handle :=
  ⟨rfl, rfl, rfl, rfl, rfl, rfl⟩

theorem setSegmentData_same (segmentData : List UInt8) (segmentDataSize : Nat) :
    SameTable handle (setSegmentData segmentData segmentDataSize handle) :=
  ⟨rfl, rfl, rfl, rfl, rfl, rfl⟩

theorem cached_of_vacant (vacant : ¬handle.currentCompressedBlockIndex < handle.numberOfCompressedBlocks) :
    Cached codecs handle :=
  fun valid => absurd valid vacant

/-- How an attempt to make a block the current one can leave the handle. -/
def Rejected (codecs : Codecs) (before : CompressedDataHandle) (index : Nat)
    (after : CompressedDataHandle) : Prop :=
  (index < before.numberOfCompressedBlocks → ∀ data, blockState codecs before index ≠ .good data) ∧
  SameTable before after ∧
  (Cached codecs after ∨ index < before.numberOfCompressedBlocks ∧
    blockState codecs before index = .spoiled ∧
    before.currentCompressedBlockIndex < before.numberOfCompressedBlocks)

theorem rejected_spoiled (small : index < handle.numberOfCompressedBlocks)
    (spoiled : blockState codecs handle index = .spoiled) (segmentData : List UInt8)
    (segmentDataSize : Nat) :
    Rejected codecs handle index (setSegmentData segmentData segmentDataSize handle) := by
  refine ⟨?_, setSegmentData_same segmentData segmentDataSize, ?_⟩
  · intro _ data good
    rw [spoiled] at good
    cases good
  · by_cases occupied : handle.currentCompressedBlockIndex < handle.numberOfCompressedBlocks
    · exact Or.inr ⟨small, spoiled, occupied⟩
    · exact Or.inl (cached_of_vacant occupied)

theorem loadBlock_ends (cached : Cached codecs handle) (index : Nat) :
    (loadBlock codecs index).Ends handle
      (fun _ after => SameTable handle after ∧ index < handle.numberOfCompressedBlocks ∧
        after.currentCompressedBlockIndex = index ∧ Holds codecs after index)
      (Rejected codecs handle index) := by
  unfold loadBlock
  rw [Call.ends_self_bind]
  split_ifs with large current
  · exact ⟨fun small => absurd small (Nat.not_lt_of_le large), SameTable.refl handle, Or.inl cached⟩
  · have small : index < handle.numberOfCompressedBlocks := Nat.lt_of_not_le large
    exact ⟨SameTable.refl handle, small, current, current ▸ cached (current ▸ small)⟩
  have small : index < handle.numberOfCompressedBlocks := Nat.lt_of_not_le large
  dsimp only
  cases read : readCompressedBlock handle.compressedDataStream
      (handle.compressedBlockOffsets.getD []) index with
  | error failure =>
      rw [Call.ends_lift_error_bind]
      refine ⟨?_, SameTable.refl handle, Or.inl cached⟩
      intro _ data good
      simp [blockState, read] at good
  | ok compressedData =>
      have decompresses := decompressData_decompresses codecs handle.compressionMethod compressedData
        handle.segmentData blockSize
      rw [Call.ends_lift_ok_bind]
      cases found : uncompressed codecs handle.compressionMethod compressedData blockSize with
      | none =>
          rw [found] at decompresses
          obtain ⟨code, failed⟩ := decompresses
          rw [Call.ends_update_bind, failed]
          exact rejected_spoiled small (by simp [blockState, read, found]) _ _
      | some data =>
          rw [found] at decompresses
          rw [show decompressData codecs handle.compressionMethod compressedData handle.segmentData
            blockSize = _ from decompresses]
          dsimp only
          rw [Call.ends_update_bind, Call.ends_lift_ok_bind]
          split_ifs with wrong
          · exact rejected_spoiled small (by simp [blockState, read, found, wrong]) _ _
          · refine ⟨⟨rfl, rfl, rfl, rfl, rfl, rfl⟩, small, rfl, data, ?_, ?_, rfl⟩
            · change blockState codecs handle index = _
              simp only [blockState, read, found, if_neg wrong]
            · exact List.prefix_append data _

theorem blockPiece_of_good (small : index < handle.numberOfCompressedBlocks) {data : List UInt8}
    (good : blockState codecs handle index = .good data) (dataOffset : Nat) :
    blockPiece codecs handle (index, dataOffset) = some (data.drop dataOffset, (index + 1, 0)) := by
  simp only [blockPiece, if_pos small, good]

theorem blockPiece_of_bad (bad : index < handle.numberOfCompressedBlocks →
    ∀ data, blockState codecs handle index ≠ .good data) (dataOffset : Nat) :
    blockPiece codecs handle (index, dataOffset) = none := by
  unfold blockPiece
  split_ifs with small
  · cases state : blockState codecs handle index with
    | unreadable => rfl
    | spoiled => rfl
    | good data => exact absurd state (bad small data)
  · rfl

theorem readBlocks_ends (cached : Cached codecs handle) {fuel size : Nat} (enough : size ≤ fuel)
    (index dataOffset : Nat) :
    (readBlocks codecs fuel index dataOffset size).Ends handle
      (fun data after => gather (blockPiece codecs handle) size (index, dataOffset) = some data ∧
        SameTable handle after ∧ Cached codecs after)
      (fun after => gather (blockPiece codecs handle) size (index, dataOffset) = none ∧
        SameTable handle after ∧
        (overwritesFrom codecs handle fuel
          (decide (handle.currentCompressedBlockIndex < handle.numberOfCompressedBlocks))
          index dataOffset size = false → Cached codecs after)) := by
  induction fuel generalizing handle index dataOffset size with
  | zero =>
      cases Nat.le_zero.mp enough
      exact ⟨gather_zero _ _, SameTable.refl handle, cached⟩
  | succ fuel ih =>
  cases size with
  | zero => exact ⟨gather_zero _ _, SameTable.refl handle, cached⟩
  | succ size =>
  unfold readBlocks
  refine ((loadBlock_ends cached index).mono (fun _ _ h => h) ?_).bind ?_
  · intro after rejected
    obtain ⟨bad, same, kept⟩ := rejected
    refine ⟨gather_none (blockPiece_of_bad bad dataOffset) size, same, ?_⟩
    intro safe
    rcases kept with kept | ⟨small, spoiled, occupied⟩
    · exact kept
    · simp [overwritesFrom, small, spoiled, occupied] at safe
  · intro _ after loaded
    obtain ⟨same, small, current, holds⟩ := loaded
    have cached' : Cached codecs after := fun _ => current ▸ holds
    obtain ⟨data, good, ⟨unused, written⟩, length⟩ := holds
    rw [same.blockState] at good
    have piece := blockPiece_of_good small good dataOffset
    rw [Call.ends_self_bind, length]
    split_ifs with outside
    · rw [List.drop_eq_nil_of_le outside] at piece
      exact ⟨gather_empty piece size, same, fun _ => cached'⟩
    · have inside : dataOffset < data.length := Nat.lt_of_not_le outside
      have nonempty : data.drop dataOffset ≠ [] := by
        rw [ne_eq, List.drop_eq_nil_iff]
        omega
      have copied : slice (ε := ErrorCode) after.segmentData dataOffset (min (data.length - dataOffset) (size + 1)) =
          .ok ((data.drop dataOffset).take (size + 1)) := by
        rw [← written, slice_of_le (by simp only [List.length_append]; omega),
          List.drop_append_of_le_length inside.le, List.take_append_of_le_length
            (by rw [List.length_drop]; exact Nat.min_le_left _ _), Nat.min_comm, ← List.length_drop,
          ← List.take_eq_take_min]
      dsimp only
      rw [copied, Call.ends_lift_ok_bind]
      have step := gather_succ piece nonempty size
      rw [List.length_drop, ← same.blockPiece] at step
      rw [show size + 1 - min (data.length - dataOffset) (size + 1) =
        size + 1 - (data.length - dataOffset) by omega]
      have fewer : size + 1 - (data.length - dataOffset) ≤ fuel := by omega
      refine ((ih cached' fewer (index + 1) 0).mono (fun _ _ h => h) ?_).bind ?_
      · intro last missing
        obtain ⟨none, same', kept⟩ := missing
        refine ⟨?_, same.trans same', ?_⟩
        · rw [← same.blockPiece, step, none, Option.map_none]
        · intro safe
          apply kept
          rw [same.overwritesFrom, same.count, current, decide_eq_true small]
          simpa [overwritesFrom, small, good, inside] using safe
      · intro rest last gathered
        obtain ⟨some, same', kept⟩ := gathered
        refine ⟨?_, same.trans same', kept⟩
        rw [← same.blockPiece, step, some, Option.map_some]

end Fsapfs.CompressedDataHandle
