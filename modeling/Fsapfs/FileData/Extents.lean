import Fsapfs.FileData.Segments
import Fsapfs.FileDataStream

namespace Fsapfs
open Program

/-- An extent without stored bytes: sparse data, and no block. -/
def FileExtent.IsHole (isSparse : Bool) (extent : FileExtent) : Prop :=
  isSparse = true ∧ extent.physicalBlockNumber = 0

instance (isSparse : Bool) (extent : FileExtent) : Decidable (extent.IsHole isSparse) :=
  inferInstanceAs (Decidable (_ ∧ _))

def FileExtent.Covers (extent : FileExtent) (offset : Nat) : Prop :=
  extent.logicalOffset ≤ offset ∧ offset < extent.logicalOffset + extent.dataSize

instance (extent : FileExtent) (offset : Nat) : Decidable (extent.Covers offset) :=
  inferInstanceAs (Decidable (_ ∧ _))

def FileExtent.byte (blockSize : Nat) (isSparse : Bool) (content : Nat → UInt8) (extent : FileExtent)
    (offset : Nat) : UInt8 :=
  if extent.IsHole isSparse then 0
  else content (extent.physicalBlockNumber * blockSize + (offset - extent.logicalOffset))

/-- The byte the extents give an offset: that of an extent that covers it, else zero. -/
def extentByte (blockSize : Nat) (isSparse : Bool) (content : Nat → UInt8) : List FileExtent → Nat → UInt8
  | [], _ => 0
  | extent :: extents, offset =>
      if extent.Covers offset then extent.byte blockSize isSparse content offset
      else extentByte blockSize isSparse content extents offset

/-- The extents follow each other from a position on, with or without gaps. -/
def Follow : Nat → List FileExtent → Prop
  | _, [] => True
  | position, extent :: extents => position ≤ extent.logicalOffset ∧
      Follow (extent.logicalOffset + extent.dataSize) extents

instance followDecidable : ∀ position extents, Decidable (Follow position extents)
  | _, [] => isTrue trivial
  | _, extent :: extents =>
      have := followDecidable (extent.logicalOffset + extent.dataSize) extents
      inferInstanceAs (Decidable (_ ∧ _))

def extentsEnd : Nat → List FileExtent → Nat
  | position, [] => position
  | _, extent :: extents => extentsEnd (extent.logicalOffset + extent.dataSize) extents

theorem Follow.le_end {position : Nat} {extents : List FileExtent} (follow : Follow position extents) :
    position ≤ extentsEnd position extents := by
  induction extents generalizing position with
  | nil => exact Nat.le_refl _
  | cons extent extents ih =>
      have rest := ih follow.2
      have start := follow.1
      unfold extentsEnd
      omega

variable {blockSize : Nat} {isSparse : Bool} {content : Nat → UInt8}

theorem extentByte_before {extents : List FileExtent} {position : Nat} (follow : Follow position extents)
    {offset : Nat} (before : offset < position) :
    extentByte blockSize isSparse content extents offset = 0 := by
  induction extents generalizing position with
  | nil => rfl
  | cons extent extents ih =>
      have start := follow.1
      unfold extentByte
      rw [if_neg (by unfold FileExtent.Covers; omega)]
      exact ih follow.2 (by omega)

theorem segmentByte_gap (gapSize : Nat) (segments : List Segment) (offset : Nat) :
    segmentByte content (DataBlockVector.gapSegment gapSize ++ segments) offset =
      if offset < gapSize then 0 else segmentByte content segments (offset - gapSize) := by
  unfold DataBlockVector.gapSegment
  by_cases none : gapSize = 0
  · simp [none]
  · rw [if_neg none, List.singleton_append, segmentByte]
    rfl

theorem vectorSize_gap (gapSize : Nat) : vectorSize (DataBlockVector.gapSegment gapSize) = gapSize := by
  unfold DataBlockVector.gapSegment
  by_cases none : gapSize = 0
  · rw [if_pos none, none]
    rfl
  · rw [if_neg none]
    rfl

theorem storedFrom_gap {storageSize start gapSize : Nat} {segments : List Segment}
    (stored : StoredFrom blockSize storageSize (start + gapSize) segments) :
    StoredFrom blockSize storageSize start (DataBlockVector.gapSegment gapSize ++ segments) := by
  unfold DataBlockVector.gapSegment
  by_cases none : gapSize = 0
  · rw [if_pos none, List.nil_append]
    rwa [none] at stored
  · rw [if_neg none]
    exact ⟨fun gap => absurd rfl gap, stored⟩

/-- The stored bytes go as far as the blocks of an extent that signed 64-bit offsets reach. -/
def FileExtent.Stored (blockSize storageSize : Nat) (isSparse : Bool) (extent : FileExtent) : Prop :=
  ¬extent.IsHole isSparse → ∀ offset < extent.dataSize, extent.logicalOffset + offset < off64Max →
    extent.physicalBlockNumber * blockSize + min extent.dataSize (offset / blockSize * blockSize + blockSize) ≤
      storageSize

/-- What the vector built from extents is: as long as they are, and with their bytes. -/
structure Represents (blockSize : Nat) (isSparse : Bool) (position : Nat) (extents : List FileExtent)
    (index : Nat) (segments : List Segment) : Prop where
  size : position + vectorSize segments = extentsEnd position extents
  bytes : ∀ content offset, segmentByte content segments offset =
    extentByte blockSize isSparse content extents (position + offset)
  indexed : ∀ segment ∈ segments, ¬segment.isSparse → segment.fileIndex < index + extents.length
  stored : ∀ storageSize, (∀ extent ∈ extents, extent.Stored blockSize storageSize isSparse) →
    StoredFrom blockSize storageSize position segments

theorem extentSegment_isSparse {index : Nat} {extent : FileExtent} :
    (DataBlockVector.extentSegment blockSize isSparse index extent).isSparse = true ↔
      extent.IsHole isSparse := by
  simp [DataBlockVector.extentSegment, FileExtent.IsHole]

theorem Represents.cons {position index : Nat} {extent : FileExtent} {extents : List FileExtent}
    {segments : List Segment} (start : position ≤ extent.logicalOffset)
    (follow : Follow (extent.logicalOffset + extent.dataSize) extents)
    (near : extent.physicalBlockNumber * blockSize < 2 ^ 64)
    (rest : Represents blockSize isSparse (extent.logicalOffset + extent.dataSize) extents (index + 1) segments) :
    Represents blockSize isSparse position (extent :: extents) index
      (DataBlockVector.gapSegment (extent.logicalOffset - position) ++
        DataBlockVector.extentSegment blockSize isSparse index extent :: segments) := by
  have place : (DataBlockVector.extentSegment blockSize isSparse index extent).offset =
      extent.physicalBlockNumber * blockSize := Nat.mod_eq_of_lt near
  have length : (DataBlockVector.extentSegment blockSize isSparse index extent).size = extent.dataSize := rfl
  constructor
  · have size := rest.size
    rw [vectorSize_append, vectorSize_gap, vectorSize_cons, length, extentsEnd]
    omega
  · intro content offset
    rw [segmentByte_gap, segmentByte, place, length, extentByte]
    by_cases gap : offset < extent.logicalOffset - position
    · have apart : ¬extent.Covers (position + offset) := by
        unfold FileExtent.Covers
        omega
      rw [if_pos gap, if_neg apart]
      exact (extentByte_before follow (by omega)).symm
    · rw [if_neg gap]
      by_cases inside : offset - (extent.logicalOffset - position) < extent.dataSize
      · have covered : extent.Covers (position + offset) := ⟨by omega, by omega⟩
        rw [if_pos inside, if_pos covered]
        unfold FileExtent.byte
        by_cases hole : extent.IsHole isSparse
        · rw [if_pos hole, if_pos (extentSegment_isSparse.mpr hole)]
        · rw [if_neg hole, if_neg (mt extentSegment_isSparse.mp hole)]
          congr 2
          omega
      · have apart : ¬extent.Covers (position + offset) := by
          unfold FileExtent.Covers
          omega
        rw [if_neg inside, if_neg apart, rest.bytes]
        congr 1
        omega
  · intro segment member plain
    rw [List.length_cons]
    rcases List.mem_append.mp member with gap | member
    · unfold DataBlockVector.gapSegment at gap
      split_ifs at gap
      · cases gap
      · cases List.mem_singleton.mp gap
        exact absurd rfl plain
    · cases member with
      | head =>
          change index < index + (extents.length + 1)
          omega
      | tail _ member =>
          have within := rest.indexed segment member plain
          omega
  · intro storageSize stored
    apply storedFrom_gap
    rw [Nat.add_sub_cancel' start]
    constructor
    · intro plain
      rw [place]
      exact stored extent (List.mem_cons_self ..) fun hole => plain (extentSegment_isSparse.mpr hole)
    · exact rest.stored storageSize fun extent' member => stored extent' (List.mem_cons_of_mem _ member)

theorem appendExtents_represents {position index : Nat} {extents : List FileExtent}
    (follow : Follow position extents) (small : extentsEnd position extents < 2 ^ 64)
    (reached : ∀ extent ∈ extents, extent.physicalBlockNumber * blockSize ≤ off64Max) :
    ∃ segments, DataBlockVector.appendExtents blockSize isSparse extents index position = .ok segments ∧
      Represents blockSize isSparse position extents index segments := by
  induction extents generalizing position index with
  | nil => exact ⟨[], rfl, rfl, fun _ _ => rfl, by simp, fun _ _ => trivial⟩
  | cons extent extents ih =>
      obtain ⟨start, follow⟩ := follow
      have small' : extentsEnd (extent.logicalOffset + extent.dataSize) extents < 2 ^ 64 := small
      have ends := follow.le_end
      have near := reached extent (List.mem_cons_self ..)
      have near' : extent.physicalBlockNumber * blockSize < 2 ^ 64 := by
        unfold off64Max at near
        omega
      have place : (DataBlockVector.extentSegment blockSize isSparse index extent).offset =
          extent.physicalBlockNumber * blockSize := Nat.mod_eq_of_lt near'
      obtain ⟨segments, built, represents⟩ := ih follow small' fun extent' member =>
        reached extent' (List.mem_cons_of_mem _ member)
      refine ⟨_, ?_, represents.cons start follow near'⟩
      unfold DataBlockVector.appendExtents
      rw [if_neg (Nat.not_lt_of_le start), place, if_neg (Nat.not_lt_of_le near),
        Nat.mod_eq_of_lt (show extent.logicalOffset + extent.dataSize < 2 ^ 64 by omega), built]
      rfl

end Fsapfs
