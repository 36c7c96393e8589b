import Fsapfs.FileExtent

namespace Fsapfs

/-- A range of a libfdata vector. -/
structure Segment where
  fileIndex : Nat
  offset : Nat
  size : Nat
  isSparse : Bool
  deriving Repr, DecidableEq

structure Element where
  fileIndex : Nat
  offset : Nat
  size : Nat
  isSparse : Bool
  deriving Repr, DecidableEq

def Segment.element (segment : Segment) (elementSize index : Nat) : Element where
  fileIndex := segment.fileIndex
  offset := segment.offset + index * elementSize
  size := min elementSize (segment.size - index * elementSize)
  isSparse := segment.isSparse

def vectorSize (segments : List Segment) : Nat := (segments.map Segment.size).sum

@[simp] theorem vectorSize_nil : vectorSize [] = 0 := rfl

@[simp] theorem vectorSize_cons (segment : Segment) (segments : List Segment) :
    vectorSize (segment :: segments) = segment.size + vectorSize segments := rfl

@[simp] theorem vectorSize_append (segments segments' : List Segment) :
    vectorSize (segments ++ segments') = vectorSize segments + vectorSize segments' := by
  simp [vectorSize]

/-- libfdata: it finds the element at an offset of a vector, and the offset in that element. -/
structure Libfdata where
  elementAt : Nat → List Segment → Nat → Option (Element × Nat)
  maps : ∀ {elementSize offset : Nat} {segment : Segment} (before after : List Segment),
    0 < elementSize → offset < segment.size →
    elementAt elementSize (before ++ segment :: after) (vectorSize before + offset) =
      some (segment.element elementSize (offset / elementSize), offset % elementSize)

def findElement (elementSize : Nat) : List Segment → Nat → Option (Element × Nat)
  | [], _ => none
  | segment :: segments, offset =>
      if offset < segment.size then
        some (segment.element elementSize (offset / elementSize), offset % elementSize)
      else findElement elementSize segments (offset - segment.size)

theorem findElement_maps {elementSize offset : Nat} {segment : Segment} (before after : List Segment)
    (inside : offset < segment.size) :
    findElement elementSize (before ++ segment :: after) (vectorSize before + offset) =
      some (segment.element elementSize (offset / elementSize), offset % elementSize) := by
  induction before with
  | nil => rw [List.nil_append, findElement, vectorSize_nil, Nat.zero_add, if_pos inside]
  | cons first before ih =>
      rw [List.cons_append, findElement, vectorSize_cons, if_neg (by omega), ← ih]
      congr 1
      omega

def Libfdata.inOrder : Libfdata where
  elementAt := findElement
  maps before after _ inside := findElement_maps before after inside

/-- libfdata: it finds the element of an index in a vector of one range. -/
structure LibfdataElements where
  elementOf : Nat → List Segment → Nat → Option Element
  indexes : ∀ {elementSize index : Nat} {segment : Segment}, 0 < elementSize → index * elementSize < segment.size →
    elementOf elementSize [segment] index = some (segment.element elementSize index)

def LibfdataElements.inOrder : LibfdataElements where
  elementOf elementSize segments index := (findElement elementSize segments (index * elementSize)).map Prod.fst
  indexes := by
    intro elementSize index segment positive inside
    rw [findElement, if_pos inside, Option.map_some, Nat.mul_div_cancel _ positive]

namespace DataBlockVector

def gapSegment (gapSize : Nat) : List Segment :=
  if gapSize = 0 then [] else [⟨0, 0, gapSize, true⟩]

def extentSegment (blockSize : Nat) (isSparse : Bool) (extentIndex : Nat) (extent : FileExtent) :
    Segment where
  fileIndex := extentIndex
  offset := extent.physicalBlockNumber * blockSize % 2 ^ 64
  size := extent.dataSize
  isSparse := isSparse && extent.physicalBlockNumber == 0

/-- A libfdata vector takes segments at offsets that are not negative as signed 64-bit values. -/
def appendExtents (blockSize : Nat) (isSparse : Bool) :
    List FileExtent → Nat → Nat → Result (List Segment)
  | [], _, _ => .ok []
  | extent :: extents, extentIndex, logicalOffset =>
      if extent.logicalOffset < logicalOffset then fail .valueOutOfBounds
      else if (extentSegment blockSize isSparse extentIndex extent).offset > off64Max then
        fail .appendFailed
      else do
        let segments ← appendExtents blockSize isSparse extents (extentIndex + 1)
          ((extent.logicalOffset + extent.dataSize) % 2 ^ 64)
        return gapSegment (extent.logicalOffset - logicalOffset) ++
          extentSegment blockSize isSparse extentIndex extent :: segments

def create (ioHandle : IoHandle) (fileExtents : List FileExtent) (isSparse : Bool) :
    Result (List Segment) :=
  appendExtents ioHandle.blockSize isSparse fileExtents 0 0

end DataBlockVector

end Fsapfs
