import Fsapfs.CompressedData.Contents
import Mathlib.Data.List.Chain

namespace Fsapfs.CompressedDataHandle
open Program

def Near (offset next : Nat) : Prop := offset ≤ next ∧ next - offset ≤ blockSize + 1

instance : ∀ offset next, Decidable (Near offset next) := fun offset next =>
  inferInstanceAs (Decidable (offset ≤ next ∧ next - offset ≤ blockSize + 1))

/-- The offsets of a number of blocks, up to the end of a stream. -/
structure BlockOffsets (size count : Nat) (offsets : List Nat) : Prop where
  length : offsets.length = count + 1
  near : offsets.IsChain Near
  last : offsets.getLast? = some size

section tables

theorem readBlockOffsets_near {data : List UInt8} {descriptors : Descriptors} {count segmentDataOffset previous : Nat}
    {offsets : List Nat} (read : readBlockOffsets data descriptors count segmentDataOffset previous = .ok offsets) :
    (previous :: offsets).IsChain Near ∧ offsets.length = count := by
  induction count generalizing segmentDataOffset previous offsets with
  | zero =>
      cases read
      exact ⟨List.isChain_singleton previous, rfl⟩
  | succ count ih =>
      unfold readBlockOffsets at read
      obtain ⟨value, _, read⟩ := bind_eq_ok.mp read
      dsimp only at read
      split_ifs at read with far
      · cases read
      · obtain ⟨rest, others, read⟩ := bind_eq_ok.mp read
        cases read
        obtain ⟨chain, length⟩ := ih others
        have near : Near previous ((value + descriptors.compressedDescriptorsOffset) % 2 ^ 32) := by
          unfold Near
          omega
        exact ⟨List.IsChain.cons_cons near chain, congrArg Nat.succ length⟩

theorem readDescriptorsHeader_size {stream : DataStream} {compressionMethod : CompressionMethod} {count : Nat}
    {header : List UInt8} {descriptors : Descriptors}
    (read : readDescriptorsHeader stream compressionMethod count header = .ok descriptors) :
    descriptors.compressedBlockDescriptorSize = 8 ∨ descriptors.compressedBlockDescriptorSize = 4 ∨
      descriptors.compressedBlockOffset = 0 := by
  cases compressionMethod with
  | deflate =>
      obtain ⟨_, _, read⟩ := bind_eq_ok.mp read
      split_ifs at read
      · cases read
      · obtain ⟨_, _, read⟩ := bind_eq_ok.mp read
        obtain ⟨_, _, read⟩ := bind_eq_ok.mp read
        obtain ⟨_, _, read⟩ := bind_eq_ok.mp read
        cases read
        exact Or.inl rfl
  | lzvn | lzfse | zbitmap =>
      obtain ⟨_, _, read⟩ := bind_eq_ok.mp read
      split_ifs at read
      · cases read
      · cases read
        exact Or.inr (Or.inl rfl)
  | none | unknown5 =>
      cases read
      exact Or.inr (Or.inr rfl)

theorem load_ok_iff {items : List Nat} {i item : Nat} :
    (load items i : Result Nat) = .ok item ↔ items[i]? = some item := by
  unfold load
  cases items[i]? <;> simp

/-- A table without blocks is not read: the size of its descriptors wraps. -/
theorem readDescriptors_near {stream : DataStream} {descriptors : Descriptors} {offsets : List Nat}
    (size : descriptors.compressedBlockDescriptorSize = 8 ∨ descriptors.compressedBlockDescriptorSize = 4 ∨
      descriptors.compressedBlockOffset = 0)
    (read : readDescriptors stream descriptors = .ok offsets) :
    offsets.IsChain Near ∧ offsets.length = descriptors.numberOfCompressedBlocks ∧ offsets ≠ [] := by
  unfold readDescriptors at read
  obtain ⟨data, loaded, read⟩ := bind_eq_ok.mp read
  split_ifs at read with outside
  · cases read
  · obtain ⟨rest, others, read⟩ := bind_eq_ok.mp read
    cases read
    obtain ⟨chain, length⟩ := readBlockOffsets_near others
    have readable := (DataStream.readExactly_ok.mp loaded).1
    have some : descriptors.numberOfCompressedBlocks ≠ 0 := by
      intro none
      rw [none] at readable
      unfold ssizeMax at readable
      rcases size with eight | four | zero
      · rw [eight] at readable
        omega
      · rw [four] at readable
        omega
      · omega
    refine ⟨chain, ?_, List.cons_ne_nil _ _⟩
    rw [List.length_cons, length]
    omega

theorem checkLastOffset_near {stream : DataStream} {stored offsets : List Nat}
    (checked : checkLastOffset stream stored = .ok offsets) (chain : stored.IsChain Near) :
    offsets = stored ++ [stream.size % 2 ^ 32] ∧ (stored ++ [stream.size]).IsChain Near := by
  obtain ⟨last, loaded, checked⟩ := bind_eq_ok.mp checked
  split_ifs at checked with far
  · cases checked
  · cases checked
    refine ⟨rfl, List.IsChain.append chain (List.isChain_singleton _) fun found isLast next isSize => ?_⟩
    obtain rfl : found = last := by
      rw [load_ok_iff, ← List.getLast?_eq_getElem?] at loaded
      exact Option.mem_unique isLast loaded
    obtain rfl : stream.size = next := Option.some.inj isSize
    unfold Near
    omega

end tables

section stored

theorem readBlockOffsets_iff {data : List UInt8} {descriptors : Descriptors} {count segmentDataOffset previous : Nat}
    {offsets : List Nat} (offset : Nat → Nat)
    (stored : ∀ i < count, ∃ value,
      loadLittleEndian32 data (segmentDataOffset + i * descriptors.compressedBlockDescriptorSize) = .ok value ∧
      (value + descriptors.compressedDescriptorsOffset) % 2 ^ 32 = offset i) :
    readBlockOffsets data descriptors count segmentDataOffset previous = .ok offsets ↔
      offsets = (List.range count).map offset ∧ (previous :: offsets).IsChain Near := by
  induction count generalizing segmentDataOffset previous offset offsets with
  | zero =>
      unfold readBlockOffsets
      constructor
      · intro read
        cases read
        exact ⟨rfl, List.isChain_singleton previous⟩
      · rintro ⟨rfl, _⟩
        rfl
  | succ count ih =>
      obtain ⟨value, loaded, same⟩ := stored 0 (Nat.succ_pos count)
      rw [Nat.zero_mul, Nat.add_zero] at loaded
      have others : ∀ rest, readBlockOffsets data descriptors count
          (segmentDataOffset + descriptors.compressedBlockDescriptorSize) (offset 0) = .ok rest ↔
            rest = (List.range count).map (fun i => offset (i + 1)) ∧ (offset 0 :: rest).IsChain Near := by
        intro rest
        apply ih
        intro i less
        obtain ⟨value, loaded, same⟩ := stored (i + 1) (Nat.succ_lt_succ less)
        refine ⟨value, ?_, same⟩
        rw [← loaded]
        congr 1
        ring
      unfold readBlockOffsets
      rw [loaded, ok_bind, List.range_succ_eq_map, List.map_cons, List.map_map]
      dsimp only
      rw [same]
      by_cases near : Near previous (offset 0)
      · rw [if_neg (by unfold Near at near; omega), bind_eq_ok]
        constructor
        · rintro ⟨rest, read, made⟩
          cases made
          obtain ⟨rfl, chain⟩ := (others rest).mp read
          exact ⟨rfl, List.IsChain.cons_cons near chain⟩
        · rintro ⟨rfl, chain⟩
          exact ⟨_, (others _).mpr ⟨rfl, (List.isChain_cons_cons.mp chain).2⟩, rfl⟩
      · rw [if_pos (by unfold Near at near; omega)]
        constructor
        · intro read
          cases read
        · rintro ⟨rfl, chain⟩
          exact absurd (List.isChain_cons_cons.mp chain).1 near

def valueAt (content : Nat → UInt8) (position : Nat) : Nat := littleEndian (contents content position 4)

theorem loadLittleEndian32_valueAt {content : Nat → UInt8} {total position : Nat} (inside : position + 4 ≤ total) :
    loadLittleEndian32 (contents content 0 total) position = .ok (valueAt content position) := by
  obtain ⟨rest, rfl⟩ := Nat.exists_eq_add_of_le inside
  unfold loadLittleEndian32
  rw [loadLittleEndian_ok (by simp only [contents_length]; omega), Nat.add_assoc, drop_contents, Nat.zero_add,
    take_contents content position (by omega)]
  rfl

section layout

variable (content : Nat → UInt8) (compressionMethod : CompressionMethod)

/-- Where the offset of a block is stored: after the header of a DEFLATE stream with a size after each, else from the
start. -/
def descriptorPosition (index : Nat) : Nat := if compressionMethod = .deflate then 264 + 8 * index else 4 * index

/-- The offset of a block: those of a DEFLATE stream are relative. -/
def storedOffset (index : Nat) : Nat :=
  (valueAt content (descriptorPosition compressionMethod index) +
    if compressionMethod = .deflate then 260 else 0) % 2 ^ 32

def storedCount : Nat := if compressionMethod = .deflate then valueAt content 260 else valueAt content 0 / 4

/-- The first offset lies after its descriptor, and a DEFLATE stream starts with the size of its header. -/
def Described : Prop :=
  if compressionMethod = .deflate then bigEndian (contents content 0 4) = 0x100 ∧ 8 < valueAt content 264
  else contents content 0 4 ≠ [0x66, 0x70, 0x6d, 0x63] ∧ 4 < valueAt content 0

/-- The stored offsets go up to the end of a stream of a size: they are as many as there is room for, each one and the
size near the one before. -/
structure ReachesEnd (size : Nat) : Prop where
  described : Described content compressionMethod
  some : 0 < storedCount content compressionMethod
  few : storedCount content compressionMethod ≤ memoryMaximumAllocationSize / 4 - 1
  near : ((List.range (storedCount content compressionMethod)).map (storedOffset content compressionMethod) ++
    [size]).IsChain Near

/-- The descriptors lie inside a stream of a size, and its first block starts there. -/
def TableInside (size : Nat) : Prop :=
  if compressionMethod = .deflate then
    272 ≤ size ∧ valueAt content 264 < size ∧ 268 + (storedCount content compressionMethod - 1) * 8 ≤ size
  else valueAt content 0 < size

/-- The streams with a table of blocks: compressed data that start with a header of 16 bytes are a single block. -/
def HasTable (size : Nat) : Prop :=
  if contents content 0 4 = [0x66, 0x70, 0x6d, 0x63] then 16 ≤ size ∧ size ≤ blockSize + 1
  else compressionMethod ≠ .unknown5 ∧ ReachesEnd content compressionMethod size ∧
    TableInside content compressionMethod size

def blockCount : Nat :=
  if contents content 0 4 = [0x66, 0x70, 0x6d, 0x63] then 1 else storedCount content compressionMethod

def blockStart (index : Nat) : Nat :=
  if contents content 0 4 = [0x66, 0x70, 0x6d, 0x63] then 16 else storedOffset content compressionMethod index

def layout : Descriptors :=
  if compressionMethod = .deflate then
    { numberOfCompressedBlocks := valueAt content 260
      compressedBlockOffset := valueAt content 264
      header := contents content 0 268
      compressedDescriptorsOffset := 260
      compressedBlockDescriptorSize := 8 }
  else
    { numberOfCompressedBlocks := valueAt content 0 / 4
      compressedBlockOffset := valueAt content 0
      header := contents content 0 4
      compressedDescriptorsOffset := 0
      compressedBlockDescriptorSize := 4 }

end layout

section found

variable {content : Nat → UInt8} {size : Nat} {compressionMethod : CompressionMethod}

theorem valueAt_lt (position : Nat) : valueAt content position < 2 ^ 32 := by
  have small := littleEndian_lt (contents content position 4)
  rw [contents_length] at small
  exact small

theorem readDescriptorsHeader_deflate_iff {descriptors : Descriptors} :
    readDescriptorsHeader (.ofContent content size) .deflate 0 (contents content 0 4) = .ok descriptors ↔
      (bigEndian (contents content 0 4) = 0x100 ∧ 272 ≤ size) ∧ descriptors = layout content .deflate := by
  have descriptorsOffset : loadBigEndian32 (contents content 0 4) 0 = .ok (bigEndian (contents content 0 4)) := rfl
  have joined : contents content 0 4 ++ contents content 4 268 = contents content 0 272 := by
    rw [← contents_add content 0 4 268]
  unfold readDescriptorsHeader layout
  rw [descriptorsOffset, ok_bind, if_pos rfl]
  dsimp only
  by_cases same : bigEndian (contents content 0 4) = 0x100
  · rw [if_neg (not_not.mpr same), bind_eq_ok]
    constructor
    · rintro ⟨data, read, made⟩
      obtain ⟨_, inside, rfl⟩ := DataStream.readExactly_ofContent_iff.mp read
      rw [joined, loadLittleEndian32_valueAt (by omega), ok_bind, loadLittleEndian32_valueAt (by omega), ok_bind,
        take_contents content 0 (by omega)] at made
      cases made
      exact ⟨⟨same, by omega⟩, rfl⟩
    · rintro ⟨⟨_, inside⟩, rfl⟩
      refine ⟨_, DataStream.readExactly_ofContent_iff.mpr ⟨by decide, by omega, rfl⟩, ?_⟩
      rw [joined, loadLittleEndian32_valueAt (by omega), ok_bind, loadLittleEndian32_valueAt (by omega), ok_bind,
        take_contents content 0 (by omega)]
      rfl
  · rw [if_pos same]
    constructor
    · intro read
      cases read
    · intro both
      exact absurd both.1.1 same

theorem readDescriptorsHeader_plain (deflate : compressionMethod ≠ .deflate)
    (described : compressionMethod ≠ .none ∧ compressionMethod ≠ .unknown5) :
    readDescriptorsHeader (.ofContent content size) compressionMethod 0 (contents content 0 4) =
      if valueAt content 0 ≤ 4 ∨ valueAt content 0 ≥ size then fail .valueOutOfBounds
      else .ok (layout content compressionMethod) := by
  have first : loadLittleEndian32 (contents content 0 4) 0 = .ok (valueAt content 0) :=
    loadLittleEndian32_valueAt (Nat.le_refl 4)
  unfold layout
  rw [if_neg deflate]
  cases compressionMethod with
  | deflate => exact absurd rfl deflate
  | none => exact absurd rfl described.1
  | unknown5 => exact absurd rfl described.2
  | lzvn | lzfse | zbitmap =>
      unfold readDescriptorsHeader
      dsimp only
      rw [first, ok_bind]
      rfl

theorem readDescriptorsHeader_iff {descriptors : Descriptors}
    (described : compressionMethod ≠ .none ∧ compressionMethod ≠ .unknown5) :
    readDescriptorsHeader (.ofContent content size) compressionMethod 0 (contents content 0 4) = .ok descriptors ↔
      (if compressionMethod = .deflate then bigEndian (contents content 0 4) = 0x100 ∧ 272 ≤ size
        else 4 < valueAt content 0 ∧ valueAt content 0 < size) ∧
        descriptors = layout content compressionMethod := by
  by_cases deflate : compressionMethod = .deflate
  · obtain rfl := deflate
    rw [if_pos rfl]
    exact readDescriptorsHeader_deflate_iff
  · rw [readDescriptorsHeader_plain deflate described, if_neg deflate]
    by_cases header : 4 < valueAt content 0 ∧ valueAt content 0 < size
    · rw [if_neg (by omega)]
      constructor
      · intro read
        cases read
        exact ⟨header, rfl⟩
      · rintro ⟨_, rfl⟩
        rfl
    · rw [if_pos (by omega)]
      constructor
      · intro read
        cases read
      · intro both
        exact absurd both.1 header

theorem readBlockOffsets_stored {count start stride base first : Nat} {descriptors : Descriptors} {rest : List Nat}
    (header : 4 ≤ start) (descriptor : 4 ≤ stride) (size : descriptors.compressedBlockDescriptorSize = stride)
    (offset : descriptors.compressedDescriptorsOffset = base) :
    readBlockOffsets (contents content 0 (start + count * stride)) descriptors count (start + (stride - 4)) first =
        .ok rest ↔
      rest = (List.range count).map (fun index =>
        (valueAt content (start - 4 + stride * (index + 1)) + base) % 2 ^ 32) ∧ (first :: rest).IsChain Near := by
  apply readBlockOffsets_iff
  intro index less
  rw [size, offset]
  have place : start + (stride - 4) + index * stride = start - 4 + stride * (index + 1) := by
    rw [Nat.mul_add, Nat.mul_comm stride index]
    omega
  have inside : start - 4 + stride * (index + 1) + 4 ≤ start + count * stride := by
    have rows : stride * (index + 1) ≤ count * stride := by
      rw [Nat.mul_comm stride]
      exact Nat.mul_le_mul_right stride less
    omega
  exact ⟨_, by rw [place]; exact loadLittleEndian32_valueAt inside, rfl⟩

theorem readDescriptors_stored {count start stride base : Nat} {offsets : List Nat}
    (few : count ≤ memoryMaximumAllocationSize / 4 - 1) (header : 4 ≤ start ∧ start ≤ 268 ∧ start ≤ size)
    (descriptor : 4 ≤ stride ∧ stride ≤ 8) :
    readDescriptors (.ofContent content size)
        ⟨count, valueAt content (start - 4), contents content 0 start, base, stride⟩ = .ok offsets ↔
      (stride < valueAt content (start - 4) ∧ valueAt content (start - 4) < size ∧
        start + (count - 1) * stride ≤ size) ∧ 0 < count ∧
        offsets = (List.range count).map (fun index =>
          (valueAt content (start - 4 + stride * index) + base) % 2 ^ 32) ∧ offsets.IsChain Near := by
  have sizeEq : (DataStream.ofContent content size).size = size := rfl
  unfold readDescriptors
  dsimp only
  rw [contents_length, bind_eq_ok]
  cases count with
  | zero =>
      constructor
      · rintro ⟨data, read, _⟩
        have readable := (DataStream.readExactly_ok.mp read).1
        have wrapped : (0 + 2 ^ 64 - 1) * stride % 2 ^ 64 = 2 ^ 64 - stride := by omega
        rw [wrapped] at readable
        unfold ssizeMax at readable
        omega
      · rintro ⟨_, none, _⟩
        exact absurd none (Nat.lt_irrefl 0)
  | succ count =>
      have limit : count < 2 ^ 25 := by
        unfold memoryMaximumAllocationSize at few
        omega
      have product : count * stride ≤ 2 ^ 28 := by
        calc count * stride ≤ 2 ^ 25 * 8 := Nat.mul_le_mul (Nat.le_of_lt limit) descriptor.2
          _ = 2 ^ 28 := by decide
      have wrapped : (count + 1 + 2 ^ 64 - 1) * stride % 2 ^ 64 = count * stride := by
        have shifted : count + 1 + 2 ^ 64 - 1 = count + 2 ^ 64 := by omega
        rw [shifted, Nat.add_mul, Nat.add_mul_mod_self_left, Nat.mod_eq_of_lt (by omega)]
      have joined : contents content 0 start ++ contents content start (count * stride) =
          contents content 0 (start + count * stride) := by
        rw [contents_add, Nat.zero_add]
      have offsetsRead : ∀ rest, readBlockOffsets (contents content 0 (start + count * stride))
          ⟨count + 1, valueAt content (start - 4), contents content 0 start, base, stride⟩ count
          (start + (stride - 4)) ((valueAt content (start - 4) + base) % 2 ^ 32) = .ok rest ↔ _ := fun rest =>
        readBlockOffsets_stored header.1 descriptor.1 rfl rfl
      rw [wrapped, Nat.add_sub_cancel, List.range_succ_eq_map, List.map_cons, List.map_map]
      constructor
      · rintro ⟨data, read, made⟩
        obtain ⟨_, inside, rfl⟩ := DataStream.readExactly_ofContent_iff.mp read
        split_ifs at made with outside
        · cases made
        · obtain ⟨rest, read, made⟩ := bind_eq_ok.mp made
          cases made
          rw [joined] at read
          obtain ⟨rfl, chain⟩ := (offsetsRead rest).mp read
          exact ⟨by omega, Nat.succ_pos count, rfl, chain⟩
      · rintro ⟨inside, _, rfl, chain⟩
        refine ⟨_, DataStream.readExactly_ofContent_iff.mpr ⟨by unfold ssizeMax; omega, by omega, rfl⟩, ?_⟩
        rw [if_neg (by omega), joined, bind_eq_ok]
        exact ⟨_, (offsetsRead _).mpr ⟨rfl, chain⟩, rfl⟩

theorem readDescriptors_iff {offsets : List Nat} (header : (layout content compressionMethod).header.length ≤ size)
    (few : storedCount content compressionMethod ≤ memoryMaximumAllocationSize / 4 - 1) :
    readDescriptors (.ofContent content size) (layout content compressionMethod) = .ok offsets ↔
      ((layout content compressionMethod).compressedBlockDescriptorSize <
          (layout content compressionMethod).compressedBlockOffset ∧
        (layout content compressionMethod).compressedBlockOffset < size ∧
        (layout content compressionMethod).header.length + (storedCount content compressionMethod - 1) *
          (layout content compressionMethod).compressedBlockDescriptorSize ≤ size) ∧
        0 < storedCount content compressionMethod ∧
        offsets = (List.range (storedCount content compressionMethod)).map (storedOffset content compressionMethod) ∧
        offsets.IsChain Near := by
  by_cases deflate : compressionMethod = .deflate
  · unfold layout storedCount storedOffset descriptorPosition at *
    simp only [if_pos deflate, contents_length] at few header ⊢
    exact readDescriptors_stored few (by omega) (by omega)
  · unfold layout storedCount storedOffset descriptorPosition at *
    simp only [if_neg deflate, contents_length] at few header ⊢
    have stored : readDescriptors (.ofContent content size)
        ⟨valueAt content 0 / 4, valueAt content (4 - 4), contents content 0 4, 0, 4⟩ = .ok offsets ↔ _ :=
      readDescriptors_stored few (by omega) (by omega)
    simpa using stored

theorem checkLastOffset_iff {stream : DataStream} {stored offsets : List Nat} (some : stored ≠ [])
    (chain : stored.IsChain Near) : checkLastOffset stream stored = .ok offsets ↔
      (stored ++ [stream.size]).IsChain Near ∧ offsets = stored ++ [stream.size % 2 ^ 32] := by
  constructor
  · intro checked
    obtain ⟨same, near⟩ := checkLastOffset_near checked chain
    exact ⟨near, same⟩
  · rintro ⟨near, rfl⟩
    have last : (load stored (stored.length - 1) : Result Nat) = .ok (stored.getLast some) := by
      rw [load_ok_iff, ← List.getLast?_eq_getElem?, List.getLast?_eq_some_getLast some]
    have within : Near (stored.getLast some) stream.size :=
      (List.isChain_append.mp near).2.2 _ (List.getLast?_eq_some_getLast some) _ rfl
    unfold checkLastOffset
    rw [last, ok_bind, if_neg (by unfold Near at within; omega)]
    rfl

theorem readFooter_ok (described : compressionMethod ≠ .unknown5) :
    readFooter (.ofContent content size) compressionMethod = .ok () := by
  cases compressionMethod with
  | deflate =>
      unfold readFooter
      dsimp only
      rw [DataStream.readExactly_ofContent content (Nat.zero_le _) (Nat.zero_le _)]
      rfl
  | none | lzvn | lzfse | zbitmap => rfl
  | unknown5 => exact absurd rfl described

theorem readFooter_single (single : 16 ≤ size ∧ size ≤ blockSize + 1) :
    readFooter (.ofContent content size) compressionMethod = .ok () := by
  by_cases described : compressionMethod = .unknown5
  · subst described
    have sizeEq : (DataStream.ofContent content size).size = size := rfl
    unfold blockSize at single
    have rest : (size + 2 ^ 64 - 16) % 2 ^ 64 = size - 16 := by omega
    unfold readFooter
    dsimp only
    rw [sizeEq, rest, if_neg (by unfold ssizeMax; omega),
      DataStream.readExactly_ofContent content (by unfold ssizeMax; omega) (by omega)]
    rfl
  · exact readFooter_ok described

theorem layout_count :
    (layout content compressionMethod).numberOfCompressedBlocks = storedCount content compressionMethod := by
  unfold layout storedCount
  split_ifs <;> rfl

theorem layout_iff : ((if compressionMethod = .deflate then bigEndian (contents content 0 4) = 0x100 ∧ 272 ≤ size
      else 4 < valueAt content 0 ∧ valueAt content 0 < size) ∧ contents content 0 4 ≠ [0x66, 0x70, 0x6d, 0x63]) ∧
    ((layout content compressionMethod).compressedBlockDescriptorSize <
        (layout content compressionMethod).compressedBlockOffset ∧
      (layout content compressionMethod).compressedBlockOffset < size ∧
      (layout content compressionMethod).header.length + (storedCount content compressionMethod - 1) *
        (layout content compressionMethod).compressedBlockDescriptorSize ≤ size) ↔
    Described content compressionMethod ∧ TableInside content compressionMethod size := by
  unfold Described TableInside layout storedCount
  split_ifs with deflate
  · simp only [contents_length]
    constructor
    · rintro ⟨⟨⟨start, long⟩, _⟩, after, before, fits⟩
      exact ⟨⟨start, after⟩, long, before, fits⟩
    · rintro ⟨⟨start, after⟩, long, before, fits⟩
      refine ⟨⟨⟨start, long⟩, fun magic => ?_⟩, after, before, fits⟩
      rw [magic] at start
      exact absurd start (by decide)
  · simp only [contents_length]
    constructor
    · rintro ⟨⟨⟨after, before⟩, magic⟩, _⟩
      exact ⟨⟨magic, after⟩, before⟩
    · rintro ⟨⟨magic, after⟩, before⟩
      exact ⟨⟨⟨after, before⟩, magic⟩, after, before, by omega⟩

theorem layout_header (start : if compressionMethod = .deflate then bigEndian (contents content 0 4) = 0x100 ∧ 272 ≤ size
      else 4 < valueAt content 0 ∧ valueAt content 0 < size) :
    (layout content compressionMethod).header.length ≤ size := by
  unfold layout
  split_ifs at start ⊢
  · rw [contents_length]
    omega
  · rw [contents_length]
    omega

theorem storedOffsets_ne (some : 0 < storedCount content compressionMethod) :
    (List.range (storedCount content compressionMethod)).map (storedOffset content compressionMethod) ≠ [] := by
  intro empty
  have length := congrArg List.length empty
  rw [List.length_map, List.length_range, List.length_nil] at length
  exact absurd length (Nat.ne_of_gt some)

theorem blockTable_single_iff (magic : contents content 0 4 = [0x66, 0x70, 0x6d, 0x63]) {count : Nat}
    {offsets : List Nat} :
    blockTable (.ofContent content size) compressionMethod = .ok (count, offsets) ↔
      (16 ≤ size ∧ size ≤ blockSize + 1) ∧ count = 1 ∧
        offsets = (List.range count).map (fun _ => 16) ++ [size % 2 ^ 32] := by
  have sizeEq : (DataStream.ofContent content size).size = size := rfl
  unfold blockTable
  rw [bind_eq_ok]
  have checks : ∀ offsets, checkLastOffset (.ofContent content size) [16] = .ok offsets ↔ _ := fun offsets =>
    checkLastOffset_iff (List.cons_ne_nil 16 []) (List.isChain_singleton 16)
  constructor
  · rintro ⟨header, read, found⟩
    obtain ⟨_, _, rfl⟩ := DataStream.readExactly_ofContent_iff.mp read
    rw [if_pos magic] at found
    split_ifs at found with long
    · cases found
    · obtain ⟨table, checked, found⟩ := bind_eq_ok.mp found
      obtain ⟨_, _, found⟩ := bind_eq_ok.mp found
      cases found
      obtain ⟨near, rfl⟩ := (checks _).mp checked
      have last := (List.isChain_cons_cons.mp near).1
      exact ⟨⟨last.1, Nat.not_lt.mp long⟩, rfl, rfl⟩
  · rintro ⟨single, rfl, rfl⟩
    refine ⟨_, DataStream.readExactly_ofContent content (by decide) (by omega), ?_⟩
    have near : ([16] ++ [size]).IsChain Near :=
      List.IsChain.cons_cons ⟨single.1, by unfold blockSize at *; omega⟩ (List.isChain_singleton size)
    rw [if_pos magic, if_neg (by rw [sizeEq]; omega), (checks _).mpr ⟨near, rfl⟩, ok_bind, readFooter_single single]
    rfl

theorem blockTable_stored_iff (method : compressionMethod ≠ .none)
    (magic : contents content 0 4 ≠ [0x66, 0x70, 0x6d, 0x63]) {count : Nat} {offsets : List Nat} :
    blockTable (.ofContent content size) compressionMethod = .ok (count, offsets) ↔
      (compressionMethod ≠ .unknown5 ∧ ReachesEnd content compressionMethod size ∧
        TableInside content compressionMethod size) ∧ count = storedCount content compressionMethod ∧
        offsets = (List.range count).map (storedOffset content compressionMethod) ++ [size % 2 ^ 32] := by
  have sizeEq : (DataStream.ofContent content size).size = size := rfl
  unfold blockTable
  rw [bind_eq_ok]
  constructor
  · rintro ⟨header, read, found⟩
    obtain ⟨_, _, rfl⟩ := DataStream.readExactly_ofContent_iff.mp read
    rw [if_neg magic] at found
    obtain ⟨descriptors, describes, found⟩ := bind_eq_ok.mp found
    have described : compressionMethod ≠ .unknown5 := by
      rintro rfl
      cases describes
      obtain ⟨failure, none⟩ := readDescriptors_noDescriptor (.ofContent content size) 0
      rw [if_neg (fun many => by cases many.1), if_neg (by decide), none] at found
      cases found
    obtain ⟨start, rfl⟩ := (readDescriptorsHeader_iff ⟨method, described⟩).mp describes
    rw [layout_count] at found
    split_ifs at found with many huge
    · cases found
    · cases found
    · have few := Nat.not_lt.mp huge
      obtain ⟨stored, read, found⟩ := bind_eq_ok.mp found
      obtain ⟨table, checked, found⟩ := bind_eq_ok.mp found
      obtain ⟨_, _, found⟩ := bind_eq_ok.mp found
      cases found
      obtain ⟨after, some, rfl, chain⟩ := (readDescriptors_iff (layout_header start) few).mp read
      obtain ⟨near, rfl⟩ := (checkLastOffset_iff (storedOffsets_ne some) chain).mp checked
      obtain ⟨describes, inside⟩ := layout_iff.mp ⟨⟨start, magic⟩, after⟩
      exact ⟨⟨described, ⟨describes, some, few, near⟩, inside⟩, rfl, rfl⟩
  · rintro ⟨⟨described, reaches, inside⟩, rfl, rfl⟩
    obtain ⟨⟨start, _⟩, after⟩ := layout_iff.mpr ⟨reaches.described, inside⟩
    have long : 4 ≤ size := by
      split_ifs at start <;> omega
    have chain := (List.isChain_append.mp reaches.near).1
    have read := (readDescriptors_iff (layout_header start) reaches.few).mpr ⟨after, reaches.some, rfl, chain⟩
    have near := reaches.near
    rw [← sizeEq] at near
    have checked := (checkLastOffset_iff (storedOffsets_ne reaches.some) chain).mpr ⟨near, rfl⟩
    have few := reaches.few
    have many : ¬(compressionMethod = .deflate ∧ storedCount content compressionMethod > (2 ^ 32 - 1) / 8) := by
      rintro ⟨_, many⟩
      unfold memoryMaximumAllocationSize at few
      omega
    refine ⟨_, DataStream.readExactly_ofContent content (by decide) (by omega), ?_⟩
    rw [if_neg magic, (readDescriptorsHeader_iff ⟨method, described⟩).mpr ⟨start, rfl⟩, ok_bind, layout_count,
      if_neg many, if_neg (Nat.not_lt.mpr few), read, ok_bind, checked, ok_bind, readFooter_ok described, ok_bind]
    rfl

theorem blockTable_ok_iff (method : compressionMethod ≠ .none) {count : Nat} {offsets : List Nat} :
    blockTable (.ofContent content size) compressionMethod = .ok (count, offsets) ↔
      HasTable content compressionMethod size ∧ count = blockCount content compressionMethod ∧
        offsets = (List.range count).map (blockStart content compressionMethod) ++ [size % 2 ^ 32] := by
  unfold HasTable blockCount blockStart
  by_cases magic : contents content 0 4 = [0x66, 0x70, 0x6d, 0x63]
  · simp only [if_pos magic]
    exact blockTable_single_iff magic
  · simp only [if_neg magic]
    exact blockTable_stored_iff method magic

theorem blockTable_iff (large : 2 ^ 32 ≤ size)
    (described : compressionMethod ≠ .none ∧ compressionMethod ≠ .unknown5) :
    (∃ count offsets, blockTable (.ofContent content size) compressionMethod = .ok (count, offsets)) ↔
      ReachesEnd content compressionMethod size := by
  constructor
  · rintro ⟨count, offsets, found⟩
    have table := ((blockTable_ok_iff described.1).mp found).1
    unfold HasTable at table
    split_ifs at table
    · unfold blockSize at table
      omega
    · exact table.2.1
  · intro reaches
    refine ⟨_, _, (blockTable_ok_iff described.1).mpr ⟨?_, rfl, rfl⟩⟩
    have magic : contents content 0 4 ≠ [0x66, 0x70, 0x6d, 0x63] := by
      intro magic
      have describes := reaches.described
      unfold Described at describes
      rw [magic] at describes
      split_ifs at describes
      · exact absurd describes.1 (by decide)
      · exact absurd rfl describes.1
    have few := reaches.few
    have first : valueAt content 0 < 2 ^ 32 := valueAt_lt 0
    have second : valueAt content 264 < 2 ^ 32 := valueAt_lt 264
    unfold HasTable
    rw [if_neg magic]
    refine ⟨described.2, reaches, ?_⟩
    unfold TableInside
    unfold memoryMaximumAllocationSize at few
    split_ifs
    · omega
    · omega

end found

section promise

variable {handle : CompressedDataHandle} {content : Nat → UInt8} {size : Nat}

theorem blockTable_stored {stream : DataStream} {compressionMethod : CompressionMethod} {count : Nat}
    {offsets : List Nat} (found : blockTable stream compressionMethod = .ok (count, offsets)) :
    ∃ stored, offsets = stored ++ [stream.size % 2 ^ 32] ∧ stored.length = count ∧
      (stored ++ [stream.size]).IsChain Near := by
  unfold blockTable at found
  obtain ⟨header, _, found⟩ := bind_eq_ok.mp found
  split_ifs at found with magic long
  · cases found
  · obtain ⟨table, checked, found⟩ := bind_eq_ok.mp found
    obtain ⟨_, _, found⟩ := bind_eq_ok.mp found
    cases found
    obtain ⟨same, near⟩ := checkLastOffset_near checked (List.isChain_singleton 16)
    exact ⟨[16], same, rfl, near⟩
  · obtain ⟨descriptors, describes, found⟩ := bind_eq_ok.mp found
    split_ifs at found
    · cases found
    · cases found
    · obtain ⟨stored, read, found⟩ := bind_eq_ok.mp found
      obtain ⟨table, checked, found⟩ := bind_eq_ok.mp found
      obtain ⟨_, _, found⟩ := bind_eq_ok.mp found
      cases found
      obtain ⟨chain, length, _⟩ := readDescriptors_near (readDescriptorsHeader_size describes) read
      obtain ⟨same, near⟩ := checkLastOffset_near checked chain
      exact ⟨stored, same, length, near⟩

theorem blockTable_offsets {stream : DataStream} {compressionMethod : CompressionMethod} {count : Nat}
    {offsets : List Nat} (found : blockTable stream compressionMethod = .ok (count, offsets)) :
    BlockOffsets stream.size count offsets ↔ stream.size < 2 ^ 32 := by
  obtain ⟨stored, rfl, length, near⟩ := blockTable_stored found
  constructor
  · intro table
    have last := table.last
    rw [List.getLast?_concat] at last
    have same := Option.some.inj last
    omega
  · intro small
    rw [Nat.mod_eq_of_lt small]
    exact ⟨by rw [List.length_append, length]; rfl, near, List.getLast?_concat⟩

/-- Finding the offsets keeps its promise just if the stream has less than 2 ^ 32 bytes or its stored offsets do not
reach its end. -/
theorem getCompressedBlockOffsets_table (unset : handle.compressedBlockOffsets = none)
    (stream : handle.compressedDataStream = .ofContent content size)
    (described : handle.compressionMethod ≠ .none ∧ handle.compressionMethod ≠ .unknown5) :
    getCompressedBlockOffsets.Ends handle
        (fun _ after => ∃ offsets, after.compressedBlockOffsets = some offsets ∧
          BlockOffsets size after.numberOfCompressedBlocks offsets)
        (fun after => after.compressedBlockOffsets = none) ↔
      ¬ (2 ^ 32 ≤ size ∧ ReachesEnd content handle.compressionMethod size) := by
  have ends := getCompressedBlockOffsets_ends unset
  have sizeEq : handle.compressedDataStream.size = size := by rw [stream]; rfl
  constructor
  · rintro promised ⟨large, reaches⟩
    obtain ⟨count, offsets, found⟩ := (blockTable_iff large described).mpr reaches
    rw [← stream] at found
    have located := located_of_blockTable unset found
    unfold Call.Ends at promised
    rw [located] at promised
    obtain ⟨table, same, blocks⟩ := promised
    obtain rfl : offsets = table := Option.some.inj same
    rw [← sizeEq] at blocks
    have small := (blockTable_offsets found).mp blocks
    omega
  · intro condition
    refine ends.mono ?_ ?_
    · rintro _ after ⟨count, offsets, found, rfl⟩
      have small : handle.compressedDataStream.size < 2 ^ 32 := by
        by_contra large
        rw [sizeEq] at large
        rw [stream] at found
        exact condition ⟨Nat.not_lt.mp large, (blockTable_iff (Nat.not_lt.mp large) described).mp ⟨_, _, found⟩⟩
      have blocks := (blockTable_offsets found).mpr small
      rw [sizeEq] at blocks
      exact ⟨offsets, rfl, blocks⟩
    · rintro after ⟨_, count, rfl⟩
      exact unset

end promise

end stored

structure OffsetTable (byte : Nat → UInt8) (size count : Nat) (offset : Nat → Nat) : Prop where
  several : 1 < count
  few : count ≤ memoryMaximumAllocationSize / 4 - 1
  first : offset 0 = 4 * count
  stored : ∀ k, k < count → offset k < 2 ^ 32 ∧
    ∀ j, j < 4 → byte (4 * k + j) = UInt8.ofNat (offset k / 256 ^ j)
  grows : ∀ k, k + 1 < count → offset k ≤ offset (k + 1) ∧ offset (k + 1) - offset k ≤ blockSize + 1
  inside : offset 0 < size
  last : offset (count - 1) ≤ size ∧ size - offset (count - 1) ≤ blockSize + 1

section table

variable {byte : Nat → UInt8} {size count : Nat} {offset : Nat → Nat}
  (table : OffsetTable byte size count offset)

theorem valueAt_of_bytes {position value : Nat} (small : value < 2 ^ 32)
    (bytes : ∀ j, j < 4 → byte (position + j) = UInt8.ofNat (value / 256 ^ j)) : valueAt byte position = value := by
  have range : List.range 4 = [0, 1, 2, 3] := rfl
  simp only [valueAt, littleEndian, contents, range, List.map_cons, List.map_nil, List.foldr_cons, List.foldr_nil,
    bytes 0 (by decide), bytes 1 (by decide), bytes 2 (by decide), bytes 3 (by decide), UInt8.toNat_ofNat']
  omega

include table

theorem OffsetTable.valueAt {k : Nat} (h : k < count) : valueAt byte (4 * k) = offset k :=
  valueAt_of_bytes (table.stored k h).1 (table.stored k h).2

theorem OffsetTable.first_value : CompressedDataHandle.valueAt byte 0 = 4 * count :=
  (table.valueAt (Nat.lt_trans Nat.one_pos table.several)).trans table.first

theorem OffsetTable.magic : contents byte 0 4 ≠ [0x66, 0x70, 0x6d, 0x63] := by
  intro magic
  have few := table.few
  have first := table.first_value
  have value : littleEndian [0x66, 0x70, 0x6d, 0x63] = 0x636d7066 := by decide +kernel
  unfold CompressedDataHandle.valueAt at first
  rw [magic, value] at first
  unfold memoryMaximumAllocationSize at few
  omega

theorem OffsetTable.storedCount : storedCount byte .lzvn = count := by
  unfold CompressedDataHandle.storedCount
  rw [if_neg (by decide), table.first_value, Nat.mul_div_cancel_left count (by decide)]

theorem OffsetTable.blockCount : blockCount byte .lzvn = count := by
  unfold CompressedDataHandle.blockCount
  rw [if_neg table.magic, table.storedCount]

theorem OffsetTable.storedOffset {k : Nat} (h : k < count) : storedOffset byte .lzvn k = offset k := by
  unfold CompressedDataHandle.storedOffset descriptorPosition
  rw [if_neg (by decide), if_neg (by decide), table.valueAt h, Nat.add_zero, Nat.mod_eq_of_lt (table.stored k h).1]

theorem OffsetTable.blockStart {k : Nat} (h : k < count) : blockStart byte .lzvn k = offset k := by
  unfold CompressedDataHandle.blockStart
  rw [if_neg table.magic, table.storedOffset h]

theorem OffsetTable.hasTable : HasTable byte .lzvn size := by
  have first := table.first_value
  have several := table.several
  have inside := table.inside
  unfold HasTable
  rw [if_neg table.magic]
  refine ⟨by decide, ⟨?_, by rw [table.storedCount]; omega, by rw [table.storedCount]; exact table.few, ?_⟩, ?_⟩
  · unfold Described
    rw [if_neg (by decide)]
    exact ⟨table.magic, by omega⟩
  · rw [List.isChain_iff_getElem]
    intro k within
    rw [table.storedCount, List.length_append, List.length_map, List.length_range, List.length_singleton] at within
    have below : k < count := by omega
    have this : ((List.range (CompressedDataHandle.storedCount byte .lzvn)).map
        (CompressedDataHandle.storedOffset byte .lzvn) ++ [size])[k] = offset k := by
      rw [List.getElem_append_left (by simpa [table.storedCount] using below), List.getElem_map, List.getElem_range,
        table.storedOffset below]
    rw [this]
    by_cases further : k + 1 < count
    · rw [List.getElem_append_left (by simpa [table.storedCount] using further), List.getElem_map, List.getElem_range,
        table.storedOffset further]
      exact table.grows k further
    · obtain rfl : k = count - 1 := by omega
      rw [List.getElem_append_right (by simp [table.storedCount]; omega), List.getElem_singleton]
      exact table.last
  · unfold TableInside
    rw [if_neg (by decide), first, ← table.first]
    exact inside

theorem OffsetTable.blockTable : blockTable (.ofContent byte size) .lzvn =
    .ok (count, (List.range count).map offset ++ [size % 2 ^ 32]) := by
  refine (blockTable_ok_iff (by decide)).mpr ⟨table.hasTable, table.blockCount.symm, ?_⟩
  rw [List.map_congr_left fun k member => table.blockStart (List.mem_range.mp member)]

end table

def wideOffset (index : Nat) : Nat := min (262148 + 65537 * index) (2 ^ 32 - 1)

def wideByte (i : Nat) : UInt8 := if i < 262148 then UInt8.ofNat (wideOffset (i / 4) / 256 ^ (i % 4)) else 0

def wideHandle : CompressedDataHandle where
  currentSegmentOffset := 0
  compressedDataStream := .ofContent wideByte (2 ^ 32)
  uncompressedDataSize := 1
  compressionMethod := .lzvn
  currentCompressedBlockIndex := 2 ^ 32 - 1
  segmentData := []
  segmentDataSize := 0
  numberOfCompressedBlocks := 0
  compressedBlockOffsets := none

theorem wideOffset_table : OffsetTable wideByte (2 ^ 32) 65537 wideOffset where
  several := by decide
  few := by decide
  first := by decide
  stored := by
    intro k h
    constructor
    · unfold wideOffset
      omega
    · intro j small
      unfold wideByte
      rw [if_pos (by omega), Nat.mul_add_div (by decide), Nat.mul_add_mod, Nat.div_eq_of_lt small,
        Nat.mod_eq_of_lt small, Nat.add_zero]
  grows := by
    intro k _
    unfold wideOffset blockSize
    omega
  inside := by decide
  last := by decide

theorem wideHandle_located : getCompressedBlockOffsets wideHandle =
    (.ok (), withTable 65537 ((List.range 65537).map wideOffset ++ [0]) wideHandle) :=
  located_of_blockTable rfl wideOffset_table.blockTable

theorem getCompressedBlockOffsets_table_sample :
    wideHandle.compressedBlockOffsets = none ∧
    (getCompressedBlockOffsets.Ends wideHandle
        (fun _ after => ∃ offsets, after.compressedBlockOffsets = some offsets ∧
          BlockOffsets (2 ^ 32) after.numberOfCompressedBlocks offsets)
        (fun after => after.compressedBlockOffsets = none) ↔
      ¬ (2 ^ 32 ≤ 2 ^ 32 ∧ ReachesEnd wideByte .lzvn (2 ^ 32))) :=
  ⟨rfl, getCompressedBlockOffsets_table rfl rfl (by decide)⟩

/-- The end of a stream of 2 ^ 32 bytes is kept as 0, after an offset of 2 ^ 32 - 1. -/
theorem wideHandle_wraps :
    (∃ after offsets, getCompressedBlockOffsets wideHandle = (.ok (), after) ∧
      after.compressedBlockOffsets = some offsets ∧ offsets.getLast? = some 0 ∧
      ¬ BlockOffsets (2 ^ 32) after.numberOfCompressedBlocks offsets) ∧
    wideHandle.compressedDataStream.size = 2 ^ 32 := by
  refine ⟨⟨_, _, wideHandle_located, rfl, List.getLast?_concat, fun blocks => ?_⟩, rfl⟩
  have last := blocks.last
  rw [List.getLast?_concat] at last
  cases last

end Fsapfs.CompressedDataHandle
