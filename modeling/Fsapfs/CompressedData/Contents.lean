import Fsapfs.CompressedData.Runs

namespace Fsapfs.CompressedDataHandle
open Program

/-- Data of a size in blocks: all but the last one are full. -/
structure Divides (blocks : List (List UInt8)) (size : Nat) : Prop where
  full : ∀ k (h : k < blocks.length), k + 1 < blocks.length → blocks[k].length = blockSize
  short : ∀ k (h : k < blocks.length), 0 < blocks[k].length ∧ blocks[k].length ≤ blockSize
  whole : blocks.flatten.length = size

/-- The needed blocks of a stream whose table is known, decompressed. -/
structure Blocks (codecs : Codecs) (handle : CompressedDataHandle) (blocks : List (List UInt8)) : Prop
    extends Divides blocks handle.uncompressedDataSize where
  present : blocks.length ≤ handle.numberOfCompressedBlocks
  decompressed : ∀ k (h : k < blocks.length), blockContents codecs handle k = some blocks[k]

variable {codecs : Codecs} {handle first : CompressedDataHandle} {blocks : List (List UInt8)}

theorem blockSize_pos : 0 < blockSize := by decide

theorem flatten_drop {b : Nat}
    (full : ∀ k (h : k < blocks.length), k + 1 < blocks.length → blocks[k].length = b)
    {k : Nat} (within : k < blocks.length) : blocks.flatten.drop (k * b) = (blocks.drop k).flatten := by
  induction k with
  | zero => simp
  | succ k ih =>
      have before : k < blocks.length := Nat.lt_of_succ_lt within
      have split := List.drop_eq_getElem_cons before
      rw [Nat.succ_mul, ← List.drop_drop, ih before, split, List.flatten_cons]
      exact List.drop_left' (full k before within)

namespace Divides

variable {size k : Nat} (divides : Divides blocks size)
include divides

theorem drop (within : k < blocks.length) :
    blocks.flatten.drop (k * blockSize) = blocks[k] ++ (blocks.drop (k + 1)).flatten := by
  rw [flatten_drop divides.full within, List.drop_eq_getElem_cons within, List.flatten_cons]

theorem bounds (within : k < blocks.length) :
    k * blockSize + blocks[k].length ≤ size ∧
      (k + 1 < blocks.length → blocks[k].length = blockSize) ∧
      (¬k + 1 < blocks.length → k * blockSize + blocks[k].length = size) := by
  have length := congrArg List.length (divides.drop within)
  rw [List.length_drop, List.length_append, divides.whole] at length
  have positive := (divides.short k within).1
  refine ⟨by omega, divides.full k within, ?_⟩
  intro last
  rw [List.drop_eq_nil_of_le (by omega), List.flatten_nil, List.length_nil] at length
  omega

theorem block_lt {offset : Nat} (inside : offset < size) : offset / blockSize < blocks.length := by
  rw [Nat.div_lt_iff_lt_mul blockSize_pos]
  cases count : blocks.length with
  | zero =>
      have whole := divides.whole
      rw [List.length_eq_zero_iff.mp count] at whole
      simp only [List.flatten_nil, List.length_nil] at whole
      omega
  | succ k =>
      have within : k < blocks.length := by omega
      have last := (divides.bounds within).2.2 (by omega)
      have short := (divides.short k within).2
      rw [Nat.succ_mul]
      omega

theorem size_le : size ≤ blocks.length * blockSize := by
  rcases Nat.eq_zero_or_pos size with none | some
  · rw [none]
    exact Nat.zero_le _
  · have last := divides.block_lt (Nat.sub_lt some Nat.one_pos)
    rw [Nat.div_lt_iff_lt_mul blockSize_pos] at last
    omega

theorem last_block (some : blocks ≠ []) : 0 < size ∧ (size - 1) / blockSize + 1 = blocks.length := by
  have positive := List.length_pos_of_ne_nil some
  have within : blocks.length - 1 < blocks.length := Nat.sub_lt positive Nat.one_pos
  have last := (divides.bounds within).2.2 (by omega)
  have short := divides.short _ within
  have before : 0 < size := by omega
  have below := divides.block_lt (Nat.sub_lt before Nat.one_pos)
  have above : blocks.length - 1 ≤ (size - 1) / blockSize := by
    rw [Nat.le_div_iff_mul_le blockSize_pos]
    omega
  exact ⟨before, by omega⟩

end Divides

/-- The sizes for which the end of the last block is not cut off in 32 bits, unless it is full. -/
def SizeFits (size : Nat) : Prop := size % blockSize = 0 ∨ size ≤ 2 ^ 32 - blockSize

instance (size : Nat) : Decidable (SizeFits size) :=
  inferInstanceAs (Decidable (_ ∨ _))

theorem blockState_of_contents {index : Nat} {data : List UInt8}
    (contents : blockContents codecs handle index = some data) :
    blockState codecs handle index =
      if uncompressedBlockOffset index < handle.uncompressedDataSize ∧ data.length ≠ blockSize then
        .spoiled
      else .good data := by
  unfold blockContents at contents
  unfold blockState
  split at contents
  next compressedData read =>
    rw [read]
    dsimp only
    rw [contents]
  next => cases contents

theorem Blocks.good (whole : Blocks codecs handle blocks) (fits : SizeFits handle.uncompressedDataSize)
    {k : Nat} (within : k < blocks.length) : blockState codecs handle k = .good blocks[k] := by
  rw [blockState_of_contents (whole.decompressed k within), if_neg]
  rintro ⟨before, partly⟩
  obtain ⟨inside, full, last⟩ := whole.bounds within
  have final : ¬k + 1 < blocks.length := fun further => partly (full further)
  have size := last final
  have short := whole.short k within
  unfold uncompressedBlockOffset at before
  unfold SizeFits at fits
  unfold blockSize at *
  omega

theorem Blocks.spoiled (whole : Blocks codecs handle blocks)
    (misfits : ¬SizeFits handle.uncompressedDataSize) :
    blockState codecs handle ((handle.uncompressedDataSize - 1) / blockSize) = .spoiled := by
  have positive : 0 < handle.uncompressedDataSize := by
    rcases Nat.eq_zero_or_pos handle.uncompressedDataSize with none | some
    · exact absurd (Or.inl (by rw [none, Nat.zero_mod])) misfits
    · exact some
  have within := whole.block_lt (Nat.sub_lt positive Nat.one_pos)
  have last := whole.bounds within
  have short := whole.short _ within
  rw [blockState_of_contents (whole.decompressed _ within), if_pos]
  unfold SizeFits at misfits
  unfold uncompressedBlockOffset
  unfold blockSize at *
  omega

theorem Blocks.piece (whole : Blocks codecs handle blocks) (fits : SizeFits handle.uncompressedDataSize)
    (k dataOffset : Nat) (valid : dataOffset < blockSize)
    (inside : k * blockSize + dataOffset < handle.uncompressedDataSize) :
    ∃ items next, blockPiece codecs handle (k, dataOffset) = some (items, next) ∧ items ≠ [] ∧
      items = contents (fun i => blocks.flatten.getD i 0) (k * blockSize + dataOffset) items.length ∧
      (k * blockSize + dataOffset + items.length < handle.uncompressedDataSize →
        next.2 < blockSize ∧ next.1 * blockSize + next.2 = k * blockSize + dataOffset + items.length) := by
  have within : k < blocks.length := by
    have block := whole.block_lt inside
    rwa [Nat.mul_comm, Nat.mul_add_div blockSize_pos, Nat.div_eq_of_lt valid, Nat.add_zero] at block
  obtain ⟨ends, full, last⟩ := whole.bounds within
  have partly : dataOffset < blocks[k].length := by
    by_cases further : k + 1 < blocks.length
    · rwa [full further]
    · have size := last further
      omega
  have small : k < handle.numberOfCompressedBlocks := Nat.lt_of_lt_of_le within whole.present
  refine ⟨_, _, blockPiece_of_good small (whole.good fits within) dataOffset, ?_, ?_, ?_⟩
  · rw [ne_eq, List.drop_eq_nil_iff]
    omega
  · rw [List.length_drop, contents_getD _ _ (by rw [whole.whole]; omega), ← List.drop_drop,
      whole.drop within, List.drop_append_of_le_length partly.le, List.take_left' (List.length_drop ..)]
  · intro further
    rw [List.length_drop] at further ⊢
    refine ⟨blockSize_pos, ?_⟩
    have size : blocks[k].length = blockSize := by
      by_cases next : k + 1 < blocks.length
      · exact full next
      · have size := last next
        omega
    rw [Nat.succ_mul]
    omega

theorem Blocks.gather (whole : Blocks codecs handle blocks) (fits : SizeFits handle.uncompressedDataSize)
    (few : blocks.length ≤ 2 ^ 32) {size : Nat}
    (inside : handle.currentSegmentOffset + size ≤ handle.uncompressedDataSize)
    (before : handle.currentSegmentOffset < handle.uncompressedDataSize) :
    gather (blockPiece codecs handle) size (startPlace handle) =
      some ((blocks.flatten.drop handle.currentSegmentOffset).take size) := by
  have start : (startPlace handle).1 * blockSize + (startPlace handle).2 = handle.currentSegmentOffset := by
    have block := whole.block_lt before
    unfold startPlace
    rw [Nat.mod_eq_of_lt (Nat.lt_of_lt_of_le block few), Nat.mul_comm]
    exact Nat.div_add_mod ..
  have valid : (startPlace handle).2 < blockSize := Nat.mod_lt _ blockSize_pos
  have gathered := gather_contents (fun place => place.2 < blockSize)
    (fun place : Nat × Nat => place.1 * blockSize + place.2)
    (fun place valid inside => whole.piece fits place.1 place.2 valid inside) size (startPlace handle)
    valid (by rw [start]; exact inside)
  rw [gathered, start, contents_getD _ _ (by rw [whole.whole]; exact inside)]

theorem Blocks.compressed (whole : Blocks codecs handle blocks) (size : 0 < handle.uncompressedDataSize) :
    handle.compressionMethod ≠ .unknown5 := by
  intro silent
  have within := whole.block_lt size
  rw [Nat.zero_div] at within
  have contents := whole.decompressed 0 within
  unfold blockContents at contents
  rw [silent] at contents
  split at contents
  · cases contents
  · cases contents

theorem blockContents_of_read {offsets : List Nat} {k : Nat} {compressedData : List UInt8}
    (read : readCompressedBlock handle.compressedDataStream offsets k = .ok compressedData) (count : Nat) :
    blockContents codecs (withTable count offsets handle) k =
      uncompressed codecs handle.compressionMethod compressedData blockSize := by
  have read' : readCompressedBlock (withTable count offsets handle).compressedDataStream
      ((withTable count offsets handle).compressedBlockOffsets.getD []) k = .ok compressedData := read
  unfold blockContents
  rw [read']
  rfl

theorem Blocks.of_same {count : Nat} {offsets : List Nat} (whole : Blocks codecs (withTable count offsets first) blocks)
    (same : SameSource first handle) : Blocks codecs (withTable count offsets handle) blocks where
  present := whole.present
  decompressed := by
    intro k within
    rw [← whole.decompressed k within]
    simp only [blockContents, withTable, same.stream, same.method]
  full := whole.full
  short := whole.short
  whole := whole.whole.trans same.size.symm

abbrev FewBlocks (handle : CompressedDataHandle) : Prop :=
  handle.numberOfCompressedBlocks ≤ memoryMaximumAllocationSize / 4 - 1

theorem Blocks.length_few (whole : Blocks codecs handle blocks) (few : FewBlocks handle) :
    blocks.length < 2 ^ 25 := by
  have present := Nat.le_trans whole.present few
  unfold memoryMaximumAllocationSize at present
  omega

theorem Blocks.size_small (whole : Blocks codecs handle blocks) (few : FewBlocks handle) :
    handle.uncompressedDataSize ≤ 2 ^ 41 := by
  have short := whole.length_few few
  have size := whole.size_le
  unfold blockSize at size
  omega

theorem Blocks.available (whole : Blocks codecs handle blocks) (few : FewBlocks handle)
    (fits : SizeFits handle.uncompressedDataSize) {size : Nat}
    (inside : handle.currentSegmentOffset + size ≤ handle.uncompressedDataSize) :
    available codecs handle size = some ((blocks.flatten.drop handle.currentSegmentOffset).take size) := by
  have short := whole.length_few few
  have small := whole.size_small few
  unfold CompressedDataHandle.available
  split_ifs with after
  · have none : size = 0 := by omega
    rw [none, List.take_zero]
  · have before : handle.currentSegmentOffset < handle.uncompressedDataSize := Nat.lt_of_not_le after
    have compressed := whole.compressed (Nat.lt_of_le_of_lt (Nat.zero_le _) before)
    have gathered := whole.gather fits (by omega) inside before
    have near : handle.currentSegmentOffset +
        ((blocks.flatten.drop handle.currentSegmentOffset).take size).length ≤ off64Max := by
      rw [List.length_take]
      unfold off64Max
      omega
    unfold plainData
    rw [if_neg compressed, gathered, Option.filter_some]
    exact if_pos (decide_eq_true near)

theorem available_none {offset : Nat} (at_offset : handle.currentSegmentOffset = offset)
    (before : offset < handle.uncompressedDataSize) (near : offset / blockSize < 2 ^ 32)
    (compressed : handle.compressionMethod ≠ .unknown5)
    (bad : ∀ data, blockState codecs handle (offset / blockSize) ≠ .good data) :
    CompressedDataHandle.available codecs handle 1 = none := by
  have place : startPlace handle = (offset / blockSize, offset % blockSize) := by
    unfold startPlace
    rw [at_offset, Nat.mod_eq_of_lt near]
  have missing : Program.gather (blockPiece codecs handle) 1 (startPlace handle) = none := by
    rw [place]
    apply gather_none
    apply blockPiece_of_bad
    intro _ data good
    exact bad data good
  unfold CompressedDataHandle.available plainData
  rw [if_neg (Nat.not_le_of_lt (at_offset ▸ before)), if_neg compressed, missing, Option.filter_none]

theorem plainRead_available {count : Nat} {offsets : List Nat} {size : Nat} (small : size ≤ ssizeMax)
    (table : blockTable handle.compressedDataStream handle.compressionMethod = .ok (count, offsets)) :
    plainRead codecs handle 0 size = available codecs (withTable count offsets handle) size := by
  unfold plainRead
  rw [if_neg (by omega), table]

/-- An operation inside the data: a read there, or any seek. -/
def InRange (handle : CompressedDataHandle) : Operation → Prop
  | .read segmentIndex size =>
      segmentIndex = 0 ∧ handle.currentSegmentOffset + size ≤ handle.uncompressedDataSize
  | .seek _ _ => True

instance (handle : CompressedDataHandle) : ∀ operation, Decidable (InRange handle operation)
  | .read _ _ => inferInstanceAs (Decidable (_ ∧ _))
  | .seek _ _ => inferInstanceAs (Decidable True)

/-- After any operations inside the data, a read there returns its range of the contents. -/
def ReadsContents (codecs : Codecs) (first : CompressedDataHandle) (contents : List UInt8) : Prop :=
  ∀ operations, Along (perform codecs) InRange first operations → ∀ handle,
    handle = run (perform codecs) first operations → ∀ size,
    handle.currentSegmentOffset + size ≤ first.uncompressedDataSize →
    (readSegmentData codecs 0 size handle).1 =
      .ok ((contents.drop handle.currentSegmentOffset).take size)

section reads

variable {count : Nat} {offsets : List Nat}
  (whole : Blocks codecs (withTable count offsets first) blocks)
  (table : blockTable first.compressedDataStream first.compressionMethod = .ok (count, offsets))
include whole table

theorem plainRead_contents (fits : SizeFits first.uncompressedDataSize) (same : SameSource first handle)
    {size : Nat} (inside : handle.currentSegmentOffset + size ≤ first.uncompressedDataSize) :
    plainRead codecs handle 0 size =
      some ((blocks.flatten.drop handle.currentSegmentOffset).take size) := by
  have few : FewBlocks (withTable count offsets first) := blockTable_count table
  have small := whole.size_small few
  have whole' := whole.of_same same
  rw [plainRead_available (by change first.uncompressedDataSize ≤ _ at small; unfold ssizeMax; omega)
    (by rw [same.stream, same.method]; exact table)]
  exact whole'.available few (by change SizeFits handle.uncompressedDataSize; rwa [same.size])
    (by change _ ≤ handle.uncompressedDataSize; rwa [same.size])

theorem perform_inRange (fits : SizeFits first.uncompressedDataSize) {operation : Operation}
    (kept : SameSource first handle ∧ Kept codecs handle) (inside : InRange handle operation) :
    SameSource first (perform codecs handle operation) ∧ Kept codecs (perform codecs handle operation) := by
  cases operation with
  | read segmentIndex size =>
      obtain ⟨rfl, inside⟩ := inside
      rw [kept.1.size] at inside
      have plain := plainRead_contents whole table fits kept.1 inside
      have ends := readSegmentData_ends kept.2 0 size
      unfold Call.Ends at ends
      split at ends
      next data after eq =>
        have after' : perform codecs handle (.read 0 size) = after := congrArg Prod.snd eq
        rw [after']
        exact ⟨kept.1.trans ends.2.1.toSameSource, ends.2.2⟩
      next failure after eq => cases plain.symm.trans ends.1
  | seek segmentIndex segmentOffset =>
      have after := seekSegmentOffset_kept kept.2 segmentIndex segmentOffset
      exact ⟨kept.1.trans after.1, after.2⟩

end reads

theorem create_ok {stream : DataStream} {size : Nat} {compressionMethod : CompressionMethod}
    (created : create stream size compressionMethod = .ok first) :
    compressionMethod ≠ .none ∧ first.compressedDataStream = stream ∧
      first.compressionMethod = compressionMethod ∧ first.uncompressedDataSize = size ∧
      first.currentSegmentOffset = 0 := by
  unfold create at created
  split_ifs at created with none
  · cases created
  · cases created
    exact ⟨none, rfl, rfl, rfl, rfl⟩

theorem located_of_blockTable {count : Nat} {offsets : List Nat}
    (unset : first.compressedBlockOffsets = none)
    (table : blockTable first.compressedDataStream first.compressionMethod = .ok (count, offsets)) :
    getCompressedBlockOffsets first = (.ok (), withTable count offsets first) := by
  have ends := getCompressedBlockOffsets_ends unset
  rw [table] at ends
  unfold Call.Ends at ends
  split at ends
  next after eq =>
    obtain ⟨_, _, same, rfl⟩ := ends
    cases same
    exact eq
  next failure after eq => cases ends.1.choose_spec

theorem last_byte_rejected {count : Nat} {offsets : List Nat} (start : Kept codecs first)
    (table : blockTable first.compressedDataStream first.compressionMethod = .ok (count, offsets))
    (positive : 0 < first.uncompressedDataSize)
    (near : (first.uncompressedDataSize - 1) / blockSize < 2 ^ 32)
    (compressed : first.compressionMethod ≠ .unknown5)
    (bad : ∀ data, blockState codecs (withTable count offsets first)
      ((first.uncompressedDataSize - 1) / blockSize) ≠ .good data) :
    ∀ data, (readSegmentData codecs 0 1
      (run (perform codecs) first [.seek 0 (first.uncompressedDataSize - 1 : Nat)])).1 ≠ .ok data := by
  intro data ok
  have sought : (seekSegmentOffset 0 (first.uncompressedDataSize - 1 : Nat) first).2 =
      setCurrentSegmentOffset (first.uncompressedDataSize - 1) first := by
    unfold seekSegmentOffset
    rw [if_neg (by decide), if_neg (by omega)]
    rfl
  change (readSegmentData codecs 0 1 (seekSegmentOffset 0 (first.uncompressedDataSize - 1 : Nat) first).2).1 = _ at ok
  rw [sought] at ok
  have plain := (readSegmentData_ok (start.setOffset _)).mp ok
  have found : plainRead codecs (setCurrentSegmentOffset (first.uncompressedDataSize - 1) first) 0 1 = _ :=
    plainRead_available (by decide) table
  rw [found] at plain
  have missing : available codecs (withTable count offsets
      (setCurrentSegmentOffset (first.uncompressedDataSize - 1) first)) 1 = none :=
    available_none rfl (Nat.sub_lt positive Nat.one_pos) near compressed bad
  cases missing.symm.trans plain

theorem reads_located_iff {count : Nat} {offsets : List Nat} (start : Kept codecs first)
    (table : blockTable first.compressedDataStream first.compressionMethod = .ok (count, offsets))
    (whole : Blocks codecs (withTable count offsets first) blocks) :
    ReadsContents codecs first blocks.flatten ↔ SizeFits first.uncompressedDataSize := by
  constructor
  · intro reads
    by_contra misfits
    have positive : 0 < first.uncompressedDataSize := by
      unfold SizeFits at misfits
      omega
    have few : FewBlocks (withTable count offsets first) := blockTable_count table
    have short := whole.length_few few
    have block : (first.uncompressedDataSize - 1) / blockSize < blocks.length :=
      whole.block_lt (Nat.sub_lt positive Nat.one_pos)
    have bad : ∀ data, blockState codecs (withTable count offsets first)
        ((first.uncompressedDataSize - 1) / blockSize) ≠ .good data := by
      intro data good
      cases (whole.spoiled misfits).symm.trans good
    apply last_byte_rejected start table positive (by omega) (whole.compressed positive) bad
    apply reads [.seek 0 (first.uncompressedDataSize - 1 : Nat)] ⟨trivial, trivial⟩ _ rfl
    change first.uncompressedDataSize - 1 + 1 ≤ _
    omega
  · intro fits operations along handle reached readSize inside
    have kept : SameSource first handle ∧ Kept codecs handle := by
      rw [reached]
      exact run_invariant (fun handle => SameSource first handle ∧ Kept codecs handle)
        (fun _ _ => perform_inRange whole table fits) ⟨⟨rfl, rfl, rfl⟩, start⟩ along
    exact (readSegmentData_ok kept.2).mpr (plainRead_contents whole table fits kept.1 inside)

end Fsapfs.CompressedDataHandle
