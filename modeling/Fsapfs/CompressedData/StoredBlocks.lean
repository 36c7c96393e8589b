import Fsapfs.CompressedData.BlockOffsets

namespace Fsapfs.CompressedDataHandle
open Program

section stored

variable (content : Nat → UInt8) (compressionMethod : CompressionMethod) (streamSize : Nat)

/-- Where a block ends: at the start of the next one, or at the end of the stream. -/
def blockEnd (index : Nat) : Nat :=
  if index + 1 < blockCount content compressionMethod then blockStart content compressionMethod (index + 1)
  else streamSize

def storedBlock (index : Nat) : List UInt8 :=
  contents content (blockStart content compressionMethod index)
    (blockEnd content compressionMethod streamSize index - blockStart content compressionMethod index)

/-- The stored blocks that data of a size need, decompressed. -/
structure StoredBlocks (codecs : Codecs) (size : Nat) (blocks : List (List UInt8)) : Prop
    extends Divides blocks size where
  present : blocks.length ≤ blockCount content compressionMethod
  inside : ∀ k < blocks.length, blockStart content compressionMethod k ≤ blockEnd content compressionMethod streamSize k ∧
    blockEnd content compressionMethod streamSize k ≤ streamSize
  decompressed : ∀ k (h : k < blocks.length),
    uncompressed codecs compressionMethod (storedBlock content compressionMethod streamSize k) blockSize = some blocks[k]

end stored

variable {content : Nat → UInt8} {compressionMethod : CompressionMethod} {streamSize size : Nat} {codecs : Codecs}
  {blocks : List (List UInt8)} {first : CompressedDataHandle}

theorem blockStart_lt (index : Nat) : blockStart content compressionMethod index < 2 ^ 32 := by
  unfold blockStart storedOffset
  split_ifs
  · decide
  · exact Nat.mod_lt _ (by decide)
  · exact Nat.mod_lt _ (by decide)

theorem HasTable.some (table : HasTable content compressionMethod streamSize) :
    0 < blockCount content compressionMethod := by
  unfold HasTable at table
  unfold blockCount
  split_ifs at table ⊢
  · exact Nat.one_pos
  · exact table.2.1.some

theorem HasTable.chain (table : HasTable content compressionMethod streamSize) :
    ((List.range (blockCount content compressionMethod)).map (blockStart content compressionMethod) ++
      [streamSize]).IsChain Near := by
  unfold HasTable at table
  unfold blockCount blockStart
  split_ifs at table ⊢
  · exact List.IsChain.cons_cons ⟨table.1, by unfold blockSize at *; omega⟩ (List.isChain_singleton streamSize)
  · exact table.2.1.near

theorem load_table {count last k : Nat} {offset : Nat → Nat} (within : k ≤ count) :
    (load ((List.range count).map offset ++ [last]) k : Result Nat) = .ok (if k < count then offset k else last) := by
  apply load_of_getElem?
  split_ifs with before
  · rw [List.getElem?_append_left (by simpa using before), List.getElem?_map, List.getElem?_range before]
    rfl
  · obtain rfl : k = count := by omega
    rw [List.getElem?_append_right (by simp), List.length_map, List.length_range, Nat.sub_self]
    rfl

theorem HasTable.near (table : HasTable content compressionMethod streamSize) {k : Nat}
    (within : k < blockCount content compressionMethod) :
    Near (blockStart content compressionMethod k) (blockEnd content compressionMethod streamSize k) := by
  have length : k + 1 < ((List.range (blockCount content compressionMethod)).map
      (blockStart content compressionMethod) ++ [streamSize]).length := by
    simpa using within
  have near := table.chain.getElem k length
  have this := load_ok_iff.mp (@load_table _ streamSize _ (blockStart content compressionMethod) within.le)
  have next := load_ok_iff.mp
    (@load_table _ streamSize _ (blockStart content compressionMethod) (Nat.succ_le_of_lt within))
  rw [List.getElem?_eq_getElem (Nat.lt_of_succ_lt length), if_pos within] at this
  rw [List.getElem?_eq_getElem length] at next
  rw [Option.some.inj this, Option.some.inj next] at near
  exact near

section table

variable (table : HasTable content compressionMethod streamSize)
include table

theorem readCompressedBlock_stored {k : Nat} (within : k < blockCount content compressionMethod)
    (inside : blockEnd content compressionMethod streamSize k ≤ streamSize)
    (kept : k + 1 < blockCount content compressionMethod ∨ streamSize < 2 ^ 32) :
    readCompressedBlock (.ofContent content streamSize)
        ((List.range (blockCount content compressionMethod)).map (blockStart content compressionMethod) ++
          [streamSize % 2 ^ 32]) k = .ok (storedBlock content compressionMethod streamSize k) := by
  have near := table.near within
  have start : blockStart content compressionMethod k < 2 ^ 32 := blockStart_lt k
  have last : (if k + 1 < blockCount content compressionMethod then blockStart content compressionMethod (k + 1)
      else streamSize % 2 ^ 32) = blockEnd content compressionMethod streamSize k := by
    unfold blockEnd
    split_ifs with further
    · rfl
    · exact Nat.mod_eq_of_lt (kept.resolve_left further)
  unfold Near blockSize at near
  have difference : (blockEnd content compressionMethod streamSize k + 2 ^ 64 -
      blockStart content compressionMethod k) % 2 ^ 64 =
        blockEnd content compressionMethod streamSize k - blockStart content compressionMethod k := by
    omega
  unfold readCompressedBlock storedBlock
  rw [load_table within.le, if_pos within, ok_bind, load_table (Nat.succ_le_of_lt within), last, ok_bind, difference]
  exact DataStream.readExactly_ofContent content (by unfold ssizeMax; omega) (by omega)

/-- Where the end of the stream is cut off in 32 bits it is kept as one before the start of the last block. -/
theorem readCompressedBlock_cut (large : 2 ^ 32 ≤ streamSize) {k : Nat}
    (last : k + 1 = blockCount content compressionMethod) (data : List UInt8) :
    readCompressedBlock (.ofContent content streamSize)
        ((List.range (blockCount content compressionMethod)).map (blockStart content compressionMethod) ++
          [streamSize % 2 ^ 32]) k ≠ .ok data := by
  have within : k < blockCount content compressionMethod := by omega
  have near := table.near within
  have start : blockStart content compressionMethod k < 2 ^ 32 := blockStart_lt k
  have ends : blockEnd content compressionMethod streamSize k = streamSize := if_neg (by omega)
  unfold readCompressedBlock
  rw [load_table within.le, if_pos within, ok_bind, load_table (Nat.succ_le_of_lt within), if_neg (by omega), ok_bind]
  intro read
  have readable := (DataStream.readExactly_ofContent_iff.mp read).1
  rw [ends] at near
  unfold Near blockSize at near
  unfold ssizeMax at readable
  omega

end table

theorem StoredBlocks.found (stored : StoredBlocks content compressionMethod streamSize codecs size blocks)
    (table : HasTable content compressionMethod streamSize)
    (kept : blocks.length < blockCount content compressionMethod ∨ streamSize < 2 ^ 32)
    (created : create (.ofContent content streamSize) size compressionMethod = .ok first) :
    Blocks codecs (withTable (blockCount content compressionMethod)
      ((List.range (blockCount content compressionMethod)).map (blockStart content compressionMethod) ++
        [streamSize % 2 ^ 32]) first) blocks := by
  obtain ⟨_, stream, method, sized, _⟩ := create_ok created
  refine ⟨⟨stored.full, stored.short, stored.whole.trans sized.symm⟩, stored.present, fun k within => ?_⟩
  have below := stored.present
  have read := readCompressedBlock_stored table (Nat.lt_of_lt_of_le within below) (stored.inside k within).2
    (kept.imp_left fun fewer => by omega)
  rw [← stream] at read
  rw [blockContents_of_read read, method]
  exact stored.decompressed k within

theorem StoredBlocks.compressed (stored : StoredBlocks content compressionMethod streamSize codecs size blocks)
    (some : 0 < blocks.length) : compressionMethod ≠ .unknown5 := by
  have contents := stored.decompressed 0 some
  rintro rfl
  cases contents

theorem blockTable_found {count : Nat} {offsets : List Nat}
    (created : create (.ofContent content streamSize) size compressionMethod = .ok first) :
    blockTable first.compressedDataStream first.compressionMethod = .ok (count, offsets) ↔
      HasTable content compressionMethod streamSize ∧ count = blockCount content compressionMethod ∧
        offsets = (List.range count).map (blockStart content compressionMethod) ++ [streamSize % 2 ^ 32] := by
  obtain ⟨method, stream, same, _⟩ := create_ok created
  rw [stream, same]
  exact blockTable_ok_iff method

theorem ReadsContents.hasTable {data : List UInt8}
    (created : create (.ofContent content streamSize) size compressionMethod = .ok first)
    (reads : ReadsContents codecs first data) : HasTable content compressionMethod streamSize := by
  obtain ⟨_, _, _, _, fresh⟩ := create_ok created
  have start : Kept codecs first := create_kept created
  have nothing := (readSegmentData_ok start).mp (reads [] trivial first rfl 0 (by omega))
  unfold plainRead at nothing
  rw [if_neg (by omega)] at nothing
  split at nothing
  next => cases nothing
  next count offsets found => exact ((blockTable_found created).mp found).1

theorem StoredBlocks.kept (stored : StoredBlocks content compressionMethod streamSize codecs size blocks)
    (created : create (.ofContent content streamSize) size compressionMethod = .ok first)
    (reads : ReadsContents codecs first blocks.flatten) :
    blocks.length < blockCount content compressionMethod ∨ streamSize < 2 ^ 32 := by
  obtain ⟨_, stream, same, sized, _⟩ := create_ok created
  have start : Kept codecs first := create_kept created
  have table := reads.hasTable created
  have found := (blockTable_found created).mpr ⟨table, rfl, rfl⟩
  by_contra cut
  rw [not_or, Nat.not_lt, Nat.not_lt] at cut
  have some := table.some
  have present := stored.present
  obtain ⟨positive, last⟩ := stored.last_block (List.length_pos_iff.mp (Nat.lt_of_lt_of_le some cut.1))
  have few := blockTable_count found
  unfold memoryMaximumAllocationSize at few
  have bad : ∀ data, blockState codecs (withTable (blockCount content compressionMethod)
      ((List.range (blockCount content compressionMethod)).map (blockStart content compressionMethod) ++
        [streamSize % 2 ^ 32]) first) ((first.uncompressedDataSize - 1) / blockSize) ≠ .good data := by
    intro data good
    have block := blockContents_of_good good
    unfold blockContents at block
    split at block
    next compressedData read =>
      change readCompressedBlock first.compressedDataStream _ _ = _ at read
      rw [stream, sized] at read
      exact readCompressedBlock_cut table cut.2 (by omega) compressedData read
    next => cases block
  apply last_byte_rejected start found (by omega) (by rw [sized]; omega)
    (by rw [same]; exact stored.compressed (by omega)) bad
  apply reads [.seek 0 (first.uncompressedDataSize - 1 : Nat)] ⟨trivial, trivial⟩ _ rfl
  change first.uncompressedDataSize - 1 + 1 ≤ _
  omega

/-- The reads of a compressed file return its contents exactly where its table is found, the end of the last block
that is needed is not cut off in 32 bits there, nor that of the data, unless the last block is full. -/
theorem reads_contents_iff (created : create (.ofContent content streamSize) size compressionMethod = .ok first)
    (stored : StoredBlocks content compressionMethod streamSize codecs size blocks) :
    ReadsContents codecs first blocks.flatten ↔
      HasTable content compressionMethod streamSize ∧
        (blocks.length < blockCount content compressionMethod ∨ streamSize < 2 ^ 32) ∧
        (size % blockSize = 0 ∨ size ≤ 2 ^ 32 - blockSize) := by
  have start : Kept codecs first := create_kept created
  have sized := (create_ok created).2.2.2.1
  constructor
  · intro reads
    have table := reads.hasTable created
    have kept := stored.kept created reads
    have found := (blockTable_found created).mpr ⟨table, rfl, rfl⟩
    have fits := (reads_located_iff start found (stored.found table kept created)).mp reads
    rw [sized] at fits
    exact ⟨table, kept, fits⟩
  · rintro ⟨table, kept, fits⟩
    have found := (blockTable_found created).mpr ⟨table, rfl, rfl⟩
    exact (reads_located_iff start found (stored.found table kept created)).mpr (by rw [sized]; exact fits)

def threeOffset (k : Nat) : Nat := if k ≤ 2 then 16 + 65537 * k else 131096

def threeByte (i : Nat) : UInt8 :=
  if i < 16 then UInt8.ofNat (threeOffset (i / 4) / 256 ^ (i % 4))
  else if (i - 16) % 65537 = 0 then 0x06
  else UInt8.ofNat ((i - 16) / 65537 * 65536 + (i - 16) % 65537 - 1)

def threeHandle : CompressedDataHandle where
  currentSegmentOffset := 0
  compressedDataStream := .ofContent threeByte 131096
  uncompressedDataSize := 131077
  compressionMethod := .lzvn
  currentCompressedBlockIndex := 2 ^ 32 - 1
  segmentData := []
  segmentDataSize := 0
  numberOfCompressedBlocks := 0
  compressedBlockOffsets := none

def threeLength (k : Nat) : Nat := if k < 2 then 65536 else 5

def threeBlocks : List (List UInt8) :=
  (List.range 3).map fun k => contents UInt8.ofNat (65536 * k) (threeLength k)

theorem threeStream_table : OffsetTable threeByte 131096 4 threeOffset where
  several := by decide
  few := by decide
  first := by decide
  stored := by
    intro k h
    constructor
    · unfold threeOffset
      split <;> omega
    · intro j small
      unfold threeByte
      rw [if_pos (by omega), Nat.mul_add_div (by decide), Nat.mul_add_mod, Nat.div_eq_of_lt small,
        Nat.mod_eq_of_lt small, Nat.add_zero]
  grows := by
    intro k _
    unfold threeOffset blockSize
    split_ifs <;> omega
  inside := by decide
  last := by decide

theorem threeBlocks_get {k : Nat} (within : k < threeBlocks.length) :
    threeBlocks[k] = contents UInt8.ofNat (65536 * k) (threeLength k) := by
  simp [threeBlocks]

theorem threeBlocks_flatten : threeBlocks.flatten = contents UInt8.ofNat 0 131077 := by
  rw [show (131077 : Nat) = 65536 + (65536 + 5) from rfl, contents_add, contents_add]
  have range : List.range 3 = [0, 1, 2] := rfl
  simp only [threeBlocks, threeLength, range, List.map_cons, List.map_nil, List.flatten_cons, List.flatten_nil,
    List.append_nil]
  rfl

theorem threeBlock_bytes {k length : Nat} (few : k < 3) (short : length ≤ 65536) :
    contents threeByte (threeOffset k) (1 + length) = 0x06 :: contents UInt8.ofNat (65536 * k) length := by
  have start : threeOffset k = 16 + 65537 * k := if_pos (by omega)
  have marker : threeByte (16 + 65537 * k) = 0x06 := by
    unfold threeByte
    rw [if_neg (by omega), if_pos (by omega)]
  have single : contents threeByte (16 + 65537 * k) 1 = [0x06] := by
    rw [← marker]
    rfl
  rw [start, contents_add, single]
  refine congrArg (0x06 :: ·) (contents_congr fun i small => ?_)
  unfold threeByte
  rw [if_neg (by omega), if_neg (by omega)]
  congr 1
  omega

theorem threeBlock_stored {k : Nat} (few : k < 3) :
    uncompressed storedOnly .lzvn (storedBlock threeByte .lzvn 131096 k) blockSize =
      some (contents UInt8.ofNat (65536 * k) (threeLength k)) := by
  have table := threeStream_table
  have short : threeLength k ≤ 65536 := by
    unfold threeLength
    split <;> omega
  have ends : threeOffset (k + 1) = threeOffset k + (1 + threeLength k) := by
    unfold threeOffset threeLength
    split_ifs <;> omega
  unfold storedBlock blockEnd
  rw [table.blockCount, if_pos (by omega), table.blockStart (by omega), table.blockStart (by omega), ends,
    Nat.add_sub_cancel_left, threeBlock_bytes few short]
  change storedData _ _ = _
  unfold storedData
  rw [if_pos]
  · rfl
  · simp only [List.length_cons, contents_length]
    unfold ssizeMax blockSize
    omega

theorem threeBlocks_stored : StoredBlocks threeByte .lzvn 131096 storedOnly 131077 threeBlocks where
  full := by
    intro k within further
    have few : k + 1 < 3 := further
    rw [threeBlocks_get within, contents_length]
    exact if_pos (by omega)
  short := by
    intro k within
    rw [threeBlocks_get within, contents_length]
    unfold threeLength blockSize
    split <;> omega
  whole := by rw [threeBlocks_flatten, contents_length]
  present := by
    rw [threeStream_table.blockCount]
    decide
  inside := by
    intro k within
    have few : k < 3 := within
    have table := threeStream_table
    unfold blockEnd
    rw [table.blockCount, if_pos (by omega), table.blockStart (by omega), table.blockStart (by omega)]
    unfold threeOffset
    split_ifs <;> omega
  decompressed := by
    intro k within
    rw [threeBlocks_get within]
    exact threeBlock_stored within

theorem reads_contents_iff_sample :
    ReadsContents storedOnly threeHandle threeBlocks.flatten ∧
      (readSegmentData storedOnly 0 12 (run (perform storedOnly) threeHandle [.seek 0 65530])).1 =
        .ok [250, 251, 252, 253, 254, 255, 0, 1, 2, 3, 4, 5] := by
  have created : create (.ofContent threeByte 131096) 131077 .lzvn = .ok threeHandle := rfl
  have reads := (reads_contents_iff created threeBlocks_stored).mpr
    ⟨threeStream_table.hasTable, Or.inr (by decide), by decide⟩
  refine ⟨reads, ?_⟩
  rw [reads [.seek 0 65530] ⟨trivial, trivial⟩ _ rfl 12 (by decide), threeBlocks_flatten]
  change Except.ok ((List.drop 65530 (contents UInt8.ofNat 0 (65530 + (12 + 65535)))).take 12) = _
  rw [drop_contents, take_contents _ _ (by decide)]
  decide +kernel

def zeroBlock : List UInt8 :=
  [0x40, 0x01, 0x00] ++ (List.replicate 241 [0xf0, 0xff]).flatten ++
    [0xf0, 0xcd, 0x06, 0, 0, 0, 0, 0, 0, 0]

def zeroBlockCodec : Codec where
  decompress compressedData size :=
    if compressedData = zeroBlock ∧ blockSize ≤ size then some (List.replicate blockSize 0) else none
  leaves _ buffer size := (buffer, size)
  fits := by
    intro compressedData size data h
    split_ifs at h with zeros
    cases h
    rw [List.length_replicate]
    exact zeros.2

def zeroBlockCodecs : Codecs := ⟨unavailable, unavailable, zeroBlockCodec, unavailable⟩

def largeOffset (k : Nat) : Nat :=
  if k ≤ 65535 then 262148 + 495 * k else 262148 + 495 * 65535 + 2

def largeByte (i : Nat) : UInt8 :=
  if i < 262148 then UInt8.ofNat (largeOffset (i / 4) / 256 ^ (i % 4))
  else if i < 262148 + 495 * 65535 then zeroBlock.getD ((i - 262148) % 495) 0
  else if i = 262148 + 495 * 65535 then 0x06
  else 0x42

def largeStream : DataStream := .ofContent largeByte (largeOffset 65536)

def largeHandle : CompressedDataHandle where
  currentSegmentOffset := 0
  compressedDataStream := largeStream
  uncompressedDataSize := 2 ^ 32 - blockSize + 1
  compressionMethod := .lzvn
  currentCompressedBlockIndex := 2 ^ 32 - 1
  segmentData := []
  segmentDataSize := 0
  numberOfCompressedBlocks := 0
  compressedBlockOffsets := none

def largeBlocks : List (List UInt8) :=
  List.replicate 65535 (List.replicate blockSize 0) ++ [[0x42]]

theorem largeStream_table : OffsetTable largeByte (largeOffset 65536) 65537 largeOffset where
  several := by decide
  few := by decide
  first := by decide
  stored := by
    intro k h
    constructor
    · unfold largeOffset
      split <;> omega
    · intro j small
      unfold largeByte
      rw [if_pos (by omega), Nat.mul_add_div (by decide), Nat.mul_add_mod, Nat.div_eq_of_lt small,
        Nat.mod_eq_of_lt small, Nat.add_zero]
  grows := by
    intro k _
    unfold largeOffset blockSize
    split_ifs <;> omega
  inside := by decide
  last := by decide

theorem largeBlock_bytes {k : Nat} (h : k < 65535) :
    contents largeByte (largeOffset k) (largeOffset (k + 1) - largeOffset k) = zeroBlock := by
  have length : zeroBlock.length = 495 := by decide +kernel
  have start : largeOffset k = 262148 + 495 * k := if_pos h.le
  have next : largeOffset (k + 1) = 262148 + 495 * (k + 1) := if_pos h
  rw [start, next, show 262148 + 495 * (k + 1) - (262148 + 495 * k) = 495 by omega]
  apply List.ext_getElem
  · rw [contents_length, length]
  · intro i small within
    rw [contents_length] at small
    have place : (262148 + 495 * k + i - 262148) % 495 = i := by omega
    simp only [contents, List.getElem_map, List.getElem_range]
    unfold largeByte
    rw [if_neg (by omega), if_pos (by omega), place, List.getD_eq_getElem _ _ within]

theorem largeBlocks_length : largeBlocks.length = 65536 := by
  unfold largeBlocks
  rw [List.length_append, List.length_replicate, List.length_singleton]

theorem replicate_concat_get {α : Type} (n : Nat) (a b : α) {k : Nat}
    (h : k < (List.replicate n a ++ [b]).length) :
    k < n ∧ (List.replicate n a ++ [b])[k] = a ∨ k = n ∧ (List.replicate n a ++ [b])[k] = b := by
  have length : (List.replicate n a).length = n := List.length_replicate
  rw [List.length_append, length, List.length_singleton] at h
  by_cases before : k < n
  · refine Or.inl ⟨before, ?_⟩
    rw [List.getElem_append_left (by rwa [length]), List.getElem_replicate]
  · refine Or.inr ⟨by omega, ?_⟩
    rw [List.getElem_append_right (by rw [length]; omega), List.getElem_singleton]

theorem largeBlocks_get {k : Nat} (h : k < largeBlocks.length) :
    k < 65535 ∧ largeBlocks[k] = List.replicate blockSize 0 ∨ k = 65535 ∧ largeBlocks[k] = [0x42] :=
  replicate_concat_get 65535 _ _ h

theorem largeBlock_end {k : Nat} (within : k < 65536) :
    blockStart largeByte .lzvn k = largeOffset k ∧
      blockEnd largeByte .lzvn (largeOffset 65536) k = largeOffset (k + 1) := by
  have table := largeStream_table
  unfold blockEnd
  rw [table.blockCount, if_pos (by omega), table.blockStart (by omega), table.blockStart (by omega)]
  exact ⟨rfl, rfl⟩

theorem largeBlock_zeros {k : Nat} (h : k < 65535) :
    uncompressed zeroBlockCodecs .lzvn (storedBlock largeByte .lzvn (largeOffset 65536) k) blockSize =
      some (List.replicate blockSize 0) := by
  obtain ⟨start, ends⟩ := largeBlock_end (Nat.lt_succ_of_lt h)
  have unmarked : zeroBlock.head? ≠ some 0x06 := by decide
  unfold storedBlock
  rw [start, ends, largeBlock_bytes h]
  change markedData 0x06 zeroBlockCodec zeroBlock blockSize = _
  unfold markedData
  rw [if_neg unmarked]
  simp [zeroBlockCodec]

theorem largeBlock_last :
    uncompressed zeroBlockCodecs .lzvn (storedBlock largeByte .lzvn (largeOffset 65536) 65535) blockSize =
      some [0x42] := by
  obtain ⟨start, ends⟩ := largeBlock_end (show 65535 < 65536 by decide)
  have bytes : contents largeByte (largeOffset 65535) (largeOffset (65535 + 1) - largeOffset 65535) =
      [0x06, 0x42] := by decide +kernel
  unfold storedBlock
  rw [start, ends, bytes]
  decide +kernel

theorem largeBlocks_stored :
    StoredBlocks largeByte .lzvn (largeOffset 65536) zeroBlockCodecs (2 ^ 32 - blockSize + 1) largeBlocks where
  present := by
    rw [largeBlocks_length, largeStream_table.blockCount]
    decide
  inside := by
    intro k within
    rw [largeBlocks_length] at within
    obtain ⟨start, ends⟩ := largeBlock_end within
    rw [start, ends]
    unfold largeOffset
    split_ifs <;> omega
  decompressed := by
    intro k within
    rcases largeBlocks_get within with ⟨zeros, eq⟩ | ⟨rfl, eq⟩
    · rw [eq]
      exact largeBlock_zeros zeros
    · rw [eq]
      exact largeBlock_last
  full := by
    intro k within further
    rw [largeBlocks_length] at further
    rcases largeBlocks_get within with ⟨zeros, eq⟩ | ⟨rfl, eq⟩
    · rw [eq, List.length_replicate]
    · omega
  short := by
    intro k within
    rcases largeBlocks_get within with ⟨zeros, eq⟩ | ⟨rfl, eq⟩
    · rw [eq, List.length_replicate]
      decide
    · rw [eq]
      decide
  whole := by
    unfold largeBlocks
    rw [List.flatten_append, List.length_append, List.length_flatten, List.map_replicate,
      List.length_replicate, List.sum_replicate_nat]
    rfl

/-- The last byte of a file of 4 GiB less 65535 bytes cannot be read. -/
theorem largeHandle_rejected :
    create largeStream (2 ^ 32 - blockSize + 1) .lzvn = .ok largeHandle ∧
      StoredBlocks largeByte .lzvn (largeOffset 65536) zeroBlockCodecs (2 ^ 32 - blockSize + 1) largeBlocks ∧
      (∀ data, (readSegmentData zeroBlockCodecs 0 1
        (run (perform zeroBlockCodecs) largeHandle [.seek 0 (2 ^ 32 - blockSize : Nat)])).1 ≠ .ok data) ∧
      ¬ReadsContents zeroBlockCodecs largeHandle largeBlocks.flatten := by
  have created : create largeStream (2 ^ 32 - blockSize + 1) .lzvn = .ok largeHandle := rfl
  have start : Kept zeroBlockCodecs largeHandle := create_kept created
  have table := largeStream_table.hasTable
  have found := (blockTable_found created).mpr ⟨table, rfl, rfl⟩
  have blocks := largeBlocks_stored.found table (Or.inr (by decide)) created
  have misfits : ¬SizeFits largeHandle.uncompressedDataSize := by decide
  refine ⟨created, largeBlocks_stored, ?_, fun reads => misfits ((reads_located_iff start found blocks).mp reads)⟩
  apply last_byte_rejected start found (by decide) (by decide) (by decide)
  intro data good
  cases (blocks.spoiled misfits).symm.trans good

end Fsapfs.CompressedDataHandle
