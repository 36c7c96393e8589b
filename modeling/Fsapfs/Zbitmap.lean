import Fsapfs.ByteStream
import Mathlib.Tactic.SplitIfs

namespace Fsapfs.Zbitmap
open Program

/-- A buffer for the uncompressed data, with no byte where none was written. -/
structure Output where
  buffer : List (Option UInt8)
  outputOffset : Nat
  deriving Repr, DecidableEq

namespace Output

def empty (capacity : Nat) : Output := ⟨List.replicate capacity none, 0⟩

def write (output : Output) (byte : UInt8) : Result Output := do
  let buffer ← store output.buffer output.outputOffset (some byte)
  return { buffer, outputOffset := output.outputOffset + 1 }

def lookBack (output : Output) (period : Nat) : Result UInt8 := do
  let byte ← load output.buffer (output.outputOffset - period)
  match byte with
  | some byte => .ok byte
  | none => .error .undefined

def writeBytes : List UInt8 → Output → Result Output
  | [], output => .ok output
  | byte :: bytes, output => do
      let output ← output.write byte
      writeBytes bytes output

end Output

def zbitmapMagic : Nat := 0x094d425a

def maxDecmpChunkSize : Nat := 0x8000

def bitmapBase : Nat := 3

def bitmapCount : Nat := 12

def bitmapBytecnt : Nat := 17

def maxPeriodBytecnt : Nat := 2

def readUint24LittleEndian (data : List UInt8) (offset : Nat) : Result Nat := loadLittleEndian 3 data offset

structure BitReader where
  address : Nat
  bitOffset : Nat
  deriving Repr, DecidableEq

structure Bitmap where
  bitmap : Nat
  periodBytecnt : Nat
  deriving Repr, DecidableEq

structure NibbleReader where
  address : Nat
  nibble : Nat
  deriving Repr, DecidableEq

section readers

variable (data : List UInt8) (limit : Nat)

def readBit (reader : BitReader) : Result (Nat × BitReader) := do
  if reader.address ≥ limit then fail .valueOutOfBounds
  else do
    let byte ← load data reader.address
    let value := (byte.toNat >>> reader.bitOffset) &&& 1
    let bitOffset := reader.bitOffset + 1
    return (value, if bitOffset ≥ 8 then ⟨reader.address + 1, 0⟩ else ⟨reader.address, bitOffset⟩)

def readBits : Nat → BitReader → Result (Nat × BitReader)
  | 0, reader => .ok (0, reader)
  | count + 1, reader => do
      let (bitValue, reader) ← readBit data limit reader
      let (value, reader) ← readBits count reader
      return (bitValue + 2 * value, reader)

def readBitmap (reader : BitReader) : Result (Bitmap × BitReader) := do
  let (bitmap, reader) ← readBits data limit 8 reader
  let (periodBytecnt, reader) ← readBits data limit 2 reader
  return ({ bitmap, periodBytecnt }, reader)

def readBitmaps : Nat → BitReader → Result (List Bitmap)
  | 0, _ => .ok []
  | count + 1, reader => do
      let (bitmap, reader) ← readBitmap data limit reader
      if bitmap.periodBytecnt > maxPeriodBytecnt then fail .valueOutOfBounds
      else do
        let bitmaps ← readBitmaps count reader
        return bitmap :: bitmaps

def readNibble (reader : NibbleReader) : Result (Nat × NibbleReader) := do
  if reader.address ≥ limit then fail .valueOutOfBounds
  else do
    let byte ← load data reader.address
    if reader.nibble = 0 then return (byte.toNat &&& 0x0f, ⟨reader.address, 1⟩)
    else return ((byte.toNat >>> 4) &&& 0x0f, ⟨reader.address + 1, 0⟩)

def rewindNibble (reader : NibbleReader) : NibbleReader :=
  if reader.nibble = 0 then ⟨reader.address - 1, 1⟩ else ⟨reader.address, 0⟩

/-- The repetition count goes on for as long as its nibbles are 15; it is a 16-bit sum. -/
def readRepeatCount : Nat → Nat → NibbleReader → Result (Nat × NibbleReader)
  | 0, _, _ => .error .unfinished
  | fuel + 1, total, reader => do
      let (nibbleValue, reader) ← readNibble data limit reader
      let total := (total + nibbleValue) % 2 ^ 16
      if total < nibbleValue then fail .valueOutOfBounds
      else if nibbleValue = 0x0f then readRepeatCount fuel total reader
      else return (total, reader)

/-- The bytes of a period, the first one the least significant. -/
def readPeriod : Nat → Nat → Result (Nat × Nat)
  | 0, meta1Pointer => .ok (0, meta1Pointer)
  | periodBytecnt + 1, meta1Pointer => do
      if meta1Pointer ≥ limit then fail .valueOutOfBounds
      else do
        let byte ← load data meta1Pointer
        let (period, meta1Pointer) ← readPeriod periodBytecnt (meta1Pointer + 1)
        return (byte.toNat + 256 * period, meta1Pointer)

end readers

structure Chunk where
  chunkEnd : Nat
  chunkDecompressedLength : Nat
  bitmaps : List Bitmap
  deriving Repr, DecidableEq

structure Expansion where
  dataPointer : Nat
  meta1Pointer : Nat
  meta2Pointer : Nat
  meta3Reader : NibbleReader
  period : Nat
  chunkWritten : Nat
  output : Output
  deriving Repr, DecidableEq

section chunks

variable (data : List UInt8) (chunk : Chunk)

/-- A byte of the chunk where the bit is set, else one from before. -/
def applyBit (bitmapValue bitIndex : Nat) (state : Expansion) : Result Expansion := do
  if bitmapValue.testBit bitIndex then
    if state.dataPointer ≥ chunk.chunkEnd then fail .valueOutOfBounds
    else do
      let byte ← load data state.dataPointer
      let output ← state.output.write byte
      return { state with
        dataPointer := state.dataPointer + 1
        chunkWritten := state.chunkWritten + 1
        output }
  else if state.output.outputOffset < state.period then fail .valueOutOfBounds
  else do
    let byte ← state.output.lookBack state.period
    let output ← state.output.write byte
    return { state with
      chunkWritten := state.chunkWritten + 1
      output }

def applyBits (bitmapValue : Nat) : Nat → Nat → Expansion → Result Expansion
  | 0, _, state => .ok state
  | remaining + 1, bitIndex, state =>
      if state.chunkWritten = chunk.chunkDecompressedLength then .ok state
      else do
        let state ← applyBit data chunk bitmapValue bitIndex state
        applyBits bitmapValue remaining (bitIndex + 1) state

/-- The bitmap of a number, and the state with its byte read where it is not one of those of the chunk. -/
def getBitmap (bitmapNumber : Nat) (state : Expansion) : Result (Bitmap × Expansion) := do
  if bitmapNumber = 0x0f then fail .valueOutOfBounds
  else if bitmapNumber ≤ maxPeriodBytecnt then
    if state.meta2Pointer ≥ chunk.chunkEnd then fail .valueOutOfBounds
    else do
      let byte ← load data state.meta2Pointer
      return (⟨byte.toNat, bitmapNumber⟩, { state with meta2Pointer := state.meta2Pointer + 1 })
  else if bitmapNumber < bitmapBase then fail .valueOutOfBounds
  else if bitmapNumber - bitmapBase ≥ bitmapCount then fail .valueOutOfBounds
  else do
    let bitmap ← load chunk.bitmaps (bitmapNumber - bitmapBase)
    return (bitmap, state)

/-- The period stays what it was where the bitmap has no bytes for it. -/
def updatePeriod (periodBytecnt : Nat) (state : Expansion) : Result Expansion := do
  if periodBytecnt ≠ 0 then do
    let (period, meta1Pointer) ← readPeriod data chunk.chunkEnd periodBytecnt state.meta1Pointer
    if period = 0 then fail .valueOutOfBounds
    else return { state with period, meta1Pointer }
  else return state

def applyBitmap (bitmapNumber : Nat) (state : Expansion) : Result Expansion := do
  let (bitmap, state) ← getBitmap data chunk bitmapNumber state
  let state ← updatePeriod data chunk bitmap.periodBytecnt state
  applyBits data chunk bitmap.bitmap 8 0 state

def applyRepeatedly (bitmapNumber : Nat) : Nat → Expansion → Result Expansion
  | 0, state => .ok state
  | repeatCount + 1, state => do
      let state ← applyBitmap data chunk bitmapNumber state
      applyRepeatedly bitmapNumber repeatCount state

/-- How often the next bitmap is applied: once, where at most 8 bytes of the chunk are left. -/
def getRepeatCount (state : Expansion) : Result (Nat × NibbleReader) := do
  if chunk.chunkDecompressedLength - state.chunkWritten > 8 then do
    let (nibbleValue, reader) ← readNibble data chunk.chunkEnd state.meta3Reader
    if nibbleValue ≠ 0x0f then return (1, rewindNibble reader)
    else readRepeatCount data chunk.chunkEnd (2 * chunk.chunkEnd + 1) 4 reader
  else return (1, state.meta3Reader)

def expandChunk : Nat → Expansion → Result Expansion
  | 0, _ => .error .unfinished
  | fuel + 1, state =>
      if state.chunkWritten < chunk.chunkDecompressedLength then do
        let (bitmapNumber, meta3Reader) ← readNibble data chunk.chunkEnd state.meta3Reader
        let (repeatCount, meta3Reader) ← getRepeatCount data chunk { state with meta3Reader }
        let state ← applyRepeatedly data chunk bitmapNumber repeatCount { state with meta3Reader }
        expandChunk fuel state
      else .ok state

end chunks

def decompressChunk (data : List UInt8) (currentOffset chunkLength chunkDecompressedLength : Nat) (output : Output) :
    Result Output := do
  if chunkLength < 15 then fail .valueOutOfBounds
  else do
    let metaOffset1 ← readUint24LittleEndian data (currentOffset + 6)
    let metaOffset2 ← readUint24LittleEndian data (currentOffset + 9)
    let metaOffset3 ← readUint24LittleEndian data (currentOffset + 12)
    if metaOffset1 ≥ chunkLength ∨ metaOffset2 ≥ chunkLength ∨ metaOffset3 ≥ chunkLength then fail .valueOutOfBounds
    else if chunkLength < bitmapBytecnt then fail .valueOutOfBounds
    else do
      let chunkEnd := currentOffset + chunkLength
      let bitmaps ← readBitmaps data chunkEnd bitmapCount ⟨chunkEnd - bitmapBytecnt, 0⟩
      let state ← expandChunk data { chunkEnd, chunkDecompressedLength, bitmaps } (2 * chunkEnd + 1) {
        dataPointer := currentOffset + 15
        meta1Pointer := currentOffset + metaOffset1
        meta2Pointer := currentOffset + metaOffset2
        meta3Reader := ⟨currentOffset + metaOffset3, 0⟩
        period := 8
        chunkWritten := 0
        output }
      return state.output

/-- The loop over the chunks, up to one of no decompressed length. -/
def decompressChunks (data : List UInt8) (capacity : Nat) : Nat → Nat → Output → Result Output
  | 0, _, _ => .error .unfinished
  | fuel + 1, currentOffset, output =>
      if currentOffset < data.length then
        if data.length - currentOffset < 6 then fail .valueOutOfBounds
        else do
          let chunkLength ← readUint24LittleEndian data currentOffset
          let chunkDecompressedLength ← readUint24LittleEndian data (currentOffset + 3)
          if chunkLength < 6 then fail .valueOutOfBounds
          else if chunkDecompressedLength > maxDecmpChunkSize then fail .valueOutOfBounds
          else if chunkLength > (data.length - currentOffset) % 2 ^ 32 then fail .valueOutOfBounds
          else if chunkDecompressedLength = 0 then .ok output
          else if chunkDecompressedLength > capacity - output.outputOffset then fail .valueOutOfBounds
          else if chunkLength = chunkDecompressedLength + 6 then do
            let bytes ← slice data (currentOffset + 6) chunkDecompressedLength
            let output ← output.writeBytes bytes
            decompressChunks data capacity fuel (currentOffset + chunkLength) output
          else do
            let output ← decompressChunk data currentOffset chunkLength chunkDecompressedLength output
            decompressChunks data capacity fuel (currentOffset + chunkLength) output
      else .ok output

def decompress (data : List UInt8) (capacity : Nat) : Result Output := do
  if data.length < 4 then fail .valueOutOfBounds
  else do
    let magic ← loadLittleEndian32 data 0
    let currentOffset := if magic = zbitmapMagic then 4 else 0
    decompressChunks data capacity (data.length + 1) currentOffset (Output.empty capacity)

section safety

variable {capacity : Nat}

/-- A buffer of a capacity with a byte at every position before the offset. -/
structure Output.Filled (capacity : Nat) (output : Output) : Prop where
  size : output.buffer.length = capacity
  within : output.outputOffset ≤ capacity
  written : ∀ i < output.outputOffset, ∃ byte, output.buffer[i]? = some (some byte)

theorem Output.empty_filled : (Output.empty capacity).Filled capacity where
  size := List.length_replicate
  within := Nat.zero_le capacity
  written _ less := absurd less (Nat.not_lt_zero _)

theorem Output.write_outcome {output : Output} (filled : output.Filled capacity)
    (room : output.outputOffset < capacity) (byte : UInt8) :
    Outcome (output.write byte)
      (fun next => next.Filled capacity ∧ next.outputOffset = output.outputOffset + 1) True := by
  unfold Output.write
  rw [store_of_lt (some byte) (by rw [filled.size]; exact room), ok_bind]
  refine ⟨⟨?_, room, fun i less => ?_⟩, rfl⟩
  · rw [List.length_set, filled.size]
  · by_cases last : i = output.outputOffset
    · refine ⟨byte, ?_⟩
      rw [last, List.getElem?_set_self (by rw [filled.size]; exact room)]
    · rw [List.getElem?_set_ne (Ne.symm last)]
      exact filled.written i (by dsimp only at less; omega)

theorem Output.lookBack_outcome {output : Output} {period : Nat} (filled : output.Filled capacity)
    (positive : 0 < period) (near : period ≤ output.outputOffset) :
    Outcome (output.lookBack period) (fun _ => True) True := by
  obtain ⟨byte, written⟩ := filled.written (output.outputOffset - period) (by omega)
  unfold Output.lookBack
  rw [load_of_getElem? written]
  trivial

theorem Output.writeBytes_outcome {bytes : List UInt8} {output : Output} (filled : output.Filled capacity)
    (room : output.outputOffset + bytes.length ≤ capacity) :
    Outcome (output.writeBytes bytes)
      (fun next => next.Filled capacity ∧ next.outputOffset = output.outputOffset + bytes.length) True := by
  induction bytes generalizing output with
  | nil => exact ⟨filled, rfl⟩
  | cons byte bytes ih =>
      rw [List.length_cons] at room
      refine (write_outcome filled (by omega) byte).bind fun next held => ?_
      refine (ih held.1 (by omega)).mono (fun last held' => ⟨held'.1, ?_⟩) id
      rw [held'.2, held.2, List.length_cons]
      omega

def NibbleReader.position (reader : NibbleReader) : Nat :=
  2 * reader.address + if reader.nibble = 0 then 0 else 1

section readers

variable {data : List UInt8} {limit : Nat} (inside : limit ≤ data.length)

include inside

theorem readBit_outcome (reader : BitReader) : Outcome (readBit data limit reader) (fun _ => True) True := by
  unfold readBit
  split_ifs
  · trivial
  · rw [load_of_lt (by omega)]
    trivial

theorem readBits_outcome (count : Nat) (reader : BitReader) :
    Outcome (readBits data limit count reader) (fun _ => True) True := by
  induction count generalizing reader with
  | zero => trivial
  | succ count ih =>
      apply (readBit_outcome inside reader).bind
      intro bit _
      apply (ih bit.2).bind
      intro _ _
      trivial

theorem readBitmap_outcome (reader : BitReader) : Outcome (readBitmap data limit reader) (fun _ => True) True := by
  apply (readBits_outcome inside 8 reader).bind
  intro bitmap _
  apply (readBits_outcome inside 2 bitmap.2).bind
  intro _ _
  trivial

theorem readBitmaps_outcome (count : Nat) (reader : BitReader) :
    Outcome (readBitmaps data limit count reader) (fun bitmaps => bitmaps.length = count) True := by
  induction count generalizing reader with
  | zero => rfl
  | succ count ih =>
      apply (readBitmap_outcome inside reader).bind
      intro bitmap _
      dsimp only
      split_ifs
      · trivial
      · apply (ih bitmap.2).bind
        intro bitmaps length
        exact congrArg Nat.succ length

theorem readNibble_outcome (reader : NibbleReader) : Outcome (readNibble data limit reader)
    (fun read => read.2.position = reader.position + 1 ∧ read.2.position ≤ 2 * limit) True := by
  unfold readNibble
  split_ifs with ended low
  · trivial
  · rw [load_of_lt (by omega)]
    unfold NibbleReader.position
    simp [low]
    omega
  · rw [load_of_lt (by omega)]
    unfold NibbleReader.position
    simp [low]
    omega

theorem readRepeatCount_outcome {fuel total : Nat} {reader : NibbleReader} (within : reader.position ≤ 2 * limit)
    (enough : 2 * limit < reader.position + fuel) : Outcome (readRepeatCount data limit fuel total reader)
      (fun read => reader.position ≤ read.2.position ∧ read.2.position ≤ 2 * limit) True := by
  induction fuel generalizing total reader with
  | zero => omega
  | succ fuel ih =>
      apply (readNibble_outcome inside reader).bind
      rintro ⟨nibbleValue, next⟩ ⟨moved, bounded⟩
      dsimp only at moved bounded ⊢
      split_ifs
      · trivial
      · exact (ih bounded (by omega)).mono (fun read held => ⟨by omega, held.2⟩) id
      · exact ⟨by dsimp only; omega, bounded⟩

theorem readPeriod_outcome (periodBytecnt meta1Pointer : Nat) :
    Outcome (readPeriod data limit periodBytecnt meta1Pointer) (fun _ => True) True := by
  induction periodBytecnt generalizing meta1Pointer with
  | zero => trivial
  | succ periodBytecnt ih =>
      unfold readPeriod
      split_ifs
      · trivial
      · rw [load_of_lt (by omega), ok_bind]
        apply (ih (meta1Pointer + 1)).bind
        intro _ _
        trivial

end readers

theorem rewindNibble_position {reader : NibbleReader} (read : 0 < reader.position) :
    (rewindNibble reader).position + 1 = reader.position := by
  unfold NibbleReader.position at read ⊢
  unfold rewindNibble
  by_cases low : reader.nibble = 0
  · rw [if_pos low] at read
    rw [if_pos low, if_pos low, if_neg Nat.one_ne_zero]
    dsimp only
    omega
  · rw [if_neg low, if_neg low, if_pos rfl]

section chunks

/-- The output is filled up to what is written of the chunk. -/
structure Expansion.Holds (capacity start : Nat) (chunk : Chunk) (state : Expansion) : Prop where
  filled : state.output.Filled capacity
  offset : state.output.outputOffset = start + state.chunkWritten
  written : state.chunkWritten ≤ chunk.chunkDecompressedLength
  period : 0 < state.period

variable {data : List UInt8} {chunk : Chunk} {start : Nat} (inside : chunk.chunkEnd ≤ data.length)
  (room : start + chunk.chunkDecompressedLength ≤ capacity)

include inside room

theorem applyBit_outcome {bitmapValue bitIndex : Nat} {state : Expansion} (holds : state.Holds capacity start chunk)
    (unwritten : state.chunkWritten < chunk.chunkDecompressedLength) :
    Outcome (applyBit data chunk bitmapValue bitIndex state)
      (fun next => next.Holds capacity start chunk ∧ next.meta3Reader = state.meta3Reader) True := by
  have offset := holds.offset
  have free : state.output.outputOffset < capacity := by omega
  unfold applyBit
  split_ifs with set ended near
  · trivial
  · rw [load_of_lt (by omega), ok_bind]
    apply (Output.write_outcome holds.filled free _).bind
    rintro output ⟨filled, moved⟩
    exact ⟨⟨filled, by dsimp only; omega, by dsimp only; omega, holds.period⟩, rfl⟩
  · trivial
  · apply (Output.lookBack_outcome holds.filled holds.period (by omega)).bind
    intro byte _
    apply (Output.write_outcome holds.filled free byte).bind
    rintro output ⟨filled, moved⟩
    exact ⟨⟨filled, by dsimp only; omega, by dsimp only; omega, holds.period⟩, rfl⟩

theorem applyBits_outcome {bitmapValue remaining bitIndex : Nat} {state : Expansion}
    (holds : state.Holds capacity start chunk) : Outcome (applyBits data chunk bitmapValue remaining bitIndex state)
      (fun next => next.Holds capacity start chunk ∧ next.meta3Reader = state.meta3Reader) True := by
  induction remaining generalizing bitIndex state with
  | zero => exact ⟨holds, rfl⟩
  | succ remaining ih =>
      unfold applyBits
      have written := holds.written
      split_ifs with complete
      · exact ⟨holds, rfl⟩
      · apply (applyBit_outcome inside room holds (by omega)).bind
        rintro next ⟨held, same⟩
        exact (ih held).mono (fun last held => ⟨held.1, held.2.trans same⟩) id

omit room in
theorem getBitmap_outcome (bitmaps : chunk.bitmaps.length = bitmapCount) {bitmapNumber : Nat} {state : Expansion}
    (holds : state.Holds capacity start chunk) : Outcome (getBitmap data chunk bitmapNumber state)
      (fun next => next.2.Holds capacity start chunk ∧ next.2.meta3Reader = state.meta3Reader) True := by
  unfold getBitmap
  split_ifs with last own ended below above
  · trivial
  · trivial
  · rw [load_of_lt (by omega), ok_bind]
    exact ⟨⟨holds.filled, holds.offset, holds.written, holds.period⟩, rfl⟩
  · trivial
  · trivial
  · rw [load_of_lt (by omega), ok_bind]
    exact ⟨holds, rfl⟩

omit room in
theorem updatePeriod_outcome {periodBytecnt : Nat} {state : Expansion} (holds : state.Holds capacity start chunk) :
    Outcome (updatePeriod data chunk periodBytecnt state)
      (fun next => next.Holds capacity start chunk ∧ next.meta3Reader = state.meta3Reader) True := by
  unfold updatePeriod
  split_ifs with some
  · apply (readPeriod_outcome inside periodBytecnt state.meta1Pointer).bind
    rintro ⟨period, meta1Pointer⟩ _
    dsimp only
    split_ifs with zero
    · trivial
    · exact ⟨⟨holds.filled, holds.offset, holds.written, Nat.pos_of_ne_zero zero⟩, rfl⟩
  · exact ⟨holds, rfl⟩

section bitmaps

variable (bitmaps : chunk.bitmaps.length = bitmapCount)

include bitmaps

theorem applyBitmap_outcome {bitmapNumber : Nat} {state : Expansion} (holds : state.Holds capacity start chunk) :
    Outcome (applyBitmap data chunk bitmapNumber state)
      (fun next => next.Holds capacity start chunk ∧ next.meta3Reader = state.meta3Reader) True := by
  apply (getBitmap_outcome inside bitmaps holds).bind
  rintro ⟨bitmap, found⟩ ⟨foundHolds, foundSame⟩
  apply (updatePeriod_outcome inside foundHolds).bind
  rintro updated ⟨updatedHolds, updatedSame⟩
  exact (applyBits_outcome inside room updatedHolds).mono
    (fun last held => ⟨held.1, held.2.trans (updatedSame.trans foundSame)⟩) id

theorem applyRepeatedly_outcome {bitmapNumber repeatCount : Nat} {state : Expansion}
    (holds : state.Holds capacity start chunk) : Outcome (applyRepeatedly data chunk bitmapNumber repeatCount state)
      (fun next => next.Holds capacity start chunk ∧ next.meta3Reader = state.meta3Reader) True := by
  induction repeatCount generalizing state with
  | zero => exact ⟨holds, rfl⟩
  | succ repeatCount ih =>
      apply (applyBitmap_outcome inside room bitmaps holds).bind
      rintro next ⟨held, same⟩
      exact (ih held).mono (fun last held => ⟨held.1, held.2.trans same⟩) id

omit room bitmaps in
theorem getRepeatCount_outcome (state : Expansion) (within : state.meta3Reader.position ≤ 2 * chunk.chunkEnd) :
    Outcome (getRepeatCount data chunk state) (fun read => state.meta3Reader.position ≤ read.2.position ∧
      read.2.position ≤ 2 * chunk.chunkEnd) True := by
  unfold getRepeatCount
  split_ifs with more
  · apply (readNibble_outcome inside state.meta3Reader).bind
    rintro ⟨nibbleValue, reader⟩ ⟨moved, bounded⟩
    dsimp only at moved bounded ⊢
    split_ifs with repeats
    · have read : 0 < reader.position := by omega
      have back := rewindNibble_position read
      exact ⟨by dsimp only; omega, by dsimp only; omega⟩
    · exact (readRepeatCount_outcome inside bounded (by omega)).mono (fun read held => ⟨by omega, held.2⟩) id
  · exact ⟨Nat.le_refl _, within⟩

theorem expandChunk_outcome {fuel : Nat} {state : Expansion} (holds : state.Holds capacity start chunk)
    (within : state.meta3Reader.position ≤ 2 * chunk.chunkEnd)
    (enough : 2 * chunk.chunkEnd < state.meta3Reader.position + fuel) :
    Outcome (expandChunk data chunk fuel state)
      (fun next => next.Holds capacity start chunk ∧ next.chunkWritten = chunk.chunkDecompressedLength) True := by
  induction fuel generalizing state with
  | zero => omega
  | succ fuel ih =>
      unfold expandChunk
      split_ifs with more
      · apply (readNibble_outcome inside state.meta3Reader).bind
        rintro ⟨bitmapNumber, numberReader⟩ ⟨moved, bounded⟩
        dsimp only at moved bounded ⊢
        apply (getRepeatCount_outcome inside { state with meta3Reader := numberReader } bounded).bind
        rintro ⟨repeatCount, countReader⟩ ⟨later, bounded'⟩
        dsimp only at later bounded' ⊢
        have held : Expansion.Holds capacity start chunk { state with meta3Reader := countReader } :=
          ⟨holds.filled, holds.offset, holds.written, holds.period⟩
        apply (applyRepeatedly_outcome inside room bitmaps held).bind
        rintro next ⟨nextHolds, same⟩
        have reader : next.meta3Reader = countReader := same
        exact ih nextHolds (by rw [reader]; exact bounded') (by rw [reader]; omega)
      · exact ⟨holds, Nat.le_antisymm holds.written (Nat.not_lt.mp more)⟩

end bitmaps

end chunks

def uint24At (data : List UInt8) (offset : Nat) : Nat := littleEndian ((data.drop offset).take 3)

theorem readUint24LittleEndian_ok {data : List UInt8} {offset : Nat} (inside : offset + 3 ≤ data.length) :
    readUint24LittleEndian data offset = .ok (uint24At data offset) := loadLittleEndian_ok inside

theorem decompressChunk_outcome {data : List UInt8} {currentOffset chunkLength chunkDecompressedLength : Nat}
    {output : Output} (inside : currentOffset + chunkLength ≤ data.length) (filled : output.Filled capacity)
    (room : output.outputOffset + chunkDecompressedLength ≤ capacity) :
    Outcome (decompressChunk data currentOffset chunkLength chunkDecompressedLength output)
      (fun next => next.Filled capacity ∧ next.outputOffset = output.outputOffset + chunkDecompressedLength) True := by
  unfold decompressChunk
  by_cases short : chunkLength < 15
  · rw [if_pos short]
    trivial
  rw [if_neg short, readUint24LittleEndian_ok (by omega), ok_bind, readUint24LittleEndian_ok (by omega), ok_bind,
    readUint24LittleEndian_ok (by omega), ok_bind]
  split_ifs with outside small
  · trivial
  · trivial
  · apply (readBitmaps_outcome inside bitmapCount ⟨currentOffset + chunkLength - bitmapBytecnt, 0⟩).bind
    intro bitmaps length
    have start : Expansion.Holds capacity output.outputOffset
        { chunkEnd := currentOffset + chunkLength, chunkDecompressedLength, bitmaps } {
          dataPointer := currentOffset + 15
          meta1Pointer := currentOffset + uint24At data (currentOffset + 6)
          meta2Pointer := currentOffset + uint24At data (currentOffset + 9)
          meta3Reader := ⟨currentOffset + uint24At data (currentOffset + 12), 0⟩
          period := 8
          chunkWritten := 0
          output } := ⟨filled, rfl, Nat.zero_le _, Nat.succ_pos 7⟩
    refine (expandChunk_outcome inside room length start ?_ ?_).bind ?_
    · unfold NibbleReader.position
      rw [if_pos rfl]
      dsimp only
      omega
    · dsimp only
      omega
    · rintro state ⟨holds, complete⟩
      exact ⟨holds.filled, by rw [holds.offset, complete]⟩

/-- The decompressed lengths of the chunks from an offset on, up to a chunk without one or the end of the data. -/
inductive Walks (data : List UInt8) : Nat → List Nat → Prop
  | finished {offset : Nat} (outside : data.length ≤ offset) : Walks data offset []
  | terminator {offset : Nat} (header : offset + 6 ≤ data.length) (zero : uint24At data (offset + 3) = 0) :
      Walks data offset []
  | chunk {offset : Nat} {lengths : List Nat} (header : 6 ≤ uint24At data offset)
      (inside : offset + uint24At data offset ≤ data.length) (nonzero : uint24At data (offset + 3) ≠ 0)
      (rest : Walks data (offset + uint24At data offset) lengths) :
      Walks data offset (uint24At data (offset + 3) :: lengths)

theorem decompressChunks_outcome {data : List UInt8} {fuel currentOffset : Nat} {output : Output}
    (filled : output.Filled capacity) (within : currentOffset ≤ data.length)
    (enough : data.length < currentOffset + fuel) :
    Outcome (decompressChunks data capacity fuel currentOffset output)
      (fun next => next.Filled capacity ∧ ∃ lengths, Walks data currentOffset lengths ∧
        next.outputOffset = output.outputOffset + lengths.sum) True := by
  induction fuel generalizing currentOffset output with
  | zero => omega
  | succ fuel ih =>
      unfold decompressChunks
      by_cases more : currentOffset < data.length
      · rw [if_pos more]
        by_cases short : data.length - currentOffset < 6
        · rw [if_pos short]
          trivial
        rw [if_neg short, readUint24LittleEndian_ok (by omega), ok_bind, readUint24LittleEndian_ok (by omega), ok_bind]
        have header : currentOffset + 6 ≤ data.length := by omega
        split_ifs with small large outside zero full raw
        · trivial
        · trivial
        · trivial
        · exact ⟨filled, [], Walks.terminator header zero, rfl⟩
        · trivial
        all_goals
          have inside : currentOffset + uint24At data currentOffset ≤ data.length := by
            have := Nat.mod_le (data.length - currentOffset) (2 ^ 32)
            omega
          have free := filled.within
        · rw [slice_of_le (by omega), ok_bind]
          have length : ((data.drop (currentOffset + 6)).take (uint24At data (currentOffset + 3))).length =
              uint24At data (currentOffset + 3) := by
            rw [List.length_take, List.length_drop]
            omega
          apply (Output.writeBytes_outcome filled (by omega)).bind
          rintro next ⟨nextFilled, moved⟩
          refine (ih nextFilled inside (by omega)).mono ?_ id
          rintro last ⟨lastFilled, lengths, walks, offset⟩
          exact ⟨lastFilled, _, Walks.chunk (by omega) inside zero walks, by rw [List.sum_cons]; omega⟩
        · apply (decompressChunk_outcome inside filled (by omega)).bind
          rintro next ⟨nextFilled, moved⟩
          refine (ih nextFilled inside (by omega)).mono ?_ id
          rintro last ⟨lastFilled, lengths, walks, offset⟩
          exact ⟨lastFilled, _, Walks.chunk (by omega) inside zero walks, by rw [List.sum_cons]; omega⟩
      · rw [if_neg more]
        exact ⟨filled, [], Walks.finished (by omega), rfl⟩

def firstChunkOffset (data : List UInt8) : Nat := if littleEndian (data.take 4) = zbitmapMagic then 4 else 0

/-- On any input the decompression stays in its buffers and ends, and the size of its output is that of the chunks. -/
theorem decompress_safe (data : List UInt8) (capacity : Nat) :
    (∃ output, decompress data capacity = .ok output ∧ output.buffer.length = capacity ∧
      output.outputOffset ≤ capacity ∧ (∀ i < output.outputOffset, ∃ byte, output.buffer[i]? = some (some byte)) ∧
      ∃ lengths, Walks data (firstChunkOffset data) lengths ∧ output.outputOffset = lengths.sum) ∨
    ∃ code, decompress data capacity = .error (.error code) := by
  have outcome : Outcome (decompress data capacity) (fun output => output.Filled capacity ∧
      ∃ lengths, Walks data (firstChunkOffset data) lengths ∧ output.outputOffset = lengths.sum) True := by
    unfold decompress
    by_cases short : data.length < 4
    · rw [if_pos short]
      trivial
    · have magic : loadLittleEndian32 data 0 = .ok (littleEndian (data.take 4)) := loadLittleEndian_ok (by omega)
      rw [if_neg short, magic, ok_bind]
      have start : firstChunkOffset data ≤ data.length := by
        unfold firstChunkOffset
        split_ifs <;> omega
      refine (decompressChunks_outcome Output.empty_filled start (by omega)).mono ?_ id
      rintro output ⟨filled, lengths, walks, offset⟩
      exact ⟨filled, lengths, walks, offset.trans (Nat.zero_add _)⟩
  rcases outcome_returns outcome with ⟨output, ok, filled, lengths, walks, offset⟩ | ⟨failed, _⟩
  · exact Or.inl ⟨output, ok, filled.size, filled.within, filled.written, lengths, walks, offset⟩
  · exact Or.inr failed

end safety

end Fsapfs.Zbitmap
