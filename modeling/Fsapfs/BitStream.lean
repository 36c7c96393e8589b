import Fsapfs.Basic
import Fsapfs.Coding.BitReader

namespace Fsapfs
open Program Coding

inductive StorageType
  | byteBackToFront
  | byteFrontToBack
  deriving Repr, DecidableEq

structure BitStream where
  byteStream : List UInt8
  byteStreamOffset : Nat
  storageType : StorageType
  bitBuffer : Nat
  bitBufferSize : Nat
  deriving Repr, DecidableEq

namespace BitStream

def create (byteStream : List UInt8) (byteStreamOffset : Nat) (storageType : StorageType) :
    Result BitStream :=
  if byteStream.length > ssizeMax then fail .valueExceedsMaximum
  else if byteStreamOffset > ssizeMax then fail .valueExceedsMaximum
  else .ok ⟨byteStream, byteStreamOffset, storageType, 0, 0⟩

def loadByte (stream : BitStream) (byte : UInt8) : BitStream :=
  let bitBuffer := match stream.storageType with
    | .byteBackToFront => stream.bitBuffer ||| (byte.toNat <<< stream.bitBufferSize) % 2 ^ 32
    | .byteFrontToBack => (stream.bitBuffer <<< 8) % 2 ^ 32 ||| byte.toNat
  { stream with
    bitBuffer
    bitBufferSize := stream.bitBufferSize + 8
    byteStreamOffset := stream.byteStreamOffset + 1 }

def fillBuffer (remainingNumberOfBits : Nat) : Nat → BitStream → Result BitStream
  | 0, _ => .error .unfinished
  | fuel + 1, stream =>
      if remainingNumberOfBits > stream.bitBufferSize ∧ stream.bitBufferSize ≤ 24 then
        if stream.byteStreamOffset ≥ stream.byteStream.length then fail .valueOutOfBounds
        else do
          let byte ← load stream.byteStream stream.byteStreamOffset
          fillBuffer remainingNumberOfBits fuel (stream.loadByte byte)
      else .ok stream

def takeFromBuffer (stream : BitStream) (readNumberOfBits : Nat) : Nat × BitStream :=
  let bitBufferSize := stream.bitBufferSize - readNumberOfBits
  let (readValue, bitBuffer) := match stream.storageType with
    | .byteBackToFront =>
        if readNumberOfBits < 32 then
          (stream.bitBuffer % 2 ^ readNumberOfBits, stream.bitBuffer >>> readNumberOfBits)
        else (stream.bitBuffer, stream.bitBuffer)
    | .byteFrontToBack =>
        (stream.bitBuffer >>> bitBufferSize,
          if bitBufferSize > 0 then stream.bitBuffer % 2 ^ bitBufferSize else stream.bitBuffer)
  (readValue, { stream with
    bitBuffer := if bitBufferSize = 0 then 0 else bitBuffer
    bitBufferSize })

def getValueLoop (numberOfBits : Nat) : Nat → Nat → Nat → BitStream → Result (Nat × BitStream)
  | 0, _, _, _ => .error .unfinished
  | fuel + 1, remainingNumberOfBits, value, stream =>
      if remainingNumberOfBits = 0 then .ok (value, stream)
      else do
        let stream ← fillBuffer remainingNumberOfBits 5 stream
        let readNumberOfBits := min remainingNumberOfBits stream.bitBufferSize
        let shifted := if remainingNumberOfBits < numberOfBits
          then (value <<< remainingNumberOfBits) % 2 ^ 32 else value
        let (readValue, stream) := stream.takeFromBuffer readNumberOfBits
        getValueLoop numberOfBits fuel (remainingNumberOfBits - readNumberOfBits)
          (shifted ||| readValue) stream

def getValue (numberOfBits : Nat) : StateT BitStream Result Nat := fun stream =>
  if numberOfBits > 32 then fail .valueExceedsMaximum
  else getValueLoop numberOfBits (numberOfBits + 1) numberOfBits 0 stream

end BitStream

namespace StorageType

def order : StorageType → List Bool → List Bool
  | .byteBackToFront, bits => bits
  | .byteFrontToBack, bits => bits.reverse

@[simp] theorem order_backToFront (bits : List Bool) : order .byteBackToFront bits = bits := rfl

@[simp] theorem order_frontToBack (bits : List Bool) : order .byteFrontToBack bits = bits.reverse := rfl

def value (storageType : StorageType) (bits : List Bool) : Nat :=
  bitsNat (storageType.order bits)

def bytesBits (storageType : StorageType) (bytes : List UInt8) : List Bool :=
  bytes.flatMap fun byte => storageType.order (byteBits byte)

@[simp] theorem order_length (storageType : StorageType) (bits : List Bool) :
    (storageType.order bits).length = bits.length := by
  cases storageType <;> simp

@[simp] theorem bytesBits_cons (storageType : StorageType) (byte : UInt8) (bytes : List UInt8) :
    storageType.bytesBits (byte :: bytes) = storageType.order (byteBits byte) ++ storageType.bytesBits bytes := rfl

@[simp] theorem bytesBits_length (storageType : StorageType) (bytes : List UInt8) :
    (storageType.bytesBits bytes).length = 8 * bytes.length := by
  induction bytes with
  | nil => rfl
  | cons byte bytes ih => simp [ih, Nat.mul_succ, Nat.add_comm]

end StorageType

namespace BitStream

/-- The bits still to be read, in the order in which they are read. -/
def pending (stream : BitStream) : List Bool :=
  stream.storageType.order (natBits stream.bitBufferSize stream.bitBuffer) ++
    stream.storageType.bytesBits (stream.byteStream.drop stream.byteStreamOffset)

theorem pending_length (stream : BitStream) : stream.pending.length =
    stream.bitBufferSize + 8 * (stream.byteStream.length - stream.byteStreamOffset) := by
  simp [pending]

theorem loadByte_pending {stream : BitStream} {byte : UInt8} (bound : stream.bitBuffer < 2 ^ stream.bitBufferSize)
    (small : stream.bitBufferSize ≤ 24) (found : stream.byteStream[stream.byteStreamOffset]? = some byte) :
    (stream.loadByte byte).bitBuffer < 2 ^ (stream.bitBufferSize + 8) ∧
      (stream.loadByte byte).pending = stream.pending := by
  obtain ⟨inside, value⟩ := List.getElem?_eq_some_iff.mp found
  have byteSmall : byte.toNat < 2 ^ 8 := byte.toNat_lt
  have wide : (2 : Nat) ^ (stream.bitBufferSize + 8) ≤ 2 ^ 32 := Nat.pow_le_pow_right (by decide) (by omega)
  have drop : stream.byteStream.drop stream.byteStreamOffset =
      byte :: stream.byteStream.drop (stream.byteStreamOffset + 1) := by
    rw [List.drop_eq_getElem_cons inside, value]
  cases storage : stream.storageType with
  | byteBackToFront =>
      have shifted : byte.toNat <<< stream.bitBufferSize < 2 ^ (stream.bitBufferSize + 8) := by
        rw [Nat.shiftLeft_eq, Nat.mul_comm, pow_add]
        exact Nat.mul_lt_mul_of_pos_left byteSmall (Nat.two_pow_pos _)
      have whole := Nat.mod_eq_of_lt (shifted.trans_le wide)
      constructor
      · simp only [loadByte, storage, whole]
        exact Nat.or_lt_two_pow (bound.trans_le (Nat.pow_le_pow_right (by decide) (Nat.le_add_right _ 8))) shifted
      · simp only [pending, loadByte, storage, whole, drop, StorageType.order_backToFront, StorageType.bytesBits_cons]
        rw [natBits_or_shiftLeft _ _ _ _ bound, List.append_assoc, byteBits]
  | byteFrontToBack =>
      have shifted : stream.bitBuffer <<< 8 < 2 ^ (stream.bitBufferSize + 8) := by
        rw [Nat.shiftLeft_eq, pow_add]
        exact Nat.mul_lt_mul_of_pos_right bound (Nat.two_pow_pos 8)
      have whole := Nat.mod_eq_of_lt (shifted.trans_le wide)
      constructor
      · simp only [loadByte, storage, whole]
        exact Nat.or_lt_two_pow shifted (byteSmall.trans_le (Nat.pow_le_pow_right (by decide) (Nat.le_add_left 8 _)))
      · simp only [pending, loadByte, storage, whole, drop, StorageType.order_frontToBack, StorageType.bytesBits_cons]
        rw [Nat.lor_comm, Nat.add_comm, natBits_or_shiftLeft _ _ _ _ byteSmall, List.reverse_append, List.append_assoc,
          byteBits]

structure Refilled (remainingNumberOfBits : Nat) (before after : BitStream) : Prop where
  storage : after.storageType = before.storageType
  bytes : after.byteStream = before.byteStream
  pending : after.pending = before.pending
  buffer : after.bitBuffer < 2 ^ after.bitBufferSize
  full : remainingNumberOfBits ≤ after.bitBufferSize ∨ 24 < after.bitBufferSize
  size : after.bitBufferSize ≤ 32
  residue : after.bitBufferSize % 8 = before.bitBufferSize % 8
  surplus : after.bitBufferSize = before.bitBufferSize ∨ after.bitBufferSize < remainingNumberOfBits + 8
  offset : after.byteStreamOffset ≤ max before.byteStreamOffset before.byteStream.length
  loaded : 8 * after.byteStreamOffset + before.bitBufferSize = 8 * before.byteStreamOffset + after.bitBufferSize

theorem fillBuffer_refilled {remainingNumberOfBits fuel : Nat} {stream : BitStream}
    (bound : stream.bitBuffer < 2 ^ stream.bitBufferSize) (size : stream.bitBufferSize ≤ 32)
    (enough : 32 < stream.bitBufferSize + 8 * fuel) :
    Outcome (fillBuffer remainingNumberOfBits fuel stream) (Refilled remainingNumberOfBits stream)
      (stream.pending.length < remainingNumberOfBits) := by
  induction fuel generalizing stream with
  | zero => omega
  | succ fuel ih =>
      rw [fillBuffer]
      split_ifs with wanted exhausted
      · have := stream.pending_length
        rw [outcome_fail]
        omega
      · have inside : stream.byteStreamOffset < stream.byteStream.length := Nat.not_le.mp exhausted
        rw [load_of_lt inside]
        obtain ⟨boundAfter, same⟩ := loadByte_pending bound wanted.2 (List.getElem?_eq_getElem inside)
        refine (ih boundAfter (by simp only [loadByte]; omega) (by simp only [loadByte]; omega)).mono
          (fun after filled => ?_) (fun short => by rwa [← same])
        have residue := filled.residue
        have surplus := filled.surplus
        have offset := filled.offset
        have loaded := filled.loaded
        simp only [loadByte] at residue surplus offset loaded
        exact ⟨filled.storage, filled.bytes, filled.pending.trans same, filled.buffer, filled.full, filled.size, by omega, by omega,
          by omega, by omega⟩
      · exact ⟨rfl, rfl, rfl, bound, by omega, size, rfl, Or.inl rfl, le_max_left _ _, rfl⟩

theorem takeFromBuffer_pending {stream : BitStream} {n : Nat} (bound : stream.bitBuffer < 2 ^ stream.bitBufferSize)
    (enough : n ≤ stream.bitBufferSize) (size : stream.bitBufferSize ≤ 32) :
    (stream.takeFromBuffer n).1 = stream.storageType.value (stream.pending.take n) ∧
      (stream.takeFromBuffer n).2.pending = stream.pending.drop n ∧
      (stream.takeFromBuffer n).2.bitBuffer < 2 ^ (stream.bitBufferSize - n) := by
  have split : 2 ^ stream.bitBufferSize = 2 ^ n * 2 ^ (stream.bitBufferSize - n) := by
    rw [← pow_add, Nat.add_sub_cancel' enough]
  have taken : stream.pending.take n =
      (stream.storageType.order (natBits stream.bitBufferSize stream.bitBuffer)).take n := by
    rw [pending, List.take_append_of_le_length (by simpa using enough)]
  have left : stream.pending.drop n =
      (stream.storageType.order (natBits stream.bitBufferSize stream.bitBuffer)).drop n ++
        stream.storageType.bytesBits (stream.byteStream.drop stream.byteStreamOffset) := by
    rw [pending, List.drop_append_of_le_length (by simpa using enough)]
  rw [taken, left]
  cases storage : stream.storageType with
  | byteBackToFront =>
      have high : stream.bitBuffer / 2 ^ n < 2 ^ (stream.bitBufferSize - n) := by
        rw [Nat.div_lt_iff_lt_mul (Nat.two_pow_pos _), Nat.mul_comm, ← split]
        exact bound
      simp only [takeFromBuffer, storage, StorageType.value, StorageType.order_backToFront, pending,
        natBits_take _ _ _ enough, natBits_drop _ _ _ enough, bitsNat_natBits]
      split_ifs with narrow emptied emptied
      · simp [emptied, natBits]
      · simp [Nat.shiftRight_eq_div_pow, high]
      · have all : n = stream.bitBufferSize := by omega
        simp [natBits, all, Nat.mod_eq_of_lt bound]
      · omega
  | byteFrontToBack =>
      have high : stream.bitBuffer / 2 ^ (stream.bitBufferSize - n) < 2 ^ n := by
        rw [Nat.div_lt_iff_lt_mul (Nat.two_pow_pos _), ← split]
        exact bound
      have low : stream.bitBufferSize - n ≤ stream.bitBufferSize := Nat.sub_le _ _
      simp only [takeFromBuffer, storage, StorageType.value, StorageType.order_frontToBack, pending, List.take_reverse,
        List.drop_reverse, List.reverse_reverse, natBits_length, natBits_take _ _ _ low, natBits_drop _ _ _ low,
        Nat.sub_sub_self enough, bitsNat_natBits, Nat.shiftRight_eq_div_pow, Nat.mod_eq_of_lt high]
      split_ifs with emptied positive
      · simp [emptied, natBits]
      · simp [natBits_mod, Nat.mod_lt _ (Nat.two_pow_pos _)]
      · omega

/-- What holds of a stream read back to front between two calls. -/
structure Held (stream : BitStream) : Prop where
  storage : stream.storageType = .byteBackToFront
  offset : stream.byteStreamOffset ≤ stream.byteStream.length
  buffer : stream.bitBuffer < 2 ^ stream.bitBufferSize
  loaded : stream.bitBufferSize ≤ 8 * stream.byteStreamOffset

def bits (stream : BitStream) : List Bool :=
  natBits stream.bitBufferSize stream.bitBuffer ++ bytesBits (stream.byteStream.drop stream.byteStreamOffset)

theorem bits_length (stream : BitStream) : stream.bits.length =
    stream.bitBufferSize + 8 * (stream.byteStream.length - stream.byteStreamOffset) := by
  simp [bits]

theorem bits_eq_pending {stream : BitStream} (storage : stream.storageType = .byteBackToFront) :
    stream.bits = stream.pending := by
  rw [pending, storage]
  rfl

structure Filled (remainingNumberOfBits : Nat) (before after : BitStream) : Prop where
  held : after.Held
  bits : after.bits = before.bits
  full : remainingNumberOfBits ≤ after.bitBufferSize ∨ 24 < after.bitBufferSize
  size : after.bitBufferSize ≤ 32
  residue : after.bitBufferSize % 8 = before.bitBufferSize % 8
  surplus : after.bitBufferSize = before.bitBufferSize ∨ after.bitBufferSize < remainingNumberOfBits + 8

theorem fillBuffer_outcome {remainingNumberOfBits fuel : Nat} {stream : BitStream} (held : stream.Held)
    (size : stream.bitBufferSize ≤ 32) (enough : 32 < stream.bitBufferSize + 8 * fuel) :
    Outcome (fillBuffer remainingNumberOfBits fuel stream) (Filled remainingNumberOfBits stream)
      (stream.bits.length < remainingNumberOfBits) := by
  rw [bits_eq_pending held.storage]
  refine (fillBuffer_refilled held.buffer size enough).mono (fun after filled => ?_) fun short => short
  have storage := filled.storage.trans held.storage
  have offset := held.offset
  have loaded := held.loaded
  have offsetAfter := filled.offset
  have loadedAfter := filled.loaded
  exact ⟨⟨storage, by rw [filled.bytes]; omega, filled.buffer, by omega⟩,
    by rw [bits_eq_pending storage, bits_eq_pending held.storage, filled.pending], filled.full, filled.size,
    filled.residue, filled.surplus⟩

theorem takeFromBuffer_held {stream : BitStream} {n : Nat} (held : stream.Held)
    (enough : n ≤ stream.bitBufferSize) (size : stream.bitBufferSize ≤ 32) :
    (stream.takeFromBuffer n).2.Held ∧
      takeBits n stream.bits = some ((stream.takeFromBuffer n).1, (stream.takeFromBuffer n).2.bits) := by
  obtain ⟨value, rest, bound⟩ := takeFromBuffer_pending held.buffer enough size
  have loaded := held.loaded
  refine ⟨⟨held.storage, held.offset, bound, by simp only [takeFromBuffer]; omega⟩, ?_⟩
  have long := stream.bits_length
  have after : (stream.takeFromBuffer n).2.storageType = .byteBackToFront := held.storage
  rw [takeBits, if_pos (by omega), value, bits_eq_pending after, rest, held.storage, ← bits_eq_pending held.storage]
  rfl

structure Buffered (stream : BitStream) : Prop extends stream.Held where
  size : stream.bitBufferSize < 8

theorem Buffered.bits_le {stream : BitStream} (buffered : stream.Buffered) :
    stream.bits.length ≤ 8 * stream.byteStream.length := by
  have length := stream.bits_length
  have loaded := buffered.loaded
  have offset := buffered.offset
  omega

theorem Buffered.bits_mod {stream : BitStream} (buffered : stream.Buffered) :
    stream.bits.length % 8 = stream.bitBufferSize := by
  have length := stream.bits_length
  have size := buffered.size
  omega

theorem create_buffered {bytes : List UInt8} {offset : Nat} (small : bytes.length ≤ ssizeMax)
    (inside : offset ≤ bytes.length) : ∃ stream, create bytes offset .byteBackToFront = .ok stream ∧
      stream.Buffered ∧ stream.byteStream = bytes ∧ stream.bits = bytesBits (bytes.drop offset) := by
  refine ⟨⟨bytes, offset, .byteBackToFront, 0, 0⟩, ?_,
    ⟨⟨rfl, inside, Nat.one_pos, Nat.zero_le _⟩, Nat.zero_lt_succ 7⟩, rfl, rfl⟩
  rw [create, if_neg (by omega), if_neg (by omega)]

/-- The stream function does what the reader of its bits does, on values related by `related`. -/
def Simulates {α β : Type} (related : α → β → Prop) (result : Result (α × BitStream))
    (reading : Option (β × List Bool)) : Prop :=
  Outcome result (fun p => ∃ b, reading = some (b, p.2.bits) ∧ related p.1 b ∧ p.2.Buffered)
    (reading = none)

theorem Simulates.bind {α β γ δ : Type} {related : α → β → Prop} {related' : γ → δ → Prop}
    {run : StateT BitStream Result α} {next : α → StateT BitStream Result γ}
    {reader : BitReader β} {nextReader : β → BitReader δ} {stream : BitStream}
    (first : Simulates related (run stream) (reader stream.bits))
    (second : ∀ a b after, reader stream.bits = some (b, after.bits) → related a b → after.Buffered →
      Simulates related' (next a after) (nextReader b after.bits)) :
    Simulates related' ((run >>= next) stream) ((reader >>= nextReader) stream.bits) := by
  refine Outcome.bind (first.mono (fun p h => h) fun rejected => ?_) fun p read => ?_
  · exact bind_of_none rejected
  · obtain ⟨b, read, same, buffered⟩ := read
    rw [bind_of_some read]
    exact second p.1 b p.2 read same buffered

theorem Simulates.foldlM_range {α β : Type} {step : α → Nat → StateT BitStream Result α}
    {readStep : β → Nat → BitReader β} {n : Nat} {a : α} {b : β} {stream : BitStream}
    (related : Nat → α → β → Prop) (initial : related 0 a b) (buffered : stream.Buffered)
    (advance : ∀ i a b (after : BitStream), i < n → related i a b → after.Buffered →
      Simulates (related (i + 1)) (step a i after) (readStep b i after.bits)) :
    Simulates (related n) ((List.range n).foldlM step a stream)
      ((List.range n).foldlM readStep b stream.bits) := by
  induction n with
  | zero => exact ⟨b, rfl, initial, buffered⟩
  | succ n ih =>
      rw [List.range_succ, List.foldlM_append, List.foldlM_append]
      refine (ih fun i a b after less => advance i a b after (Nat.lt_succ_of_lt less)).bind
        fun a b after _ held buffered => ?_
      simpa using advance n a b after (Nat.lt_succ_self n) held buffered

theorem get_bind {β : Type} (next : BitStream → StateT BitStream Result β) (stream : BitStream) :
    ((get : StateT BitStream Result BitStream) >>= next) stream = next stream stream := rfl

theorem lift_ok_bind {α β : Type} {run : Result α} {a : α} (ok : run = .ok a)
    (next : α → StateT BitStream Result β) (stream : BitStream) :
    ((liftM run : StateT BitStream Result α) >>= next) stream = next a stream := by
  subst ok
  rfl

theorem lift_ok {α : Type} {run : Result α} {a : α} (ok : run = .ok a) (stream : BitStream) :
    (liftM run : StateT BitStream Result α) stream = .ok (a, stream) := by
  subst ok
  rfl

theorem getValue_simulates {stream : BitStream} {n : Nat} (buffered : stream.Buffered)
    (narrow : n ≤ 25 ∨ n = 32 ∧ stream.bitBufferSize = 0) :
    Simulates Eq (getValue n stream) (takeBits n stream.bits) := by
  have sizeSmall := buffered.size
  rw [getValue, if_neg (by omega), getValueLoop]
  by_cases none : n = 0
  · subst none
    exact ⟨0, by simp [takeBits, bitsNat], rfl, buffered⟩
  rw [if_neg none]
  refine Outcome.bind ((fillBuffer_outcome buffered.toHeld (by omega) (by omega)).mono
    (fun _ h => h) fun short => ?_) fun after filled => ?_
  · rw [takeBits, if_neg (by omega)]
  have residue := filled.residue
  have full := filled.full
  have surplus := filled.surplus
  have size := filled.size
  have enough : n ≤ after.bitBufferSize := by omega
  obtain ⟨held, read⟩ := takeFromBuffer_held filled.held enough filled.size
  obtain ⟨fuel, rfl⟩ : ∃ fuel, n = fuel + 1 := ⟨n - 1, by omega⟩
  simp only [Nat.min_eq_left enough, lt_irrefl, if_false, Nat.sub_self, Nat.zero_or, getValueLoop,
    if_true]
  exact ⟨_, filled.bits ▸ read, rfl, held, by simp only [takeFromBuffer]; omega⟩

end BitStream
end Fsapfs
