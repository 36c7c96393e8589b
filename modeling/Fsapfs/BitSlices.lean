import Fsapfs.BitStream
import Mathlib.Data.List.Rotate

namespace Fsapfs
open Program Coding

namespace StorageType

def join (storageType : StorageType) (width width' value value' : Nat) : Nat :=
  match storageType with
  | .byteBackToFront => value + 2 ^ width * value'
  | .byteFrontToBack => value' + 2 ^ width' * value

theorem value_append (storageType : StorageType) (bits bits' : List Bool) :
    storageType.value (bits ++ bits') =
      storageType.join bits.length bits'.length (storageType.value bits) (storageType.value bits') := by
  cases storageType <;> simp [value, join, bitsNat_append]

theorem value_injective (storageType : StorageType) {bits bits' : List Bool} (length : bits.length = bits'.length)
    (same : storageType.value bits = storageType.value bits') : bits = bits' := by
  have ordered : storageType.order bits = storageType.order bits' := by
    rw [← natBits_bitsNat (storageType.order bits), ← natBits_bitsNat (storageType.order bits')]
    simpa [value, length] using congrArg (natBits bits'.length) same
  cases storageType <;> simpa using ordered

theorem value_lt (storageType : StorageType) (bits : List Bool) : storageType.value bits < 2 ^ bits.length := by
  simpa [value] using bitsNat_lt (storageType.order bits)

/-- The bits of a value from those of the first and of the second pass of a read. -/
def passes (storageType : StorageType) (bits bits' : List Bool) : List Bool :=
  match storageType with
  | .byteBackToFront => bits' ++ bits
  | .byteFrontToBack => bits ++ bits'

theorem value_passes (storageType : StorageType) (bits bits' : List Bool) :
    storageType.value (storageType.passes bits bits') =
      storageType.value bits' + 2 ^ bits'.length * storageType.value bits := by
  cases storageType <;> simp [passes, value, bitsNat_append]

@[simp] theorem passes_nil (storageType : StorageType) (bits : List Bool) : storageType.passes bits [] = bits := by
  cases storageType <;> simp [passes]

@[simp] theorem passes_length (storageType : StorageType) (bits bits' : List Bool) :
    (storageType.passes bits bits').length = bits.length + bits'.length := by
  cases storageType <;> simp [passes, Nat.add_comm]

end StorageType

namespace BitStream

def firstPass (bitBufferSize numberOfBits : Nat) : Nat :=
  if bitBufferSize = 0 then numberOfBits else min numberOfBits (bitBufferSize + 24)

theorem firstPass_le (bitBufferSize numberOfBits : Nat) : firstPass bitBufferSize numberOfBits ≤ numberOfBits := by
  unfold firstPass
  split
  · exact le_rfl
  · exact Nat.min_le_left _ _

structure Ready (stream : BitStream) : Prop where
  buffer : stream.bitBuffer < 2 ^ stream.bitBufferSize
  size : stream.bitBufferSize < 8

theorem Ready.pending_mod {stream : BitStream} (ready : stream.Ready) :
    stream.pending.length % 8 = stream.bitBufferSize := by
  have length := stream.pending_length
  have size := ready.size
  omega

theorem fillBuffer_full {stream : BitStream} (ready : stream.Ready) {n : Nat} (wide : n ≤ 32)
    (enough : n ≤ stream.pending.length) : ∃ after, fillBuffer n 5 stream = .ok after ∧ Refilled n stream after ∧
      min n after.bitBufferSize = firstPass stream.bitBufferSize n := by
  have size := ready.size
  have outcome := @fillBuffer_refilled n 5 stream ready.buffer (by omega) (by omega)
  obtain ⟨after, run, filled⟩ := outcome.value (Nat.not_lt.mpr enough)
  refine ⟨after, run, filled, ?_⟩
  have residue := filled.residue
  have surplus := filled.surplus
  have full := filled.full
  have limit := filled.size
  unfold firstPass
  split <;> omega

structure Passed (n taken : Nat) (stream after : BitStream) : Prop where
  ready : after.Ready
  storage : after.storageType = stream.storageType
  pending : after.pending = stream.pending.drop taken
  emptied : taken < n → after.bitBufferSize = 0

theorem getValueLoop_pass {stream : BitStream} (ready : stream.Ready) {numberOfBits n fuel value : Nat} (some : n ≠ 0)
    (wide : n ≤ 32) (enough : n ≤ stream.pending.length) : ∃ after,
      getValueLoop numberOfBits (fuel + 1) n value stream = getValueLoop numberOfBits fuel
        (n - firstPass stream.bitBufferSize n)
        ((if n < numberOfBits then (value <<< n) % 2 ^ 32 else value) |||
          stream.storageType.value (stream.pending.take (firstPass stream.bitBufferSize n))) after ∧
      Passed n (firstPass stream.bitBufferSize n) stream after := by
  obtain ⟨after, run, filled, taken⟩ := fillBuffer_full ready wide enough
  have inside : firstPass stream.bitBufferSize n ≤ after.bitBufferSize := taken ▸ Nat.min_le_right _ _
  obtain ⟨read, left, bound⟩ := takeFromBuffer_pending filled.buffer inside filled.size
  refine ⟨(after.takeFromBuffer (firstPass stream.bitBufferSize n)).2, ?_, ⟨bound, ?_⟩, filled.storage,
    left.trans (by rw [filled.pending]), fun short => ?_⟩
  · rw [getValueLoop, if_neg some, run, ok_bind, taken, ← filled.storage, ← filled.pending, ← read]
  · have size := ready.size
    have surplus := filled.surplus
    simp only [takeFromBuffer]
    omega
  · simp only [takeFromBuffer]
    omega

def readBits (storageType : StorageType) (numberOfBits : Nat) (bits : List Bool) : List Bool :=
  storageType.passes ((bits.take numberOfBits).take (firstPass (bits.length % 8) numberOfBits))
    ((bits.take numberOfBits).drop (firstPass (bits.length % 8) numberOfBits))

theorem firstPass_pos {bitBufferSize n : Nat} (some : n ≠ 0) : 0 < firstPass bitBufferSize n := by
  unfold firstPass
  split <;> omega

theorem shiftLeft_or_value (storageType : StorageType) {bits bits' : List Bool}
    (wide : bits.length + bits'.length ≤ 32) :
    (storageType.value bits <<< bits'.length) % 2 ^ 32 ||| storageType.value bits' =
      storageType.value (storageType.passes bits bits') := by
  have high := storageType.value_lt bits
  have low := storageType.value_lt bits'
  have fits : storageType.value bits <<< bits'.length < 2 ^ 32 := by
    rw [Nat.shiftLeft_eq]
    calc storageType.value bits * 2 ^ bits'.length < 2 ^ bits.length * 2 ^ bits'.length :=
          Nat.mul_lt_mul_of_pos_right high (Nat.two_pow_pos _)
      _ = 2 ^ (bits.length + bits'.length) := (pow_add _ _ _).symm
      _ ≤ 2 ^ 32 := Nat.pow_le_pow_right (by simp) wide
  rw [Nat.mod_eq_of_lt fits, ← Nat.shiftLeft_add_eq_or_of_lt low, Nat.shiftLeft_eq, StorageType.value_passes,
    Nat.mul_comm, Nat.add_comm]

theorem getValue_passes {stream : BitStream} (ready : stream.Ready) {n : Nat} (wide : n ≤ 32)
    (enough : n ≤ stream.pending.length) : ∃ after,
      getValue n stream = .ok (stream.storageType.value (readBits stream.storageType n stream.pending), after) ∧
      after.Ready ∧ after.storageType = stream.storageType ∧ after.pending = stream.pending.drop n := by
  rw [getValue, if_neg (Nat.not_lt.mpr wide), readBits, ready.pending_mod]
  by_cases some : n = 0
  · subst some
    refine ⟨stream, ?_, ready, rfl, rfl⟩
    simp [getValueLoop, StorageType.value, bitsNat, show stream.storageType.order [] = [] by
      cases stream.storageType <;> rfl]
  have taken := firstPass_le stream.bitBufferSize n
  have positive : 0 < firstPass stream.bitBufferSize n := firstPass_pos some
  obtain ⟨middle, first, passed⟩ := @getValueLoop_pass stream ready n n n 0 some wide enough
  rw [first, if_neg (Nat.lt_irrefl _), Nat.zero_or]
  generalize firstPass stream.bitBufferSize n = k at passed taken positive ⊢
  obtain ⟨fuel, rfl⟩ := Nat.exists_eq_succ_of_ne_zero some
  by_cases whole : k = fuel + 1
  · subst whole
    exact ⟨middle, by simp [getValueLoop, List.take_take], passed.ready, passed.storage, passed.pending⟩
  have short : k < fuel + 1 := Nat.lt_of_le_of_ne taken whole
  have rest : fuel + 1 - k ≠ 0 := Nat.sub_ne_zero_of_lt short
  have enough' : fuel + 1 - k ≤ middle.pending.length := by
    rw [passed.pending, List.length_drop]
    omega
  obtain ⟨after, second, passed'⟩ := @getValueLoop_pass middle passed.ready (fuel + 1) (fuel + 1 - k) fuel
    (stream.storageType.value (stream.pending.take k)) rest (by omega) enough'
  have all : firstPass middle.bitBufferSize (fuel + 1 - k) = fuel + 1 - k := by simp [firstPass, passed.emptied short]
  rw [all] at second passed'
  obtain ⟨fuel', rfl⟩ : ∃ fuel', fuel = fuel' + 1 := ⟨fuel - 1, by omega⟩
  have bits' : (stream.pending.take (fuel' + 1 + 1)).drop k = middle.pending.take (fuel' + 1 + 1 - k) := by
    rw [passed.pending, List.drop_take]
  have length : (middle.pending.take (fuel' + 1 + 1 - k)).length = fuel' + 1 + 1 - k := List.length_take_of_le enough'
  refine ⟨after, ?_, passed'.ready, passed'.storage.trans passed.storage, ?_⟩
  · have joined := @shiftLeft_or_value stream.storageType (stream.pending.take k)
      (middle.pending.take (fuel' + 1 + 1 - k)) (by simp only [List.length_take]; omega)
    rw [length] at joined
    rw [second, if_pos (by omega), Nat.sub_self, getValueLoop, if_pos rfl, passed.storage, joined, bits',
      List.take_take, Nat.min_eq_left taken]
  · rw [passed'.pending, passed.pending, List.drop_drop, Nat.add_sub_cancel' taken]

theorem getValue_one {stream : BitStream} (ready : stream.Ready) : Outcome (getValue 1 stream)
    (fun p => takeBits 1 stream.pending = some (p.1, p.2.pending) ∧ p.2.Ready) (takeBits 1 stream.pending = none) := by
  by_cases some : 1 ≤ stream.pending.length
  · obtain ⟨after, run, ready', _, pending⟩ := getValue_passes ready (by simp) some
    obtain ⟨bit, rest, bits⟩ := List.exists_cons_of_length_pos some
    have once : firstPass ((rest.length + 1) % 8) 1 = 1 := by simp [firstPass]
    have value : stream.storageType.value (readBits stream.storageType 1 stream.pending) = bit.toNat := by
      simp only [readBits, bits, List.length_cons, once]
      cases stream.storageType <;> simp [StorageType.value, StorageType.passes, bitsNat]
    rw [run, outcome_ok, value]
    simp [takeBits, bits, pending, bitsNat, ready']
  · have rejected : takeBits 1 stream.pending = none := if_neg some
    have size := ready.size
    have length := stream.pending_length
    rw [getValue, if_neg (by simp), getValueLoop, if_neg (by simp)]
    refine Outcome.bind ((fillBuffer_refilled ready.buffer (by omega) (by omega)).mono (fun _ h => h) fun _ => rejected)
      fun after filled => ?_
    have full := filled.full
    have same := after.pending_length
    rw [filled.pending] at same
    omega

def getValues (widths : List Nat) : StateT BitStream Result (List Nat) :=
  widths.mapM getValue

def slices : List Nat → List Bool → List (List Bool)
  | [], _ => []
  | width :: widths, bits => bits.take width :: slices widths (bits.drop width)

def readSlices (storageType : StorageType) : List Nat → List Bool → List (List Bool)
  | [], _ => []
  | width :: widths, bits => readBits storageType width bits :: readSlices storageType widths (bits.drop width)

/-- No read of bits back to front is split over two passes, unless its bits are the same with those of the second pass
moved to the front. -/
def Unsplit (storageType : StorageType) : List Nat → List Bool → Prop
  | [], _ => True
  | width :: widths, bits =>
      (storageType = .byteBackToFront →
        (bits.take width).rotate (firstPass (bits.length % 8) width) = bits.take width) ∧
      Unsplit storageType widths (bits.drop width)

theorem readBits_eq_iff {storageType : StorageType} {width : Nat} {bits : List Bool} (enough : width ≤ bits.length) :
    readBits storageType width bits = bits.take width ↔ (storageType = .byteBackToFront →
      (bits.take width).rotate (firstPass (bits.length % 8) width) = bits.take width) := by
  cases storageType with
  | byteFrontToBack => simp [readBits, StorageType.passes]
  | byteBackToFront =>
      have inside : firstPass (bits.length % 8) width ≤ (bits.take width).length := by
        rw [List.length_take_of_le enough]
        exact firstPass_le _ _
      simp [readBits, StorageType.passes, List.rotate_eq_drop_append_take inside]

theorem readSlices_values_iff {storageType : StorageType} {widths : List Nat} {bits : List Bool}
    (enough : widths.sum ≤ bits.length) :
    (readSlices storageType widths bits).map storageType.value = (slices widths bits).map storageType.value ↔
      Unsplit storageType widths bits := by
  induction widths generalizing bits with
  | nil => simp [readSlices, slices, Unsplit]
  | cons width widths ih =>
      rw [List.sum_cons] at enough
      have inside : width ≤ bits.length := Nat.le_of_add_right_le enough
      have rest : widths.sum ≤ (bits.drop width).length := by
        rw [List.length_drop]
        omega
      have length : (readBits storageType width bits).length = (bits.take width).length := by
        have taken := firstPass_le (bits.length % 8) width
        simp [readBits]
        omega
      have first : storageType.value (readBits storageType width bits) = storageType.value (bits.take width) ↔
          readBits storageType width bits = bits.take width :=
        ⟨storageType.value_injective length, congrArg storageType.value⟩
      simp only [readSlices, slices, Unsplit, List.map_cons, List.cons.injEq, first, readBits_eq_iff inside, ih rest]

theorem slices_append (widths widths' : List Nat) (bits : List Bool) :
    slices (widths ++ widths') bits = slices widths bits ++ slices widths' (bits.drop widths.sum) := by
  induction widths generalizing bits with
  | nil => simp [slices]
  | cons width widths ih => simp [slices, ih, List.drop_drop]

theorem getValues_cons {width value : Nat} {widths values : List Nat} {stream after after' : BitStream}
    (first : getValue width stream = .ok (value, after)) (rest : getValues widths after = .ok (values, after')) :
    getValues (width :: widths) stream = .ok (value :: values, after') := by
  unfold getValues at rest ⊢
  rw [List.mapM_cons]
  change (getValue width stream >>= fun p => widths.mapM getValue p.2 >>= fun q => pure (p.1 :: q.1, q.2)) = _
  rw [first, ok_bind, rest]
  rfl

theorem getValues_readSlices {stream : BitStream} (ready : stream.Ready) {widths : List Nat}
    (wide : ∀ width ∈ widths, width ≤ 32) (enough : widths.sum ≤ stream.pending.length) : ∃ after,
    getValues widths stream =
      .ok ((readSlices stream.storageType widths stream.pending).map stream.storageType.value, after) := by
  induction widths generalizing stream with
  | nil => exact ⟨stream, rfl⟩
  | cons width widths ih =>
      rw [List.sum_cons] at enough
      obtain ⟨middle, first, ready', storage, pending⟩ :=
        getValue_passes ready (wide width (List.mem_cons_self ..)) (Nat.le_of_add_right_le enough)
      have enough' : widths.sum ≤ middle.pending.length := by
        rw [pending, List.length_drop]
        omega
      obtain ⟨after, rest⟩ := ih ready' (fun width' member => wide width' (List.mem_cons_of_mem _ member)) enough'
      rw [pending, storage] at rest
      exact ⟨after, getValues_cons first rest⟩

theorem create_ready {bytes : List UInt8} {offset : Nat} {storageType : StorageType} {stream : BitStream}
    (created : create bytes offset storageType = .ok stream) : stream.Ready ∧ stream.storageType = storageType ∧
      stream.pending = storageType.bytesBits (bytes.drop offset) := by
  unfold create at created
  split at created
  · cases created
  split at created
  · cases created
  cases created
  refine ⟨⟨Nat.one_pos, Nat.zero_lt_succ 7⟩, rfl, ?_⟩
  cases storageType <;> rfl

/-- Reads of a byte stream succeed, and give its consecutive slices just if none is split over two passes in the wrong
order. Two reads that give their slices can be put together to the one of both widths. -/
theorem getValues_slices {bytes : List UInt8} {offset : Nat} {storageType : StorageType} {stream : BitStream}
    (created : create bytes offset storageType = .ok stream) {widths : List Nat}
    (wide : ∀ width ∈ widths, width ≤ 32) (enough : widths.sum ≤ 8 * (bytes.drop offset).length) :
    let bits := storageType.bytesBits (bytes.drop offset)
    let read := fun widths => (getValues widths stream).map Prod.fst
    (∃ values, read widths = .ok values) ∧
      (read widths = .ok ((slices widths bits).map storageType.value) ↔ Unsplit storageType widths bits) ∧
      ∀ before width width', widths = before ++ [width + width'] → Unsplit storageType widths bits →
        Unsplit storageType (before ++ [width, width']) bits → ∃ values value value',
          read (before ++ [width, width']) = .ok (values ++ [value, value']) ∧
          read widths = .ok (values ++ [storageType.join width width' value value']) := by
  intro bits read
  obtain ⟨ready, rfl, pending⟩ := create_ready created
  change stream.pending = bits at pending
  have long : bits.length = 8 * (bytes.drop offset).length := StorageType.bytesBits_length _ _
  have run : ∀ {widths : List Nat}, (∀ width ∈ widths, width ≤ 32) → widths.sum ≤ bits.length →
      read widths = .ok ((readSlices stream.storageType widths bits).map stream.storageType.value) := by
    intro widths wide enough
    rw [← pending] at enough
    obtain ⟨after, run⟩ := getValues_readSlices ready wide enough
    simp [read, run, pending, Except.map]
  have exactly : ∀ {widths : List Nat}, (∀ width ∈ widths, width ≤ 32) → widths.sum ≤ bits.length →
      (read widths = .ok ((slices widths bits).map stream.storageType.value) ↔
        Unsplit stream.storageType widths bits) := by
    intro widths wide enough
    rw [run wide enough, Except.ok.injEq, readSlices_values_iff enough]
  refine ⟨⟨_, run wide (long ▸ enough)⟩, exactly wide (long ▸ enough), ?_⟩
  rintro before width width' rfl unsplit unsplit'
  have narrow : width + width' ≤ 32 := wide _ (by simp)
  have fits : (before ++ [width + width']).sum ≤ bits.length := long ▸ enough
  have fits' : (before ++ [width, width']).sum ≤ bits.length := by simpa using fits
  have wide' : ∀ n ∈ before ++ [width, width'], n ≤ 32 := by
    intro n member
    rcases List.mem_append.mp member with earlier | last
    · exact wide n (List.mem_append_left _ earlier)
    · rcases List.mem_pair.mp last with rfl | rfl <;> omega
  have together := (exactly wide fits).mpr unsplit
  have apart := (exactly wide' fits').mpr unsplit'
  simp only [slices_append, slices, List.map_append, List.map_cons, List.map_nil] at together apart
  rw [List.sum_append, List.sum_singleton] at fits
  have first : ((bits.drop before.sum).take width).length = width :=
    List.length_take_of_le (by rw [List.length_drop]; omega)
  have second : (((bits.drop before.sum).drop width).take width').length = width' :=
    List.length_take_of_le (by rw [List.length_drop, List.length_drop]; omega)
  refine ⟨_, _, _, apart, together.trans ?_⟩
  rw [List.take_add, StorageType.value_append, first, second]

theorem getValues_slices_sample :
    (getValues [1, 31] ⟨[2, 0, 0, 0, 0], 0, .byteBackToFront, 0, 0⟩).map Prod.fst = .ok [0, 1] := by
  have created : create [2, 0, 0, 0, 0] 0 .byteBackToFront = .ok ⟨[2, 0, 0, 0, 0], 0, .byteBackToFront, 0, 0⟩ := rfl
  refine (getValues_slices created (by decide) (by decide)).2.1.mpr ?_
  simp [Unsplit, firstPass]
  decide

/-- A read of 32 bits back to front that starts at the second bit: the bit of the second pass becomes the lowest. -/
theorem getValues_misorders : ∃ stream, create [2, 0, 0, 0, 0] 0 .byteBackToFront = .ok stream ∧
    (getValues [1, 32] stream).map Prod.fst = .ok [0, 2] ∧
    (slices [1, 32] (StorageType.bytesBits .byteBackToFront [2, 0, 0, 0, 0])).map
      (StorageType.value .byteBackToFront) = [0, 1] :=
  ⟨_, rfl, by decide, by decide⟩

end BitStream
end Fsapfs
