import Fsapfs.KeyEncryptedKey
import Fsapfs.Program.Undo
import Mathlib.Data.List.GetD

/-! The key wrap of RFC 3394, with a register and the blocks of data beside it. -/

namespace Fsapfs
open Program

structure KeyBlocks where
  register : List UInt8
  blocks : List (List UInt8)

namespace KeyBlocks

def bytes (state : KeyBlocks) : List UInt8 := state.register ++ state.blocks.flatten

def ofData : Nat → List UInt8 → List (List UInt8)
  | 0, _ => []
  | numberOfBlocks + 1, data => data.take 8 :: ofData numberOfBlocks (data.drop 8)

structure Sized (numberOfBlocks : Nat) (state : KeyBlocks) : Prop where
  register : state.register.length = 8
  count : state.blocks.length = numberOfBlocks
  blocks : ∀ block ∈ state.blocks, block.length = 8

def counter (numberOfBlocks roundIndex index : Nat) : List UInt8 :=
  bigEndianBytes 8 (roundIndex * numberOfBlocks + (index + 1))

def exclusiveOr (bytes bytes' : List UInt8) : List UInt8 := List.zipWith (· ^^^ ·) bytes bytes'

def wrapStep (encrypt : List UInt8 → Bytes 16) (numberOfBlocks roundIndex : Nat) (state : KeyBlocks) (index : Nat) :
    KeyBlocks :=
  let block := (encrypt (state.register ++ state.blocks.getD index [])).val
  ⟨exclusiveOr (counter numberOfBlocks roundIndex index) (block.take 8), state.blocks.set index (block.drop 8)⟩

def unwrapStep (decrypt : List UInt8 → Bytes 16) (numberOfBlocks roundIndex : Nat) (state : KeyBlocks) (index : Nat) :
    KeyBlocks :=
  let block := (decrypt (exclusiveOr (counter numberOfBlocks roundIndex index) state.register ++
    state.blocks.getD index [])).val
  ⟨block.take 8, state.blocks.set index (block.drop 8)⟩

def wrapRound (encrypt : List UInt8 → Bytes 16) (numberOfBlocks : Nat) (state : KeyBlocks) (roundIndex : Nat) :
    KeyBlocks :=
  (List.range numberOfBlocks).foldl (wrapStep encrypt numberOfBlocks roundIndex) state

def unwrapRound (decrypt : List UInt8 → Bytes 16) (numberOfBlocks : Nat) (state : KeyBlocks) (roundIndex : Nat) :
    KeyBlocks :=
  (List.range numberOfBlocks).reverse.foldl (unwrapStep decrypt numberOfBlocks roundIndex) state

end KeyBlocks

open KeyBlocks

/-- The key wrap of whole blocks of data under an initial value. -/
def keyWrap (encrypt : List UInt8 → Bytes 16) (initialValue data : List UInt8) : List UInt8 :=
  let numberOfBlocks := data.length / 8
  ((List.range 6).foldl (wrapRound encrypt numberOfBlocks) ⟨initialValue, ofData numberOfBlocks data⟩).bytes

namespace KeyBlocks

variable {n roundIndex index : Nat} {state : KeyBlocks} {encrypt decrypt : List UInt8 → Bytes 16}

@[simp] theorem counter_length (n roundIndex index : Nat) : (counter n roundIndex index).length = 8 :=
  bigEndianBytes_length

theorem exclusiveOr_length {bytes bytes' : List UInt8} (same : bytes.length = bytes'.length) :
    (exclusiveOr bytes bytes').length = bytes'.length := by
  simp [exclusiveOr, same]

theorem exclusiveOr_twice {bytes bytes' : List UInt8} (same : bytes.length = bytes'.length) :
    exclusiveOr bytes (exclusiveOr bytes bytes') = bytes' := by
  apply List.ext_getElem
  · rw [exclusiveOr_length (by rw [exclusiveOr_length same, same]), exclusiveOr_length same]
  · intro i inside inside'
    simp only [exclusiveOr, List.getElem_zipWith, ← UInt8.xor_assoc, UInt8.xor_self, UInt8.zero_xor]

theorem Sized.getD (sized : state.Sized n) (inside : index < n) : (state.blocks.getD index []).length = 8 := by
  have bound : index < state.blocks.length := sized.count ▸ inside
  rw [List.getD_eq_getElem _ _ bound]
  exact sized.blocks _ (List.getElem_mem bound)

theorem Sized.set (sized : state.Sized n) {register block : List UInt8} (size : register.length = 8)
    (size' : block.length = 8) : (⟨register, state.blocks.set index block⟩ : KeyBlocks).Sized n where
  register := size
  count := by rw [List.length_set, sized.count]
  blocks other member := (List.mem_or_eq_of_mem_set member).elim (sized.blocks other) fun same => same ▸ size'

theorem wrapStep_sized (sized : state.Sized n) : (wrapStep encrypt n roundIndex state index).Sized n := by
  unfold wrapStep
  generalize encrypt _ = block
  have size := block.property
  apply sized.set
  · rw [exclusiveOr_length (by simp [size])]
    simp [size]
  · simp [size]

theorem unwrapStep_sized (sized : state.Sized n) : (unwrapStep decrypt n roundIndex state index).Sized n := by
  unfold unwrapStep
  generalize decrypt _ = block
  have size := block.property
  apply sized.set <;> simp [size]

theorem set_getD (inside : index < state.blocks.length) (block : List UInt8) :
    (state.blocks.set index block).getD index [] = block ∧
      (state.blocks.set index block).set index (state.blocks.getD index []) = state.blocks := by
  constructor
  · simp [List.getD, inside]
  · rw [List.set_set, List.getD_eq_getElem _ _ inside, List.set_getElem_self]

theorem unwrapStep_wrapStep (inverse : ∀ block, block.length = 16 → (decrypt (encrypt block).val).val = block)
    (sized : state.Sized n) (inside : index < n) :
    unwrapStep decrypt n roundIndex (wrapStep encrypt n roundIndex state index) index = state := by
  have bound : index < state.blocks.length := sized.count ▸ inside
  have whole : (state.register ++ state.blocks.getD index []).length = 16 := by
    rw [List.length_append, sized.register, sized.getD inside]
  have decrypted := inverse _ whole
  unfold unwrapStep wrapStep
  dsimp only
  generalize encrypt (state.register ++ state.blocks.getD index []) = block at decrypted ⊢
  have size := block.property
  obtain ⟨got, set⟩ := set_getD bound (block.val.drop 8)
  rw [exclusiveOr_twice (by simp [size]), got, List.take_append_drop, decrypted, List.take_left' sized.register,
    List.drop_left' sized.register, set]

theorem wrapStep_unwrapStep (inverse : ∀ block, block.length = 16 → (encrypt (decrypt block).val).val = block)
    (sized : state.Sized n) (inside : index < n) :
    wrapStep encrypt n roundIndex (unwrapStep decrypt n roundIndex state index) index = state := by
  have bound : index < state.blocks.length := sized.count ▸ inside
  have same : (counter n roundIndex index).length = state.register.length := by rw [counter_length, sized.register]
  have size : (exclusiveOr (counter n roundIndex index) state.register).length = 8 := by
    rw [exclusiveOr_length same, sized.register]
  have whole : (exclusiveOr (counter n roundIndex index) state.register ++ state.blocks.getD index []).length = 16 := by
    rw [List.length_append, size, sized.getD inside]
  have encrypted := inverse _ whole
  unfold wrapStep unwrapStep
  dsimp only
  generalize decrypt (exclusiveOr (counter n roundIndex index) state.register ++ state.blocks.getD index []) = block
    at encrypted ⊢
  obtain ⟨got, set⟩ := set_getD bound (block.val.drop 8)
  rw [got, List.take_append_drop, encrypted, List.take_left' size, List.drop_left' size, set, exclusiveOr_twice same]

theorem wrapRound_sized (sized : state.Sized n) : (wrapRound encrypt n state roundIndex).Sized n :=
  foldl_keeps (fun _ sized _ _ => wrapStep_sized sized) sized

theorem unwrapRound_sized (sized : state.Sized n) : (unwrapRound decrypt n state roundIndex).Sized n :=
  foldl_keeps (fun _ sized _ _ => unwrapStep_sized sized) sized

theorem unwrapRound_wrapRound (inverse : ∀ block, block.length = 16 → (decrypt (encrypt block).val).val = block)
    (sized : state.Sized n) : unwrapRound decrypt n (wrapRound encrypt n state roundIndex) roundIndex = state :=
  foldl_undo (fun _ sized _ _ => wrapStep_sized sized)
    (fun _ sized _ member => unwrapStep_wrapStep inverse sized (List.mem_range.mp member)) sized

theorem wrapRound_unwrapRound (inverse : ∀ block, block.length = 16 → (encrypt (decrypt block).val).val = block)
    (sized : state.Sized n) : wrapRound encrypt n (unwrapRound decrypt n state roundIndex) roundIndex = state := by
  have undone := @foldl_undo _ _ _ (unwrapStep decrypt n roundIndex) (wrapStep encrypt n roundIndex)
    (List.range n).reverse (fun _ sized _ _ => unwrapStep_sized sized)
    (fun _ sized _ member => wrapStep_unwrapStep inverse sized (List.mem_range.mp (List.mem_reverse.mp member)))
    state sized
  rwa [List.reverse_reverse] at undone

theorem flatten_block {blocks : List (List UInt8)} (sizes : ∀ block ∈ blocks, block.length = 8)
    (inside : index < blocks.length) : (blocks.flatten.drop (index * 8)).take 8 = blocks.getD index [] := by
  induction blocks generalizing index with
  | nil => exact absurd inside (Nat.not_lt_zero _)
  | cons block blocks ih =>
      have size := sizes block (List.mem_cons_self ..)
      cases index with
      | zero => simp [List.take_left' size]
      | succ index =>
          rw [List.flatten_cons, Nat.succ_mul, Nat.add_comm, ← List.drop_drop, List.drop_left' size,
            ih (fun other member => sizes other (List.mem_cons_of_mem _ member)) (Nat.lt_of_succ_lt_succ inside)]
          rfl

theorem overlayAt_append {front back bytes : List UInt8} {size offset : Nat} (length : front.length = size) :
    overlayAt (front ++ back) (size + offset) bytes = front ++ overlayAt back offset bytes := by
  subst length
  simp [overlayAt, List.take_append, List.drop_append, List.take_of_length_le, List.drop_of_length_le, Nat.add_assoc]

theorem overlayAt_zero {front back bytes : List UInt8} (same : bytes.length = front.length) :
    overlayAt (front ++ back) 0 bytes = bytes ++ back := by
  simp [overlayAt, same]

theorem overlayAt_flatten {blocks : List (List UInt8)} (sizes : ∀ block ∈ blocks, block.length = 8)
    (inside : index < blocks.length) {block : List UInt8} (size : block.length = 8) :
    overlayAt blocks.flatten (index * 8) block = (blocks.set index block).flatten := by
  induction blocks generalizing index with
  | nil => exact absurd inside (Nat.not_lt_zero _)
  | cons first blocks ih =>
      have length := sizes first (List.mem_cons_self ..)
      cases index with
      | zero =>
          rw [Nat.zero_mul, List.flatten_cons, overlayAt_zero (size.trans length.symm)]
          rfl
      | succ index =>
          rw [Nat.succ_mul, Nat.add_comm, List.flatten_cons, overlayAt_append length,
            ih (fun other member => sizes other (List.mem_cons_of_mem _ member)) (Nat.lt_of_succ_lt_succ inside)]
          rfl

theorem unwrapBlock_bytes {ciphers : Ciphers} {key : List UInt8} (sized : state.Sized n) (inside : index < n) :
    unwrapBlock ciphers key (n + 1) roundIndex (index + 1) state.bytes =
      (unwrapStep (ciphers.decryptBlock key) n roundIndex state index).bytes := by
  have bound : index < state.blocks.length := sized.count ▸ inside
  have register : state.bytes.take 8 = state.register := List.take_left' sized.register
  have block : (state.bytes.drop ((index + 1) * 8)).take 8 = state.blocks.getD index [] := by
    rw [Nat.succ_mul, Nat.add_comm, ← List.drop_drop, bytes, List.drop_left' sized.register,
      flatten_block sized.blocks bound]
  unfold unwrapBlock unwrapStep
  dsimp only
  rw [register, block, Nat.add_sub_cancel, exclusiveOr, counter]
  generalize ciphers.decryptBlock key _ = decrypted
  have size := decrypted.property
  have first : (decrypted.val.take 8).length = 8 := by simp [size]
  rw [bytes, overlayAt_zero (first.trans sized.register.symm), Nat.succ_mul, Nat.add_comm, overlayAt_append first,
    overlayAt_flatten sized.blocks bound (by simp [size])]
  rfl

theorem unwrapRound_bytes {ciphers : Ciphers} {key : List UInt8} (sized : state.Sized n) :
    (List.range n).reverse.foldl (fun data index => unwrapBlock ciphers key (n + 1) roundIndex (index + 1) data)
        state.bytes = (unwrapRound (ciphers.decryptBlock key) n state roundIndex).bytes :=
  foldl_follows (fun _ sized _ _ => unwrapStep_sized sized)
    (fun _ sized _ member => unwrapBlock_bytes sized (List.mem_range.mp (List.mem_reverse.mp member))) sized

def unwrapRounds (decrypt : List UInt8 → Bytes 16) (n : Nat) (state : KeyBlocks) : KeyBlocks :=
  (List.range 6).reverse.foldl (unwrapRound decrypt n) state

def wrapRounds (encrypt : List UInt8 → Bytes 16) (n : Nat) (state : KeyBlocks) : KeyBlocks :=
  (List.range 6).foldl (wrapRound encrypt n) state

theorem unwrapRounds_wrapRounds (inverse : ∀ block, block.length = 16 → (decrypt (encrypt block).val).val = block)
    (sized : state.Sized n) : unwrapRounds decrypt n (wrapRounds encrypt n state) = state :=
  foldl_undo (fun _ sized _ _ => wrapRound_sized sized) (fun _ sized _ _ => unwrapRound_wrapRound inverse sized) sized

theorem wrapRounds_unwrapRounds (inverse : ∀ block, block.length = 16 → (encrypt (decrypt block).val).val = block)
    (sized : state.Sized n) : wrapRounds encrypt n (unwrapRounds decrypt n state) = state := by
  have undone := @foldl_undo _ _ _ (unwrapRound decrypt n) (wrapRound encrypt n) (List.range 6).reverse
    (fun _ sized _ _ => unwrapRound_sized sized) (fun _ sized _ _ => wrapRound_unwrapRound inverse sized) state sized
  rwa [List.reverse_reverse] at undone

theorem wrapRounds_sized (sized : state.Sized n) : (wrapRounds encrypt n state).Sized n :=
  foldl_keeps (fun _ sized _ _ => wrapRound_sized sized) sized

theorem unwrapRounds_sized (sized : state.Sized n) : (unwrapRounds decrypt n state).Sized n :=
  foldl_keeps (fun _ sized _ _ => unwrapRound_sized sized) sized

theorem Sized.flatten_length (sized : state.Sized n) : state.blocks.flatten.length = 8 * n := by
  obtain ⟨register, blocks⟩ := state
  have count : blocks.length = n := sized.count
  have sizes : ∀ block ∈ blocks, block.length = 8 := sized.blocks
  clear sized
  subst count
  dsimp only
  induction blocks with
  | nil => rfl
  | cons block blocks ih =>
      rw [List.flatten_cons, List.length_append, sizes block (List.mem_cons_self ..),
        ih fun other member => sizes other (List.mem_cons_of_mem _ member), List.length_cons, Nat.mul_succ, Nat.add_comm]

theorem Sized.bytes_length (sized : state.Sized n) : state.bytes.length = 8 * (n + 1) := by
  rw [bytes, List.length_append, sized.register, sized.flatten_length, Nat.mul_succ, Nat.add_comm]

theorem ofData_sized {register data : List UInt8} (size : register.length = 8) (length : data.length = 8 * n) :
    (⟨register, ofData n data⟩ : KeyBlocks).Sized n ∧ (ofData n data).flatten = data := by
  suffices all : (ofData n data).length = n ∧ (∀ block ∈ ofData n data, block.length = 8) ∧
      (ofData n data).flatten = data from ⟨⟨size, all.1, all.2.1⟩, all.2.2⟩
  induction n generalizing data with
  | zero => simp [ofData, List.length_eq_zero_iff.mp length]
  | succ n ih =>
      obtain ⟨count, sizes, whole⟩ := ih (show (data.drop 8).length = 8 * n by rw [List.length_drop]; omega)
      refine ⟨by rw [ofData, List.length_cons, count], ?_, by rw [ofData, List.flatten_cons, whole, List.take_append_drop]⟩
      intro block member
      rcases List.mem_cons.mp member with rfl | member
      · rw [List.length_take]
        omega
      · exact sizes block member

theorem Sized.ofData_flatten (sized : state.Sized n) : ofData n state.blocks.flatten = state.blocks := by
  obtain ⟨register, blocks⟩ := state
  have count : blocks.length = n := sized.count
  have sizes : ∀ block ∈ blocks, block.length = 8 := sized.blocks
  clear sized
  subst count
  dsimp only
  induction blocks with
  | nil => rfl
  | cons block blocks ih =>
      have size := sizes block (List.mem_cons_self ..)
      rw [List.length_cons, ofData, List.flatten_cons, List.take_left' size, List.drop_left' size,
        ih fun other member => sizes other (List.mem_cons_of_mem _ member)]

end KeyBlocks

theorem aesKeyUnwrap_bytes {ciphers : Ciphers} {key : List UInt8} {keyBitSize n : Nat} {state : KeyBlocks}
    (bits : keyBitSize = 128 ∨ keyBitSize = 192 ∨ keyBitSize = 256) (some : 0 < n) (sized : state.Sized n)
    (limit : 8 * (n + 1) ≤ ssizeMax) :
    aesKeyUnwrap ciphers key keyBitSize state.bytes =
      .ok (unwrapRounds (ciphers.decryptBlock key) n state).bytes := by
  have length := sized.bytes_length
  have count : state.bytes.length / 8 = n + 1 := by omega
  unfold aesKeyUnwrap
  rw [if_neg (by omega), if_neg (by omega), if_neg (by omega), if_neg (by omega)]
  simp only [count, Nat.add_sub_cancel]
  exact congrArg Except.ok (foldl_follows (fun _ sized _ _ => unwrapRound_sized sized)
    (fun _ sized _ _ => unwrapRound_bytes sized) sized)

theorem keyWrap_bytes {encrypt : List UInt8 → Bytes 16} {n : Nat} {state : KeyBlocks} (sized : state.Sized n) :
    keyWrap encrypt state.register state.blocks.flatten = (wrapRounds encrypt n state).bytes := by
  have count : state.blocks.flatten.length / 8 = n := by
    rw [sized.flatten_length, Nat.mul_div_cancel_left n (by simp)]
  simp only [keyWrap, count, sized.ofData_flatten]
  rfl

/-- Unwrapping gives back what was wrapped, and wrapping what was unwrapped; only what was wrapped under a value is
unwrapped with it. -/
theorem aesKeyUnwrap_keyWrap {ciphers : Ciphers} {key : List UInt8} {keyBitSize : Nat}
    (bits : keyBitSize = 128 ∨ keyBitSize = 192 ∨ keyBitSize = 256) {encrypt : List UInt8 → Bytes 16}
    (decrypted : ∀ block : Bytes 16, ciphers.decryptBlock key (encrypt block.val).val = block)
    (encrypted : ∀ block : Bytes 16, encrypt (ciphers.decryptBlock key block.val).val = block) {n : Nat} (some : 1 ≤ n)
    (limit : 8 * (n + 1) ≤ ssizeMax) :
    (∀ initialValue plain : List UInt8, initialValue.length = 8 → plain.length = 8 * n →
        aesKeyUnwrap ciphers key keyBitSize (keyWrap encrypt initialValue plain) = .ok (initialValue ++ plain)) ∧
      ∀ wrapped : List UInt8, wrapped.length = 8 * (n + 1) → ∃ unwrapped,
        aesKeyUnwrap ciphers key keyBitSize wrapped = .ok unwrapped ∧ unwrapped.length = 8 * (n + 1) ∧
        keyWrap encrypt (unwrapped.take 8) (unwrapped.drop 8) = wrapped ∧
        (unwrapped.take 8 = KeyEncryptedKey.wrappedKekInitializationVector ↔ ∃ plain : List UInt8,
          plain.length = 8 * n ∧ wrapped = keyWrap encrypt KeyEncryptedKey.wrappedKekInitializationVector plain) := by
  have decrypted' : ∀ block, block.length = 16 → (ciphers.decryptBlock key (encrypt block).val).val = block :=
    fun block size => congrArg Subtype.val (decrypted ⟨block, size⟩)
  have encrypted' : ∀ block, block.length = 16 → (encrypt (ciphers.decryptBlock key block).val).val = block :=
    fun block size => congrArg Subtype.val (encrypted ⟨block, size⟩)
  have unwraps : ∀ initialValue plain : List UInt8, initialValue.length = 8 → plain.length = 8 * n →
      aesKeyUnwrap ciphers key keyBitSize (keyWrap encrypt initialValue plain) = .ok (initialValue ++ plain) := by
    intro initialValue plain size length
    obtain ⟨sized, whole⟩ := ofData_sized size length
    have wrapped := @keyWrap_bytes encrypt n _ sized
    rw [whole] at wrapped
    rw [wrapped, aesKeyUnwrap_bytes bits some (wrapRounds_sized sized) limit, unwrapRounds_wrapRounds decrypted' sized,
      bytes, whole]
  refine ⟨unwraps, fun wrapped length => ?_⟩
  have front : (wrapped.take 8).length = 8 := by
    rw [List.length_take]
    omega
  obtain ⟨sized, whole⟩ := @ofData_sized n (wrapped.take 8) (wrapped.drop 8) front
    (by rw [List.length_drop]; omega)
  have unwrapped := @aesKeyUnwrap_bytes ciphers key keyBitSize n _ bits some sized limit
  have wraps := wrapRounds_unwrapRounds encrypted' sized
  have sized' := @unwrapRounds_sized n _ (ciphers.decryptBlock key) sized
  rw [bytes, whole, List.take_append_drop] at unwrapped
  have rewrapped := @keyWrap_bytes encrypt n _ sized'
  rw [wraps, bytes, whole, List.take_append_drop] at rewrapped
  generalize unwrapRounds (ciphers.decryptBlock key) n ⟨wrapped.take 8, ofData n (wrapped.drop 8)⟩ = state
    at unwrapped sized' rewrapped
  have first : state.bytes.take 8 = state.register := List.take_left' sized'.register
  have rest : state.bytes.drop 8 = state.blocks.flatten := List.drop_left' sized'.register
  refine ⟨_, unwrapped, sized'.bytes_length, by rw [first, rest, rewrapped], ?_⟩
  rw [first]
  constructor
  · rintro same
    exact ⟨_, sized'.flatten_length, by rw [← same, rewrapped]⟩
  · rintro ⟨plain, length', rfl⟩
    have both := (unwraps _ plain rfl length').symm.trans unwrapped
    rw [← first, ← Except.ok.inj both]
    rfl

namespace KeyBlocks.Sample

def reverseBlock (block : List UInt8) : Bytes 16 :=
  if size : block.length = 16 then ⟨block.reverse, by rw [List.length_reverse, size]⟩ else Bytes.zero 16

def reversing : Ciphers where
  calculateHmac _ _ := Bytes.zero 32
  calculateSha256 _ := Bytes.zero 32
  decryptBlock _ := reverseBlock

theorem reverseBlock_twice (block : Bytes 16) : reverseBlock (reverseBlock block.val).val = block := by
  apply Subtype.ext
  simp [reverseBlock, block.property]

end KeyBlocks.Sample

open KeyBlocks.Sample in
theorem aesKeyUnwrap_keyWrap_sample :
    aesKeyUnwrap reversing [] 256 (keyWrap reverseBlock (List.replicate 8 0xa6) ((List.range 24).map UInt8.ofNat)) =
        .ok (List.replicate 8 0xa6 ++ (List.range 24).map UInt8.ofNat) ∧
      ∃ unwrapped, aesKeyUnwrap reversing [] 256 ((List.range 32).map UInt8.ofNat) = .ok unwrapped ∧
        keyWrap reverseBlock (unwrapped.take 8) (unwrapped.drop 8) = (List.range 32).map UInt8.ofNat := by
  obtain ⟨unwraps, wraps⟩ := @aesKeyUnwrap_keyWrap reversing [] 256 (by simp) reverseBlock reverseBlock_twice
    reverseBlock_twice 3 (by simp) (by simp [ssizeMax])
  obtain ⟨unwrapped, unwrap, -, same, -⟩ := wraps ((List.range 32).map UInt8.ofNat) rfl
  exact ⟨unwraps _ _ rfl rfl, unwrapped, unwrap, same⟩

end Fsapfs
