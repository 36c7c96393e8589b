import Fsapfs.KeyEncryptedKey

/-! The derivation of a key from a password as it fills its buffer, and by the definition of PBKDF2. -/

namespace Fsapfs
open Program

section buffers

variable (ciphers : Ciphers) (password salt : List UInt8) (numberOfIterations : Nat)

def copyHash (hash : List UInt8) (blockOffset size : Nat) (outputData : List UInt8) : Result (List UInt8) :=
  if blockOffset + size ≤ outputData.length ∧ size ≤ hash.length then
    .ok (overlayAt outputData blockOffset (hash.take size))
  else .error .undefined

def exclusiveOrHash (hash : List UInt8) (blockOffset size : Nat) (outputData : List UInt8) : Result (List UInt8) :=
  (List.range size).foldlM (fun outputData byteIndex => do
    let byte ← load outputData (blockOffset + byteIndex)
    let hashByte ← load hash byteIndex
    store outputData (blockOffset + byteIndex) (byte ^^^ hashByte)) outputData

def iteratePassword (blockOffset size : Nat) : Nat → List UInt8 → List UInt8 → Result (List UInt8)
  | 0, _, outputData => .ok outputData
  | iterations + 1, hash, outputData => do
      let hash := (ciphers.calculateHmac password hash).val
      let outputData ← exclusiveOrHash hash blockOffset size outputData
      iteratePassword blockOffset size iterations hash outputData

def computeBlock (blockIndex blockOffset size : Nat) (outputData : List UInt8) : Result (List UInt8) := do
  let hash := (ciphers.calculateHmac password (salt ++ bigEndianBytes 4 ((blockIndex + 1) % 2 ^ 32))).val
  let outputData ← copyHash hash blockOffset size outputData
  iteratePassword ciphers password blockOffset size (numberOfIterations - 1) hash outputData

def computeBlocks (numberOfBlocks : Nat) (outputData : List UInt8) : Result (Nat × List UInt8) :=
  (List.range numberOfBlocks).foldlM (fun (blockOffset, outputData) blockIndex => do
    let outputData ← computeBlock ciphers password salt numberOfIterations blockIndex blockOffset 32 outputData
    .ok (blockOffset + 32, outputData)) (0, outputData)

def computeRest (numberOfBlocks blockOffset remainingDataSize : Nat) (outputData : List UInt8) : Result (List UInt8) :=
  if remainingDataSize > 0 then
    computeBlock ciphers password salt numberOfIterations numberOfBlocks blockOffset remainingDataSize outputData
  else .ok outputData

/-- The derivation in its output buffer, undefined where it would go beyond a buffer. -/
def fillPbkdf2 (outputDataSize : Nat) : Result (List UInt8) :=
  if password.length > ssizeMax then fail .valueExceedsMaximum
  else if salt.length > ssizeMax then fail .valueExceedsMaximum
  else if numberOfIterations = 0 then fail .valueZeroOrLess
  else if outputDataSize > ssizeMax then fail .valueExceedsMaximum
  else if salt.length + 4 > memoryMaximumAllocationSize then fail .valueExceedsMaximum
  else do
    let numberOfBlocks := (outputDataSize / 32) % 2 ^ 32
    let remainingDataSize := outputDataSize - numberOfBlocks * 32
    let (blockOffset, outputData) ← computeBlocks ciphers password salt numberOfIterations numberOfBlocks
      (List.replicate outputDataSize 0)
    computeRest ciphers password salt numberOfIterations numberOfBlocks blockOffset remainingDataSize outputData

end buffers

section definition

variable (hmac : List UInt8 → List UInt8 → List UInt8) (password salt : List UInt8)

def passwordHash (blockNumber : Nat) : Nat → List UInt8
  | 0 => hmac password (salt ++ bigEndianBytes 4 blockNumber)
  | iteration + 1 => hmac password (passwordHash blockNumber iteration)

def passwordBlock (numberOfIterations blockNumber : Nat) : List UInt8 :=
  (List.range numberOfIterations).foldl (fun block iteration =>
    List.zipWith (· ^^^ ·) block (passwordHash hmac password salt blockNumber iteration)) (List.replicate 32 0)

/-- The bytes of the blocks, numbered from one, up to a size. -/
def passwordKey (numberOfIterations size : Nat) : List UInt8 :=
  ((List.range ((size + 31) / 32)).flatMap fun index =>
    passwordBlock hmac password salt numberOfIterations (index + 1)).take size

end definition

section derived

variable {ciphers : Ciphers} {password salt : List UInt8}

theorem exclusiveOrHash_ok {front block back hash : List UInt8} (size : block.length ≤ hash.length) :
    exclusiveOrHash hash front.length block.length (front ++ block ++ back) =
      .ok (front ++ List.zipWith (· ^^^ ·) block hash ++ back) := by
  let mixed := List.zipWith (· ^^^ ·) block hash
  have length : mixed.length = block.length := by simp [mixed, size]
  have run : Outcome (exclusiveOrHash hash front.length block.length (front ++ block ++ back))
      (· = front ++ (mixed.take block.length ++ block.drop block.length) ++ back) False := by
    refine outcome_foldlM_range (fun i data => data = front ++ (mixed.take i ++ block.drop i) ++ back) ?_ ?_
    · simp
    · rintro i _ inside rfl
      have inside' : i < mixed.length := length ▸ inside
      have within : i < hash.length := Nat.lt_of_lt_of_le inside size
      have split : front ++ (mixed.take i ++ block.drop i) ++ back =
          front ++ mixed.take i ++ (block[i] :: (block.drop (i + 1) ++ back)) := by
        rw [List.drop_eq_getElem_cons inside]
        simp only [List.append_assoc, List.cons_append]
      have place : front.length + i = (front ++ mixed.take i).length := by
        rw [List.length_append, List.length_take_of_le (Nat.le_of_lt inside')]
      have read : load (ε := ErrorCode) (front ++ mixed.take i ++ (block[i] :: (block.drop (i + 1) ++ back)))
          (front ++ mixed.take i).length = .ok block[i] := load_of_getElem? (by simp)
      have written : mixed.take (i + 1) = mixed.take i ++ [block[i] ^^^ hash[i]] := by
        rw [List.take_add_one, List.getElem?_eq_getElem inside']
        simp [mixed]
      rw [split, place, read, ok_bind, load_of_lt within, ok_bind, store_of_lt _ (by simp), outcome_ok,
        List.set_append_right _ _ (Nat.le_refl _), Nat.sub_self, List.set_cons_zero, written]
      simp only [List.append_assoc, List.cons_append, List.nil_append]
  obtain ⟨data, computed, same⟩ := run.value not_false
  rw [computed, same, ← length, List.take_length, length, List.drop_length, List.append_nil]

theorem iteratePassword_ok {front block back hash : List UInt8} {iterations : Nat} (size : block.length ≤ 32) :
    iteratePassword ciphers password front.length block.length iterations hash (front ++ block ++ back) =
      .ok (front ++ iterateHmac ciphers password iterations hash block ++ back) := by
  induction iterations generalizing hash block with
  | zero => rfl
  | succ iterations ih =>
      have wide : (ciphers.calculateHmac password hash).val.length = 32 := (ciphers.calculateHmac password hash).property
      have length : (List.zipWith (· ^^^ ·) block (ciphers.calculateHmac password hash).val).length = block.length := by
        simp [wide, size]
      have rest := @ih _ (ciphers.calculateHmac password hash).val (length ▸ size)
      rw [length] at rest
      rw [iteratePassword, exclusiveOrHash_ok (by omega), ok_bind, rest, iterateHmac]

theorem copyHash_ok {front block back hash : List UInt8} (size : block.length ≤ hash.length) :
    copyHash hash front.length block.length (front ++ block ++ back) =
      .ok (front ++ hash.take block.length ++ back) := by
  unfold copyHash
  rw [if_pos ⟨by simp, size⟩]
  simp [overlayAt, size, List.drop_append, List.drop_of_length_le]

theorem computeBlock_ok {numberOfIterations blockIndex : Nat} (few : blockIndex + 1 < 2 ^ 32)
    {front block back : List UInt8} (size : block.length ≤ 32) :
    computeBlock ciphers password salt numberOfIterations blockIndex front.length block.length
      (front ++ block ++ back) =
      .ok (front ++ deriveBlock ciphers password salt numberOfIterations blockIndex block.length ++ back) := by
  rw [computeBlock, deriveBlock, Nat.mod_eq_of_lt few]
  generalize ciphers.calculateHmac password (salt ++ bigEndianBytes 4 (blockIndex + 1)) = hash
  have wide := hash.property
  have length : (hash.val.take block.length).length = block.length := by simp [wide, size]
  have rest := @iteratePassword_ok ciphers password front (hash.val.take block.length) back hash.val
    (numberOfIterations - 1) (by rw [length]; exact size)
  rw [length] at rest
  rw [copyHash_ok (by omega), ok_bind, rest]

theorem iterateHmac_length {iterations : Nat} {hash block : List UInt8} (size : block.length ≤ 32) :
    (iterateHmac ciphers password iterations hash block).length = block.length := by
  induction iterations generalizing hash block with
  | zero => rfl
  | succ iterations ih =>
      have wide : (ciphers.calculateHmac password hash).val.length = 32 := (ciphers.calculateHmac password hash).property
      have length : (List.zipWith (· ^^^ ·) block (ciphers.calculateHmac password hash).val).length = block.length := by
        simp [wide, size]
      rw [iterateHmac, ih (by rw [length]; exact size), length]

theorem deriveBlock_length {numberOfIterations blockIndex size : Nat} (small : size ≤ 32) :
    (deriveBlock ciphers password salt numberOfIterations blockIndex size).length = size := by
  rw [deriveBlock]
  generalize ciphers.calculateHmac password (salt ++ bigEndianBytes 4 (blockIndex + 1)) = hash
  have length : (hash.val.take size).length = size := by simp [hash.property, small]
  rw [iterateHmac_length (by rw [length]; exact small), length]

theorem deriveBlocks_length (numberOfIterations numberOfBlocks : Nat) :
    ((List.range numberOfBlocks).flatMap fun blockIndex =>
      deriveBlock ciphers password salt numberOfIterations blockIndex 32).length = numberOfBlocks * 32 := by
  induction numberOfBlocks with
  | zero => rfl
  | succ numberOfBlocks ih =>
      rw [List.range_succ, List.flatMap_append, List.length_append, ih, List.flatMap_singleton,
        deriveBlock_length (Nat.le_refl _), Nat.succ_mul]

theorem computeBlocks_ok {numberOfIterations numberOfBlocks : Nat} (few : numberOfBlocks < 2 ^ 32)
    {outputData : List UInt8} (room : numberOfBlocks * 32 ≤ outputData.length) : ∃ rest,
    computeBlocks ciphers password salt numberOfIterations numberOfBlocks outputData =
        .ok (numberOfBlocks * 32, (List.range numberOfBlocks).flatMap (fun blockIndex =>
          deriveBlock ciphers password salt numberOfIterations blockIndex 32) ++ rest) ∧
      rest.length = outputData.length - numberOfBlocks * 32 := by
  let written := fun i : Nat => (List.range i).flatMap fun blockIndex =>
    deriveBlock ciphers password salt numberOfIterations blockIndex 32
  have length : ∀ i, (written i).length = i * 32 := deriveBlocks_length numberOfIterations
  have run : Outcome (computeBlocks ciphers password salt numberOfIterations numberOfBlocks outputData)
      (fun p => ∃ rest, p = (numberOfBlocks * 32, written numberOfBlocks ++ rest) ∧
        rest.length = outputData.length - numberOfBlocks * 32) False := by
    refine outcome_foldlM_range (fun i p => ∃ rest, p = (i * 32, written i ++ rest) ∧
      rest.length = outputData.length - i * 32) ⟨outputData, by simp [written], by simp⟩ ?_
    rintro i _ inside ⟨rest, rfl, size⟩
    have block : (rest.take 32).length = 32 := List.length_take_of_le (by omega)
    have computed := @computeBlock_ok ciphers password salt numberOfIterations i (by omega) (written i) (rest.take 32)
      (rest.drop 32) (Nat.le_of_eq block)
    rw [length, block, List.append_assoc, List.take_append_drop] at computed
    dsimp only
    rw [computed, ok_bind, outcome_ok]
    refine ⟨rest.drop 32, ?_, by rw [List.length_drop]; omega⟩
    simp [written, List.range_succ, Nat.succ_mul]
  obtain ⟨_, computed, rest, rfl, size⟩ := run.value not_false
  exact ⟨rest, computed, size⟩

theorem fillPbkdf2_eq {numberOfIterations outputDataSize : Nat} (size : outputDataSize ≤ (2 ^ 32 - 1) * 32) :
    fillPbkdf2 ciphers password salt numberOfIterations outputDataSize =
      passwordPbkdf2 ciphers password salt numberOfIterations outputDataSize := by
  unfold fillPbkdf2 passwordPbkdf2
  split_ifs with long salted none wide large
  · rfl
  · rfl
  · rfl
  · rfl
  · rfl
  have few : outputDataSize / 32 % 2 ^ 32 = outputDataSize / 32 := Nat.mod_eq_of_lt (by omega)
  dsimp only
  rw [few]
  obtain ⟨rest, computed, left⟩ := @computeBlocks_ok ciphers password salt numberOfIterations (outputDataSize / 32)
    (by omega) (List.replicate outputDataSize 0) (by rw [List.length_replicate]; omega)
  rw [List.length_replicate] at left
  rw [computed, ok_bind, computeRest]
  dsimp only
  split_ifs with more
  · have block := @computeBlock_ok ciphers password salt numberOfIterations (outputDataSize / 32) (by omega)
      ((List.range (outputDataSize / 32)).flatMap fun blockIndex =>
        deriveBlock ciphers password salt numberOfIterations blockIndex 32) rest [] (by omega)
    rw [deriveBlocks_length, left, List.append_nil, List.append_nil] at block
    exact block
  · rw [List.length_eq_zero_iff.mp (left.trans (by omega))]

theorem passwordBlock_succ (hmac : List UInt8 → List UInt8 → List UInt8) (numberOfIterations blockNumber : Nat) :
    passwordBlock hmac password salt (numberOfIterations + 1) blockNumber =
      List.zipWith (· ^^^ ·) (passwordBlock hmac password salt numberOfIterations blockNumber)
        (passwordHash hmac password salt blockNumber numberOfIterations) := by
  simp [passwordBlock, List.range_succ]

theorem iterateHmac_eq {blockNumber size done : Nat} (iterations : Nat) :
    let hmac := fun password data => (ciphers.calculateHmac password data).val
    iterateHmac ciphers password iterations (passwordHash hmac password salt blockNumber done)
        ((passwordBlock hmac password salt (done + 1) blockNumber).take size) =
      (passwordBlock hmac password salt (done + 1 + iterations) blockNumber).take size := by
  intro hmac
  induction iterations generalizing done with
  | zero => rfl
  | succ iterations ih =>
      have mixed : List.zipWith (· ^^^ ·) ((passwordBlock hmac password salt (done + 1) blockNumber).take size)
          (passwordHash hmac password salt blockNumber (done + 1)) =
          (passwordBlock hmac password salt (done + 1 + 1) blockNumber).take size := by
        rw [passwordBlock_succ hmac (done + 1)]
        apply List.ext_getElem
        · simp
        · intro i inside inside'
          simp
      have next : (ciphers.calculateHmac password (passwordHash hmac password salt blockNumber done)).val =
          passwordHash hmac password salt blockNumber (done + 1) := rfl
      rw [iterateHmac, next, mixed, ih, Nat.add_assoc (done + 1), Nat.add_comm 1]

theorem deriveBlock_eq {numberOfIterations blockIndex size : Nat} (some : 1 ≤ numberOfIterations) :
    deriveBlock ciphers password salt numberOfIterations blockIndex size =
      (passwordBlock (fun password data => (ciphers.calculateHmac password data).val) password salt numberOfIterations
        (blockIndex + 1)).take size := by
  have wide := (ciphers.calculateHmac password (salt ++ bigEndianBytes 4 (blockIndex + 1))).property
  have all := @iterateHmac_eq ciphers password salt (blockIndex + 1) size 0 (numberOfIterations - 1)
  have first : passwordBlock (fun password data => (ciphers.calculateHmac password data).val) password salt 1
      (blockIndex + 1) = (ciphers.calculateHmac password (salt ++ bigEndianBytes 4 (blockIndex + 1))).val := by
    apply List.ext_getElem
    · simp [passwordBlock, passwordHash, wide]
    · intro i inside inside'
      simp [passwordBlock, passwordHash, -List.reduceReplicate]
  dsimp only at all
  rw [Nat.zero_add, first, Nat.add_sub_cancel' some] at all
  exact all

theorem passwordBlock_length (hmac : List UInt8 → List UInt8 → List UInt8)
    (wide : ∀ password data, (hmac password data).length = 32) (numberOfIterations blockNumber : Nat) :
    (passwordBlock hmac password salt numberOfIterations blockNumber).length = 32 := by
  induction numberOfIterations with
  | zero => simp [passwordBlock]
  | succ numberOfIterations ih =>
      have hash : (passwordHash hmac password salt blockNumber numberOfIterations).length = 32 := by
        cases numberOfIterations <;> exact wide _ _
      rw [passwordBlock_succ, List.length_zipWith, ih, hash, Nat.min_self]

/-- The derived key is that of PBKDF2 with the hash, and fits in its buffer. -/
theorem passwordPbkdf2_eq {numberOfIterations outputDataSize : Nat} (short : password.length ≤ ssizeMax)
    (salted : salt.length + 4 ≤ memoryMaximumAllocationSize) (some : 1 ≤ numberOfIterations)
    (size : outputDataSize ≤ (2 ^ 32 - 1) * 32) :
    passwordPbkdf2 ciphers password salt numberOfIterations outputDataSize =
        .ok (passwordKey (fun password data => (ciphers.calculateHmac password data).val) password salt
          numberOfIterations outputDataSize) ∧
      fillPbkdf2 ciphers password salt numberOfIterations outputDataSize =
        passwordPbkdf2 ciphers password salt numberOfIterations outputDataSize := by
  refine ⟨?_, fillPbkdf2_eq size⟩
  have salted' : salt.length ≤ ssizeMax := by
    unfold memoryMaximumAllocationSize at salted
    unfold ssizeMax
    omega
  have size' : outputDataSize ≤ ssizeMax := by
    unfold ssizeMax
    omega
  unfold passwordPbkdf2
  rw [if_neg (Nat.not_lt.mpr short), if_neg (Nat.not_lt.mpr salted'), if_neg (Nat.ne_of_gt some),
    if_neg (Nat.not_lt.mpr size'), if_neg (Nat.not_lt.mpr salted)]
  dsimp only
  let hmac := fun password data => (ciphers.calculateHmac password data).val
  have wide : ∀ index, (passwordBlock hmac password salt numberOfIterations index).length = 32 :=
    passwordBlock_length hmac (fun password data => (ciphers.calculateHmac password data).property) numberOfIterations
  have blocks : (fun blockIndex => deriveBlock ciphers password salt numberOfIterations blockIndex 32) =
      fun index => passwordBlock hmac password salt numberOfIterations (index + 1) := by
    funext index
    rw [deriveBlock_eq some, List.take_of_length_le (Nat.le_of_eq (wide _))]
  have length := @deriveBlocks_length ciphers password salt numberOfIterations (outputDataSize / 32)
  rw [blocks] at length ⊢
  apply congrArg Except.ok
  unfold passwordKey
  split_ifs with more
  · have count : (outputDataSize + 31) / 32 = outputDataSize / 32 + 1 := by omega
    have whole : outputDataSize / 32 * 32 ≤ outputDataSize := Nat.div_mul_le_self _ _
    rw [count, List.range_succ, List.flatMap_append, List.flatMap_singleton, deriveBlock_eq some]
    generalize (List.range (outputDataSize / 32)).flatMap _ = written at length ⊢
    have front : written.take outputDataSize = written := List.take_of_length_le (by rw [length]; exact whole)
    rw [List.take_append, front, length]
  · have count : (outputDataSize + 31) / 32 = outputDataSize / 32 := by omega
    rw [count, List.append_nil, List.take_of_length_le (by rw [length]; omega)]

theorem passwordPbkdf2_salted {numberOfIterations outputDataSize : Nat} (short : password.length ≤ ssizeMax)
    (salted : salt.length ≤ ssizeMax) (some : numberOfIterations ≠ 0) (size : outputDataSize ≤ ssizeMax)
    (large : salt.length + 4 > memoryMaximumAllocationSize) :
    passwordPbkdf2 ciphers password salt numberOfIterations outputDataSize = fail .valueExceedsMaximum := by
  unfold passwordPbkdf2
  rw [if_neg (Nat.not_lt.mpr short), if_neg (Nat.not_lt.mpr salted), if_neg some, if_neg (Nat.not_lt.mpr size),
    if_pos large]

end derived

namespace PasswordKey.Sample

def hashes : List (Nat × Nat) := [
  (0x73616c7400000001, 0x120fb6cffcf8b32c43e7225256c4f837a86548c92ccc35480805987cb70be17b),
  (0x120fb6cffcf8b32c43e7225256c4f837a86548c92ccc35480805987cb70be17b, 0xbc42ba5a5393f5ff6eedfdab7e3495e782557747df0e6497dee74026224cad38),
  (0x73616c7400000002, 0x4dbf3a2f3dad3377264bb7b8e8330d4efc7451418617dabef683735361cdc18c),
  (0x4dbf3a2f3dad3377264bb7b8e8330d4efc7451418617dabef683735361cdc18c, 0xceb96b80f6f1b5582d6f2c68d9c4ab3bdca56706894918cf1a6a6f5416ff9255)]

def ciphers : Ciphers where
  calculateHmac _ data := ⟨bigEndianBytes 32 ((hashes.lookup (bigEndian data)).getD 0), bigEndianBytes_length⟩
  calculateSha256 _ := Bytes.zero 32
  decryptBlock _ _ := Bytes.zero 16

def password : List UInt8 := [0x70, 0x61, 0x73, 0x73, 0x77, 0x6f, 0x72, 0x64]

def salt : List UInt8 := [0x73, 0x61, 0x6c, 0x74]

end PasswordKey.Sample

open PasswordKey.Sample

/-- One block and eight bytes of the next, of two iterations. -/
theorem passwordPbkdf2_sample : passwordPbkdf2 ciphers password salt 2 40 = .ok (bigEndianBytes 40
    0xae4d0c95af6b46d32d0adff928f06dd02a303f8ef3c251dfd6e2d85a95474c43830651afcb5c862f) := by
  have short : password.length ≤ ssizeMax := by simp [password, ssizeMax]
  have salted : salt.length + 4 ≤ memoryMaximumAllocationSize := by simp [salt, memoryMaximumAllocationSize]
  refine (passwordPbkdf2_eq short salted (by decide) (by decide)).1.trans ?_
  decide +kernel

/-- A salt of 128 MiB is refused. -/
theorem passwordPbkdf2_refuses : passwordPbkdf2 ciphers password (List.replicate memoryMaximumAllocationSize 0) 1 32 =
    fail .valueExceedsMaximum := by
  apply passwordPbkdf2_salted
  · simp [password, ssizeMax]
  · rw [List.length_replicate]
    decide
  · decide
  · decide
  · rw [List.length_replicate]
    exact Nat.lt_add_of_pos_right (by decide)

end Fsapfs
