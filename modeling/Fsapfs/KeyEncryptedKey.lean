import Fsapfs.ByteStream
import Fsapfs.Program.Run
import Mathlib.Tactic.SplitIfs

namespace Fsapfs
open Program

abbrev Bytes (size : Nat) := { bytes : List UInt8 // bytes.length = size }

namespace Bytes

def zero (size : Nat) : Bytes size := ⟨List.replicate size 0, List.length_replicate⟩

def copy (size : Nat) (data : List UInt8) (offset : Nat) : Result (Bytes size) :=
  if inside : offset + size ≤ data.length then
    .ok ⟨(data.drop offset).take size, by rw [List.length_take, List.length_drop]; omega⟩
  else .error .undefined

theorem copy_of_hasAt {size offset : Nat} {data : List UInt8} {bytes : Bytes size} (has : HasAt data offset bytes.val) :
    copy size data offset = .ok bytes := by
  have inside : offset + size ≤ data.length := by
    have inside := has.inside
    rwa [bytes.property] at inside
  have same : (data.drop offset).take size = bytes.val := by
    have taken : (slice data offset size : Result (List UInt8)) = .ok bytes.val := has.slice bytes.property.symm
    rw [slice_of_le inside] at taken
    exact Except.ok.inj taken
  rw [copy, dif_pos inside]
  exact congrArg Except.ok (Subtype.ext same)

end Bytes

def bigEndianBytes (size value : Nat) : List UInt8 := (littleEndianBytes size value).reverse

theorem bigEndianBytes_length {size value : Nat} : (bigEndianBytes size value).length = size := by
  rw [bigEndianBytes, List.length_reverse, littleEndianBytes_length]

/-- The functions of libhmac and libcaes that unlock a key: they do not fail on the buffers that they are given. -/
structure Ciphers where
  calculateHmac : List UInt8 → List UInt8 → Bytes 32
  calculateSha256 : List UInt8 → Bytes 32
  decryptBlock : List UInt8 → List UInt8 → Bytes 16

section derivation

variable (ciphers : Ciphers)

def iterateHmac (password : List UInt8) : Nat → List UInt8 → List UInt8 → List UInt8
  | 0, _, outputData => outputData
  | iterations + 1, hash, outputData =>
      let hash := (ciphers.calculateHmac password hash).val
      iterateHmac password iterations hash (List.zipWith (· ^^^ ·) outputData hash)

def deriveBlock (password salt : List UInt8) (numberOfIterations blockIndex size : Nat) : List UInt8 :=
  let hash := (ciphers.calculateHmac password (salt ++ bigEndianBytes 4 (blockIndex + 1))).val
  iterateHmac ciphers password (numberOfIterations - 1) hash (hash.take size)

def passwordPbkdf2 (password salt : List UInt8) (numberOfIterations outputDataSize : Nat) : Result (List UInt8) :=
  if password.length > ssizeMax then fail .valueExceedsMaximum
  else if salt.length > ssizeMax then fail .valueExceedsMaximum
  else if numberOfIterations = 0 then fail .valueZeroOrLess
  else if outputDataSize > ssizeMax then fail .valueExceedsMaximum
  else if salt.length + 4 > memoryMaximumAllocationSize then fail .valueExceedsMaximum
  else
    let numberOfBlocks := outputDataSize / 32
    let remainingDataSize := outputDataSize - numberOfBlocks * 32
    .ok ((List.range numberOfBlocks).flatMap (fun blockIndex =>
        deriveBlock ciphers password salt numberOfIterations blockIndex 32) ++
      if remainingDataSize > 0 then deriveBlock ciphers password salt numberOfIterations numberOfBlocks remainingDataSize
      else [])

def overlayAt (data : List UInt8) (offset : Nat) (bytes : List UInt8) : List UInt8 :=
  data.take offset ++ bytes ++ data.drop (offset + bytes.length)

def unwrapBlock (key : List UInt8) (numberOfBlocks roundIndex blockIndex : Nat) (unwrappedData : List UInt8) :
    List UInt8 :=
  let vectorData := List.zipWith (· ^^^ ·) (bigEndianBytes 8 (roundIndex * (numberOfBlocks - 1) + blockIndex))
    (unwrappedData.take 8)
  let blockData := (ciphers.decryptBlock key (vectorData ++ (unwrappedData.drop (blockIndex * 8)).take 8)).val
  overlayAt (overlayAt unwrappedData 0 (blockData.take 8)) (blockIndex * 8) (blockData.drop 8)

/-- Unwraps data, from the last round to the first and from the last block to the second. -/
def aesKeyUnwrap (key : List UInt8) (keyBitSize : Nat) (wrappedData : List UInt8) : Result (List UInt8) :=
  if keyBitSize ≠ 128 ∧ keyBitSize ≠ 192 ∧ keyBitSize ≠ 256 then fail .valueOutOfBounds
  else if wrappedData.length > ssizeMax then fail .valueExceedsMaximum
  else if wrappedData.length ≤ 8 then fail .valueTooSmall
  else if wrappedData.length % 8 ≠ 0 then fail .valueOutOfBounds
  else
    let numberOfBlocks := wrappedData.length / 8
    .ok ((List.range 6).reverse.foldl (fun unwrappedData roundIndex =>
      (List.range (numberOfBlocks - 1)).reverse.foldl (fun unwrappedData index =>
        unwrapBlock ciphers key numberOfBlocks roundIndex (index + 1) unwrappedData) unwrappedData) wrappedData)

end derivation

@[ext] structure KeyEncryptedKey where
  identifier : Bytes 16
  hmac : Bytes 32
  numberOfIterations : Nat
  salt : Bytes 16
  encryptionMethod : Nat
  wrappedKek : Bytes 40
  deriving DecidableEq

namespace KeyEncryptedKey

def create : KeyEncryptedKey where
  identifier := Bytes.zero 16
  hmac := Bytes.zero 32
  numberOfIterations := 0
  salt := Bytes.zero 16
  encryptionMethod := 0
  wrappedKek := Bytes.zero 40

/-- The tag and the size of a value and where it starts; only some sizes may have one byte of their own. -/
def readValueHeader (data : List UInt8) (allowsByte : Bool) (dataOffset : Nat) : Result (Nat × Nat × Nat) := do
  let valueTag ← load data dataOffset
  let byteValue ← load data (dataOffset + 1)
  let byteValue := byteValue.toNat
  if byteValue &&& 0x80 = 0 then return (valueTag.toNat, byteValue, dataOffset + 2)
  else if byteValue = 0x81 ∧ allowsByte then do
    let valueDataSize ← load data (dataOffset + 2)
    return (valueTag.toNat, valueDataSize.toNat, dataOffset + 3)
  else if byteValue = 0x82 then do
    let valueDataSize ← loadLittleEndian16 data (dataOffset + 2)
    return (valueTag.toNat, valueDataSize, dataOffset + 4)
  else fail .unsupportedValue

def readValues (data : List UInt8) : Nat → Nat → KeyEncryptedKey → Option (Nat × Nat) →
    Result (KeyEncryptedKey × Option (Nat × Nat))
  | 0, _, _, _ => .error .unfinished
  | fuel + 1, dataOffset, key, wrapped =>
      if dataOffset < data.length then do
        let (valueTag, valueDataSize, dataOffset) ← readValueHeader data true dataOffset
        if valueTag = 0 ∧ valueDataSize = 0 then return (key, wrapped)
        else if dataOffset ≥ data.length ∨ valueDataSize > data.length - dataOffset then fail .valueOutOfBounds
        else
          let dataEnd := dataOffset + valueDataSize
          match valueTag with
          | 0x81 =>
              if valueDataSize ≠ 32 then fail .unsupportedValue
              else do
                let hmac ← Bytes.copy 32 data dataOffset
                readValues data fuel dataEnd { key with hmac } wrapped
          | 0x82 =>
              if valueDataSize ≠ 8 then fail .unsupportedValue
              else readValues data fuel dataEnd key wrapped
          | 0xa3 =>
              if valueDataSize = 0 then fail .unsupportedValue
              else readValues data fuel dataEnd key (some (dataOffset - 2, (valueDataSize + 2) % 2 ^ 16))
          | _ => readValues data fuel dataEnd key wrapped
      else .ok (key, wrapped)

def readWrappedValues (data : List UInt8) (objectEnd : Nat) : Nat → Nat → KeyEncryptedKey → Result KeyEncryptedKey
  | 0, _, _ => .error .unfinished
  | fuel + 1, dataOffset, key =>
      if dataOffset < objectEnd then do
        let (valueTag, valueDataSize, dataOffset) ← readValueHeader data false dataOffset
        if valueTag = 0 ∧ valueDataSize = 0 then return key
        else if dataOffset ≥ objectEnd ∨ valueDataSize > objectEnd - dataOffset then fail .valueOutOfBounds
        else
          let dataEnd := dataOffset + valueDataSize
          match valueTag with
          | 0x81 =>
              if valueDataSize ≠ 16 then fail .unsupportedValue
              else do
                let identifier ← Bytes.copy 16 data dataOffset
                readWrappedValues data objectEnd fuel dataEnd { key with identifier }
          | 0x82 =>
              if valueDataSize ≠ 8 then fail .unsupportedValue
              else do
                let encryptionMethod ← loadLittleEndian32 data dataOffset
                readWrappedValues data objectEnd fuel dataEnd { key with encryptionMethod }
          | 0x83 =>
              if valueDataSize ≠ 40 then fail .unsupportedValue
              else do
                let wrappedKek ← Bytes.copy 40 data dataOffset
                readWrappedValues data objectEnd fuel dataEnd { key with wrappedKek }
          | 0x84 =>
              if valueDataSize = 0 ∨ valueDataSize > 8 then fail .unsupportedValue
              else do
                let bytes ← slice data dataOffset valueDataSize
                readWrappedValues data objectEnd fuel dataEnd { key with numberOfIterations := bigEndian bytes }
          | 0x85 =>
              if valueDataSize ≠ 16 then fail .unsupportedValue
              else do
                let salt ← Bytes.copy 16 data dataOffset
                readWrappedValues data objectEnd fuel dataEnd { key with salt }
          | _ => readWrappedValues data objectEnd fuel dataEnd key
      else .ok key

def readObject (data : List UInt8) : Result (KeyEncryptedKey × Option (Nat × Nat)) := do
  if data.length < 2 ∨ data.length > ssizeMax then fail .valueOutOfBounds
  else do
    let (valueTag, valueDataSize, dataOffset) ← readValueHeader data true 0
    if valueTag ≠ 0x30 then fail .unsupportedValue
    else if valueDataSize > data.length - 2 then fail .valueOutOfBounds
    else readValues data (data.length + 1) dataOffset create none

/-- The values of the wrapped key, which has a size and starts where the data do. -/
def readWrappedObject (data : List UInt8) (objectSize : Nat) (key : KeyEncryptedKey) : Result KeyEncryptedKey := do
  let (valueTag, valueDataSize, dataOffset) ← readValueHeader data false 0
  if valueTag ≠ 0xa3 then fail .unsupportedValue
  else if valueDataSize + 2 > objectSize then fail .valueOutOfBounds
  else readWrappedValues data objectSize (objectSize + 1) dataOffset key

def readData (data : List UInt8) : Result KeyEncryptedKey := do
  let (key, wrapped) ← readObject data
  match wrapped with
  | none => fail .valueMissing
  | some (objectOffset, objectSize) => readWrappedObject (data.drop objectOffset) objectSize key

def wrappedKekInitializationVector : List UInt8 := List.replicate 8 0xa6

section unlock

variable (ciphers : Ciphers) (key : KeyEncryptedKey)

def usedSizesWithKey : Result (Nat × Nat) :=
  if key.encryptionMethod = 0 then .ok (40, 32)
  else if key.encryptionMethod = 2 then .ok (24, 16)
  else fail .unsupportedValue

def usedSizesWithPassword : Result (Nat × Nat) :=
  if key.encryptionMethod = 0 ∨ key.encryptionMethod = 16 then .ok (40, 32)
  else if key.encryptionMethod = 2 then .ok (24, 16)
  else fail .unsupportedValue

/-- The buffer of 32 bytes with the unlocked key at its start, where the key and the wrapped key fit. -/
def unlockWithKey (keyBuffer unlockedKey : List UInt8) : Result (Option (List UInt8)) := do
  let sizes ← key.usedSizesWithKey
  let wrappedKek ← aesKeyUnwrap ciphers (keyBuffer.take sizes.2) (sizes.2 * 8) (key.wrappedKek.val.take sizes.1)
  if wrappedKek.take 8 = wrappedKekInitializationVector then
    let unlocked := overlayAt unlockedKey 0 ((wrappedKek.drop 8).take sizes.2)
    if key.encryptionMethod = 2 then
      let identified := overlayAt unlocked 16 key.identifier.val
      return some (overlayAt identified 16 ((ciphers.calculateSha256 identified).val.take 16))
    else return some unlocked
  else return none

def unlockWithPassword (password unlockedKey : List UInt8) : Result (Option (List UInt8)) := do
  let sizes ← key.usedSizesWithPassword
  let passwordKey ← passwordPbkdf2 ciphers password key.salt.val (key.numberOfIterations % 2 ^ 32) sizes.2
  let wrappedKek ← aesKeyUnwrap ciphers passwordKey (sizes.2 * 8) (key.wrappedKek.val.take sizes.1)
  if wrappedKek.take 8 = wrappedKekInitializationVector then
    return some (overlayAt unlockedKey 0 ((wrappedKek.drop 8).take sizes.2))
  else return none

end unlock

end KeyEncryptedKey

section sizes

variable {ciphers : Ciphers}

theorem overlayAt_length {data bytes : List UInt8} {offset : Nat} (inside : offset + bytes.length ≤ data.length) :
    (overlayAt data offset bytes).length = data.length := by
  unfold overlayAt
  rw [List.length_append, List.length_append, List.length_take, List.length_drop]
  omega

theorem unwrapBlock_length {key unwrappedData : List UInt8} {numberOfBlocks roundIndex blockIndex : Nat}
    (inside : blockIndex * 8 + 8 ≤ unwrappedData.length) :
    (unwrapBlock ciphers key numberOfBlocks roundIndex blockIndex unwrappedData).length = unwrappedData.length := by
  unfold unwrapBlock
  dsimp only
  generalize (ciphers.decryptBlock key _) = blockData
  have size := blockData.property
  have first : (overlayAt unwrappedData 0 (blockData.val.take 8)).length = unwrappedData.length := by
    apply overlayAt_length
    rw [List.length_take]
    omega
  rw [overlayAt_length, first]
  rw [first, List.length_drop]
  omega

theorem foldl_length {ι : Type} {step : List UInt8 → ι → List UInt8} {data : List UInt8} {items : List ι}
    (keeps : ∀ data', data'.length = data.length → ∀ item ∈ items, (step data' item).length = data'.length) :
    (items.foldl step data).length = data.length := by
  suffices all : ∀ data', data'.length = data.length → (items.foldl step data').length = data.length from
    all data rfl
  induction items with
  | nil => exact fun data' same => same
  | cons item items ih =>
      intro data' same
      apply ih (fun data' same item member => keeps data' same item (List.mem_cons_of_mem _ member))
      rw [keeps data' same item List.mem_cons_self, same]

theorem aesKeyUnwrap_ok {key wrappedData : List UInt8} {keyBitSize : Nat} (bits : keyBitSize = 128 ∨ keyBitSize = 256)
    (size : wrappedData.length = 24 ∨ wrappedData.length = 40) :
    ∃ unwrappedData, aesKeyUnwrap ciphers key keyBitSize wrappedData = .ok unwrappedData ∧
      unwrappedData.length = wrappedData.length := by
  unfold aesKeyUnwrap
  rw [if_neg (by omega), if_neg (by unfold ssizeMax; omega), if_neg (by omega), if_neg (by omega)]
  refine ⟨_, rfl, foldl_length fun data same roundIndex _ => foldl_length fun data' same' index member => ?_⟩
  rw [List.mem_reverse, List.mem_range] at member
  apply unwrapBlock_length
  omega

theorem passwordPbkdf2_ok (ciphers : Ciphers) {password salt : List UInt8} {numberOfIterations outputDataSize : Nat}
    (short : password.length ≤ ssizeMax) (salted : salt.length = 16) (some : numberOfIterations ≠ 0)
    (size : outputDataSize = 16 ∨ outputDataSize = 32) :
    ∃ key, passwordPbkdf2 ciphers password salt numberOfIterations outputDataSize = .ok key := by
  unfold passwordPbkdf2
  rw [if_neg (by omega), if_neg (by unfold ssizeMax; omega), if_neg some, if_neg (by unfold ssizeMax; omega),
    if_neg (by unfold memoryMaximumAllocationSize; omega)]
  exact ⟨_, rfl⟩

end sizes

namespace KeyEncryptedKey

variable {data : List UInt8}

theorem finishes_copy (size : Nat) (data : List UInt8) (offset : Nat) :
    Finishes (Bytes.copy size data offset) fun _ => True := by
  unfold Bytes.copy
  split <;> trivial

theorem finishes_loadLittleEndian (size : Nat) (data : List UInt8) (offset : Nat) :
    Finishes (loadLittleEndian size data offset) fun _ => True :=
  (finishes_slice data offset size).bind fun _ _ => trivial

theorem readValueHeader_finishes (data : List UInt8) (allowsByte : Bool) (dataOffset : Nat) :
    Finishes (readValueHeader data allowsByte dataOffset) fun header => dataOffset + 2 ≤ header.2.2 := by
  unfold readValueHeader
  refine (finishes_load data dataOffset).bind fun valueTag _ => (finishes_load data (dataOffset + 1)).bind fun byte _ => ?_
  dsimp only
  split
  · exact Nat.le_refl _
  · split
    · exact (finishes_load data (dataOffset + 2)).bind fun _ _ => Nat.le_succ _
    · split
      · exact (finishes_loadLittleEndian 2 data (dataOffset + 2)).bind fun _ _ => Nat.le_add_right _ 2
      · trivial

def Inside (data : List UInt8) (wrapped : Option (Nat × Nat)) : Prop :=
  ∀ object, wrapped = some object → object.1 + object.2 ≤ data.length

theorem inside_none (data : List UInt8) : Inside data none := fun _ absent => nomatch absent

theorem readValues_finishes {fuel dataOffset : Nat} {wrapped : Option (Nat × Nat)} (fueled : 0 < fuel)
    (enough : data.length < dataOffset + fuel) (key : KeyEncryptedKey) (inside : Inside data wrapped) :
    Finishes (readValues data fuel dataOffset key wrapped) fun values => Inside data values.2 := by
  induction fuel generalizing dataOffset key wrapped with
  | zero => cases fueled
  | succ fuel ih =>
      rw [readValues]
      split
      · refine (readValueHeader_finishes data true dataOffset).bind fun header advanced => ?_
        obtain ⟨valueTag, valueDataSize, dataOffset'⟩ := header
        dsimp only at advanced ⊢
        split
        · exact inside
        · split
          · trivial
          next fits =>
            have next : ∀ key wrapped, Inside data wrapped →
                Finishes (readValues data fuel (dataOffset' + valueDataSize) key wrapped)
                  fun values => Inside data values.2 := fun key wrapped => ih (by omega) (by omega) key
            split
            · split
              · trivial
              · exact (finishes_copy 32 data dataOffset').bind fun hmac _ => next _ _ inside
            · split
              · trivial
              · exact next _ _ inside
            · split
              · trivial
              · apply next
                intro object same
                rw [← Option.some.inj same]
                have wrapped : (valueDataSize + 2) % 2 ^ 16 ≤ valueDataSize + 2 := Nat.mod_le _ _
                dsimp only
                omega
            · exact next _ _ inside
      · exact inside

theorem readWrappedValues_finishes {fuel dataOffset objectEnd : Nat} (fueled : 0 < fuel)
    (enough : objectEnd < dataOffset + fuel) (key : KeyEncryptedKey) :
    Finishes (readWrappedValues data objectEnd fuel dataOffset key) fun _ => True := by
  induction fuel generalizing dataOffset key with
  | zero => cases fueled
  | succ fuel ih =>
      rw [readWrappedValues]
      split
      · refine (readValueHeader_finishes data false dataOffset).bind fun header advanced => ?_
        obtain ⟨valueTag, valueDataSize, dataOffset'⟩ := header
        dsimp only at advanced ⊢
        split
        · trivial
        · split
          · trivial
          next inside =>
            have next : ∀ key, Finishes (readWrappedValues data objectEnd fuel (dataOffset' + valueDataSize) key)
                fun _ => True := ih (by omega) (by omega)
            split
            · split
              · trivial
              · exact (finishes_copy 16 data dataOffset').bind fun identifier _ => next _
            · split
              · trivial
              · exact (finishes_loadLittleEndian 4 data dataOffset').bind fun encryptionMethod _ => next _
            · split
              · trivial
              · exact (finishes_copy 40 data dataOffset').bind fun wrappedKek _ => next _
            · split
              · trivial
              · exact (finishes_slice data dataOffset' valueDataSize).bind fun bytes _ => next _
            · split
              · trivial
              · exact (finishes_copy 16 data dataOffset').bind fun salt _ => next _
            · exact next _
      · trivial

theorem readObject_finishes (data : List UInt8) :
    Finishes (readObject data) fun values => Inside data values.2 := by
  unfold readObject
  split
  · trivial
  · refine (readValueHeader_finishes data true 0).bind fun header _ => ?_
    obtain ⟨valueTag, valueDataSize, dataOffset⟩ := header
    dsimp only
    split
    · trivial
    · split
      · trivial
      · exact readValues_finishes (Nat.succ_pos _) (by omega) create (inside_none data)

theorem readWrappedObject_finishes (data : List UInt8) (objectSize : Nat) (key : KeyEncryptedKey) :
    Finishes (readWrappedObject data objectSize key) fun _ => True := by
  refine (readValueHeader_finishes data false 0).bind fun header _ => ?_
  obtain ⟨valueTag, valueDataSize, dataOffset⟩ := header
  dsimp only
  split
  · trivial
  · split
    · trivial
    · exact readWrappedValues_finishes (Nat.succ_pos _) (by omega) key

theorem readData_finishes (data : List UInt8) : Finishes (readData data) fun _ => True := by
  refine (readObject_finishes data).bind fun values _ => ?_
  obtain ⟨key, wrapped⟩ := values
  cases wrapped with
  | none => trivial
  | some object => exact readWrappedObject_finishes (data.drop object.1) object.2 key

end KeyEncryptedKey

end Fsapfs
