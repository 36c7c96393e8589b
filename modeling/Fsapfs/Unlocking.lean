import Fsapfs.Coding.Unicode
import Fsapfs.VolumeUnlock
import Mathlib.Data.List.Forall2

namespace Fsapfs
open Program Coding

/-- HMAC fills a key that is shorter than a block of the hash with zeros. -/
def Ciphers.PadsKeys (ciphers : Ciphers) : Prop :=
  ∀ key data, key.length < 64 → ciphers.calculateHmac (key ++ [0]) data = ciphers.calculateHmac key data

namespace KeyEncryptedKey

section specification

variable (ciphers : Ciphers) (key : KeyEncryptedKey)

def keySize : Nat := if key.encryptionMethod = 2 then 16 else 32

/-- What the wrapped key holds behind the bytes that show that a key unwraps it. -/
def unwrapped (wrappingKey : List UInt8) : Option (List UInt8) :=
  match aesKeyUnwrap ciphers wrappingKey (key.keySize * 8) (key.wrappedKek.val.take (key.keySize + 8)) with
  | .ok data => if data.take 8 = List.replicate 8 0xa6 then some ((data.drop 8).take key.keySize) else none
  | .error _ => none

def underPassword (password : List UInt8) : Option (List UInt8) :=
  match passwordPbkdf2 ciphers password key.salt.val key.numberOfIterations key.keySize with
  | .ok passwordKey => key.unwrapped ciphers passwordKey
  | .error _ => none

def underPasswords (userPassword recoveryPassword : Option (List UInt8)) : Option (List UInt8) :=
  (userPassword.bind (key.underPassword ciphers)).or (recoveryPassword.bind (key.underPassword ciphers))

/-- A volume key that is too short for the encryption method unwraps nothing. -/
def underKey (volumeKey : List UInt8) : Option (List UInt8) :=
  if key.keySize ≤ volumeKey.length then
    (key.unwrapped ciphers (volumeKey.take key.keySize)).map fun unlocked =>
      if key.encryptionMethod = 2 then
        unlocked ++ (ciphers.calculateSha256 (unlocked ++ key.identifier.val)).val.take 16
      else unlocked
  else none

structure UnlocksWithPassword : Prop where
  method : key.encryptionMethod = 0 ∨ key.encryptionMethod = 2 ∨ key.encryptionMethod = 16
  iterates : 1 ≤ key.numberOfIterations
  iterations : key.numberOfIterations < 2 ^ 32

structure UnlocksWithKey : Prop where
  method : key.encryptionMethod = 0 ∨ key.encryptionMethod = 2

end specification

section unlock

variable {ciphers : Ciphers} {key : KeyEncryptedKey}

theorem keySize_cases (key : KeyEncryptedKey) : key.keySize = 16 ∨ key.keySize = 32 := by
  unfold keySize
  split
  · exact Or.inl rfl
  · exact Or.inr rfl

theorem keySize_two (method : key.encryptionMethod = 2) : key.keySize = 16 := if_pos method

theorem keySize_other (method : key.encryptionMethod ≠ 2) : key.keySize = 32 := if_neg method

theorem wrapped_length (key : KeyEncryptedKey) :
    (key.wrappedKek.val.take (key.keySize + 8)).length = key.keySize + 8 := by
  have size := key.wrappedKek.property
  have cases := key.keySize_cases
  rw [List.length_take]
  omega

theorem unwrap_ok (ciphers : Ciphers) (key : KeyEncryptedKey) (wrappingKey : List UInt8) :
    ∃ data, aesKeyUnwrap ciphers wrappingKey (key.keySize * 8) (key.wrappedKek.val.take (key.keySize + 8)) = .ok data ∧
      data.length = key.keySize + 8 ∧
      key.unwrapped ciphers wrappingKey =
        if data.take 8 = wrappedKekInitializationVector then some ((data.drop 8).take key.keySize) else none := by
  have cases := key.keySize_cases
  have wrapped := key.wrapped_length
  have bits : key.keySize * 8 = 128 ∨ key.keySize * 8 = 256 := by omega
  obtain ⟨data, run, size⟩ := aesKeyUnwrap_ok bits
    (show (key.wrappedKek.val.take (key.keySize + 8)).length = 24 ∨ _ by omega)
  refine ⟨data, run, size.trans wrapped, ?_⟩
  rw [unwrapped, run]
  rfl

theorem unwrapped_length {wrappingKey unlocked : List UInt8} (some : key.unwrapped ciphers wrappingKey = some unlocked) :
    unlocked.length = key.keySize := by
  obtain ⟨data, -, size, meaning⟩ := unwrap_ok ciphers key wrappingKey
  rw [meaning] at some
  split at some
  · rw [← Option.some.inj some, List.length_take, List.length_drop, size]
    omega
  · cases some

theorem unlockWithPassword_ok (supported : key.UnlocksWithPassword) {password : List UInt8}
    (short : password.length ≤ ssizeMax) (unlockedKey : List UInt8) :
    key.unlockWithPassword ciphers password unlockedKey =
      .ok ((key.underPassword ciphers password).map (overlayAt unlockedKey 0)) := by
  have sizes : key.usedSizesWithPassword = .ok (key.keySize + 8, key.keySize) := by
    unfold usedSizesWithPassword
    rcases supported.method with method | method | method
    · rw [if_pos (Or.inl method), keySize_other (by omega)]
    · rw [if_neg (by omega), if_pos method, keySize_two method]
    · rw [if_pos (Or.inr method), keySize_other (by omega)]
  have iterations := Nat.mod_eq_of_lt supported.iterations
  obtain ⟨passwordKey, derived⟩ := passwordPbkdf2_ok ciphers short key.salt.property
    (Nat.ne_of_gt supported.iterates) key.keySize_cases
  obtain ⟨data, run, -, meaning⟩ := unwrap_ok ciphers key passwordKey
  have under : key.underPassword ciphers password = key.unwrapped ciphers passwordKey := by
    rw [underPassword, derived]
  unfold unlockWithPassword
  rw [sizes, ok_bind]
  dsimp only
  rw [iterations, derived, ok_bind, run, ok_bind, under, meaning]
  by_cases starts : data.take 8 = wrappedKekInitializationVector
  · rw [if_pos starts, if_pos starts]
    rfl
  · rw [if_neg starts, if_neg starts]
    rfl

section padding

variable (pads : ciphers.PadsKeys) {password : List UInt8} (short : password.length < 64)
include pads short

theorem iterateHmac_ended (iterations : Nat) (hash outputData : List UInt8) :
    iterateHmac ciphers (password ++ [0]) iterations hash outputData =
      iterateHmac ciphers password iterations hash outputData := by
  induction iterations generalizing hash outputData with
  | zero => rfl
  | succ iterations ih =>
      unfold iterateHmac
      rw [pads password _ short]
      exact ih _ _

theorem passwordPbkdf2_ended (salt : List UInt8) (numberOfIterations outputDataSize : Nat) :
    passwordPbkdf2 ciphers (password ++ [0]) salt numberOfIterations outputDataSize =
      passwordPbkdf2 ciphers password salt numberOfIterations outputDataSize := by
  have block : ∀ blockIndex size, deriveBlock ciphers (password ++ [0]) salt numberOfIterations blockIndex size =
      deriveBlock ciphers password salt numberOfIterations blockIndex size := by
    intro blockIndex size
    unfold deriveBlock
    rw [pads password _ short]
    exact iterateHmac_ended pads short _ _ _
  have small : ¬(password ++ [0]).length > ssizeMax := by
    rw [List.length_append, List.length_singleton]
    unfold ssizeMax
    omega
  have small' : ¬password.length > ssizeMax := by
    unfold ssizeMax
    omega
  unfold passwordPbkdf2
  simp only [block, if_neg small, if_neg small']

theorem underPassword_ended (key : KeyEncryptedKey) :
    key.underPassword ciphers (password ++ [0]) = key.underPassword ciphers password := by
  rw [underPassword, passwordPbkdf2_ended pads short, underPassword]

end padding

theorem overlayAt_start {data bytes : List UInt8} {n : Nat} (short : n ≤ bytes.length) :
    (overlayAt data 0 bytes).take n = bytes.take n := by
  simp [overlayAt, List.take_append_of_le_length short]

theorem overlayAt_whole {data bytes : List UInt8} (same : data.length = bytes.length) : overlayAt data 0 bytes = bytes := by
  simp [overlayAt, ← same]

theorem overlayAt_end {start rest bytes : List UInt8} {offset : Nat} (behind : start.length = offset)
    (same : rest.length = bytes.length) : overlayAt (start ++ rest) offset bytes = start ++ bytes := by
  subst behind
  simp [overlayAt, ← same]

theorem overlayAt_zero (data bytes : List UInt8) : overlayAt data 0 bytes = bytes ++ data.drop bytes.length := by
  simp [overlayAt]

theorem unlockWithKey_ok (supported : key.UnlocksWithKey) {keyBuffer volumeKey unlockedKey : List UInt8}
    (whole : unlockedKey.length = 32) (fits : key.keySize ≤ volumeKey.length)
    (same : keyBuffer.take key.keySize = volumeKey.take key.keySize) :
    key.unlockWithKey ciphers keyBuffer unlockedKey = .ok (key.underKey ciphers volumeKey) := by
  have sizes : key.usedSizesWithKey = .ok (key.keySize + 8, key.keySize) := by
    unfold usedSizesWithKey
    rcases supported.method with method | method
    · rw [if_pos method, keySize_other (by omega)]
    · rw [if_neg (by omega), if_pos method, keySize_two method]
  obtain ⟨data, run, size, meaning⟩ := unwrap_ok ciphers key (volumeKey.take key.keySize)
  unfold unlockWithKey
  rw [sizes, ok_bind]
  dsimp only
  rw [same, run, ok_bind, underKey, if_pos fits, meaning]
  by_cases starts : data.take 8 = wrappedKekInitializationVector
  · rw [if_pos starts, if_pos starts]
    have unlockedSize : ((data.drop 8).take key.keySize).length = key.keySize := by
      rw [List.length_take, List.length_drop]
      omega
    generalize (data.drop 8).take key.keySize = unlocked at unlockedSize
    dsimp only [Option.map_some]
    by_cases method : key.encryptionMethod = 2
    · rw [keySize_two method] at unlockedSize
      rw [if_pos method, if_pos method, overlayAt_zero,
        overlayAt_end unlockedSize (by rw [List.length_drop, key.identifier.property]; omega),
        overlayAt_end unlockedSize (by rw [List.length_take, key.identifier.property, (ciphers.calculateSha256 _).property]; rfl)]
      rfl
    · rw [keySize_other method] at unlockedSize
      rw [if_neg method, if_neg method, overlayAt_whole (by omega)]
      rfl
  · rw [if_neg starts, if_neg starts]
    rfl

theorem underKey_length {volumeKey unlocked : List UInt8}
    (some : key.underKey ciphers volumeKey = some unlocked) : unlocked.length = 32 := by
  unfold underKey at some
  split at some
  · obtain ⟨start, found, rfl⟩ := Option.map_eq_some_iff.mp some
    have size := unwrapped_length found
    by_cases method : key.encryptionMethod = 2
    · rw [if_pos method, List.length_append, List.length_take, size, keySize_two method,
        (ciphers.calculateSha256 _).property]
      rfl
    · rw [if_neg method, size, keySize_other method]
  · cases some

end unlock

end KeyEncryptedKey

section searches

def isPasswordEntry (entry : KeyBagEntry) : Bool := entry.type = 3

def isKeyEntry (volumeIdentifier : Bytes 16) (entry : KeyBagEntry) : Bool :=
  entry.type = 2 && entry.identifier = volumeIdentifier

/-- The keys of the entries that a search tries, in their order. -/
def keysOf (tried : KeyBagEntry → Bool) (entries : List KeyBagEntry) : List KeyEncryptedKey :=
  (entries.filter tried).filterMap fun entry => (KeyEncryptedKey.readData entry.data).toOption

def Hold (kind : KeyEncryptedKey → Prop) (tried : KeyBagEntry → Bool) (entries : List KeyBagEntry) : Prop :=
  ∀ entry ∈ entries, tried entry → ∃ key, KeyEncryptedKey.readData entry.data = .ok key ∧ kind key

variable {tried : KeyBagEntry → Bool} {kind : KeyEncryptedKey → Prop} {entry : KeyBagEntry} {entries : List KeyBagEntry}

theorem keysOf_skip (skipped : tried entry = false) : keysOf tried (entry :: entries) = keysOf tried entries := by
  simp [keysOf, skipped]

theorem keysOf_read {key : KeyEncryptedKey} (tries : tried entry = true)
    (read : KeyEncryptedKey.readData entry.data = .ok key) :
    keysOf tried (entry :: entries) = key :: keysOf tried entries := by
  simp [keysOf, tries, read, Except.toOption]

theorem Hold.tail (hold : Hold kind tried (entry :: entries)) : Hold kind tried entries :=
  fun entry member => hold entry (List.mem_cons_of_mem _ member)

variable {ciphers : Ciphers} {userPassword recoveryPassword : Option (List UInt8)}

theorem unlockWithPasswords_ok {key : KeyEncryptedKey} (supported : key.UnlocksWithPassword)
    (user : ∀ password, userPassword = some password → password.length ≤ ssizeMax)
    (recovery : ∀ password, recoveryPassword = some password → password.length ≤ ssizeMax) (volumeKey : List UInt8) :
    unlockWithPasswords ciphers key userPassword recoveryPassword volumeKey =
      .ok ((key.underPasswords ciphers userPassword recoveryPassword).map (overlayAt volumeKey 0)) := by
  have second : ∀ password, recoveryPassword = some password →
      key.unlockWithPassword ciphers password volumeKey =
        .ok ((key.underPassword ciphers password).map (overlayAt volumeKey 0)) :=
    fun password there => key.unlockWithPassword_ok supported (recovery password there) volumeKey
  unfold unlockWithPasswords
  cases userPassword with
  | none =>
      cases recoveryPassword with
      | none => rfl
      | some password => exact second password rfl
  | some password =>
      dsimp only
      rw [key.unlockWithPassword_ok supported (user password rfl), ok_bind, KeyEncryptedKey.underPasswords,
        Option.bind_some]
      cases key.underPassword ciphers password with
      | some unlocked => rfl
      | none =>
          cases recoveryPassword with
          | none => rfl
          | some password => exact second password rfl

theorem getVolumeKey_ok (ciphers : Ciphers) (hold : Hold KeyEncryptedKey.UnlocksWithPassword isPasswordEntry entries)
    (user : ∀ password, userPassword = some password → password.length ≤ ssizeMax)
    (recovery : ∀ password, recoveryPassword = some password → password.length ≤ ssizeMax) (volumeKey : List UInt8) :
    getVolumeKey ciphers userPassword recoveryPassword volumeKey entries =
      .ok (((keysOf isPasswordEntry entries).findSome?
        (KeyEncryptedKey.underPasswords ciphers · userPassword recoveryPassword)).map (overlayAt volumeKey 0)) := by
  induction entries with
  | nil => rfl
  | cons entry entries ih =>
      rw [getVolumeKey]
      by_cases password : entry.type = 3
      · have tries : isPasswordEntry entry = true := decide_eq_true password
        obtain ⟨key, read, supported⟩ := hold entry List.mem_cons_self tries
        rw [if_neg (not_not_intro password), read, ok_bind, unlockWithPasswords_ok supported user recovery, ok_bind,
          keysOf_read tries read, List.findSome?_cons]
        cases key.underPasswords ciphers userPassword recoveryPassword with
        | some unlocked => rfl
        | none => exact ih hold.tail
      · rw [if_pos password, keysOf_skip (decide_eq_false password)]
        exact ih hold.tail

/-- The keys up to the first that unwraps need no more bytes than the volume key has. -/
def Fits (ciphers : Ciphers) (volumeKey : List UInt8) : List KeyEncryptedKey → Prop
  | [] => True
  | key :: keys => key.keySize ≤ volumeKey.length ∧ (key.underKey ciphers volumeKey = none → Fits ciphers volumeKey keys)

instance fitsDecidable (ciphers : Ciphers) (volumeKey : List UInt8) : ∀ keys, Decidable (Fits ciphers volumeKey keys)
  | [] => isTrue trivial
  | key :: keys =>
      have := fitsDecidable ciphers volumeKey keys
      inferInstanceAs (Decidable (key.keySize ≤ volumeKey.length ∧
        (key.underKey ciphers volumeKey = none → Fits ciphers volumeKey keys)))

theorem getVolumeMasterKeyByIdentifier_ok {volumeIdentifier : Bytes 16} {volumeKey : List UInt8}
    (hold : Hold KeyEncryptedKey.UnlocksWithKey (isKeyEntry volumeIdentifier) entries)
    (fits : Fits ciphers volumeKey (keysOf (isKeyEntry volumeIdentifier) entries)) (buffer : List UInt8)
    (volumeMasterKey : Bytes 32) :
    getVolumeMasterKeyByIdentifier ciphers volumeIdentifier (overlayAt buffer 0 volumeKey) volumeMasterKey.val entries =
      .ok ((keysOf (isKeyEntry volumeIdentifier) entries).findSome? (KeyEncryptedKey.underKey ciphers · volumeKey)) := by
  induction entries with
  | nil => rfl
  | cons entry entries ih =>
      rw [getVolumeMasterKeyByIdentifier]
      by_cases type : entry.type = 2
      · rw [if_neg (not_not_intro type)]
        by_cases same : entry.identifier = volumeIdentifier
        · have tries : isKeyEntry volumeIdentifier entry = true := by simp [isKeyEntry, type, same]
          obtain ⟨key, read, supported⟩ := hold entry List.mem_cons_self tries
          rw [keysOf_read tries read] at fits ⊢
          rw [if_neg (not_not_intro same), read, ok_bind,
            KeyEncryptedKey.unlockWithKey_ok supported volumeMasterKey.property fits.1
              (KeyEncryptedKey.overlayAt_start fits.1), ok_bind, List.findSome?_cons]
          cases under : key.underKey ciphers volumeKey with
          | some unlocked => rfl
          | none => exact ih hold.tail (fits.2 under)
        · have skipped : isKeyEntry volumeIdentifier entry = false := by simp [isKeyEntry, same]
          rw [keysOf_skip skipped] at fits ⊢
          rw [if_pos same]
          exact ih hold.tail fits
      · have skipped : isKeyEntry volumeIdentifier entry = false := by simp [isKeyEntry, type]
        rw [keysOf_skip skipped] at fits ⊢
        rw [if_pos type]
        exact ih hold.tail fits

end searches

namespace Volume

section specification

variable (ciphers : Ciphers) (volume : Volume)

def passwordKeys : List KeyEncryptedKey := keysOf isPasswordEntry (volume.keyBag.getD [])

def masterKeys : List KeyEncryptedKey := keysOf (isKeyEntry volume.volumeIdentifier) (volume.containerKeyBag.getD [])

def volumeKey : Option (List UInt8) :=
  volume.passwordKeys.findSome? (KeyEncryptedKey.underPasswords ciphers · volume.userPassword volume.recoveryPassword)

def volumeMasterKey (volumeKey : List UInt8) : Option (List UInt8) :=
  volume.masterKeys.findSome? (KeyEncryptedKey.underKey ciphers · volumeKey)

def expectedUnlock : Result Nat × Volume :=
  if volume.isLocked then
    match volume.volumeKey ciphers with
    | none => (.ok 0, volume)
    | some volumeKey =>
        match volume.volumeMasterKey ciphers volumeKey with
        | none => (fail .getFailed, volume)
        | some volumeMasterKey =>
            (.ok 1, { volume with keys := some (volumeMasterKey.take 16, volumeMasterKey.drop 16), isLocked := false })
  else (.ok 1, volume)

/-- A password that cannot be set leaves none. -/
def expectedSet (store : Option (List UInt8) → Volume → Volume) (password : List UInt8) : Result Nat × Volume :=
  if password.length = 0 ∨ password.length > memoryMaximumAllocationSize - 1 then
    (fail .valueOutOfBounds, store none volume)
  else (.ok 1, store (some password) volume)

def expectedConvert (store : Option (List UInt8) → Volume → Volume) (utf16String : List UInt16) : Result Nat × Volume :=
  match utf16Characters utf16String with
  | none => (fail .setFailed, store none volume)
  | some characters => expectedSet volume store (utf8Bytes characters)

/-- What an operation returns and leaves as a function of the key bags, the volume identifier and the passwords, which
are the bytes of UTF-8 strings. -/
def expected (operation : Operation) : Result Nat × Volume :=
  match operation with
  | .setUtf8Password utf8String _ => expectedSet volume setUserPassword utf8String
  | .setUtf16Password utf16String => expectedConvert volume setUserPassword utf16String
  | .setUtf8RecoveryPassword utf8String _ => expectedSet volume setRecoveryPassword utf8String
  | .setUtf16RecoveryPassword utf16String => expectedConvert volume setRecoveryPassword utf16String
  | .unlock => expectedUnlock ciphers volume

/-- Both key bags are there, and their entries of the volume hold supported keys. -/
structure Supported : Prop where
  keyBag : ∃ entries, volume.keyBag = some entries ∧ Hold KeyEncryptedKey.UnlocksWithPassword isPasswordEntry entries
  containerKeyBag : ∃ entries, volume.containerKeyBag = some entries ∧
    Hold KeyEncryptedKey.UnlocksWithKey (isKeyEntry volume.volumeIdentifier) entries
  userPassword : ∀ password, volume.userPassword = some password → password.length ≤ ssizeMax
  recoveryPassword : ∀ password, volume.recoveryPassword = some password → password.length ≤ ssizeMax

/-- An UTF-16 password of characters whose UTF-8 form leaves room for another byte in a block of the hash. -/
def ShortUtf16 (utf16String : List UInt16) : Prop :=
  ∃ characters, utf16String = utf16Units characters ∧ characters ≠ [] ∧ Char.ofNat 0 ∉ characters ∧
    (utf8Bytes characters).length < 64

/-- A password is copied whole, and a volume key that is found has the bytes that the keys tried with it need. -/
def Allowed (operation : Operation × Memory) : Prop :=
  match operation.1 with
  | .setUtf8Password utf8String utf8StringLength | .setUtf8RecoveryPassword utf8String utf8StringLength =>
      utf8String.length ≤ utf8StringLength ∧ utf8StringLength ≤ utf8String.length + 1
  | .setUtf16Password utf16String | .setUtf16RecoveryPassword utf16String => ShortUtf16 utf16String
  | .unlock => ∀ volumeKey, volume.volumeKey ciphers = some volumeKey → Fits ciphers volumeKey volume.masterKeys

/-- libuna makes the UTF-8 form of a string of characters, with an end of string character behind it. -/
def ConvertsUtf16 (utf8FromUtf16 : List UInt16 → Option (List UInt8)) : Prop :=
  ∀ characters, characters ≠ [] → Char.ofNat 0 ∉ characters →
    utf8FromUtf16 (utf16Units characters) = some (utf8Bytes characters ++ [0])

/-- A password as it is, or with an end of string character that HMAC does not tell from its filling. -/
def Keeps (kept password : Option (List UInt8)) : Prop :=
  kept = password ∨ ∃ bytes, password = some bytes ∧ bytes.length < 64 ∧ kept = some (bytes ++ [0])

/-- Volumes that differ in the end of string characters of their passwords only. -/
structure Agrees (volume expected : Volume) : Prop where
  keyBag : volume.keyBag = expected.keyBag
  containerKeyBag : volume.containerKeyBag = expected.containerKeyBag
  volumeIdentifier : volume.volumeIdentifier = expected.volumeIdentifier
  userPassword : Keeps volume.userPassword expected.userPassword
  recoveryPassword : Keeps volume.recoveryPassword expected.recoveryPassword
  isLocked : volume.isLocked = expected.isLocked
  keys : volume.keys = expected.keys

end specification

variable {ciphers : Ciphers} {utf8FromUtf16 : List UInt16 → Option (List UInt8)} {volume : Volume}

theorem copyPassword_ok {memory : Memory} {utf8String : List UInt8} {utf8StringLength : Nat}
    (whole : utf8String.length ≤ utf8StringLength) (within : utf8StringLength ≤ utf8String.length + 1) :
    copyPassword memory utf8String utf8StringLength =
      if utf8String.length = 0 ∨ utf8String.length > memoryMaximumAllocationSize - 1 then fail .valueOutOfBounds
      else .ok utf8String := by
  have copied : utf8String.take utf8StringLength ++
      (contents memory.allocation 0 utf8String.length).drop utf8StringLength = utf8String := by
    rw [List.take_of_length_le whole, List.drop_of_length_le (by rwa [contents_length]), List.append_nil]
  rw [copyPassword, copied, if_neg (Nat.not_lt.mpr within)]

theorem setUtf8Password_expected {store : Option (List UInt8) → Volume → Volume} {memory : Memory}
    {utf8String : List UInt8} {utf8StringLength : Nat} (whole : utf8String.length ≤ utf8StringLength)
    (within : utf8StringLength ≤ utf8String.length + 1)
    (replaces : ∀ password, store (some password) (store none volume) = store (some password) volume) :
    setUtf8Password store memory utf8String utf8StringLength volume = expectedSet volume store utf8String := by
  rw [setUtf8Password, Call.update_bind, copyPassword_ok whole within, expectedSet]
  split
  · rfl
  · exact congrArg (Prod.mk (Except.ok 1)) (replaces utf8String)

theorem ShortUtf16.sizes {characters : List Char} (some : characters ≠ []) (short : (utf8Bytes characters).length < 64) :
    0 < (utf8Bytes characters).length ∧ (utf8Bytes characters).length + 1 ≤ memoryMaximumAllocationSize - 1 := by
  have positive := List.length_pos_iff.mpr (utf8Bytes_ne_nil some)
  unfold memoryMaximumAllocationSize
  omega

theorem setUtf16Password_ended (libuna : ConvertsUtf16 utf8FromUtf16) {store : Option (List UInt8) → Volume → Volume}
    {utf16String : List UInt16} (allowed : ShortUtf16 utf16String) (expected : Volume)
    (replaces : ∀ password, store (some password) (store none volume) = store (some password) volume) :
    ∃ password, password.length < 64 ∧
      setUtf16Password store utf8FromUtf16 utf16String volume = (.ok 1, store (some (password ++ [0])) volume) ∧
      expectedConvert expected store utf16String = (.ok 1, store (some password) expected) := by
  obtain ⟨characters, rfl, some, unended, short⟩ := allowed
  have sizes := ShortUtf16.sizes some short
  refine ⟨utf8Bytes characters, short, ?_, ?_⟩
  · rw [setUtf16Password, Call.update_bind, libuna characters some unended]
    dsimp only
    rw [if_neg (by rw [List.length_append, List.length_singleton]; omega)]
    exact congrArg (Prod.mk (Except.ok 1)) (replaces _)
  · rw [expectedConvert, utf16Characters_utf16Units]
    dsimp only
    rw [expectedSet, if_neg (by omega)]

theorem unlock_expected (supported : Supported volume) {memory : Memory}
    (allowed : Allowed ciphers volume (.unlock, memory)) : unlock ciphers memory volume = expectedUnlock ciphers volume := by
  obtain ⟨entries, keyBag, hold⟩ := supported.keyBag
  obtain ⟨masterEntries, containerKeyBag, masterHold⟩ := supported.containerKeyBag
  have first := getVolumeKey_ok ciphers hold supported.userPassword supported.recoveryPassword
    memory.volumeKey.val
  have keys : volume.passwordKeys = keysOf isPasswordEntry entries := by rw [passwordKeys, keyBag]; rfl
  have masterKeys : volume.masterKeys = keysOf (isKeyEntry volume.volumeIdentifier) masterEntries := by
    rw [Volume.masterKeys, containerKeyBag]
    rfl
  rw [← keys] at first
  change _ = Except.ok ((volume.volumeKey ciphers).map _) at first
  rw [unlock, Call.self_bind, expectedUnlock]
  by_cases locked : volume.isLocked
  · rw [if_pos locked, if_pos locked, unlockInternal, Call.self_bind, keyBag]
    dsimp only
    rw [first]
    cases found : volume.volumeKey ciphers with
    | none => rfl
    | some volumeKey =>
        have fits := allowed volumeKey found
        rw [masterKeys] at fits
        have second := getVolumeMasterKeyByIdentifier_ok masterHold fits memory.volumeKey.val memory.volumeMasterKey
        rw [← masterKeys] at second
        change _ = Except.ok (volume.volumeMasterKey ciphers volumeKey) at second
        dsimp only [Option.map_some]
        rw [Call.bind_of_ok (Call.lift_run _ _), containerKeyBag]
        dsimp only
        rw [second]
        cases unlocked : volume.volumeMasterKey ciphers volumeKey with
        | none => rfl
        | some volumeMasterKey =>
            obtain ⟨key, member, under⟩ := List.exists_of_findSome?_eq_some unlocked
            have size := KeyEncryptedKey.underKey_length under
            have rest : (volumeMasterKey.drop 16).take 16 = volumeMasterKey.drop 16 := by
              apply List.take_of_length_le
              rw [List.length_drop]
              omega
            rw [Call.bind_of_ok (Call.lift_run _ _)]
            dsimp only
            rw [← rest, ← keyBag, ← containerKeyBag]
            rfl
  · rw [if_neg locked, if_neg locked]
    rfl

theorem expectedUnlock_supported (supported : Supported volume) : (volume.expectedUnlock ciphers).2.Supported := by
  rw [expectedUnlock]
  split
  · cases volume.volumeKey ciphers with
    | none => exact supported
    | some volumeKey =>
        dsimp only
        cases volume.volumeMasterKey ciphers volumeKey with
        | none => exact supported
        | some volumeMasterKey => exact { supported with }
  · exact supported

theorem Keeps.bind (pads : ciphers.PadsKeys) {kept password : Option (List UInt8)} (keeps : Keeps kept password)
    (key : KeyEncryptedKey) : kept.bind (key.underPassword ciphers) = password.bind (key.underPassword ciphers) := by
  rcases keeps with rfl | ⟨bytes, rfl, short, rfl⟩
  · rfl
  · exact key.underPassword_ended pads short

namespace Agrees

variable {expected : Volume}

theorem refl (volume : Volume) : Agrees volume volume := ⟨rfl, rfl, rfl, Or.inl rfl, Or.inl rfl, rfl, rfl⟩

section unlock

variable (agrees : Agrees volume expected)
include agrees

theorem volumeKey (pads : ciphers.PadsKeys) : volume.volumeKey ciphers = expected.volumeKey ciphers := by
  have same : ∀ key : KeyEncryptedKey, key.underPasswords ciphers volume.userPassword volume.recoveryPassword =
      key.underPasswords ciphers expected.userPassword expected.recoveryPassword := by
    intro key
    rw [KeyEncryptedKey.underPasswords, agrees.userPassword.bind pads, agrees.recoveryPassword.bind pads,
      KeyEncryptedKey.underPasswords]
  unfold Volume.volumeKey passwordKeys
  rw [agrees.keyBag]
  simp only [same]

theorem volumeMasterKey (volumeKey : List UInt8) :
    volume.volumeMasterKey ciphers volumeKey = expected.volumeMasterKey ciphers volumeKey := by
  unfold Volume.volumeMasterKey masterKeys
  rw [agrees.containerKeyBag, agrees.volumeIdentifier]

theorem expectedUnlock (pads : ciphers.PadsKeys) :
    (volume.expectedUnlock ciphers).1 = (expected.expectedUnlock ciphers).1 ∧
      Agrees (volume.expectedUnlock ciphers).2 (expected.expectedUnlock ciphers).2 := by
  unfold Volume.expectedUnlock
  rw [agrees.isLocked, agrees.volumeKey pads]
  split_ifs
  · cases expected.volumeKey ciphers with
    | none => exact ⟨rfl, agrees⟩
    | some volumeKey =>
        dsimp only
        rw [agrees.volumeMasterKey]
        cases expected.volumeMasterKey ciphers volumeKey with
        | none => exact ⟨rfl, agrees⟩
        | some volumeMasterKey => exact ⟨rfl, { agrees with isLocked := rfl, keys := rfl }⟩
  · exact ⟨rfl, agrees⟩

end unlock

end Agrees

/-- An operation that returns what is expected, and leaves a volume that agrees with the expected one. -/
def Meets (result expected : Result Nat × Volume) : Prop :=
  result.1 = expected.1 ∧ Supported result.2 ∧ Agrees result.2 expected.2

section perform

variable {expected : Volume} {store : Option (List UInt8) → Volume → Volume}
  (stores : ∀ kept password, Keeps kept password → (∀ bytes, kept = some bytes → bytes.length ≤ ssizeMax) →
    Supported (store kept volume) ∧ Agrees (store kept volume) (store password expected))
include stores

theorem expectedSet_meets (password : List UInt8) :
    Meets (expectedSet volume store password) (expectedSet expected store password) := by
  unfold expectedSet
  split
  · exact ⟨rfl, stores none none (Or.inl rfl) fun _ absent => nomatch absent⟩
  next accepted =>
    refine ⟨rfl, stores (some password) (some password) (Or.inl rfl) fun bytes same => ?_⟩
    have bound : memoryMaximumAllocationSize - 1 ≤ ssizeMax := by decide
    cases same
    omega

theorem setUtf16Password_meets (libuna : ConvertsUtf16 utf8FromUtf16) {utf16String : List UInt16}
    (allowed : ShortUtf16 utf16String)
    (replaces : ∀ password, store (some password) (store none volume) = store (some password) volume) :
    Meets (setUtf16Password store utf8FromUtf16 utf16String volume) (expectedConvert expected store utf16String) := by
  obtain ⟨password, short, set, convert⟩ := setUtf16Password_ended libuna allowed expected replaces
  rw [set, convert]
  refine ⟨rfl, stores _ (some password) (Or.inr ⟨password, rfl, short, rfl⟩) fun bytes same => ?_⟩
  cases same
  rw [List.length_append, List.length_singleton]
  unfold ssizeMax
  omega

end perform

theorem perform_meets (libuna : ConvertsUtf16 utf8FromUtf16) (pads : ciphers.PadsKeys) {expected : Volume}
    (supported : Supported volume) (agrees : Agrees volume expected) {operation : Operation × Memory}
    (allowed : Allowed ciphers volume operation) :
    Meets (perform ciphers utf8FromUtf16 operation volume) (expected.expected ciphers operation.1) := by
  have user : ∀ kept password, Keeps kept password → (∀ bytes, kept = some bytes → bytes.length ≤ ssizeMax) →
      Supported (setUserPassword kept volume) ∧
        Agrees (setUserPassword kept volume) (setUserPassword password expected) := fun kept password keeps short =>
    ⟨{ supported with userPassword := short }, { agrees with userPassword := keeps }⟩
  have recovery : ∀ kept password, Keeps kept password → (∀ bytes, kept = some bytes → bytes.length ≤ ssizeMax) →
      Supported (setRecoveryPassword kept volume) ∧
        Agrees (setRecoveryPassword kept volume) (setRecoveryPassword password expected) :=
    fun kept password keeps short =>
      ⟨{ supported with recoveryPassword := short }, { agrees with recoveryPassword := keeps }⟩
  obtain ⟨operation, memory⟩ := operation
  cases operation with
  | setUtf8Password utf8String utf8StringLength =>
      change Meets (setUtf8Password _ _ _ _ _) _
      rw [setUtf8Password_expected allowed.1 allowed.2 fun _ => rfl]
      exact expectedSet_meets user utf8String
  | setUtf16Password utf16String => exact setUtf16Password_meets user libuna allowed fun _ => rfl
  | setUtf8RecoveryPassword utf8String utf8StringLength =>
      change Meets (setUtf8Password _ _ _ _ _) _
      rw [setUtf8Password_expected allowed.1 allowed.2 fun _ => rfl]
      exact expectedSet_meets recovery utf8String
  | setUtf16RecoveryPassword utf16String => exact setUtf16Password_meets recovery libuna allowed fun _ => rfl
  | unlock =>
      have unlocks := agrees.expectedUnlock pads
      change Meets (unlock ciphers memory volume) (expectedUnlock ciphers expected)
      rw [unlock_expected supported allowed]
      exact ⟨unlocks.1, expectedUnlock_supported supported, unlocks.2⟩

end Volume

namespace Sample

def passwordBlocks : List (Nat × Nat) := [
  (0xee484f2a59caf708c57ed42ee19aecfa, 0x79ede087a18411647db477d55de7a089),
  (0x79ede087a184116f87e814ebe7f81bbe, 0x421cd69281ced0ad7aa9e913fa6c3d0a),
  (0x421cd69281ced0a77db477d55de7a089, 0x036e583dbf03acb1b30ef3f37526eb00),
  (0x036e583dbf03acb87aa9e913fa6c3d0a, 0x25fd8941f722d468facd33855086f4d7),
  (0x25fd8941f722d460b30ef3f37526eb00, 0xee8d464820174c28dca3298654d0b9ce),
  (0xee8d464820174c2ffacd33855086f4d7, 0x240c4ff72b90fedd6cc35506983e5359),
  (0x240c4ff72b90fedbdca3298654d0b9ce, 0x348aba0d27dfe88a86d2ee064c8f6cf2),
  (0x348aba0d27dfe88f6cc35506983e5359, 0x00015c4fa914034a46fe78a6c0abd03d),
  (0x00015c4fa914034e86d2ee064c8f6cf2, 0xfad1c9731a97d01cb31319053e963133),
  (0xfad1c9731a97d01f46fe78a6c0abd03d, 0x21eaa299c016798dd4151b28d22b26fc),
  (0x21eaa299c016798fb31319053e963133, 0xfd7ef8f473a49b380101010101010101),
  (0xfd7ef8f473a49b39d4151b28d22b26fc, 0xa6a6a6a6a6a6a6a60101010101010101)]

def volumeKeyBlocks : List (Nat × Nat) := [
  (0x2152937994459ab591eb5389bc8aa7cc, 0xc908ce99e2e3ba04fad9e48ddfed1728),
  (0xc908ce99e2e3ba0ffb05db73e66f5462, 0x4b2fbb107d02d4a2265a4d20638971b3),
  (0x4b2fbb107d02d4a8fad9e48ddfed1728, 0x8c2303c4f370e5127c7289e5d9178ece),
  (0x8c2303c4f370e51b265a4d20638971b3, 0x8562f15ee976b20a0347ea294275e0ad),
  (0x8562f15ee976b2027c7289e5d9178ece, 0x4ac96350f27d47d368579eae6adf2f01),
  (0x4ac96350f27d47d40347ea294275e0ad, 0x26fc6c555d523ea8735121f23ed67f48),
  (0x26fc6c555d523eae68579eae6adf2f01, 0x72ace129d61ba1bbad08ea211265c5e0),
  (0x72ace129d61ba1be735121f23ed67f48, 0xed08c5ebf214ddf40dfdef1fce8f82c4),
  (0xed08c5ebf214ddf0ad08ea211265c5e0, 0x539ab22344bef36314c953828164cb45),
  (0x539ab22344bef3600dfdef1fce8f82c4, 0x49a329f26d2f0fec016c09d50502f60c),
  (0x49a329f26d2f0fee14c953828164cb45, 0x0f871eab7db2c87b0202020202020202),
  (0x0f871eab7db2c87a016c09d50502f60c, 0xa6a6a6a6a6a6a6a60202020202020202)]

def zeroBlocks : List (Nat × Nat) := [
  (0x5aa2d1596bcf6e1a1bc2849567780345, 0xed2ebaac41dea2ec3c950ce301b39c81),
  (0xed2ebaac41dea2fb86195c0e2db1d426, 0x2692f46b123a79e78d42245d23e6c483),
  (0x2692f46b123a79f1f5e287d24f7e4260, 0x4ce18e8ba6cfdd1c1354d9fbf6857d22),
  (0x4ce18e8ba6cfdd09182ec0b2b812ac13, 0xb06ef69dcad3e46402cd336b98ba3c7f),
  (0xb06ef69dcad3e4703c950ce301b39c81, 0x80ad45aa7621d73588cefb3bc0ee5e97),
  (0x80ad45aa7621d7268d42245d23e6c483, 0x45a3f5b1dbcfaf52c5668f61634cbddd),
  (0x45a3f5b1dbcfaf401354d9fbf6857d22, 0x320777c1e8dee791db9132c5eb425090),
  (0x320777c1e8dee78002cd336b98ba3c7f, 0x6b8a0519538e8efd2718b4b3a4cf2768),
  (0x6b8a0519538e8eed88cefb3bc0ee5e97, 0x0e7a8e9eee8c0b57285b90bed805e35f),
  (0x0e7a8e9eee8c0b58c5668f61634cbddd, 0xa2cff282738e14d92c6dd0124b96919a),
  (0xa2cff282738e14d7db9132c5eb425090, 0x3429c2d62a02dfe9be57110025693dd4),
  (0x3429c2d62a02dfe42718b4b3a4cf2768, 0x58d41a65dffb818d4f6b8d7beaed89be),
  (0x58d41a65dffb8181285b90bed805e35f, 0xf1602816a6933d10311d349cbf16bcb0),
  (0xf1602816a6933d1b2c6dd0124b96919a, 0xd153fe2b01783c6f17a68661a4fe29db),
  (0xd153fe2b01783c65be57110025693dd4, 0x85e9d74a10e27ddbc75f90275d44c506),
  (0x85e9d74a10e27dd24f6b8d7beaed89be, 0x7e4514afa8e9b46389175081f732591d),
  (0x7e4514afa8e9b46b311d349cbf16bcb0, 0x8627d03d08546eccf4e23231b49b58ea),
  (0x8627d03d08546ecb17a68661a4fe29db, 0x5c24df0d8c66487225f5d00a9f597cec),
  (0x5c24df0d8c664874c75f90275d44c506, 0x3829692b8575c551ebdf62e96ba29785),
  (0x3829692b8575c55489175081f732591d, 0x269ab14e37f9287437b9a6b1f99eb1e2),
  (0x269ab14e37f92870f4e23231b49b58ea, 0x185900d1aee939f90303030303030303),
  (0x185900d1aee939fa25f5d00a9f597cec, 0xc0cb66aa7893b9c90303030303030303),
  (0xc0cb66aa7893b9cbebdf62e96ba29785, 0x34dc9fe5c260c40a0303030303030303),
  (0x34dc9fe5c260c40b37b9a6b1f99eb1e2, 0xa6a6a6a6a6a6a6a60303030303030303)]

def oneBlocks : List (Nat × Nat) := [
  (0x5aa2d1596bcf6e1a1bc2849567780345, 0xc979b0a310933cce4628d49d4a61d6b2),
  (0xc979b0a310933cd986195c0e2db1d426, 0x6afd5311c4a42a4427bbf909ce586956),
  (0x6afd5311c4a42a52f5e287d24f7e4260, 0x6db18d8ad73582b4339b183cfc5cb31d),
  (0x6db18d8ad73582a1182ec0b2b812ac13, 0x0cfaa2eb7ee629039bca51c109bfc1ce),
  (0x0cfaa2eb7ee629174628d49d4a61d6b2, 0x9b46a9e6494d5a8772096732a56754bb),
  (0x9b46a9e6494d5a9427bbf909ce586956, 0x01d760082735ae3ef09f75b0192dfd56),
  (0x01d760082735ae2c339b183cfc5cb31d, 0xc40802a7cecc7a959fe7d58665f2efec),
  (0xc40802a7cecc7a849bca51c109bfc1ce, 0x2cc78d4e42246b75a38c1af94e3b4d18),
  (0x2cc78d4e42246b6572096732a56754bb, 0x0a624a94fa5e315b41240ee37adc9595),
  (0x0a624a94fa5e3154f09f75b0192dfd56, 0xf32682556c25b596ed6ca18e0dcfa6fc),
  (0xf32682556c25b5989fe7d58665f2efec, 0xe8f9c401f2801701c2c641bd74c65ef0),
  (0xe8f9c401f280170ca38c1af94e3b4d18, 0xf9512c59dcbb18c8159271755db5f697),
  (0xf9512c59dcbb18c441240ee37adc9595, 0xdfd6ba60f448f6d30a4a358ed4d88d6d),
  (0xdfd6ba60f448f6d8ed6ca18e0dcfa6fc, 0xed8abe9654c49ad8eb0c3b964053c882),
  (0xed8abe9654c49ad2c2c641bd74c65ef0, 0xba9509e8e4d98ba1aedd43c0415870b1),
  (0xba9509e8e4d98ba8159271755db5f697, 0xd8af7174807a9844e9358389fc6acb41),
  (0xd8af7174807a984c0a4a358ed4d88d6d, 0x566b8be154a07270e4b9ed111a03f985),
  (0x566b8be154a07277eb0c3b964053c882, 0x87be17fed6031dd392e86eb43e5611e6),
  (0x87be17fed6031dd5aedd43c0415870b1, 0x5ab8fbad35d6aaeca2b61933f3a545bd),
  (0x5ab8fbad35d6aae9e9358389fc6acb41, 0xe58cb261a6fb35dd9e3ade9642792ead),
  (0xe58cb261a6fb35d9e4b9ed111a03f985, 0x0605cfe09aed25d706fd006fd4b00a6e),
  (0x0605cfe09aed25d492e86eb43e5611e6, 0x01bc01dc20d8a281261c3a5f3d683b2a),
  (0x01bc01dc20d8a283a2b61933f3a545bd, 0x302e221bfb5696f0a1bb1605446a7a00),
  (0x302e221bfb5696f19e3ade9642792ead, 0xd645892a3edbd53053a0473809ccdfc4)]

def blockOf (blocks : List (Nat × Nat)) (data : List UInt8) : Bytes 16 :=
  ⟨bigEndianBytes 16 ((blocks.lookup (bigEndian data)).getD 0), bigEndianBytes_length⟩

def ciphers : Ciphers where
  calculateHmac _ _ := ⟨bigEndianBytes 32 0x29d91afd8adb2a48aed23991bb2f03e8f38c971bc6acb7fc66da288c7abe4c26,
    bigEndianBytes_length⟩
  calculateSha256 _ := ⟨bigEndianBytes 32 0xe6e6fd28e51faf40529106878ab1d924aee3436b094f402347d8083737095ffe,
    bigEndianBytes_length⟩
  decryptBlock key :=
    if key = bigEndianBytes 16 0x29d91afd8adb2a48aed23991bb2f03e8 then blockOf passwordBlocks
    else if key = List.replicate 16 1 then blockOf volumeKeyBlocks
    else if key = List.replicate 16 1 ++ List.replicate 16 0 then blockOf zeroBlocks
    else blockOf oneBlocks

def utf8FromUtf16 (utf16String : List UInt16) : Option (List UInt8) :=
  if utf16String.all (· < 128) then some (utf16String.map (·.toUInt8) ++ [0]) else none

def key (encryptionMethod : Nat) (wrappedKek : Nat) : KeyEncryptedKey :=
  { KeyEncryptedKey.create with
    encryptionMethod, numberOfIterations := 1, wrappedKek := ⟨bigEndianBytes 40 wrappedKek, bigEndianBytes_length⟩ }

def keyData (key : KeyEncryptedKey) : List UInt8 :=
  [0x30, 0x81, 137, 0x81, 32] ++ key.hmac.val ++ [0x82, 8, 0, 0, 0, 0, 0, 0, 0, 0] ++
    [0xa3, 91, 0x81, 16] ++ key.identifier.val ++ [0x82, 8] ++ littleEndianBytes 8 key.encryptionMethod ++
    [0x83, 40] ++ key.wrappedKek.val ++ [0x84, 1, UInt8.ofNat key.numberOfIterations, 0x85, 16] ++ key.salt.val

def passwordKey : KeyEncryptedKey := key 2 (0xee484f2a59caf70487e814ebe7f81bbec57ed42ee19aecfa * 256 ^ 16)

def shortKey : KeyEncryptedKey := key 2 (0x2152937994459ab9fb05db73e66f546291eb5389bc8aa7cc * 256 ^ 16)

def longKey : KeyEncryptedKey :=
  key 0 0x5aa2d1596bcf6e02182ec0b2b812ac13f5e287d24f7e426086195c0e2db1d4261bc2849567780345

def volume (masterKey : KeyEncryptedKey) : Volume where
  keyBag := some [{ type := 3, identifier := Bytes.zero 16, data := keyData passwordKey }]
  containerKeyBag := some [{ type := 2, identifier := Bytes.zero 16, data := keyData masterKey }]
  volumeIdentifier := Bytes.zero 16
  userPassword := none
  recoveryPassword := none
  isLocked := true
  keys := none

def memory (byte : UInt8) : Memory where
  volumeKey := ⟨List.replicate 32 byte, List.length_replicate⟩
  volumeMasterKey := ⟨List.replicate 32 byte, List.length_replicate⟩
  allocation _ := byte

def operations (byte : UInt8) : List (Volume.Operation × Memory) :=
  [(.setUtf8Password [97] 1, memory byte), (.unlock, memory byte)]

def utf16Operations : List (Volume.Operation × Memory) :=
  [(.unlock, memory 0), (.setUtf16Password [97], memory 1), (.unlock, memory 2), (.setUtf8Password [97] 1, memory 3),
    (.unlock, memory 4)]

def convertUtf16 (utf16String : List UInt16) : Option (List UInt8) :=
  (utf16Characters utf16String).map fun characters => utf8Bytes characters ++ [0]

theorem convertsUtf16 : Volume.ConvertsUtf16 convertUtf16 := by
  intro characters _ _
  rw [convertUtf16, utf16Characters_utf16Units, Option.map_some]

theorem supported {masterKey : KeyEncryptedKey} (read : KeyEncryptedKey.readData (keyData masterKey) = .ok masterKey)
    (unlocks : masterKey.UnlocksWithKey) : (volume masterKey).Supported where
  keyBag := by
    refine ⟨_, rfl, fun entry member _ => ⟨passwordKey, ?_, ⟨Or.inr (Or.inl rfl), by decide, by decide⟩⟩⟩
    rw [List.mem_singleton.mp member]
    decide +kernel
  containerKeyBag := by
    refine ⟨_, rfl, fun entry member _ => ⟨masterKey, ?_, unlocks⟩⟩
    rw [List.mem_singleton.mp member]
    exact read
  userPassword := fun _ absent => nomatch absent
  recoveryPassword := fun _ absent => nomatch absent

end Sample

namespace Volume

variable {ciphers : Ciphers} {utf8FromUtf16 : List UInt16 → Option (List UInt8)} {volume : Volume}

/-- Over every sequence of operations that are allowed, what the code returns and leaves is what is expected. -/
theorem unlock_outcomes (libuna : ConvertsUtf16 utf8FromUtf16) (pads : ciphers.PadsKeys)
    {operations : List (Operation × Memory)} (supported : Supported volume)
    (along : Along (fun volume operation => (perform ciphers utf8FromUtf16 operation volume).2) (Allowed ciphers) volume
      operations) :
    List.Forall₂ (fun outcome expected => outcome.1 = expected.1 ∧ Agrees outcome.2 expected.2)
      (outcomes (perform ciphers utf8FromUtf16) volume operations)
      (outcomes (fun operation volume => expected ciphers volume operation.1) volume operations) := by
  have related : List.Forall₂ (fun outcome expected => outcome.1 = expected.1 ∧
        (Supported outcome.2 ∧ Agrees outcome.2 expected.2))
      (outcomes (perform ciphers utf8FromUtf16) volume operations)
      (outcomes (fun operation volume => expected ciphers volume operation.1) volume operations) :=
    outcomes_related (perform ciphers utf8FromUtf16) (fun operation volume => expected ciphers volume operation.1)
      (fun volume expected => Supported volume ∧ Agrees volume expected)
      (fun _ _ _ related allowed => perform_meets libuna pads related.1 related.2 allowed)
      ⟨supported, Agrees.refl volume⟩ along
  exact related.imp fun _ _ meets => ⟨meets.1, meets.2.2⟩

theorem unlock_outcomes_sample :
    List.Forall₂ (fun outcome expected => outcome.1 = expected.1 ∧ Agrees outcome.2 expected.2)
        (outcomes (perform Sample.ciphers Sample.convertUtf16) (Sample.volume Sample.shortKey) Sample.utf16Operations)
        (outcomes (fun operation volume => expected Sample.ciphers volume operation.1) (Sample.volume Sample.shortKey)
          Sample.utf16Operations) ∧
      (outcomes (perform Sample.ciphers Sample.convertUtf16) (Sample.volume Sample.shortKey)
        Sample.utf16Operations).map (·.1) = [.ok 0, .ok 1, .ok 1, .ok 1, .ok 1] := by
  refine ⟨unlock_outcomes Sample.convertsUtf16 (fun _ _ _ => rfl)
    (Sample.supported (by decide +kernel) ⟨Or.inr rfl⟩) ⟨?_, ?_, ?_, ?_, ?_, trivial⟩, by decide +kernel⟩
  · intro volumeKey found
    have known : none = some volumeKey := Eq.trans (by decide +kernel) found
    cases known
  · exact ⟨['a'], by decide, by decide, by decide, by decide⟩
  · intro volumeKey found
    have known : some volumeKey = some (List.replicate 16 1) := found.symm.trans (by decide +kernel)
    rw [Option.some.inj known]
    decide +kernel
  · exact ⟨by decide, by decide⟩
  · intro volumeKey found
    have known : some volumeKey = some (List.replicate 16 1) := found.symm.trans (by decide +kernel)
    rw [Option.some.inj known]
    decide +kernel

/-- Under a volume key of 16 bytes a master key of method 0 unwraps, or not, by what memory held behind the key. -/
theorem unlock_reads_memory :
    (Sample.volume Sample.longKey).Supported ∧
      (outcomes (perform Sample.ciphers Sample.utf8FromUtf16) (Sample.volume Sample.longKey) (Sample.operations 0)).map (·.1) =
        [.ok 1, .ok 1] ∧
      (outcomes (perform Sample.ciphers Sample.utf8FromUtf16) (Sample.volume Sample.longKey) (Sample.operations 1)).map (·.1) =
        [.ok 1, fail .getFailed] ∧
      (outcomes (fun operation volume => expected Sample.ciphers volume operation.1)
        (Sample.volume Sample.longKey) (Sample.operations 0)).map (·.1) = [.ok 1, fail .getFailed] :=
  ⟨Sample.supported (by decide +kernel) ⟨Or.inl rfl⟩, by decide +kernel, by decide +kernel, by decide +kernel⟩

end Volume

end Fsapfs
