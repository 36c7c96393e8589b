import Mathlib.Algebra.Group.End
import Mathlib.GroupTheory.Perm.Basic
import Fsapfs.EncryptedKeyBags
import Fsapfs.KeyWrap
import Fsapfs.StoredKeys
import Fsapfs.Unlocking

namespace Fsapfs
open Program Coding

/-- A lock: the passwords that were set, and the keys of the volume once it is open. -/
structure Lock where
  userPassword : Option (List UInt8)
  recoveryPassword : Option (List UInt8)
  keys : Option (List UInt8 × List UInt8)
  deriving DecidableEq

namespace Lock

def closed : Lock where
  userPassword := none
  recoveryPassword := none
  keys := none

section operations

variable (passwords : List (List UInt8)) (volumeKeys : List UInt8 × List UInt8)

def opens (lock : Lock) : Bool :=
  lock.userPassword.any (· ∈ passwords) || lock.recoveryPassword.any (· ∈ passwords)

def setUserPassword (password : Option (List UInt8)) (lock : Lock) : Lock := { lock with userPassword := password }

def setRecoveryPassword (password : Option (List UInt8)) (lock : Lock) : Lock :=
  { lock with recoveryPassword := password }

def set (store : Option (List UInt8) → Lock → Lock) (password : List UInt8) (lock : Lock) : Result Nat × Lock :=
  if password.length = 0 ∨ password.length > memoryMaximumAllocationSize - 1 then (fail .valueOutOfBounds, store none lock)
  else (.ok 1, store (some password) lock)

def convert (store : Option (List UInt8) → Lock → Lock) (utf16String : List UInt16) (lock : Lock) : Result Nat × Lock :=
  match utf16Characters utf16String with
  | none => (fail .setFailed, store none lock)
  | some characters => set store (utf8Bytes characters) lock

/-- An open lock stays open; another one opens to the keys under one of the passwords. -/
def unlock (lock : Lock) : Result Nat × Lock :=
  if lock.keys.isSome then (.ok 1, lock)
  else if lock.opens passwords then (.ok 1, { lock with keys := some volumeKeys })
  else (.ok 0, lock)

def perform (operation : Volume.Operation) (lock : Lock) : Result Nat × Lock :=
  match operation with
  | .setUtf8Password utf8String _ => set setUserPassword utf8String lock
  | .setUtf16Password utf16String => convert setUserPassword utf16String lock
  | .setUtf8RecoveryPassword utf8String _ => set setRecoveryPassword utf8String lock
  | .setUtf16RecoveryPassword utf16String => convert setRecoveryPassword utf16String lock
  | .unlock => unlock passwords volumeKeys lock

end operations

end Lock

structure BlockCipher where
  ciphers : Ciphers
  encrypt : List UInt8 → List UInt8 → Bytes 16
  decrypts : ∀ key block, block.length = 16 → (ciphers.decryptBlock key (encrypt key block).val).val = block

namespace KeyEncryptedKey

variable (cipher : BlockCipher) (key : KeyEncryptedKey)

structure Wraps (wrappingKey plain : List UInt8) : Prop where
  length : plain.length = key.keySize
  wrapped : key.wrappedKek.val.take (key.keySize + 8) =
    keyWrap (cipher.encrypt wrappingKey) wrappedKekInitializationVector plain

def WrapsUnder (password plain : List UInt8) : Prop :=
  ∃ passwordKey, passwordPbkdf2 cipher.ciphers password key.salt.val key.numberOfIterations key.keySize =
    .ok passwordKey ∧ key.Wraps cipher passwordKey plain

/-- The volume master key of a key that has half of it, or all of it, wrapped. -/
def masterKey (plain : List UInt8) : List UInt8 :=
  if key.encryptionMethod = 2 then
    plain ++ (cipher.ciphers.calculateSha256 (plain ++ key.identifier.val)).val.take 16
  else plain

variable {cipher key}

theorem Wraps.unwrapped {wrappingKey plain : List UInt8} (wraps : key.Wraps cipher wrappingKey plain) :
    key.unwrapped cipher.ciphers wrappingKey = some plain := by
  have cases := key.keySize_cases
  have length := wraps.length
  obtain ⟨blocks, whole⟩ : ∃ n, key.keySize = 8 * n := by
    rcases cases with size | size
    · exact ⟨2, size⟩
    · exact ⟨4, size⟩
  have iv : wrappedKekInitializationVector.length = 8 := by decide
  obtain ⟨sized, data⟩ := KeyBlocks.ofData_sized iv (length.trans whole)
  have wrapped := @keyWrap_bytes (cipher.encrypt wrappingKey) blocks _ sized
  have unwraps := @aesKeyUnwrap_bytes cipher.ciphers wrappingKey (key.keySize * 8) blocks _ (by omega) (by omega)
    (@KeyBlocks.wrapRounds_sized _ _ (cipher.encrypt wrappingKey) sized) (by unfold ssizeMax; omega)
  rw [data] at wrapped
  rw [KeyBlocks.unwrapRounds_wrapRounds (cipher.decrypts wrappingKey) sized, ← wrapped, KeyBlocks.bytes, data,
    ← wraps.wrapped] at unwraps
  rw [KeyEncryptedKey.unwrapped, unwraps]
  have front : (wrappedKekInitializationVector ++ plain).take 8 = List.replicate 8 0xa6 := List.take_left' iv
  have back : (wrappedKekInitializationVector ++ plain).drop 8 = plain := List.drop_left' iv
  dsimp only
  rw [front, back, if_pos rfl, List.take_of_length_le (Nat.le_of_eq length)]

theorem WrapsUnder.underPassword {password plain : List UInt8} (wraps : key.WrapsUnder cipher password plain) :
    key.underPassword cipher.ciphers password = some plain := by
  obtain ⟨passwordKey, derived, wraps⟩ := wraps
  rw [KeyEncryptedKey.underPassword, derived]
  exact wraps.unwrapped

theorem Wraps.underKey {volumeKey plain : List UInt8} (fits : key.keySize ≤ volumeKey.length)
    (wraps : key.Wraps cipher (volumeKey.take key.keySize) plain) :
    key.underKey cipher.ciphers volumeKey = some (key.masterKey cipher plain) := by
  rw [KeyEncryptedKey.underKey, if_pos fits, wraps.unwrapped]
  rfl

theorem StoredKey.readData_encode {stored : StoredKey} (readsBack : stored.ReadsBack) :
    readData stored.object.encode = .ok stored.key := by
  have sized := stored.wrapped_sized
  have small : (stored.wrapped.value.length + 2) % 2 ^ 16 = stored.wrapped.value.length + 2 := Nat.mod_eq_of_lt sized
  have header := stored.wrapped.header_length
  have first := stored.readObject_encode.mpr ⟨readsBack.1, rfl⟩
  rw [stored.object_applied, small] at first
  rw [readData, first, ok_bind]
  dsimp only
  rw [stored.drop_wrapped, readWrappedObject_sequence]
  · exact StoredKey.second_iff.mpr readsBack.2
  · rw [List.length_append, List.length_append, List.length_drop]
    omega

end KeyEncryptedKey

open KeyEncryptedKey (StoredKey)

/-- Every entry that a search tries holds a key of a kind, in a form that can be read back. -/
def HoldStored (kind : KeyEncryptedKey → Prop) (tried : KeyBagEntry → Bool) (entries : List KeyBagEntry) : Prop :=
  ∀ entry ∈ entries, tried entry →
    ∃ stored : StoredKey, entry.data = stored.object.encode ∧ stored.ReadsBack ∧ kind stored.key

theorem HoldStored.hold {kind : KeyEncryptedKey → Prop} {tried : KeyBagEntry → Bool} {entries : List KeyBagEntry}
    (holds : HoldStored kind tried entries) : Hold kind tried entries := by
  intro entry member tries
  obtain ⟨stored, data, readsBack, kind⟩ := holds entry member tries
  exact ⟨stored.key, data ▸ StoredKey.readData_encode readsBack, kind⟩

/-- The volume key is wrapped under each of the passwords and nothing else is; the volume master key is wrapped under
the volume key. -/
structure Protects (cipher : BlockCipher) (passwords : List (List UInt8)) (volumeKey volumeMasterKey : List UInt8)
    (volumeIdentifier : Bytes 16) (volumeEntries containerEntries : List KeyBagEntry) : Prop where
  passwordKeys : HoldStored KeyEncryptedKey.UnlocksWithPassword isPasswordEntry volumeEntries
  masterKeys : HoldStored KeyEncryptedKey.UnlocksWithKey (isKeyEntry volumeIdentifier) containerEntries
  under : ∀ password ∈ passwords, ∃ key ∈ keysOf isPasswordEntry volumeEntries,
    key.WrapsUnder cipher password volumeKey
  master : ∃ key ∈ keysOf (isKeyEntry volumeIdentifier) containerEntries, ∃ plain,
    key.Wraps cipher (volumeKey.take key.keySize) plain ∧ key.masterKey cipher plain = volumeMasterKey
  sizes : ∀ key ∈ keysOf (isKeyEntry volumeIdentifier) containerEntries, key.keySize ≤ volumeKey.length
  only : ∀ key ∈ keysOf (isKeyEntry volumeIdentifier) containerEntries, ∀ unlocked,
    key.underKey cipher.ciphers volumeKey = some unlocked → unlocked = volumeMasterKey

/-- A password that unwraps a key is one that the volume key was wrapped under, and unwraps that. -/
def Honest (cipher : BlockCipher) (passwords : List (List UInt8)) (volumeKey : List UInt8)
    (volumeEntries : List KeyBagEntry) (password : List UInt8) : Prop :=
  ∀ key ∈ keysOf isPasswordEntry volumeEntries, ∀ unlocked,
    key.underPassword cipher.ciphers password = some unlocked → password ∈ passwords ∧ unlocked = volumeKey

theorem findSome?_only {α β : Type} {items : List α} {find : α → Option β} {item : α} {value : β}
    (member : item ∈ items) (found : find item = some value)
    (only : ∀ item ∈ items, ∀ other, find item = some other → other = value) : items.findSome? find = some value := by
  cases search : items.findSome? find with
  | none => exact absurd found (by simp [List.findSome?_eq_none_iff.mp search item member])
  | some other =>
      obtain ⟨item', member', found'⟩ := List.exists_of_findSome?_eq_some search
      rw [only item' member' other found']

theorem fits_of_sizes {ciphers : Ciphers} {volumeKey : List UInt8} {keys : List KeyEncryptedKey}
    (sizes : ∀ key ∈ keys, key.keySize ≤ volumeKey.length) : Fits ciphers volumeKey keys := by
  induction keys with
  | nil => trivial
  | cons key keys ih =>
      obtain ⟨first, others⟩ := List.forall_mem_cons.mp sizes
      exact ⟨first, fun _ => ih others⟩

namespace Volume

def view (volume : Volume) : Lock where
  userPassword := volume.userPassword
  recoveryPassword := volume.recoveryPassword
  keys := volume.keys

/-- A volume has the keys of a lock, and its passwords up to an end of string character. -/
structure Shows (volume : Volume) (lock : Lock) : Prop where
  userPassword : Keeps volume.userPassword lock.userPassword
  recoveryPassword : Keeps volume.recoveryPassword lock.recoveryPassword
  isLocked : volume.isLocked = lock.keys.isNone
  keys : volume.keys = lock.keys

section lock

variable {cipher : BlockCipher} {passwords : List (List UInt8)} {volumeKey volumeMasterKey : List UInt8}
  {volumeIdentifier : Bytes 16} {volumeEntries containerEntries : List KeyBagEntry} {volume : Volume}

variable (cipher passwords volumeKey volumeIdentifier volumeEntries containerEntries) in
/-- A volume with its key bags and with passwords that are honest. -/
structure Guarded (volume : Volume) : Prop where
  keyBag : volume.keyBag = some volumeEntries
  containerKeyBag : volume.containerKeyBag = some containerEntries
  identifier : volume.volumeIdentifier = volumeIdentifier
  locked : volume.isLocked = volume.keys.isNone
  user : ∀ password, volume.userPassword = some password →
    password.length ≤ ssizeMax ∧ Honest cipher passwords volumeKey volumeEntries password
  recovery : ∀ password, volume.recoveryPassword = some password →
    password.length ≤ ssizeMax ∧ Honest cipher passwords volumeKey volumeEntries password

variable (cipher passwords volumeKey volumeEntries) in
/-- UTF-8 passwords are set whole and UTF-16 passwords are short, and they are honest. -/
def Sets (operation : Operation) : Prop :=
  match operation with
  | .setUtf8Password utf8String utf8StringLength | .setUtf8RecoveryPassword utf8String utf8StringLength =>
      utf8String.length ≤ utf8StringLength ∧ utf8StringLength ≤ utf8String.length + 1 ∧
        Honest cipher passwords volumeKey volumeEntries utf8String
  | .setUtf16Password utf16String | .setUtf16RecoveryPassword utf16String =>
      ∃ characters, utf16String = utf16Units characters ∧ characters ≠ [] ∧ Char.ofNat 0 ∉ characters ∧
        (utf8Bytes characters).length < 64 ∧
        Honest cipher passwords volumeKey volumeEntries (utf8Bytes characters)
  | .unlock => True

namespace Guarded

variable (protects : Protects cipher passwords volumeKey volumeMasterKey volumeIdentifier volumeEntries containerEntries)
  (guarded : Guarded cipher passwords volumeKey volumeIdentifier volumeEntries containerEntries volume)

include guarded

include protects in
theorem supported : volume.Supported where
  keyBag := ⟨_, guarded.keyBag, protects.passwordKeys.hold⟩
  containerKeyBag := ⟨_, guarded.containerKeyBag, guarded.identifier ▸ protects.masterKeys.hold⟩
  userPassword password set := (guarded.user password set).1
  recoveryPassword password set := (guarded.recovery password set).1

theorem passwordKeys_eq : volume.passwordKeys = keysOf isPasswordEntry volumeEntries := by
  rw [passwordKeys, guarded.keyBag]
  rfl

theorem masterKeys_eq : volume.masterKeys = keysOf (isKeyEntry volumeIdentifier) containerEntries := by
  rw [masterKeys, guarded.containerKeyBag, guarded.identifier]
  rfl

theorem underPasswords_only {key : KeyEncryptedKey} (member : key ∈ keysOf isPasswordEntry volumeEntries)
    {unlocked : List UInt8}
    (unwraps : key.underPasswords cipher.ciphers volume.userPassword volume.recoveryPassword = some unlocked) :
    volume.view.opens passwords = true ∧ unlocked = volumeKey := by
  rcases Option.or_eq_some_iff.mp unwraps with first | ⟨_, second⟩
  · obtain ⟨password, set, under⟩ := Option.bind_eq_some_iff.mp first
    obtain ⟨among, same⟩ := (guarded.user password set).2 key member unlocked under
    exact ⟨by simp [Lock.opens, view, set, among], same⟩
  · obtain ⟨password, set, under⟩ := Option.bind_eq_some_iff.mp second
    obtain ⟨among, same⟩ := (guarded.recovery password set).2 key member unlocked under
    exact ⟨by simp [Lock.opens, view, set, among], same⟩

include protects in
theorem underPasswords_found (opens : volume.view.opens passwords = true) :
    ∃ key ∈ keysOf isPasswordEntry volumeEntries,
      key.underPasswords cipher.ciphers volume.userPassword volume.recoveryPassword = some volumeKey := by
  have unwraps : ∀ key ∈ keysOf isPasswordEntry volumeEntries,
      (∃ password, (volume.userPassword = some password ∨ volume.recoveryPassword = some password) ∧
        key.underPassword cipher.ciphers password = some volumeKey) →
      key.underPasswords cipher.ciphers volume.userPassword volume.recoveryPassword = some volumeKey := by
    intro key member found
    obtain ⟨password, set, under⟩ := found
    cases result : key.underPasswords cipher.ciphers volume.userPassword volume.recoveryPassword with
    | some unlocked => rw [(guarded.underPasswords_only member result).2]
    | none =>
        obtain ⟨user, recovery⟩ := Option.or_eq_none_iff.mp result
        rcases set with set | set
        · simp [set, under] at user
        · simp [set, under] at recovery
  simp only [Lock.opens, view, Bool.or_eq_true, Option.any_eq_true, decide_eq_true_eq] at opens
  rcases opens with ⟨password, set, among⟩ | ⟨password, set, among⟩
  · obtain ⟨key, member, wraps⟩ := protects.under password among
    exact ⟨key, member, unwraps key member ⟨password, Or.inl set, wraps.underPassword⟩⟩
  · obtain ⟨key, member, wraps⟩ := protects.under password among
    exact ⟨key, member, unwraps key member ⟨password, Or.inr set, wraps.underPassword⟩⟩

include protects in
theorem volumeKey_eq :
    volume.volumeKey cipher.ciphers = if volume.view.opens passwords then some volumeKey else none := by
  rw [Volume.volumeKey, guarded.passwordKeys_eq]
  split_ifs with opens
  · obtain ⟨key, member, found⟩ := guarded.underPasswords_found protects opens
    exact findSome?_only member found fun key member other found => (guarded.underPasswords_only member found).2
  · refine List.findSome?_eq_none_iff.mpr fun key member => ?_
    cases result : key.underPasswords cipher.ciphers volume.userPassword volume.recoveryPassword with
    | none => rfl
    | some unlocked => exact absurd (guarded.underPasswords_only member result).1 opens

include protects in
theorem volumeMasterKey_eq : volume.volumeMasterKey cipher.ciphers volumeKey = some volumeMasterKey := by
  obtain ⟨key, member, plain, wraps, same⟩ := protects.master
  rw [Volume.volumeMasterKey, guarded.masterKeys_eq]
  refine findSome?_only member ?_ protects.only
  rw [wraps.underKey (protects.sizes key member), same]

theorem store_user {password : Option (List UInt8)} (honest : ∀ bytes, password = some bytes →
    bytes.length ≤ ssizeMax ∧ Honest cipher passwords volumeKey volumeEntries bytes) :
    Guarded cipher passwords volumeKey volumeIdentifier volumeEntries containerEntries
      (setUserPassword password volume) :=
  { guarded with user := honest }

theorem store_recovery {password : Option (List UInt8)} (honest : ∀ bytes, password = some bytes →
    bytes.length ≤ ssizeMax ∧ Honest cipher passwords volumeKey volumeEntries bytes) :
    Guarded cipher passwords volumeKey volumeIdentifier volumeEntries containerEntries
      (setRecoveryPassword password volume) :=
  { guarded with recovery := honest }

end Guarded

/-- An operation on a volume acts as one on a lock. -/
def Acts (cipher : BlockCipher) (passwords : List (List UInt8)) (volumeKey : List UInt8) (volumeIdentifier : Bytes 16)
    (volumeEntries containerEntries : List KeyBagEntry) (result : Result Nat × Volume) (result' : Result Nat × Lock) :
    Prop :=
  Prod.map id view result = result' ∧
    Guarded cipher passwords volumeKey volumeIdentifier volumeEntries containerEntries result.2

variable {store : Option (List UInt8) → Volume → Volume} {store' : Option (List UInt8) → Lock → Lock}

section sets

variable (viewed : ∀ password, (store password volume).view = store' password volume.view)
  (stored : ∀ password : Option (List UInt8), (∀ bytes, password = some bytes → bytes.length ≤ ssizeMax ∧
      Honest cipher passwords volumeKey volumeEntries bytes) →
    Guarded cipher passwords volumeKey volumeIdentifier volumeEntries containerEntries (store password volume))

include viewed stored

theorem expectedSet_acts {password : List UInt8} (honest : Honest cipher passwords volumeKey volumeEntries password) :
    Acts cipher passwords volumeKey volumeIdentifier volumeEntries containerEntries
      (expectedSet volume store password) (Lock.set store' password volume.view) := by
  unfold expectedSet Lock.set
  split_ifs with unfit
  · exact ⟨by simp [viewed], stored none fun _ absent => by cases absent⟩
  · refine ⟨by simp [viewed], stored (some password) fun bytes same => ?_⟩
    have bound : memoryMaximumAllocationSize - 1 ≤ ssizeMax := by decide
    cases same
    exact ⟨by omega, honest⟩

theorem expectedConvert_acts {characters : List Char}
    (honest : Honest cipher passwords volumeKey volumeEntries (utf8Bytes characters)) :
    Acts cipher passwords volumeKey volumeIdentifier volumeEntries containerEntries
      (expectedConvert volume store (utf16Units characters))
      (Lock.convert store' (utf16Units characters) volume.view) := by
  unfold expectedConvert Lock.convert
  rw [utf16Characters_utf16Units]
  exact expectedSet_acts viewed stored honest

end sets

variable (protects : Protects cipher passwords volumeKey volumeMasterKey volumeIdentifier volumeEntries containerEntries)
  (guarded : Guarded cipher passwords volumeKey volumeIdentifier volumeEntries containerEntries volume)

include protects guarded

theorem expectedUnlock_acts :
    Acts cipher passwords volumeKey volumeIdentifier volumeEntries containerEntries
      (expectedUnlock cipher.ciphers volume)
      (Lock.unlock passwords (volumeMasterKey.take 16, volumeMasterKey.drop 16) volume.view) := by
  have locked := guarded.locked
  unfold expectedUnlock Lock.unlock
  rw [guarded.volumeKey_eq protects]
  cases keys : volume.keys with
  | some pair =>
      have isLocked : ¬volume.isLocked = true := by simp [locked, keys]
      have isSome : volume.view.keys.isSome = true := by simp [view, keys]
      rw [if_neg isLocked, if_pos isSome]
      exact ⟨rfl, guarded⟩
  | none =>
      have isLocked : volume.isLocked = true := by simp [locked, keys]
      have isSome : ¬volume.view.keys.isSome = true := by simp [view, keys]
      rw [if_pos isLocked, if_neg isSome]
      split_ifs with opens
      · dsimp only
        rw [guarded.volumeMasterKey_eq protects]
        exact ⟨rfl, { guarded with locked := rfl }⟩
      · exact ⟨rfl, guarded⟩

theorem expected_acts {operation : Operation} (sets : Sets cipher passwords volumeKey volumeEntries operation) :
    Acts cipher passwords volumeKey volumeIdentifier volumeEntries containerEntries
      (volume.expected cipher.ciphers operation)
      (Lock.perform passwords (volumeMasterKey.take 16, volumeMasterKey.drop 16) operation volume.view) := by
  cases operation with
  | setUtf8Password utf8String utf8StringLength =>
      exact expectedSet_acts (fun _ => rfl) (fun _ => guarded.store_user) sets.2.2
  | setUtf16Password utf16String =>
      obtain ⟨characters, rfl, -, -, -, honest⟩ := sets
      exact expectedConvert_acts (fun _ => rfl) (fun _ => guarded.store_user) honest
  | setUtf8RecoveryPassword utf8String utf8StringLength =>
      exact expectedSet_acts (fun _ => rfl) (fun _ => guarded.store_recovery) sets.2.2
  | setUtf16RecoveryPassword utf16String =>
      obtain ⟨characters, rfl, -, -, -, honest⟩ := sets
      exact expectedConvert_acts (fun _ => rfl) (fun _ => guarded.store_recovery) honest
  | unlock => exact expectedUnlock_acts protects guarded

theorem Sets.allowed (pads : cipher.ciphers.PadsKeys) {kept : Volume} (agrees : Agrees kept volume)
    {operation : Operation × Memory} (sets : Sets cipher passwords volumeKey volumeEntries operation.1) :
    Allowed cipher.ciphers kept operation := by
  obtain ⟨operation, memory⟩ := operation
  cases operation with
  | setUtf8Password utf8String utf8StringLength => exact ⟨sets.1, sets.2.1⟩
  | setUtf8RecoveryPassword utf8String utf8StringLength => exact ⟨sets.1, sets.2.1⟩
  | setUtf16Password utf16String | setUtf16RecoveryPassword utf16String =>
      obtain ⟨characters, same, some, unended, short, -⟩ := sets
      exact ⟨characters, same, some, unended, short⟩
  | unlock =>
      intro key found
      rw [agrees.volumeKey pads, guarded.volumeKey_eq protects] at found
      split_ifs at found
      cases found
      have masterKeys : kept.masterKeys = volume.masterKeys := by
        rw [Volume.masterKeys, agrees.containerKeyBag, agrees.volumeIdentifier]
        rfl
      rw [masterKeys, guarded.masterKeys_eq]
      exact fits_of_sizes protects.sizes

omit protects guarded

variable (cipher passwords volumeKey volumeIdentifier volumeEntries containerEntries) in
/-- A volume agrees with a guarded one that looks as a lock does. -/
structure Secures (volume : Volume) (lock : Lock) : Prop where
  supported : Supported volume
  guarded : ∃ expected, Agrees volume expected ∧ expected.view = lock ∧
    Guarded cipher passwords volumeKey volumeIdentifier volumeEntries containerEntries expected

include protects in
theorem Secures.perform {utf8FromUtf16 : List UInt16 → Option (List UInt8)} (libuna : ConvertsUtf16 utf8FromUtf16)
    (pads : cipher.ciphers.PadsKeys) {lock : Lock}
    (secures : Secures cipher passwords volumeKey volumeIdentifier volumeEntries containerEntries volume lock)
    {operation : Operation × Memory} (sets : Sets cipher passwords volumeKey volumeEntries operation.1) :
    (perform cipher.ciphers utf8FromUtf16 operation volume).1 =
        (Lock.perform passwords (volumeMasterKey.take 16, volumeMasterKey.drop 16) operation.1 lock).1 ∧
      Secures cipher passwords volumeKey volumeIdentifier volumeEntries containerEntries
        (perform cipher.ciphers utf8FromUtf16 operation volume).2
        (Lock.perform passwords (volumeMasterKey.take 16, volumeMasterKey.drop 16) operation.1 lock).2 := by
  obtain ⟨supported, expected, agrees, rfl, guarded⟩ := secures
  have meets := perform_meets libuna pads supported agrees (Sets.allowed protects guarded pads agrees sets)
  obtain ⟨acts, kept⟩ := expected_acts protects guarded sets
  rw [← acts]
  exact ⟨meets.1, meets.2.1, _, meets.2.2, rfl, kept⟩

theorem Secures.shows {lock : Lock}
    (secures : Secures cipher passwords volumeKey volumeIdentifier volumeEntries containerEntries volume lock) :
    Shows volume lock := by
  obtain ⟨-, expected, agrees, rfl, guarded⟩ := secures
  exact ⟨agrees.userPassword, agrees.recoveryPassword, agrees.isLocked.trans guarded.locked, agrees.keys⟩

end lock

end Volume

section storage

def isExtentEntry (volumeIdentifier : Bytes 16) (entry : KeyBagEntry) : Bool :=
  entry.type = 3 && entry.identifier = volumeIdentifier

variable (cipher : XtsCipher) (ioHandle : IoHandle) (content : Nat → UInt8) (size : Nat)

/-- The data that are stored in blocks, encrypted with an identifier as the keys. -/
structure StoredEncrypted (blockNumber numberOfBlocks : Nat) (identifier : Bytes 16) (data : List UInt8) : Prop where
  positive : 0 < blockNumber ∧ 0 < numberOfBlocks
  whole : data.length = numberOfBlocks * ioHandle.blockSize
  short : data.length ≤ memoryMaximumAllocationSize
  inside : (blockNumber + numberOfBlocks) * ioHandle.blockSize ≤ size
  encrypted : contents content (blockNumber * ioHandle.blockSize) data.length =
    cipher.encryptSectors identifier.val identifier.val ioHandle.bytesPerSector (data.length / ioHandle.bytesPerSector)
      (blockNumber * ioHandle.blockSize / ioHandle.bytesPerSector) data

variable {cipher ioHandle content size} {blockNumber numberOfBlocks : Nat} {identifier : Bytes 16} {data : List UInt8}

theorem StoredEncrypted.readKeyBagData (stored : StoredEncrypted cipher ioHandle content size blockNumber numberOfBlocks
    identifier data) (sectored : ioHandle.Sectored) (limit : size ≤ off64Max) :
    Fsapfs.readKeyBagData cipher.aesXts ioHandle (DataStream.ofContent content size) (inBlocks ioHandle blockNumber)
      (inBlocks ioHandle numberOfBlocks) identifier = .ok data := by
  obtain ⟨sectors, divides⟩ := sectored.divides
  have positive := sectored.positive
  have inside := stored.inside
  have short := stored.short
  have whole := stored.whole
  have blockSize := sectored.blockSize
  rw [Nat.add_mul] at inside
  have offset : inBlocks ioHandle blockNumber = blockNumber * ioHandle.blockSize :=
    Nat.mod_eq_of_lt (by unfold off64Max at limit; omega)
  have dataSize : inBlocks ioHandle numberOfBlocks = data.length := by
    rw [whole]
    exact Nat.mod_eq_of_lt (by unfold off64Max at limit; omega)
  have some : data.length ≠ 0 := by
    rw [whole]
    exact Nat.pos_iff_ne_zero.mp (Nat.mul_pos stored.positive.2 blockSize)
  have inSectors : data.length = data.length / ioHandle.bytesPerSector * ioHandle.bytesPerSector := by
    rw [whole, divides, Nat.mul_comm ioHandle.bytesPerSector, ← Nat.mul_assoc, Nat.mul_div_cancel _ positive]
  have read := @DataStream.readExactly_ofContent content size data.length (blockNumber * ioHandle.blockSize)
    (by unfold ssizeMax memoryMaximumAllocationSize at *; omega) (by omega)
  have first := Nat.div_le_self (blockNumber * ioHandle.blockSize) ioHandle.bytesPerSector
  have count := Nat.div_le_self data.length ioHandle.bytesPerSector
  have decrypts := @XtsCipher.crypt_encryptSectors cipher identifier.val identifier.val ioHandle.bytesPerSector _
    (blockNumber * ioHandle.blockSize / ioHandle.bytesPerSector) _ positive inSectors
    (by unfold ssizeMax memoryMaximumAllocationSize at *; omega) (by unfold off64Max at limit; omega)
  rw [Fsapfs.readKeyBagData, offset, dataSize, if_neg (by omega), if_neg (by omega), if_neg (by omega), read, ok_bind,
    stored.encrypted, decrypts]

theorem getVolumeKeyBagExtentByIdentifier_found {volumeIdentifier : Bytes 16} {entries : List KeyBagEntry}
    {entry : KeyBagEntry} {numberOfBlocks : Nat} (found : entries.find? (isExtentEntry volumeIdentifier) = some entry)
    (extent : entry.data = littleEndianBytes 8 blockNumber ++ littleEndianBytes 8 numberOfBlocks)
    (small : blockNumber < 256 ^ 8 ∧ numberOfBlocks < 256 ^ 8) :
    getVolumeKeyBagExtentByIdentifier volumeIdentifier entries = .ok (some (blockNumber, numberOfBlocks)) := by
  induction entries with
  | nil => cases found
  | cons first entries ih =>
      rw [getVolumeKeyBagExtentByIdentifier]
      by_cases isExtent : isExtentEntry volumeIdentifier first = true
      · rw [List.find?_cons_of_pos isExtent] at found
        cases found
        have is : entry.type = 3 ∧ entry.identifier = volumeIdentifier := by simpa [isExtentEntry] using isExtent
        have sized : entry.data.length = 16 := by simp [extent]
        have low : HasAt entry.data 0 (littleEndianBytes 8 blockNumber) := extent ▸ (hasAt_self _).left
        have high : HasAt entry.data 8 (littleEndianBytes 8 numberOfBlocks) :=
          extent ▸ (hasAt_self (littleEndianBytes 8 blockNumber ++ _)).right (by simp)
        rw [if_neg (not_not_intro is.1), if_neg (not_not_intro is.2), if_neg (not_not_intro sized), loadLittleEndian64,
          loadLittleEndian_of_hasAt low small.1, ok_bind, loadLittleEndian64, loadLittleEndian_of_hasAt high small.2,
          ok_bind]
        rfl
      · rw [List.find?_cons_of_neg isExtent] at found
        have isNot : first.type = 3 → first.identifier ≠ volumeIdentifier := by simpa [isExtentEntry] using isExtent
        by_cases type : first.type = 3
        · rw [if_neg (not_not_intro type), if_pos (isNot type), ih found]
        · rw [if_pos type, ih found]

end storage

structure KeyBagPlaces where
  containerIdentifier : Bytes 16
  containerBlockNumber : Nat
  containerNumberOfBlocks : Nat
  volumeIdentifier : Bytes 16
  volumeBlockNumber : Nat
  volumeNumberOfBlocks : Nat

/-- The key bags are stored encrypted in their places, the one of the container with its checksum and with the place of
the other, and hold keys that protect the volume. -/
structure StoresLock (cipher : BlockCipher) (xts : XtsCipher) (passwords : List (List UInt8))
    (volumeKey volumeMasterKey : List UInt8) (ioHandle : IoHandle) (content : Nat → UInt8) (size : Nat)
    (places : KeyBagPlaces) (containerChecksum : Nat) (volumeChecksum : Bytes 8) (containerBag volumeBag : StoredBag) :
    Prop where
  calculated : Checksum.calculateFletcher64 (containerBag.body 0x6b657973) 0 = .ok containerChecksum
  container : StoredEncrypted xts ioHandle content size places.containerBlockNumber places.containerNumberOfBlocks
    places.containerIdentifier (littleEndianBytes 8 containerChecksum ++ containerBag.body 0x6b657973)
  extent : ∃ entry, (containerBag.entries.map StoredEntry.entry).find? (isExtentEntry places.volumeIdentifier) =
      some entry ∧
    entry.data = littleEndianBytes 8 places.volumeBlockNumber ++ littleEndianBytes 8 places.volumeNumberOfBlocks
  volume : StoredEncrypted xts ioHandle content size places.volumeBlockNumber places.volumeNumberOfBlocks
    places.volumeIdentifier (volumeChecksum.val ++ volumeBag.body 0x72656373)
  protects : Protects cipher passwords volumeKey volumeMasterKey places.volumeIdentifier
    (volumeBag.entries.map StoredEntry.entry) (containerBag.entries.map StoredEntry.entry)

namespace StoresLock

variable {cipher : BlockCipher} {xts : XtsCipher} {passwords : List (List UInt8)}
  {volumeKey volumeMasterKey : List UInt8} {ioHandle : IoHandle} {content : Nat → UInt8} {size : Nat}
  {places : KeyBagPlaces} {containerChecksum : Nat} {volumeChecksum : Bytes 8} {containerBag volumeBag : StoredBag}

variable (stores : StoresLock cipher xts passwords volumeKey volumeMasterKey ioHandle content size places
    containerChecksum volumeChecksum containerBag volumeBag)
  (sectored : ioHandle.Sectored) (limit : size ≤ off64Max)

include stores sectored limit

theorem readContainerKeyBag :
    Fsapfs.readContainerKeyBag xts.aesXts ioHandle (.ofContent content size) places.containerBlockNumber
      places.containerNumberOfBlocks places.containerIdentifier =
      .ok (some { entries := containerBag.entries.map StoredEntry.entry, isLocked := false }) := by
  obtain ⟨checksum, calculated, read⟩ := containerKeyBag_encode containerBag
  rw [stores.calculated] at calculated
  cases calculated
  have data := stores.container.readKeyBagData sectored limit
  rw [Fsapfs.readContainerKeyBag, if_pos stores.container.positive]
  dsimp only
  rw [ContainerKeyBag.readFileIoHandle, Call.lift_bind_of_ok data, read]
  rfl

theorem small : places.volumeBlockNumber < 256 ^ 8 ∧ places.volumeNumberOfBlocks < 256 ^ 8 := by
  have inside := stores.volume.inside
  have blockSize := sectored.blockSize
  have least := Nat.le_mul_of_pos_right (places.volumeBlockNumber + places.volumeNumberOfBlocks) blockSize
  unfold off64Max at limit
  omega

theorem openKeyBag {volumeFlags : Nat} (flags : volumeFlags &&& 1 = 0) :
    Volume.openKeyBag xts.aesXts ioHandle (.ofContent content size)
      (some { entries := containerBag.entries.map StoredEntry.entry, isLocked := false }) volumeFlags
      places.volumeIdentifier =
      .ok { Volume.opened (some { entries := containerBag.entries.map StoredEntry.entry, isLocked := false })
              places.volumeIdentifier true with keyBag := some (volumeBag.entries.map StoredEntry.entry) } := by
  obtain ⟨entry, found, extent⟩ := stores.extent
  have small := stores.small sectored limit
  have positive := stores.volume.positive
  have data := stores.volume.readKeyBagData sectored limit
  rw [Volume.openKeyBag]
  dsimp only
  rw [if_neg (not_not_intro flags), getVolumeKeyBagExtentByIdentifier_found found extent small, ok_bind]
  dsimp only
  rw [if_neg (by omega), VolumeKeyBag.readFileIoHandle, Call.lift_bind_of_ok data, volumeKeyBag_encode]
  rfl

end StoresLock

namespace Volume

variable {cipher : BlockCipher} {xts : XtsCipher} {passwords : List (List UInt8)}
  {volumeKey volumeMasterKey : List UInt8} {ioHandle : IoHandle} {content : Nat → UInt8} {size : Nat}
  {places : KeyBagPlaces} {containerChecksum : Nat} {volumeChecksum : Bytes 8} {containerBag volumeBag : StoredBag}
  {utf8FromUtf16 : List UInt16 → Option (List UInt8)} {volumeFlags : Nat}

end Volume

namespace Lock.Sample

open Coding

theorem method_holds : LengthForm.short.Holds (littleEndianBytes 4 2 ++ [0, 0, 0, 0]).length := by decide

theorem wrappedKek_holds (wrappedKek : Nat) : LengthForm.short.Holds (bigEndianBytes 40 wrappedKek).length := by
  rw [bigEndianBytes_length]
  decide

theorem iterations_holds : LengthForm.short.Holds [(1 : UInt8)].length := by decide

theorem identifier_small : 16 < 0x80 := by decide

theorem hmac_small : 32 < 0x80 := by decide

def inner (wrappedKek : Nat) : List Tagged :=
  [KeyEncryptedKey.zeros 0x81 16 identifier_small,
    { tag := 0x82, form := .short, value := littleEndianBytes 4 2 ++ [0, 0, 0, 0], holds := method_holds },
    { tag := 0x83, form := .short, value := bigEndianBytes 40 wrappedKek, holds := wrappedKek_holds wrappedKek },
    { tag := 0x84, form := .short, value := [1], holds := iterations_holds }, KeyEncryptedKey.zeros 0x85 16 identifier_small]

theorem inner_length (wrappedKek : Nat) : ((inner wrappedKek).flatMap Tagged.encode).length = 91 := by
  simp [inner, Tagged.encode, Tagged.header, LengthForm.encode, KeyEncryptedKey.zeros, bigEndianBytes_length]

theorem wrapped_holds (wrappedKek : Nat) :
    LengthForm.short.Holds ((inner wrappedKek).flatMap Tagged.encode).length := by
  rw [inner_length]
  decide

def wrapped (wrappedKek : Nat) : Tagged where
  tag := 0xa3
  form := .short
  value := (inner wrappedKek).flatMap Tagged.encode
  holds := wrapped_holds wrappedKek

theorem object_length (wrappedKek : Nat) :
    (([KeyEncryptedKey.zeros 0x81 32 hmac_small] ++ [wrapped wrappedKek]).flatMap Tagged.encode).length = 127 := by
  have value : (wrapped wrappedKek).value.length = 91 := inner_length wrappedKek
  have header : (wrapped wrappedKek).header.length = 2 := rfl
  simp only [List.flatMap_append, List.flatMap_singleton, List.length_append, Tagged.encode_length, value, header]
  rfl

theorem object_holds (wrappedKek : Nat) : LengthForm.byte.Holds
    (([KeyEncryptedKey.zeros 0x81 32 hmac_small] ++ [wrapped wrappedKek]).flatMap Tagged.encode).length := by
  rw [object_length]
  decide

def object (wrappedKek : Nat) : Tagged where
  tag := 0x30
  form := .byte
  value := ([KeyEncryptedKey.zeros 0x81 32 hmac_small] ++ [wrapped wrappedKek]).flatMap Tagged.encode
  holds := object_holds wrappedKek

theorem object_encode_length (wrappedKek : Nat) : (object wrappedKek).encode.length = 130 := by
  have value : (object wrappedKek).value.length = 127 := object_length wrappedKek
  have header : (object wrappedKek).header.length = 3 := rfl
  rw [Tagged.encode_length, value, header]

theorem isObjectValue (wrappedKek : Nat) (element : Tagged)
    (member : element ∈ [KeyEncryptedKey.zeros 0x81 32 hmac_small] ++ []) :
    KeyEncryptedKey.IsObjectValue (Sample.key 2 wrappedKek) element := by
  rw [List.mem_singleton.mp member]
  exact ⟨fun _ => rfl, fun tag => absurd tag (by decide), by decide, by decide⟩

theorem isWrappedValue (wrappedKek : Nat) (element : Tagged) (member : element ∈ inner wrappedKek) :
    KeyEncryptedKey.IsWrappedValue (Sample.key 2 wrappedKek) element := by
  simp only [inner, List.mem_cons, List.not_mem_nil, or_false] at member
  have other : ∀ {tag tag' : UInt8} {holds : Prop}, tag ≠ tag' → tag = tag' → holds :=
    fun differ same => absurd same differ
  rcases member with rfl | rfl | rfl | rfl | rfl
  · exact ⟨fun _ => rfl, other (by decide), other (by decide), other (by decide), other (by decide), by decide⟩
  · exact ⟨other (by decide), fun _ => ⟨Bytes.zero 4, rfl⟩, other (by decide), other (by decide), other (by decide),
      by decide⟩
  · exact ⟨other (by simp), other (by simp), fun _ => rfl, other (by simp), other (by simp), by simp⟩
  · exact ⟨other (by decide), other (by decide), other (by decide), fun _ => ⟨by simp, by decide, rfl⟩,
      other (by decide), by decide⟩
  · exact ⟨other (by decide), other (by decide), other (by decide), other (by decide), fun _ => rfl, by decide⟩

theorem fields_present (wrappedKek : Nat) :
    ∀ tag ∈ [0x81, 0x82, 0x83, 0x84, 0x85], ∃ element ∈ inner wrappedKek, element.tag = tag := by
  simp [inner, KeyEncryptedKey.zeros]

theorem object_sized (wrappedKek : Nat) : (object wrappedKek).encode.length ≤ 0xffff := by
  rw [object_encode_length]
  decide

theorem method_small (wrappedKek : Nat) : (Sample.key 2 wrappedKek).encryptionMethod < 2 ^ 32 :=
  show 2 < 2 ^ 32 by decide

def storedKey (wrappedKek : Nat) : StoredKey where
  key := Sample.key 2 wrappedKek
  object := object wrappedKek
  before := [KeyEncryptedKey.zeros 0x81 32 hmac_small]
  wrapped := wrapped wrappedKek
  after := []
  inner := inner wrappedKek
  objectTag := rfl
  objectValue := rfl
  wrappedTag := rfl
  wrappedValue := rfl
  objectValues := isObjectValue wrappedKek
  wrappedValues := isWrappedValue wrappedKek
  hmac := ⟨_, List.mem_singleton_self _, rfl⟩
  fields := fields_present wrappedKek
  method := method_small wrappedKek
  sized := object_sized wrappedKek

theorem storedKey_readsBack (wrappedKek : Nat) : (storedKey wrappedKek).ReadsBack := by
  refine ⟨?_, Or.inl ⟨Or.inl rfl, ?_, ?_⟩⟩
  · intro element last
    cases last
    exact List.ne_nil_of_length_pos (Nat.lt_of_lt_of_eq (by decide) (inner_length wrappedKek).symm)
  · simp [storedKey, inner, KeyEncryptedKey.zeros]
  · simp [storedKey, inner, KeyEncryptedKey.zeros, Tagged.EndsInValue]

def entry (type : Nat) (data padding : List UInt8) (typed : type < 0x10000) (positive : 1 ≤ data.length)
    (sized : data.length ≤ 0xffff) (short : padding.length < 16)
    (aligned : (24 + data.length + padding.length) % 16 = 0) : StoredEntry where
  entry := { type, identifier := Bytes.zero 16, data }
  unknown := Bytes.zero 4
  padding
  typed
  positive
  sized
  short
  aligned

theorem keyEntry_fits (wrappedKek : Nat) : 1 ≤ (object wrappedKek).encode.length ∧
    (object wrappedKek).encode.length ≤ 0xffff ∧
    (24 + (object wrappedKek).encode.length + (List.replicate 6 (0 : UInt8)).length) % 16 = 0 := by
  rw [object_encode_length]
  decide

def keyEntry (type wrappedKek : Nat) (typed : type < 0x10000) : StoredEntry :=
  entry type (object wrappedKek).encode (List.replicate 6 0) typed (keyEntry_fits wrappedKek).1
    (keyEntry_fits wrappedKek).2.1 (by decide) (keyEntry_fits wrappedKek).2.2

def extentEntry : StoredEntry :=
  entry 3 (littleEndianBytes 8 2 ++ littleEndianBytes 8 1) (List.replicate 8 0) (by decide) (by decide) (by decide)
    (by decide) (by decide)

def passwordKek : Nat := 0xee484f2a59caf70487e814ebe7f81bbec57ed42ee19aecfa * 256 ^ 16

def volumeKek : Nat := 0x2152937994459ab9fb05db73e66f546291eb5389bc8aa7cc * 256 ^ 16

def containerBag : StoredBag where
  identifiers := Bytes.zero 16
  entries := [extentEntry, keyEntry 2 volumeKek (by decide)]
  dataSize := 224
  unknown := Bytes.zero 8
  rest := List.replicate 256 0
  counted := by decide
  sized := by decide
  fits := by decide +kernel
  bounded := by decide +kernel
  aligned := by decide +kernel

def volumeBag : StoredBag where
  identifiers := Bytes.zero 16
  entries := [keyEntry 3 passwordKek (by decide)]
  dataSize := 176
  unknown := Bytes.zero 8
  rest := List.replicate 304 0
  counted := by decide
  sized := by decide
  fits := by decide +kernel
  bounded := by decide +kernel
  aligned := by decide +kernel

def containerChecksum : Nat := 0xfbb0ffe2b6ec6451

def containerSector : List Nat := [
  0xb1b91fa7275b081421484eed5b01f7ace441c1b8d7ae2484a7d64f84e8640fb8,
  0xfe70be7500b216de7bd3e75c1f0b4b1302498312c87e110045eb54ca2f8000b4,
  0xe2863b19a846f0285fb2f423f5cc21f33a79152c6660d10fa86c5d53c6272e5c,
  0x8b3b2a4cf6579ce56f1551328a12e6c8bfa32e2c9b0f9554bddb5242f911f8e6,
  0xdaaa6b452d03da84cc0d5bd2be86132964c534e0d673f888b799cf83d0f005dd,
  0xbbc44233eacfcf1fe32f23dd0f6de50052724936d71d450dd48fa4106d6d250a,
  0xd5e867d77f268f51f70163c1a43835b3da4b393c301905a4b028fb42a7256dee,
  0x464d2309bbc90198ad116412b46999173f454e0b54f071189deb8c566b893fcb,
  0x029c93289decbcef68bebfc1f2d3893c15714e8699d58eafad54d5dc1d3ab935,
  0xa745d298ef31e93da1dd72419a91d69cadf4afca981e6b81f49e31201c70fd38,
  0xb3d97d0570b443745f93924529e836fdf81e2f9c25b7b13f4e6a8b73dbad12e8,
  0x85b6fdd515a92dd9229b30fd1f5169bbc94cff8935545c84d72ab1952be9d38e,
  0x9d24765525e8faddfc950437cf29ef1d22107760642245c67f3dff4fe97e4635,
  0x92ed267ecb09b276c054d0729e1bd07d715bf426695fee0c4d76d8b859b6675d,
  0xfee1f63a63852b94b00bf8f83d1552d2a42d894d57a6cfb13461102d640d9d7c,
  0xf9148b7d372860a630caa80100e19493375a92c2decaacfe80333337b2c1dd99]

def volumeSector : List Nat := [
  0xf47d55da604c8b3b596f1020771f7a5855febc068efc638f857af93e8fd7016e,
  0xcaebe845d89e36a180c09c61333817cfbeb9798cafd300f421368f2aab7c1e6f,
  0xe04df2fa096c2fd90eba2f82b8fd39a0b53b41eb0ed9059d773ce72ddc03296c,
  0x2dfb6bea9d02e1a39496acfc7a69c28865adcec09a01153a8344684269207557,
  0xc37058c8987f164e4b601c2b1a94386c0981b6562527ca30f8e19932b11e0c5a,
  0x4759ae9aec7b755dd01d39bd1136b66c3e2507cdc4beb7655760e0b2ea4630db,
  0xf39cb8ecdf991f0e0b98e7a82312d977697cd8c9886b6a7b1493df6e1a7892c2,
  0x421498fa0a55afa8fa849d6492edd46737f22c0ae4099f9400ce610a6caa7067,
  0x3aea051cd0d9fc2ca26ad4aaedfa2c245171577278a1b61da473ec287ccd4474,
  0xcb61a8e1d075859a34cb8ef333fcbd8b27151d5eaa1e6e13835cfe592e1345a3,
  0xfd688492ae73b7faee548581d4f4f016c283be4ef423da694775dd14ed17a9d4,
  0xae669a70a4c33ee728c6b324a5b9f5e0cc51aa5151765c198d2ccd5659675ebb,
  0xe93f7a2d3153d1ebb1402ef9f9f4b261c97e5998f19f665f0e250fd02160b2c1,
  0xcda258d0afdbd11f3e213226b6f908e3c5b2d40c577476327c5744a81408dc3d,
  0x477dfa9d82f32cc6983cff7a58e6318c05f7b231ac61f5df47acba9ec4fd4460,
  0xe97de0aa4e6b41347a1bf21d2223d9253cd3e46f0c6d86a5e520efc43255f92a]

def sectorOf (numbers : List Nat) : List UInt8 := numbers.flatMap (bigEndianBytes 32)

def permutation {size : Nat} (pairs : List (Bytes size × Bytes size)) : Equiv.Perm (Bytes size) :=
  (pairs.map fun pair => Equiv.swap pair.1 pair.2).prod

def permute {size : Nat} (permutation : Equiv.Perm (Bytes size)) (data : List UInt8) : List UInt8 :=
  if sized : data.length = size then (permutation ⟨data, sized⟩).val else data

theorem permute_length {size : Nat} (permutation : Equiv.Perm (Bytes size)) (data : List UInt8) :
    (permute permutation data).length = data.length := by
  unfold permute
  split_ifs with sized
  · rw [(permutation _).property, sized]
  · rfl

theorem permute_symm {size : Nat} (permutation : Equiv.Perm (Bytes size)) (data : List UInt8) :
    permute permutation (permute permutation.symm data) = data := by
  by_cases sized : data.length = size
  · have inner : permute permutation.symm data = (permutation.symm ⟨data, sized⟩).val := dif_pos sized
    have length : (permutation.symm ⟨data, sized⟩).val.length = size := (permutation.symm ⟨data, sized⟩).property
    rw [inner, permute, dif_pos length, Subtype.coe_eta, Equiv.apply_symm_apply]
  · have inner : permute permutation.symm data = data := dif_neg sized
    rw [inner, permute, dif_neg sized]

def blockOf (number : Nat) : Bytes 16 := ⟨bigEndianBytes 16 number, bigEndianBytes_length⟩

def blocks (key : List UInt8) : Equiv.Perm (Bytes 16) :=
  permutation ((if key = List.replicate 16 1 then Sample.volumeKeyBlocks
      else if key = bigEndianBytes 16 0x29d91afd8adb2a48aed23991bb2f03e8 then Sample.passwordBlocks else []).map
    fun pair => (blockOf pair.1, blockOf pair.2))

def paddedBlock (data : List UInt8) : Bytes 16 :=
  if sized : data.length = 16 then ⟨data, sized⟩ else Bytes.zero 16

def calculateHmac (key data : List UInt8) : Bytes 32 :=
  if key ++ List.replicate (64 - key.length) 0 = 97 :: List.replicate 63 0 then Sample.ciphers.calculateHmac key data
  else Bytes.zero 32

def cipher : BlockCipher where
  ciphers := { Sample.ciphers with
    calculateHmac
    decryptBlock := fun key data => blocks key (paddedBlock data) }
  encrypt key data := (blocks key).symm (paddedBlock data)
  decrypts key block sized := by
    have padded : paddedBlock (((blocks key).symm (paddedBlock block)).val) = (blocks key).symm (paddedBlock block) :=
      dif_pos ((blocks key).symm _).property
    have same : paddedBlock block = ⟨block, sized⟩ := dif_pos sized
    dsimp only
    rw [padded, Equiv.apply_symm_apply, same]

theorem padsKeys : cipher.ciphers.PadsKeys := by
  intro key data short
  have filled : key ++ [0] ++ List.replicate (64 - (key ++ [0]).length) 0 =
      key ++ List.replicate (64 - key.length) (0 : UInt8) := by
    obtain ⟨room, same⟩ : ∃ n, 64 - key.length = n + 1 := ⟨63 - key.length, by omega⟩
    rw [List.append_assoc, List.length_append, List.length_singleton, Nat.sub_add_eq, same]
    rfl
  change calculateHmac _ _ = calculateHmac _ _
  rw [calculateHmac, filled]
  rfl

theorem sectorOf_length : (sectorOf containerSector).length = 512 ∧ (sectorOf volumeSector).length = 512 := by
  simp [sectorOf, containerSector, volumeSector, bigEndianBytes_length]

theorem data_length : (littleEndianBytes 8 containerChecksum ++ containerBag.body 0x6b657973).length = 512 ∧
    ((Bytes.zero 8).val ++ volumeBag.body 0x72656373).length = 512 := by
  rw [List.length_append, littleEndianBytes_length, StoredBag.body_length, List.length_append, StoredBag.body_length]
  decide +kernel

def containerIdentifier : Bytes 16 := ⟨List.replicate 16 1, List.length_replicate⟩

def sectors (key : List UInt8) : Equiv.Perm (Bytes 512) :=
  if key = containerIdentifier.val then
    Equiv.swap ⟨sectorOf containerSector, sectorOf_length.1⟩ ⟨_, data_length.1⟩
  else Equiv.swap ⟨sectorOf volumeSector, sectorOf_length.2⟩ ⟨_, data_length.2⟩

def xts : XtsCipher where
  aesXts key _ :=
    { decrypt := fun _ data => permute (sectors key) data
      length := fun _ data => permute_length _ data }
  encrypt key _ _ data := permute (sectors key).symm data
  length _ _ _ data := permute_length _ data
  decrypts _ _ _ data := permute_symm _ data

def ioHandle : IoHandle where
  bytesPerSector := 512
  blockSize := 512

def content (offset : Nat) : UInt8 :=
  if offset < 512 then 0
  else ((containerSector ++ volumeSector).getD ((offset - 512) / 32) 0 >>> (8 * (31 - offset % 32))).toUInt8

def places : KeyBagPlaces where
  containerIdentifier
  containerBlockNumber := 1
  containerNumberOfBlocks := 1
  volumeIdentifier := Bytes.zero 16
  volumeBlockNumber := 2
  volumeNumberOfBlocks := 1

def volumeKey : List UInt8 := List.replicate 16 1

def operations : List (Volume.Operation × Memory) :=
  [(.unlock, Sample.memory 0), (.setUtf8Password [98] 1, Sample.memory 1), (.unlock, Sample.memory 2),
    (.setUtf16RecoveryPassword [97], Sample.memory 3), (.unlock, Sample.memory 4)]

def volumeMasterKey : List UInt8 :=
  List.replicate 16 2 ++ (bigEndianBytes 32 0xe6e6fd28e51faf40529106878ab1d924aee3436b094f402347d8083737095ffe).take 16

theorem sectors_encrypted :
    (contents content 512 512 = xts.encryptSectors containerIdentifier.val containerIdentifier.val 512 1 1
        (littleEndianBytes 8 containerChecksum ++ containerBag.body 0x6b657973) ∧
      contents content 1024 512 = xts.encryptSectors (Bytes.zero 16).val (Bytes.zero 16).val 512 1 2
        ((Bytes.zero 8).val ++ volumeBag.body 0x72656373)) ∧
    Checksum.calculateFletcher64 (containerBag.body 0x6b657973) 0 = .ok containerChecksum := by
  decide +kernel

theorem containerStored : StoredEncrypted xts ioHandle content 1536 1 1 containerIdentifier
    (littleEndianBytes 8 containerChecksum ++ containerBag.body 0x6b657973) where
  positive := ⟨Nat.one_pos, Nat.one_pos⟩
  whole := data_length.1
  short := by
    rw [data_length.1]
    decide
  inside := by decide
  encrypted := by
    rw [data_length.1]
    exact sectors_encrypted.1.1

theorem volumeStored : StoredEncrypted xts ioHandle content 1536 2 1 (Bytes.zero 16)
    ((Bytes.zero 8).val ++ volumeBag.body 0x72656373) where
  positive := ⟨Nat.two_pos, Nat.one_pos⟩
  whole := data_length.2
  short := by
    rw [data_length.2]
    decide
  inside := by decide
  encrypted := by
    rw [data_length.2]
    exact sectors_encrypted.1.2

theorem keys_tried : keysOf isPasswordEntry (volumeBag.entries.map StoredEntry.entry) = [Sample.passwordKey] ∧
    keysOf (isKeyEntry (Bytes.zero 16)) (containerBag.entries.map StoredEntry.entry) = [Sample.shortKey] := by
  decide +kernel

theorem keys_wrapped :
    (Sample.passwordKey.wrappedKek.val.take 24 = keyWrap
        (cipher.encrypt (bigEndianBytes 16 0x29d91afd8adb2a48aed23991bb2f03e8))
        KeyEncryptedKey.wrappedKekInitializationVector volumeKey ∧
      Sample.shortKey.wrappedKek.val.take 24 =
        keyWrap (cipher.encrypt volumeKey) KeyEncryptedKey.wrappedKekInitializationVector (List.replicate 16 2)) ∧
    Sample.passwordKey.underPassword cipher.ciphers [98] = none := by
  decide +kernel

theorem wrapsUnder : Sample.passwordKey.WrapsUnder cipher [97] volumeKey :=
  ⟨bigEndianBytes 16 0x29d91afd8adb2a48aed23991bb2f03e8, rfl, rfl, keys_wrapped.1.1⟩

theorem wraps : Sample.shortKey.Wraps cipher volumeKey (List.replicate 16 2) where
  length := rfl
  wrapped := keys_wrapped.1.2

theorem protects : Protects cipher [[97]] volumeKey volumeMasterKey (Bytes.zero 16)
    (volumeBag.entries.map StoredEntry.entry) (containerBag.entries.map StoredEntry.entry) where
  passwordKeys := by
    intro entry member tries
    rw [List.mem_singleton.mp member]
    exact ⟨storedKey passwordKek, rfl, storedKey_readsBack _, Or.inr (Or.inl rfl), by decide, by decide⟩
  masterKeys := by
    intro entry member tries
    have key : entry = (keyEntry 2 volumeKek (by decide)).entry := by
      simp only [containerBag, List.map_cons, List.map_nil, List.mem_cons, List.not_mem_nil, or_false] at member
      rcases member with rfl | rfl
      · cases tries
      · rfl
    rw [key]
    exact ⟨storedKey volumeKek, rfl, storedKey_readsBack _, ⟨Or.inr rfl⟩⟩
  under := by
    intro password member
    rw [List.mem_singleton.mp member]
    exact ⟨Sample.passwordKey, keys_tried.1 ▸ List.mem_singleton_self _, wrapsUnder⟩
  master := ⟨Sample.shortKey, keys_tried.2 ▸ List.mem_singleton_self _, _, wraps, rfl⟩
  sizes := by
    rw [keys_tried.2]
    decide
  only := by
    intro key member unlocked found
    rw [keys_tried.2, List.mem_singleton] at member
    rw [member, wraps.underKey (by decide)] at found
    exact (Option.some.inj found).symm

theorem stores : StoresLock cipher xts [[97]] volumeKey volumeMasterKey ioHandle content 1536 places containerChecksum
    (Bytes.zero 8) containerBag volumeBag where
  calculated := sectors_encrypted.2
  container := containerStored
  extent := ⟨extentEntry.entry, rfl, rfl⟩
  volume := volumeStored
  protects := protects

theorem sets : ∀ operation ∈ operations, Volume.Sets cipher [[97]] volumeKey
    (volumeBag.entries.map StoredEntry.entry) operation.1 := by
  intro operation member
  simp only [operations, List.mem_cons, List.not_mem_nil, or_false] at member
  rcases member with rfl | rfl | rfl | rfl | rfl
  · trivial
  · refine ⟨by decide, by decide, fun key member unlocked found => ?_⟩
    rw [keys_tried.1, List.mem_singleton] at member
    rw [member, keys_wrapped.2] at found
    cases found
  · trivial
  · refine ⟨['a'], by decide, by decide, by decide, by decide, fun key member unlocked found => ?_⟩
    rw [keys_tried.1, List.mem_singleton] at member
    rw [member, show utf8Bytes ['a'] = [97] by decide, wrapsUnder.underPassword] at found
    exact ⟨List.mem_singleton_self _, (Option.some.inj found).symm⟩
  · trivial

end Lock.Sample

end Fsapfs
