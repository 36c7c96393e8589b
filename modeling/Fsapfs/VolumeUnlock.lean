import Fsapfs.KeyEncryptedKey
import Fsapfs.Program.Call
import Fsapfs.Program.Gather

namespace Fsapfs
open Program

structure KeyBagEntry where
  type : Nat
  identifier : Bytes 16
  data : List UInt8

section bags

variable (ciphers : Ciphers)

/-- An entry of the volume key bag under the user password or, where that does not unlock it, the recovery password. -/
def unlockWithPasswords (key : KeyEncryptedKey) (userPassword recoveryPassword : Option (List UInt8))
    (volumeKey : List UInt8) : Result (Option (List UInt8)) := do
  let result ←
    match userPassword with
    | some password => key.unlockWithPassword ciphers password volumeKey
    | none => Except.ok none
  match result, recoveryPassword with
  | none, some password => key.unlockWithPassword ciphers password volumeKey
  | result, _ => return result

def getVolumeKey (userPassword recoveryPassword : Option (List UInt8)) (volumeKey : List UInt8) :
    List KeyBagEntry → Result (Option (List UInt8))
  | [] => .ok none
  | entry :: entries =>
      if entry.type ≠ 3 then getVolumeKey userPassword recoveryPassword volumeKey entries
      else do
        let key ← KeyEncryptedKey.readData entry.data
        match ← unlockWithPasswords ciphers key userPassword recoveryPassword volumeKey with
        | some volumeKey => return some volumeKey
        | none => getVolumeKey userPassword recoveryPassword volumeKey entries

def getVolumeMasterKeyByIdentifier (volumeIdentifier : Bytes 16) (volumeKey volumeMasterKey : List UInt8) :
    List KeyBagEntry → Result (Option (List UInt8))
  | [] => .ok none
  | entry :: entries =>
      if entry.type ≠ 2 then getVolumeMasterKeyByIdentifier volumeIdentifier volumeKey volumeMasterKey entries
      else if entry.identifier ≠ volumeIdentifier then
        getVolumeMasterKeyByIdentifier volumeIdentifier volumeKey volumeMasterKey entries
      else do
        let key ← KeyEncryptedKey.readData entry.data
        match ← key.unlockWithKey ciphers volumeKey volumeMasterKey with
        | some volumeMasterKey => return some volumeMasterKey
        | none => getVolumeMasterKeyByIdentifier volumeIdentifier volumeKey volumeMasterKey entries

end bags

/-- The keys are those of the encryption context: the key and the tweak key. -/
structure Volume where
  keyBag : Option (List KeyBagEntry)
  containerKeyBag : Option (List KeyBagEntry)
  volumeIdentifier : Bytes 16
  userPassword : Option (List UInt8)
  recoveryPassword : Option (List UInt8)
  isLocked : Bool
  keys : Option (List UInt8 × List UInt8)

/-- What memory holds before it is written: the key buffers of an unlock and an allocation for a password. -/
structure Memory where
  volumeKey : Bytes 32
  volumeMasterKey : Bytes 32
  allocation : Nat → UInt8

namespace Volume

abbrev VolumeCall := Call ErrorCode Volume

/-- The password buffer after copying a string by a length: it is as long as the string itself. -/
def copyPassword (memory : Memory) (utf8String : List UInt8) (utf8StringLength : Nat) : Result (List UInt8) :=
  if utf8String.length = 0 ∨ utf8String.length > memoryMaximumAllocationSize - 1 then fail .valueOutOfBounds
  else if utf8StringLength > utf8String.length + 1 then .error .undefined
  else .ok (utf8String.take utf8StringLength ++ (contents memory.allocation 0 utf8String.length).drop utf8StringLength)

def setUserPassword (password : Option (List UInt8)) (volume : Volume) : Volume :=
  { volume with userPassword := password }

def setRecoveryPassword (password : Option (List UInt8)) (volume : Volume) : Volume :=
  { volume with recoveryPassword := password }

/-- Setting a password clears the one before first. -/
def setUtf8Password (store : Option (List UInt8) → Volume → Volume) (memory : Memory) (utf8String : List UInt8)
    (utf8StringLength : Nat) : VolumeCall Nat := do
  Call.update (store none)
  let password ← Call.lift (copyPassword memory utf8String utf8StringLength)
  Call.update (store (some password))
  return 1

/-- The string that libuna makes of the UTF-16 string has its end of string character, which then counts as one of the
password. -/
def setUtf16Password (store : Option (List UInt8) → Volume → Volume) (utf8FromUtf16 : List UInt16 → Option (List UInt8))
    (utf16String : List UInt16) : VolumeCall Nat := do
  Call.update (store none)
  match utf8FromUtf16 utf16String with
  | none => Call.lift (fail .setFailed)
  | some utf8String =>
      if utf8String.length = 0 ∨ utf8String.length > memoryMaximumAllocationSize - 1 then
        Call.lift (fail .valueOutOfBounds)
      else do
        Call.update (store (some utf8String))
        return 1

def setKeys (volumeMasterKey : List UInt8) (volume : Volume) : Volume :=
  { volume with keys := some (volumeMasterKey.take 16, (volumeMasterKey.drop 16).take 16) }

def setUnlocked (volume : Volume) : Volume := { volume with isLocked := false }

variable (ciphers : Ciphers)

def unlockInternal (memory : Memory) : VolumeCall Nat := do
  let volume ← Call.self
  match volume.keyBag with
  | none => do
      Call.update setUnlocked
      return 1
  | some entries => do
      match ← Call.lift (getVolumeKey ciphers volume.userPassword volume.recoveryPassword memory.volumeKey.val entries) with
      | none => return 0
      | some volumeKey =>
          match volume.containerKeyBag with
          | none => Call.lift (fail .invalidValue)
          | some entries => do
              match ← Call.lift (getVolumeMasterKeyByIdentifier ciphers volume.volumeIdentifier volumeKey
                memory.volumeMasterKey.val entries) with
              | none => Call.lift (fail .getFailed)
              | some volumeMasterKey => do
                  Call.update (setKeys volumeMasterKey)
                  Call.update setUnlocked
                  return 1

def unlock (memory : Memory) : VolumeCall Nat := do
  let volume ← Call.self
  if volume.isLocked then unlockInternal ciphers memory
  else return 1

inductive Operation
  | setUtf8Password (utf8String : List UInt8) (utf8StringLength : Nat)
  | setUtf16Password (utf16String : List UInt16)
  | setUtf8RecoveryPassword (utf8String : List UInt8) (utf8StringLength : Nat)
  | setUtf16RecoveryPassword (utf16String : List UInt16)
  | unlock

variable (utf8FromUtf16 : List UInt16 → Option (List UInt8))

def perform (operation : Operation × Memory) : VolumeCall Nat :=
  match operation.1 with
  | .setUtf8Password utf8String utf8StringLength =>
      setUtf8Password setUserPassword operation.2 utf8String utf8StringLength
  | .setUtf16Password utf16String => setUtf16Password setUserPassword utf8FromUtf16 utf16String
  | .setUtf8RecoveryPassword utf8String utf8StringLength =>
      setUtf8Password setRecoveryPassword operation.2 utf8String utf8StringLength
  | .setUtf16RecoveryPassword utf16String => setUtf16Password setRecoveryPassword utf8FromUtf16 utf16String
  | .unlock => unlock ciphers operation.2

end Volume

end Fsapfs
