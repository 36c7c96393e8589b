import Fsapfs.FileSystemRecords

namespace Fsapfs
open Program

/-- How the units of a string stand for characters: what one is copied from, and the number of units it
takes. -/
structure CharacterEncoding (α : Type) where
  value : α → Nat
  copyFrom : List α → Except ErrorCode (Nat × Nat)
  advances : ∀ {units : List α} {character size : Nat}, copyFrom units = .ok (character, size) →
    0 < size ∧ size ≤ units.length

structure NameMappings where
  caseFolding : Nat → Nat
  specialCaseFolding : Nat → Option (List Nat)
  decomposition : Nat → List Nat

/-- What strings are compared with: the tables, the encoding of the names on disk and that of the strings. -/
structure Unicode (α : Type) where
  mappings : NameMappings
  utf8 : CharacterEncoding UInt8
  encoding : CharacterEncoding α

def Unicode.names {α : Type} (unicode : Unicode α) : Unicode UInt8 :=
  { mappings := unicode.mappings, utf8 := unicode.utf8, encoding := unicode.utf8 }

namespace CharacterEncoding

variable {α : Type} (encoding : CharacterEncoding α)

def next (units : List α) : Result (Nat × List α) :=
  match encoding.copyFrom units with
  | .ok (character, size) => .ok (character, units.drop size)
  | .error code => fail code

def trim (units : List α) : List α :=
  match units.getLast? with
  | none => units
  | some last => if encoding.value last = 0 then units.dropLast else units

theorem next_shorter {units rest : List α} {character : Nat} (read : encoding.next units = .ok (character, rest)) :
    rest.length < units.length := by
  unfold next at read
  split at read
  next copied =>
    obtain ⟨positive, inside⟩ := encoding.advances copied
    obtain ⟨rfl, rfl⟩ := Prod.mk.inj (Except.ok.inj read)
    rw [List.length_drop]
    omega
  next => cases read

end CharacterEncoding

namespace NameMappings

variable (mappings : NameMappings)

def foldCase (useCaseFolding : Bool) (character : Nat) : Nat :=
  if useCaseFolding then mappings.caseFolding character else character

def hashedCharacters (useCaseFolding : Bool) (character : Nat) : List Nat :=
  if useCaseFolding then
    match mappings.specialCaseFolding (mappings.caseFolding character) with
    | some characters => characters
    | none => mappings.decomposition (mappings.caseFolding character)
  else mappings.decomposition character

end NameMappings

/-- The order of the decomposition of a character of a string to that of a name; the longer one comes first. -/
def compareDecompositions : List Nat → List Nat → Ordering
  | [], [] => .eq
  | [], _ :: _ => .gt
  | _ :: _, [] => .lt
  | character :: characters, nameCharacter :: nameCharacters =>
      if character < nameCharacter then .lt
      else if character > nameCharacter then .gt
      else compareDecompositions characters nameCharacters

section compare

variable {α : Type} (unicode : Unicode α) (useCaseFolding : Bool)

def compareCharacters (nameCharacter character : Nat) : Ordering :=
  compareDecompositions (unicode.mappings.decomposition (unicode.mappings.foldCase useCaseFolding character))
    (unicode.mappings.decomposition (unicode.mappings.foldCase useCaseFolding nameCharacter))

def compareNameFrom : Nat → List UInt8 → List α → Result Ordering
  | _, [], [] => .ok .eq
  | _, [], _ :: _ => .ok .gt
  | _, _ :: _, [] => .ok .lt
  | 0, _ :: _, _ :: _ => .error .unfinished
  | fuel + 1, byte :: name, unit :: string => do
      let (nameCharacter, name) ← unicode.utf8.next (byte :: name)
      let (character, string) ← unicode.encoding.next (unit :: string)
      match compareCharacters unicode useCaseFolding nameCharacter character with
      | .eq => compareNameFrom fuel name string
      | order => return order

def compareName (name : List UInt8) (string : List α) : Result Ordering :=
  if string.length > ssizeMax then fail .valueExceedsMaximum
  else compareNameFrom unicode useCaseFolding name.length (unicode.utf8.trim name) (unicode.encoding.trim string)

end compare

section hash

def crc32Polynomial : Nat := 0x82f63b78

def crc32Table (tableIndex : Nat) : Nat :=
  (List.range 8).foldl
    (fun checksum _ => if checksum &&& 1 ≠ 0 then crc32Polynomial ^^^ (checksum >>> 1) else checksum >>> 1)
    tableIndex

def updateChecksum (checksum byteValue : Nat) : Nat :=
  crc32Table ((checksum ^^^ byteValue) &&& 0xff) ^^^ (checksum >>> 8)

def addCharacter (checksum character : Nat) : Nat :=
  (List.range 4).foldl (fun checksum index => updateChecksum checksum ((character >>> (8 * index)) &&& 0xff)) checksum

variable {α : Type} (mappings : NameMappings) (encoding : CharacterEncoding α) (useCaseFolding : Bool)

def checksumFrom : Nat → Nat → List α → Result Nat
  | _, checksum, [] => .ok checksum
  | 0, _, _ :: _ => .error .unfinished
  | fuel + 1, checksum, unit :: string => do
      let (character, string) ← encoding.next (unit :: string)
      if character = 0 then return checksum
      else checksumFrom fuel ((mappings.hashedCharacters useCaseFolding character).foldl addCharacter checksum) string

def calculateNameHash (string : List α) : Result Nat := do
  let checksum ← checksumFrom mappings encoding useCaseFolding string.length 0xffffffff string
  return checksum &&& 0x003fffff

end hash

/-- The order of a string to the name of a directory record; a hash of zero is no hash. -/
def DirectoryRecord.compareName {α : Type} (unicode : Unicode α) (key : List UInt8 × Nat) (string : List α)
    (nameHash : Nat) (useCaseFolding : Bool) : Result Ordering :=
  if key.2 ≠ 0 ∧ nameHash ≠ 0 ∧ nameHash < key.2 then .ok .lt
  else if key.2 ≠ 0 ∧ nameHash ≠ 0 ∧ nameHash > key.2 then .ok .gt
  else Fsapfs.compareName unicode useCaseFolding key.1 string

section finished

variable {α : Type} {unicode : Unicode α} {useCaseFolding : Bool}

def Returns {β : Type} (result : Result β) : Prop := Outcome result (fun _ => True) True

theorem CharacterEncoding.next_returns (encoding : CharacterEncoding α) (units : List α) :
    Outcome (encoding.next units) (fun read => read.2.length < units.length) True := by
  cases read : encoding.next units with
  | ok value => exact encoding.next_shorter read
  | error failure =>
      unfold next at read
      split at read
      · cases read
      · cases read
        trivial

theorem compareNameFrom_returns (fuel : Nat) (name : List UInt8) (string : List α) (enough : name.length ≤ fuel) :
    Returns (compareNameFrom unicode useCaseFolding fuel name string) := by
  induction fuel generalizing name string with
  | zero =>
      obtain rfl : name = [] := List.length_eq_zero_iff.mp (by omega)
      cases string <;> trivial
  | succ fuel ih =>
      cases name with
      | nil => cases string <;> trivial
      | cons byte name =>
          cases string with
          | nil => trivial
          | cons unit string =>
              refine (unicode.utf8.next_returns _).bind fun read shorter => ?_
              refine (unicode.encoding.next_returns _).bind fun _ _ => ?_
              simp only []
              split
              · exact ih _ _ (by omega)
              · trivial

theorem checksumFrom_returns {mappings : NameMappings} {encoding : CharacterEncoding α} (fuel checksum : Nat)
    (string : List α) (enough : string.length ≤ fuel) :
    Returns (checksumFrom mappings encoding useCaseFolding fuel checksum string) := by
  induction fuel generalizing checksum string with
  | zero =>
      obtain rfl : string = [] := List.length_eq_zero_iff.mp (by omega)
      trivial
  | succ fuel ih =>
      cases string with
      | nil => trivial
      | cons unit string =>
          refine (encoding.next_returns _).bind fun read shorter => ?_
          simp only []
          split
          · trivial
          · exact ih _ _ (by omega)

theorem CharacterEncoding.trim_length (encoding : CharacterEncoding α) (units : List α) :
    (encoding.trim units).length ≤ units.length := by
  unfold trim
  split
  · exact Nat.le_refl _
  · split
    · simp
    · exact Nat.le_refl _

theorem CharacterEncoding.trim_unended {encoding : CharacterEncoding α} {units : List α}
    (unended : ∀ unit ∈ units, encoding.value unit ≠ 0) : encoding.trim units = units := by
  unfold trim
  split
  · rfl
  next last found => exact if_neg (unended last (List.mem_of_getLast? found))

theorem calculateNameHash_returns (mappings : NameMappings) (encoding : CharacterEncoding α) (useCaseFolding : Bool)
    (string : List α) : Returns (calculateNameHash mappings encoding useCaseFolding string) :=
  (checksumFrom_returns _ _ _ (Nat.le_refl _)).bind fun _ _ => trivial

theorem DirectoryRecord.compareName_returns (key : List UInt8 × Nat) (string : List α) (nameHash : Nat) :
    Returns (DirectoryRecord.compareName unicode key string nameHash useCaseFolding) := by
  unfold DirectoryRecord.compareName Fsapfs.compareName
  split_ifs
  · trivial
  · trivial
  · trivial
  · exact compareNameFrom_returns _ _ _ (unicode.utf8.trim_length _)

end finished

end Fsapfs
