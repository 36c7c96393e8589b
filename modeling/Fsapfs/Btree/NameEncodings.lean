import Fsapfs.Btree.NameComparison
import Fsapfs.Coding.Unicode

namespace Fsapfs
open Program Coding FileSystemBtree

def specialCaseFolding000000df : List Nat := [0x0073, 0x0073]
def specialCaseFolding00000130 : List Nat := [0x0069, 0x0307]
def specialCaseFolding00000149 : List Nat := [0x02bc, 0x006e]
def specialCaseFolding00000587 : List Nat := [0x0565, 0x0582]
def specialCaseFolding00001e9a : List Nat := [0x0061, 0x02be]

def specialCaseFolding00001f80 : List (List Nat) := [
  [0x03b1, 0x0313, 0x03b9], [0x03b1, 0x0314, 0x03b9], [0x03b1, 0x0313, 0x0300, 0x03b9],
  [0x03b1, 0x0314, 0x0300, 0x03b9], [0x03b1, 0x0313, 0x0301, 0x03b9], [0x03b1, 0x0314, 0x0301, 0x03b9],
  [0x03b1, 0x0313, 0x0342, 0x03b9], [0x03b1, 0x0314, 0x0342, 0x03b9], [0x03b1, 0x0313, 0x03b9],
  [0x03b1, 0x0314, 0x03b9], [0x03b1, 0x0313, 0x0300, 0x03b9], [0x03b1, 0x0314, 0x0300, 0x03b9],
  [0x03b1, 0x0313, 0x0301, 0x03b9], [0x03b1, 0x0314, 0x0301, 0x03b9], [0x03b1, 0x0313, 0x0342, 0x03b9],
  [0x03b1, 0x0314, 0x0342, 0x03b9], [0x03b7, 0x0313, 0x03b9], [0x03b7, 0x0314, 0x03b9],
  [0x03b7, 0x0313, 0x0300, 0x03b9], [0x03b7, 0x0314, 0x0300, 0x03b9], [0x03b7, 0x0313, 0x0301, 0x03b9],
  [0x03b7, 0x0314, 0x0301, 0x03b9], [0x03b7, 0x0313, 0x0342, 0x03b9], [0x03b7, 0x0314, 0x0342, 0x03b9],
  [0x03b7, 0x0313, 0x03b9], [0x03b7, 0x0314, 0x03b9], [0x03b7, 0x0313, 0x0300, 0x03b9],
  [0x03b7, 0x0314, 0x0300, 0x03b9], [0x03b7, 0x0313, 0x0301, 0x03b9], [0x03b7, 0x0314, 0x0301, 0x03b9],
  [0x03b7, 0x0313, 0x0342, 0x03b9], [0x03b7, 0x0314, 0x0342, 0x03b9], [0x03c9, 0x0313, 0x03b9],
  [0x03c9, 0x0314, 0x03b9], [0x03c9, 0x0313, 0x0300, 0x03b9], [0x03c9, 0x0314, 0x0300, 0x03b9],
  [0x03c9, 0x0313, 0x0301, 0x03b9], [0x03c9, 0x0314, 0x0301, 0x03b9], [0x03c9, 0x0313, 0x0342, 0x03b9],
  [0x03c9, 0x0314, 0x0342, 0x03b9], [0x03c9, 0x0313, 0x03b9], [0x03c9, 0x0314, 0x03b9],
  [0x03c9, 0x0313, 0x0300, 0x03b9], [0x03c9, 0x0314, 0x0300, 0x03b9], [0x03c9, 0x0313, 0x0301, 0x03b9],
  [0x03c9, 0x0314, 0x0301, 0x03b9], [0x03c9, 0x0313, 0x0342, 0x03b9], [0x03c9, 0x0314, 0x0342, 0x03b9]]

def specialCaseFolding00001fb2 : List Nat := [0x03b1, 0x0300, 0x03b9]
def specialCaseFolding00001fb3 : List Nat := [0x03b1, 0x03b9]
def specialCaseFolding00001fb4 : List Nat := [0x03b1, 0x0301, 0x03b9]
def specialCaseFolding00001fb6 : List Nat := [0x03b1, 0x0342]
def specialCaseFolding00001fb7 : List Nat := [0x03b1, 0x0342, 0x03b9]
def specialCaseFolding00001fbc : List Nat := [0x03b1, 0x03b9]
def specialCaseFolding00001fc2 : List Nat := [0x03b7, 0x0300, 0x03b9]
def specialCaseFolding00001fc3 : List Nat := [0x03b7, 0x03b9]
def specialCaseFolding00001fc4 : List Nat := [0x03b7, 0x0301, 0x03b9]
def specialCaseFolding00001fc6 : List Nat := [0x03b7, 0x0342]
def specialCaseFolding00001fc7 : List Nat := [0x03b7, 0x0342, 0x03b9]
def specialCaseFolding00001fcc : List Nat := [0x03b7, 0x03b9]
def specialCaseFolding00001ff2 : List Nat := [0x03c9, 0x0300, 0x03b9]
def specialCaseFolding00001ff3 : List Nat := [0x03c9, 0x03b9]
def specialCaseFolding00001ff4 : List Nat := [0x03c9, 0x0301, 0x03b9]
def specialCaseFolding00001ff6 : List Nat := [0x03c9, 0x0342]
def specialCaseFolding00001ff7 : List Nat := [0x03c9, 0x0342, 0x03b9]
def specialCaseFolding00001ffc : List Nat := [0x03c9, 0x03b9]
def specialCaseFolding0000fb00 : List Nat := [0x0066, 0x0066]
def specialCaseFolding0000fb01 : List Nat := [0x0066, 0x0069]
def specialCaseFolding0000fb02 : List Nat := [0x0066, 0x006c]
def specialCaseFolding0000fb03 : List Nat := [0x0066, 0x0066, 0x0069]
def specialCaseFolding0000fb04 : List Nat := [0x0066, 0x0066, 0x006c]
def specialCaseFolding0000fb05 : List Nat := [0x0073, 0x0074]
def specialCaseFolding0000fb06 : List Nat := [0x0073, 0x0074]
def specialCaseFolding0000fb13 : List Nat := [0x0574, 0x0576]
def specialCaseFolding0000fb14 : List Nat := [0x0574, 0x0565]
def specialCaseFolding0000fb15 : List Nat := [0x0574, 0x056b]
def specialCaseFolding0000fb16 : List Nat := [0x057e, 0x0576]
def specialCaseFolding0000fb17 : List Nat := [0x0574, 0x056d]

def utf8SpecialCases : List (Nat × List Nat) := [
  (0x00df, specialCaseFolding000000df), (0x0130, specialCaseFolding00000130), (0x0149, specialCaseFolding00000149),
  (0x0587, specialCaseFolding00000587), (0x1e9a, specialCaseFolding00001e9a), (0x1fb2, specialCaseFolding00001fb2),
  (0x1fb3, specialCaseFolding00001fb3), (0x1fb4, specialCaseFolding00001fb4), (0x1fb6, specialCaseFolding00001fb6),
  (0x1fb7, specialCaseFolding00001fb7), (0x1fbc, specialCaseFolding00001fbc), (0x1fc2, specialCaseFolding00001fc2),
  (0x1fc3, specialCaseFolding00001fc3), (0x1fc4, specialCaseFolding00001fc4), (0x1fc6, specialCaseFolding00001fc6),
  (0x1fc7, specialCaseFolding00001fc7), (0x1fcc, specialCaseFolding00001fcc), (0x1ff2, specialCaseFolding00001ff2),
  (0x1ff3, specialCaseFolding00001ff3), (0x1ff4, specialCaseFolding00001ff4), (0x1ff6, specialCaseFolding00001ff6),
  (0x1ff7, specialCaseFolding00001ff7), (0x1ffc, specialCaseFolding00001ffc), (0xfb00, specialCaseFolding0000fb00),
  (0xfb01, specialCaseFolding0000fb01), (0xfb02, specialCaseFolding0000fb02), (0xfb03, specialCaseFolding0000fb03),
  (0xfb04, specialCaseFolding0000fb04), (0xfb05, specialCaseFolding0000fb05), (0xfb06, specialCaseFolding0000fb06),
  (0xfb13, specialCaseFolding0000fb13), (0xfb14, specialCaseFolding0000fb14), (0xfb15, specialCaseFolding0000fb15),
  (0xfb16, specialCaseFolding0000fb16), (0xfb17, specialCaseFolding0000fb17)]

def utf16SpecialCases : List (Nat × List Nat) := [
  (0x00df, specialCaseFolding000000df), (0x0130, specialCaseFolding00000130), (0x0149, specialCaseFolding00000149),
  (0x0587, specialCaseFolding00000587), (0x1e9a, specialCaseFolding00001e9a), (0x1fb2, specialCaseFolding00001fb2),
  (0x1fb3, specialCaseFolding00001fb3), (0x1fb4, specialCaseFolding00001fb4), (0x1fb6, specialCaseFolding00001fb6),
  (0x1fb7, specialCaseFolding00001fb7), (0x1fbc, specialCaseFolding00001fbc), (0x1fc2, specialCaseFolding00001fc2),
  (0x1fc3, specialCaseFolding00001fc3), (0x1fc4, specialCaseFolding00001fc4), (0x1fc6, specialCaseFolding00001fc6),
  (0x1fc7, specialCaseFolding00001fc7), (0x1fcc, specialCaseFolding00001fcc), (0x1ff2, specialCaseFolding00001ff2),
  (0x1ff3, specialCaseFolding00001ff3), (0x1ff4, specialCaseFolding00001ff4), (0x1ff6, specialCaseFolding00001ff6),
  (0x1ff7, specialCaseFolding00001ff7), (0x1ffc, specialCaseFolding00001ffc), (0xfb00, specialCaseFolding0000fb00),
  (0xfb01, specialCaseFolding0000fb01), (0xfb02, specialCaseFolding0000fb02), (0xfb03, specialCaseFolding0000fb03),
  (0xfb04, specialCaseFolding0000fb04), (0xfb05, specialCaseFolding0000fb05), (0xfb06, specialCaseFolding0000fb06),
  (0xfb13, specialCaseFolding0000fb13), (0xfb14, specialCaseFolding0000fb14), (0xfb15, specialCaseFolding0000fb15),
  (0xfb16, specialCaseFolding0000fb16), (0xfb17, specialCaseFolding0000fb17)]

/-- The tables for Greek letters with an iota come before the cases. -/
def specialCaseFoldingOf (cases : List (Nat × List Nat)) (character : Nat) : Option (List Nat) :=
  if 0x1f80 ≤ character ∧ character ≤ 0x1faf then specialCaseFolding00001f80[character - 0x1f80]?
  else cases.lookup character

/-- The tables that both forms of a string are mapped with. -/
structure NameTables where
  caseFolding : Nat → Nat
  decomposition : Nat → List Nat

namespace NameTables

variable (tables : NameTables)

def utf8Mappings : NameMappings where
  caseFolding := tables.caseFolding
  specialCaseFolding := specialCaseFoldingOf utf8SpecialCases
  decomposition := tables.decomposition

def utf16Mappings : NameMappings where
  caseFolding := tables.caseFolding
  specialCaseFolding := specialCaseFoldingOf utf16SpecialCases
  decomposition := tables.decomposition

theorem utf16Mappings_eq : tables.utf16Mappings = tables.utf8Mappings := rfl

variable (utf8 : CharacterEncoding UInt8) (utf16 : CharacterEncoding UInt16)

/-- What the names on disk are compared with where a string is UTF-8. -/
def utf8Unicode : Unicode UInt8 := { mappings := tables.utf8Mappings, utf8, encoding := utf8 }

def utf16Unicode : Unicode UInt16 := { mappings := tables.utf16Mappings, utf8, encoding := utf16 }

def calculateNameHashFromUtf8String (useCaseFolding : Bool) (utf8String : List UInt8) : Result Nat :=
  calculateNameHash tables.utf8Mappings utf8 useCaseFolding utf8String

def calculateNameHashFromUtf16String (useCaseFolding : Bool) (utf16String : List UInt16) : Result Nat :=
  calculateNameHash tables.utf16Mappings utf16 useCaseFolding utf16String

def compareNameWithUtf16String (useCaseFolding : Bool) (name : List UInt8) (utf16String : List UInt16) :
    Result Ordering :=
  if name.length > ssizeMax then fail .valueExceedsMaximum
  else if name.length = 0 then fail .valueZeroOrLess
  else compareName (tables.utf16Unicode utf8 utf16) useCaseFolding name utf16String

end NameTables

section encodings

variable {α β : Type}

/-- What is relied on of the copying of characters: an encoded character is copied, whatever comes after it. -/
structure CharacterEncoding.Decodes (encoding : CharacterEncoding α) (value : α → Nat) (encode : Char → List α) :
    Prop where
  value : encoding.value = value
  copies : ∀ character more,
    encoding.copyFrom (encode character ++ more) = .ok (character.val.toNat, (encode character).length)

variable {encoding : CharacterEncoding α} {value : α → Nat} {encode : Char → List α}

theorem CharacterEncoding.Decodes.next (decodes : encoding.Decodes value encode) (character : Char) (more : List α) :
    encoding.next (encode character ++ more) = .ok (character.val.toNat, more) := by
  rw [CharacterEncoding.next, decodes.copies]
  simp

theorem CharacterEncoding.Decodes.spells (decodes : encoding.Decodes value encode) (characters : List Char) :
    Spells encoding (characters.flatMap encode) (characters.map (·.val.toNat)) := by
  induction characters with
  | nil => exact .nil
  | cons character characters ih =>
      have next := decodes.next character (characters.flatMap encode)
      obtain ⟨positive, _⟩ := encoding.advances (decodes.copies character [])
      cases units : encode character with
      | nil => simp [units] at positive
      | cons unit rest =>
          rw [List.flatMap_cons, List.map_cons, units]
          rw [units] at next
          exact .cons next ih

theorem checksumFrom_spells {mappings : NameMappings} {useCaseFolding : Bool} {string : List α} {characters : List Nat}
    (spelled : Spells encoding string characters) (ends : 0 ∉ characters) {fuel : Nat} (enough : string.length ≤ fuel)
    (checksum : Nat) :
    checksumFrom mappings encoding useCaseFolding fuel checksum string =
      .ok ((characters.flatMap (mappings.hashedCharacters useCaseFolding)).foldl addCharacter checksum) := by
  induction spelled generalizing fuel checksum with
  | nil => cases fuel <;> rfl
  | cons read _ ih =>
      obtain ⟨fuel, rfl⟩ := Nat.exists_eq_succ_of_ne_zero (show fuel ≠ 0 by simp at enough; omega)
      have shorter := encoding.next_shorter read
      obtain ⟨first, ends⟩ := not_or.mp (List.mem_cons.not.mp ends)
      rw [checksumFrom, read, ok_bind]
      dsimp only
      rw [if_neg (Ne.symm first), ih ends (by omega), List.flatMap_cons, List.foldl_append]

theorem calculateNameHash_spells {mappings : NameMappings} {useCaseFolding : Bool} {string : List α}
    {characters : List Nat} (spelled : Spells encoding string characters) (ends : 0 ∉ characters) :
    calculateNameHash mappings encoding useCaseFolding string =
      .ok ((characters.flatMap (mappings.hashedCharacters useCaseFolding)).foldl addCharacter 0xffffffff &&& 0x003fffff) := by
  rw [calculateNameHash, checksumFrom_spells spelled ends (Nat.le_refl _)]
  rfl

variable {unicode : Unicode α} {unicode' : Unicode β} {useCaseFolding : Bool} {string : List α} {string' : List β}
  {characters : List Nat}

/-- Strings of the same characters compare alike with every name, also where the name cannot be copied. -/
theorem compareNameFrom_agrees (mappings : unicode.mappings = unicode'.mappings) (names : unicode.utf8 = unicode'.utf8)
    (spelled : Spells unicode.encoding string characters) (spelled' : Spells unicode'.encoding string' characters)
    (fuel : Nat) (name : List UInt8) :
    compareNameFrom unicode useCaseFolding fuel name string =
      compareNameFrom unicode' useCaseFolding fuel name string' := by
  induction spelled generalizing fuel name string' with
  | nil =>
      cases spelled'
      cases name <;> cases fuel <;> rfl
  | cons read _ ih =>
      cases spelled' with
      | cons read' spelled' =>
          cases name with
          | nil => cases fuel <;> rfl
          | cons byte name =>
              cases fuel with
              | zero => rfl
              | succ fuel =>
                  rw [compareNameFrom, compareNameFrom, ← names]
                  cases unicode.utf8.next (byte :: name) with
                  | error failure => rfl
                  | ok copied =>
                      obtain ⟨nameCharacter, name⟩ := copied
                      simp only [ok_bind, read, read', compareCharacters, ← mappings, ih spelled']

theorem compareName_agrees (mappings : unicode.mappings = unicode'.mappings) (names : unicode.utf8 = unicode'.utf8)
    (spelled : Spells unicode.encoding string characters) (spelled' : Spells unicode'.encoding string' characters)
    (unended : ∀ unit ∈ string, unicode.encoding.value unit ≠ 0)
    (unended' : ∀ unit ∈ string', unicode'.encoding.value unit ≠ 0) (fits : string.length ≤ ssizeMax)
    (fits' : string'.length ≤ ssizeMax) (name : List UInt8) :
    compareName unicode useCaseFolding name string = compareName unicode' useCaseFolding name string' := by
  unfold compareName
  rw [if_neg (Nat.not_lt.mpr fits), if_neg (Nat.not_lt.mpr fits'), CharacterEncoding.trim_unended unended,
    CharacterEncoding.trim_unended unended', ← names]
  exact compareNameFrom_agrees mappings names spelled spelled' _ _

end encodings

namespace FileSystemBtree

section searches

variable {α β : Type} {unicode : Unicode α} {unicode' : Unicode β} {string : List α} {string' : List β}

/-- Two strings that compare alike with every name. -/
def ComparesAlike (unicode : Unicode α) (unicode' : Unicode β) (string : List α) (string' : List β) : Prop :=
  ∀ useCaseFolding name, compareName unicode useCaseFolding name string = compareName unicode' useCaseFolding name string'

variable (alike : ComparesAlike unicode unicode' string string') (parentIdentifier nameHash : Nat)

include alike

theorem directoryRecord_compareName_agrees (key : List UInt8 × Nat) (useCaseFolding : Bool) :
    DirectoryRecord.compareName unicode key string nameHash useCaseFolding =
      DirectoryRecord.compareName unicode' key string' nameHash useCaseFolding := by
  unfold DirectoryRecord.compareName
  rw [alike]

theorem findDirectoryRecord_agrees (useCaseFolding : Bool) (entries : List BtreeEntry) :
    findDirectoryRecord unicode { parentIdentifier, string, nameHash } useCaseFolding entries =
      findDirectoryRecord unicode' { parentIdentifier, string := string', nameHash } useCaseFolding entries := by
  induction entries with
  | nil => rfl
  | cons entry entries ih =>
      unfold findDirectoryRecord
      simp only [ih, directoryRecord_compareName_agrees alike]

theorem findDirectoryBranchEntry_agrees (previousEntry : Option BtreeEntry) (entries : List BtreeEntry) :
    findDirectoryBranchEntry unicode { parentIdentifier, string, nameHash } previousEntry entries =
      findDirectoryBranchEntry unicode' { parentIdentifier, string := string', nameHash } previousEntry entries := by
  induction entries generalizing previousEntry with
  | nil => rfl
  | cons entry entries ih =>
      unfold findDirectoryBranchEntry
      simp only [ih, directoryRecord_compareName_agrees alike]

variable (nodes : Nat → Result BtreeNode) (transactionIdentifier : Nat)

theorem getDirectoryRecordFromNode_agrees {next next' : Nat → TreeCall (Option DirectoryRecord)} (same : next = next')
    (node : BtreeNode) :
    getDirectoryRecordFromNode unicode { parentIdentifier, string, nameHash } nodes transactionIdentifier next node =
      getDirectoryRecordFromNode unicode' { parentIdentifier, string := string', nameHash } nodes transactionIdentifier
        next' node := by
  subst same
  unfold getDirectoryRecordFromNode getDirectoryRecordFromLeafNode getDirectoryRecordFromBranchNode
  simp only [findDirectoryRecord_agrees alike, findDirectoryBranchEntry_agrees alike]

theorem getDirectoryRecordFromSubNode_agrees (depth : Nat) :
    getDirectoryRecordFromSubNode unicode { parentIdentifier, string, nameHash } nodes transactionIdentifier depth =
      getDirectoryRecordFromSubNode unicode' { parentIdentifier, string := string', nameHash } nodes
        transactionIdentifier depth := by
  unfold getDirectoryRecordFromSubNode
  induction depth with
  | zero =>
      funext blockNumber
      unfold descend getDirectoryRecordFromLeafNode
      simp only [findDirectoryRecord_agrees alike]
  | succ depth ih =>
      funext blockNumber
      unfold descend
      simp only [getDirectoryRecordFromNode_agrees alike parentIdentifier nameHash nodes transactionIdentifier ih]

theorem getDirectoryRecordByString_agrees (hashes : ∀ useCaseFolding,
      calculateNameHash unicode.mappings unicode.encoding useCaseFolding string =
        calculateNameHash unicode'.mappings unicode'.encoding useCaseFolding string') (rootNode : BtreeNode) :
    getDirectoryRecordByString unicode nodes transactionIdentifier rootNode parentIdentifier string =
      getDirectoryRecordByString unicode' nodes transactionIdentifier rootNode parentIdentifier string' := by
  unfold getDirectoryRecordByString getDirectoryRecordFromRootNode
  simp only [hashes, fun nameHash => getDirectoryRecordFromNode_agrees alike parentIdentifier nameHash nodes
    transactionIdentifier (getDirectoryRecordFromSubNode_agrees alike parentIdentifier nameHash nodes
      transactionIdentifier maximumBtreeNodeRecursionDepth) rootNode]

theorem getInodeByName_alike (hashes : ∀ useCaseFolding,
      calculateNameHash unicode.mappings unicode.encoding useCaseFolding string =
        calculateNameHash unicode'.mappings unicode'.encoding useCaseFolding string') (fits : string.length ≤ ssizeMax)
    (fits' : string'.length ≤ ssizeMax) :
    getInodeByName unicode nodes transactionIdentifier parentIdentifier string =
      getInodeByName unicode' nodes transactionIdentifier parentIdentifier string' := by
  unfold getInodeByName
  rw [if_neg (Nat.not_lt.mpr fits), if_neg (Nat.not_lt.mpr fits')]
  simp only [getDirectoryRecordByString_agrees alike parentIdentifier nodes transactionIdentifier hashes]

end searches

end FileSystemBtree

section entryPoints

variable {utf8 : CharacterEncoding UInt8} {utf16 : CharacterEncoding UInt16} {characters : List Char}

theorem values_unended (unended : Char.ofNat 0 ∉ characters) : 0 ∉ characters.map (·.val.toNat) := by
  intro member
  obtain ⟨character, inside, zero⟩ := List.mem_map.mp member
  exact value_ne_zero (fun same => unended (same ▸ inside)) zero

theorem utf8_units (libuna : utf8.Decodes UInt8.toNat String.utf8EncodeChar) (unended : Char.ofNat 0 ∉ characters) :
    ∀ unit ∈ utf8Bytes characters, utf8.value unit ≠ 0 := by
  intro unit member zero
  rw [libuna.value] at zero
  exact utf8Bytes_ne_zero unended unit member (UInt8.toNat_inj.mp zero)

theorem utf16_units (libuna : utf16.Decodes UInt16.toNat utf16EncodeChar) (unended : Char.ofNat 0 ∉ characters) :
    ∀ unit ∈ utf16Units characters, utf16.value unit ≠ 0 := by
  intro unit member zero
  rw [libuna.value] at zero
  exact utf16Units_ne_zero unended unit member (UInt16.toNat_inj.mp zero)

theorem comparesAlike (tables : NameTables) (libuna8 : utf8.Decodes UInt8.toNat String.utf8EncodeChar)
    (libuna16 : utf16.Decodes UInt16.toNat utf16EncodeChar) (unended : Char.ofNat 0 ∉ characters)
    (fits : (utf8Bytes characters).length ≤ ssizeMax) :
    ComparesAlike (tables.utf8Unicode utf8) (tables.utf16Unicode utf8 utf16) (utf8Bytes characters)
      (utf16Units characters) := by
  intro useCaseFolding name
  have spelled := libuna8.spells characters
  have spelled' := libuna16.spells characters
  have fits' := Nat.le_trans (utf16Units_length_le characters) fits
  exact @compareName_agrees _ _ (tables.utf8Unicode utf8) (tables.utf16Unicode utf8 utf16) _ _ _ _
    tables.utf16Mappings_eq.symm rfl spelled spelled' (utf8_units libuna8 unended) (utf16_units libuna16 unended) fits
    fits' name

/-- Both forms of a string have one hash, the same order to every name and the same record in every tree. -/
theorem entryPoints_agree (tables : NameTables) (libuna8 : utf8.Decodes UInt8.toNat String.utf8EncodeChar)
    (libuna16 : utf16.Decodes UInt16.toNat utf16EncodeChar) (unended : Char.ofNat 0 ∉ characters) :
    (∀ useCaseFolding, ∃ nameHash,
      tables.calculateNameHashFromUtf8String utf8 useCaseFolding (utf8Bytes characters) = .ok nameHash ∧
      tables.calculateNameHashFromUtf16String utf16 useCaseFolding (utf16Units characters) = .ok nameHash) ∧
    ((utf8Bytes characters).length ≤ ssizeMax →
      (∀ useCaseFolding name,
        compareNameWithUtf8String tables.utf8Mappings utf8 useCaseFolding name (utf8Bytes characters) =
          tables.compareNameWithUtf16String utf8 utf16 useCaseFolding name (utf16Units characters)) ∧
      ∀ nodes transactionIdentifier parentIdentifier,
        (∀ rootNode,
          getDirectoryRecordByString (tables.utf8Unicode utf8) nodes transactionIdentifier rootNode parentIdentifier
              (utf8Bytes characters) =
            getDirectoryRecordByString (tables.utf16Unicode utf8 utf16) nodes transactionIdentifier rootNode
              parentIdentifier (utf16Units characters)) ∧
        getInodeByName (tables.utf8Unicode utf8) nodes transactionIdentifier parentIdentifier (utf8Bytes characters) =
          getInodeByName (tables.utf16Unicode utf8 utf16) nodes transactionIdentifier parentIdentifier
            (utf16Units characters)) := by
  have hash8 (useCaseFolding : Bool) := @calculateNameHash_spells _ utf8 tables.utf8Mappings useCaseFolding _ _
    (libuna8.spells characters) (values_unended unended)
  have hash16 (useCaseFolding : Bool) := @calculateNameHash_spells _ utf16 tables.utf16Mappings useCaseFolding _ _
    (libuna16.spells characters) (values_unended unended)
  constructor
  · intro useCaseFolding
    exact ⟨_, hash8 useCaseFolding, hash16 useCaseFolding⟩
  · intro fits
    have alike := comparesAlike tables libuna8 libuna16 unended fits
    have fits' := Nat.le_trans (utf16Units_length_le characters) fits
    have hashes (useCaseFolding : Bool) := (hash8 useCaseFolding).trans (hash16 useCaseFolding).symm
    constructor
    · intro useCaseFolding name
      have same := alike useCaseFolding name
      unfold compareNameWithUtf8String NameTables.compareNameWithUtf16String
      rw [← same]
      rfl
    · intro nodes transactionIdentifier parentIdentifier
      constructor
      · exact getDirectoryRecordByString_agrees alike parentIdentifier nodes transactionIdentifier hashes
      · exact getInodeByName_alike alike parentIdentifier nodes transactionIdentifier hashes fits fits'

end entryPoints

namespace FileSystemBtree.Sample

def utf8 : CharacterEncoding UInt8 where
  value := UInt8.toNat
  copyFrom units :=
    match units.toByteArray.utf8DecodeChar? 0 with
    | some character => .ok (character.val.toNat, character.utf8Size)
    | none => .error .unsupportedValue
  advances := by
    intro units character size copied
    split at copied
    next character' decoded =>
      have inside := ByteArray.le_size_of_utf8DecodeChar?_eq_some decoded
      obtain ⟨_, rfl⟩ := Prod.mk.inj (Except.ok.inj copied)
      exact ⟨character'.utf8Size_pos, by simpa using inside⟩
    · cases copied

theorem utf8_decodes : utf8.Decodes UInt8.toNat String.utf8EncodeChar where
  value := rfl
  copies character more := by
    have decoded := @ByteArray.utf8DecodeChar?_utf8EncodeChar_append more.toByteArray character
    simp [utf8, decoded, String.length_utf8EncodeChar]

def utf16 : CharacterEncoding UInt16 where
  value := UInt16.toNat
  copyFrom
    | [] => .error .valueOutOfBounds
    | unit :: units =>
        if unit.toNat < 0xd800 ∨ 0xdfff < unit.toNat then .ok (unit.toNat, 1)
        else
          match units with
          | [] => .error .valueOutOfBounds
          | low :: _ =>
              if unit.toNat < 0xdc00 ∧ 0xdc00 ≤ low.toNat ∧ low.toNat ≤ 0xdfff then
                .ok (0x10000 + (unit.toNat - 0xd800) * 0x400 + (low.toNat - 0xdc00), 2)
              else .error .unsupportedValue
  advances := by
    intro units character size copied
    cases units with
    | nil => cases copied
    | cons unit units =>
        simp only at copied
        split_ifs at copied
        · obtain ⟨_, rfl⟩ := Prod.mk.inj (Except.ok.inj copied)
          simp
        · cases units with
          | nil => cases copied
          | cons low units =>
              simp only at copied
              split_ifs at copied
              obtain ⟨_, rfl⟩ := Prod.mk.inj (Except.ok.inj copied)
              simp

theorem utf16_decodes : utf16.Decodes UInt16.toNat utf16EncodeChar where
  value := rfl
  copies character more := by
    rcases utf16EncodeChar_cases character with ⟨unit, encoded, value, plain⟩ |
      ⟨high, low, encoded, above, below, low_above, low_below, value⟩
    · simp only [encoded, utf16, List.cons_append, List.length_singleton]
      rw [if_pos plain, value]
    · simp only [encoded, utf16, List.cons_append, List.length_cons, List.length_nil]
      rw [if_neg (by omega), if_pos ⟨below, low_above, low_below⟩, value]

def nameTables : NameTables where
  caseFolding character := if 0x41 ≤ character ∧ character ≤ 0x5a then character + 0x20 else character
  decomposition character := if character = 0xe9 then [0x65, 0x301] else [character]

end FileSystemBtree.Sample

theorem entryPoints_agree_sample :
    (∃ nameHash, Sample.nameTables.calculateNameHashFromUtf8String Sample.utf8 true
        (utf8Bytes [Char.ofNat 0xe9, Char.ofNat 0xfb00, Char.ofNat 0x1f600]) = .ok nameHash ∧
      Sample.nameTables.calculateNameHashFromUtf16String Sample.utf16 true
        (utf16Units [Char.ofNat 0xe9, Char.ofNat 0xfb00, Char.ofNat 0x1f600]) = .ok nameHash) ∧
    compareNameWithUtf8String Sample.nameTables.utf8Mappings Sample.utf8 true [0xc3, 0xa9]
        (utf8Bytes [Char.ofNat 0xe9, Char.ofNat 0xfb00, Char.ofNat 0x1f600]) =
      Sample.nameTables.compareNameWithUtf16String Sample.utf8 Sample.utf16 true [0xc3, 0xa9]
        (utf16Units [Char.ofNat 0xe9, Char.ofNat 0xfb00, Char.ofNat 0x1f600]) := by
  have agree := entryPoints_agree Sample.nameTables Sample.utf8_decodes Sample.utf16_decodes
    (show Char.ofNat 0 ∉ [Char.ofNat 0xe9, Char.ofNat 0xfb00, Char.ofNat 0x1f600] by decide)
  exact ⟨agree.1 true, (agree.2 (by decide)).1 true [0xc3, 0xa9]⟩

end Fsapfs
