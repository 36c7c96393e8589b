import Fsapfs.Btree.RecordsOfType
import Fsapfs.DirectoryLookup

namespace Fsapfs

section strings

variable {α : Type}

/-- A string that is copied character by character, as far as it can be, without a separator or the end of the
string among them. -/
inductive Unbroken (encoding : CharacterEncoding α) : List α → Prop
  | nil : Unbroken encoding []
  | failed {unit : α} {string : List α} {failure : Failure} :
      encoding.next (unit :: string) = .error failure → Unbroken encoding (unit :: string)
  | next {unit : α} {string rest : List α} {character : Nat} :
      encoding.next (unit :: string) = .ok (character, rest) → character ≠ 0x2f → character ≠ 0 →
      Unbroken encoding rest → Unbroken encoding (unit :: string)

inductive Spells (encoding : CharacterEncoding α) : List α → List Nat → Prop
  | nil : Spells encoding [] []
  | cons {unit : α} {string rest : List α} {character : Nat} {characters : List Nat} :
      encoding.next (unit :: string) = .ok (character, rest) → Spells encoding rest characters →
      Spells encoding (unit :: string) (character :: characters)

/-- What is relied on of an encoding: a unit of the value of the separator is one, and a character is copied
from its units whatever comes after them. -/
structure CharacterEncoding.Separates (encoding : CharacterEncoding α) : Prop where
  separator : ∀ {unit : α} {rest : List α}, encoding.value unit = 0x2f →
    encoding.copyFrom (unit :: rest) = .ok (0x2f, 1)
  stable : ∀ {units more : List α} {character size : Nat}, encoding.copyFrom units = .ok (character, size) →
    encoding.copyFrom (units ++ more) = .ok (character, size)

variable {encoding : CharacterEncoding α}

theorem CharacterEncoding.next_drop {units rest : List α} {character : Nat}
    (read : encoding.next units = .ok (character, rest)) :
    ∃ copied, units = copied ++ rest ∧ copied ≠ [] ∧
      encoding.copyFrom units = .ok (character, copied.length) := by
  unfold next at read
  split at read
  next size copies =>
    obtain ⟨positive, inside⟩ := encoding.advances copies
    obtain ⟨rfl, rfl⟩ := Prod.mk.inj (Except.ok.inj read)
    have length : (units.take size).length = size := List.length_take_of_le inside
    refine ⟨units.take size, (List.take_append_drop size units).symm, ?_, by rw [length]; exact copies⟩
    intro empty
    rw [empty, List.length_nil] at length
    omega
  next => cases read

theorem CharacterEncoding.next_append (separates : encoding.Separates) {units rest more : List α} {character : Nat}
    (read : encoding.next units = .ok (character, rest)) :
    encoding.next (units ++ more) = .ok (character, rest ++ more) := by
  obtain ⟨copied, rfl, _, copies⟩ := next_drop read
  unfold next
  rw [separates.stable copies]
  simp

theorem CharacterEncoding.next_separator (separates : encoding.Separates) {separator : α}
    (value : encoding.value separator = 0x2f) (rest : List α) :
    encoding.next (separator :: rest) = .ok (0x2f, rest) := by
  unfold next
  rw [separates.separator value]
  rfl

end strings

namespace FileSystemBtree
open Program

section segments

variable {α : Type} {unicode : Unicode α} {string : List α}

theorem nextSegment_cons (fuel : Nat) (segment : List α) {rest : List α} {unit : α} {character : Nat}
    (read : unicode.encoding.next (unit :: string) = .ok (character, rest)) :
    ∃ copied, unit :: string = copied ++ rest ∧ copied ≠ [] ∧
      nextSegment unicode (fuel + 1) segment (unit :: string) =
        if character = 0x2f ∨ character = 0 then .ok ((segment ++ copied).dropLast, rest)
        else nextSegment unicode fuel (segment ++ copied) rest := by
  obtain ⟨copied, same, filled, _⟩ := CharacterEncoding.next_drop read
  refine ⟨copied, same, filled, ?_⟩
  have taken : (unit :: string).take ((unit :: string).length - rest.length) = copied := by
    rw [same]
    simp
  rw [nextSegment, read, ok_bind]
  simp only [taken]
  split_ifs <;> rfl

/-- A string without breaks is one segment, or neither a segment nor a hash can be had of it. -/
theorem nextSegment_unbroken (unbroken : Unbroken unicode.encoding string) (useCaseFolding : Bool) {fuel : Nat}
    (enough : string.length ≤ fuel) (segment : List α) :
    nextSegment unicode fuel segment string = .ok (segment ++ string, []) ∨
      (∃ failure, nextSegment unicode fuel segment string = .error failure) ∧
        ∀ hashFuel checksum, string.length ≤ hashFuel → ∃ failure,
          checksumFrom unicode.mappings unicode.encoding useCaseFolding hashFuel checksum string = .error failure := by
  induction unbroken generalizing fuel segment with
  | nil =>
      refine Or.inl ?_
      rw [List.append_nil]
      cases fuel <;> rfl
  | failed failed =>
      obtain ⟨fuel, rfl⟩ := Nat.exists_eq_succ_of_ne_zero (show fuel ≠ 0 by simp at enough; omega)
      refine Or.inr ⟨⟨_, by rw [nextSegment, failed]; rfl⟩, fun hashFuel checksum enough => ?_⟩
      obtain ⟨hashFuel, rfl⟩ := Nat.exists_eq_succ_of_ne_zero (show hashFuel ≠ 0 by simp at enough; omega)
      exact ⟨_, by rw [checksumFrom, failed]; rfl⟩
  | @next unit string rest character read noSeparator noEnd _ ih =>
      obtain ⟨fuel, rfl⟩ := Nat.exists_eq_succ_of_ne_zero (show fuel ≠ 0 by simp at enough; omega)
      have shorter := unicode.encoding.next_shorter read
      obtain ⟨copied, same, _, segments⟩ := nextSegment_cons fuel segment read
      rw [segments, if_neg (by simp [noSeparator, noEnd])]
      refine (ih (by omega) (segment ++ copied)).imp (fun whole => ?_) fun ⟨failed, hash⟩ => ⟨failed, ?_⟩
      · rw [whole, List.append_assoc, same]
      · intro hashFuel checksum enough
        obtain ⟨hashFuel, rfl⟩ := Nat.exists_eq_succ_of_ne_zero (show hashFuel ≠ 0 by simp at enough; omega)
        rw [checksumFrom, read, ok_bind]
        simp only [if_neg noEnd]
        exact hash _ _ (by omega)

theorem nextSegment_spells (separates : unicode.encoding.Separates) {characters : List Nat}
    (spells : Spells unicode.encoding string characters)
    (plain : ∀ character ∈ characters, character ≠ 0x2f ∧ character ≠ 0) {fuel : Nat} (path : List α)
    (enough : (string ++ path).length ≤ fuel) (segment : List α) :
    (path = [] → nextSegment unicode fuel segment (string ++ path) = .ok (segment ++ string, [])) ∧
      ∀ separator rest, path = separator :: rest → unicode.encoding.value separator = 0x2f →
        nextSegment unicode fuel segment (string ++ path) = .ok (segment ++ string, rest) := by
  induction spells generalizing fuel segment with
  | nil =>
      refine ⟨?_, ?_⟩
      · rintro rfl
        cases fuel <;> simp [nextSegment]
      · rintro separator rest rfl value
        obtain ⟨fuel, rfl⟩ := Nat.exists_eq_succ_of_ne_zero (show fuel ≠ 0 by simp at enough; omega)
        have read := CharacterEncoding.next_separator separates value rest
        obtain ⟨copied, same, _, segments⟩ := nextSegment_cons fuel segment read
        have one : [separator] ++ rest = copied ++ rest := same
        have one := (List.append_cancel_right one).symm
        rw [List.nil_append, segments, one]
        simp
  | @cons unit string rest character characters read _ ih =>
      obtain ⟨here, plain⟩ := List.forall_mem_cons.mp plain
      obtain ⟨fuel, rfl⟩ := Nat.exists_eq_succ_of_ne_zero (show fuel ≠ 0 by simp at enough; omega)
      have shorter := unicode.encoding.next_shorter read
      have read' : unicode.encoding.next (unit :: (string ++ path)) = .ok (character, rest ++ path) :=
        CharacterEncoding.next_append separates read
      obtain ⟨copied, same, _, segments⟩ := nextSegment_cons fuel segment read'
      have units : segment ++ (unit :: string) = segment ++ copied ++ rest := by
        have split : unit :: string ++ path = copied ++ rest ++ path := by simpa using same
        rw [List.append_cancel_right split, List.append_assoc]
      rw [units, List.cons_append, segments, if_neg (by simp [here])]
      refine ih plain ?_ (segment ++ copied)
      simp only [List.length_append, List.length_cons] at enough shorter ⊢
      omega

end segments

section results

variable {α : Type} {unicode : Unicode α} {nodes : Nat → Result BtreeNode} {transactionIdentifier : Nat}
  {handle : FileSystemBtree} {rootNode : BtreeNode} {parentIdentifier : Nat} {string : List α}

/-- Both lookups fail, both find nothing, or both find the same inode and the same record. -/
def Agree (named : Result (Option (Inode × DirectoryRecord))) (pathed : Result (Option (Inode × Option DirectoryRecord))) :
    Prop :=
  match named, pathed with
  | .ok none, .ok none => True
  | .ok (some (inode, directoryRecord)), .ok (some (inode', directoryRecord')) =>
      inode = inode' ∧ some directoryRecord = directoryRecord'
  | .error _, .error _ => True
  | _, _ => False

def HasInode (nodes : Nat → Result BtreeNode) (transactionIdentifier identifier : Nat) (handle : FileSystemBtree)
    (inode : Inode) : Prop :=
  (getInodeByIdentifier nodes identifier transactionIdentifier handle).1 = .ok (some inode)

variable (nodes transactionIdentifier) in
theorem getInodeWithRecord_run (identifier : Nat) (directoryRecord : Option DirectoryRecord)
    (handle : FileSystemBtree) :
    (∃ inode, HasInode nodes transactionIdentifier identifier handle inode ∧
        (getInodeWithRecord nodes transactionIdentifier identifier directoryRecord handle).1 =
          .ok (some (inode, directoryRecord))) ∨
      (∀ inode, ¬HasInode nodes transactionIdentifier identifier handle inode) ∧
        ∃ failure, (getInodeWithRecord nodes transactionIdentifier identifier directoryRecord handle).1 =
          .error failure := by
  unfold HasInode getInodeByIdentifier getInodeWithRecord
  cases run : getEntryByIdentifier nodes identifier 3 transactionIdentifier handle with
  | mk result handle' =>
      cases result with
      | error failure =>
          rw [Call.bind_of_error run, Call.bind_of_error run]
          exact Or.inr ⟨by simp, failure, rfl⟩
      | ok entry =>
          rw [Call.bind_of_ok run, Call.bind_of_ok run]
          cases entry with
          | none => exact Or.inr ⟨by simp, _, rfl⟩
          | some entry =>
              cases reads : Inode.read entry with
              | error failure =>
                  simp only [reads]
                  exact Or.inr ⟨fun inode found => (nomatch found), _, rfl⟩
              | ok inode =>
                  simp only [reads]
                  exact Or.inl ⟨inode, rfl, rfl⟩

variable (unicode transactionIdentifier parentIdentifier) in
theorem getInodeByName_run (fits : string.length ≤ ssizeMax)
    (rooted : getRootNode nodes handle.rootNodeBlockNumber = .ok (some rootNode)) :
    ((getDirectoryRecordByString unicode nodes transactionIdentifier rootNode parentIdentifier string handle).1 =
        .ok none ∧
      (getInodeByName unicode nodes transactionIdentifier parentIdentifier string handle).1 = .ok none) ∨
    ((getDirectoryRecordByString unicode nodes transactionIdentifier rootNode parentIdentifier string handle).1 ≠
        .ok none ∧
      ∃ failure, (getInodeByName unicode nodes transactionIdentifier parentIdentifier string handle).1 =
        .error failure) := by
  unfold getInodeByName
  rw [if_neg (Nat.not_lt.mpr fits), Call.self_bind, rooted, Call.bind_of_ok (Call.lift_run _ _)]
  simp only []
  cases run : getDirectoryRecordByString unicode nodes transactionIdentifier rootNode parentIdentifier string handle with
  | mk result handle' =>
      cases result with
      | error failure =>
          rw [Call.bind_of_error run]
          exact Or.inr ⟨by simp, failure, rfl⟩
      | ok found =>
          rw [Call.bind_of_ok run]
          cases found with
          | none => exact Or.inl ⟨rfl, rfl⟩
          | some directoryRecord =>
              refine Or.inr ⟨by simp, ?_⟩
              simp only []
              cases run' : getEntryByIdentifier nodes directoryRecord.identifier 3 transactionIdentifier handle' with
              | mk result handle'' =>
                  cases result with
                  | error failure => exact ⟨_, by rw [Call.bind_of_error run']⟩
                  | ok entry =>
                      rw [Call.bind_of_ok run']
                      cases entry with
                      | none => exact ⟨_, rfl⟩
                      | some entry => exact ⟨_, rfl⟩

theorem getInodeByPath_short (fits : string.length ≤ ssizeMax)
    (rooted : getRootNode nodes handle.rootNodeBlockNumber = .ok (some rootNode))
    (short : string.length = 0 ∨ string.length = 1) :
    getInodeByPath unicode nodes transactionIdentifier parentIdentifier string handle =
      getInodeWithRecord nodes transactionIdentifier parentIdentifier none handle := by
  unfold getInodeByPath
  rw [if_neg (Nat.not_lt.mpr fits), Call.self_bind, rooted, Call.bind_of_ok (Call.lift_run _ _)]
  simp only [if_pos short]
  rfl

theorem getInodeByPath_segments (fits : string.length ≤ ssizeMax)
    (rooted : getRootNode nodes handle.rootNodeBlockNumber = .ok (some rootNode))
    (long : ¬(string.length = 0 ∨ string.length = 1)) :
    getInodeByPath unicode nodes transactionIdentifier parentIdentifier string handle =
      (getDirectoryRecordBySegments unicode nodes transactionIdentifier rootNode string.length parentIdentifier none
          (dropSeparator unicode string) >>= fun found =>
        match found with
        | none => return none
        | some (lookupIdentifier, directoryRecord) =>
            getInodeWithRecord nodes transactionIdentifier lookupIdentifier directoryRecord) handle := by
  unfold getInodeByPath
  rw [if_neg (Nat.not_lt.mpr fits), Call.self_bind, rooted, Call.bind_of_ok (Call.lift_run _ _)]
  exact congrFun (if_neg long) handle

/-- What has to hold of the searches for the two lookups to agree on a name: a longer one leads to no inode,
and of one unit neither the inode of the directory itself nor the absence of a record is found. -/
def NameAgreesAt (unicode : Unicode α) (nodes : Nat → Result BtreeNode) (transactionIdentifier parentIdentifier : Nat)
    (string : List α) (handle : FileSystemBtree) (rootNode : BtreeNode) : Prop :=
  if string.length = 1 then
    (∀ inode, ¬HasInode nodes transactionIdentifier parentIdentifier handle inode) ∧
      (getDirectoryRecordByString unicode nodes transactionIdentifier rootNode parentIdentifier string handle).1 ≠
        .ok none
  else
    ∀ directoryRecord handle',
      getDirectoryRecordByString unicode nodes transactionIdentifier rootNode parentIdentifier string handle =
        (.ok (some directoryRecord), handle') →
      ∀ inode, ¬HasInode nodes transactionIdentifier directoryRecord.identifier handle' inode

/-- The lookups also agree on a name that is too long, and in a tree without a root node. -/
def NameAgrees (unicode : Unicode α) (nodes : Nat → Result BtreeNode) (transactionIdentifier parentIdentifier : Nat)
    (string : List α) (handle : FileSystemBtree) : Prop :=
  string.length ≤ ssizeMax → ∀ rootNode, getRootNode nodes handle.rootNodeBlockNumber = .ok (some rootNode) →
    NameAgreesAt unicode nodes transactionIdentifier parentIdentifier string handle rootNode

/-- A name that has no separator and no end of string in it. -/
structure IsName (encoding : CharacterEncoding α) (string : List α) : Prop where
  filled : string ≠ []
  unbroken : Unbroken encoding string
  units : ∀ unit ∈ string, encoding.value unit ≠ 0x2f

theorem IsName.dropSeparator (name : IsName unicode.encoding string) : dropSeparator unicode string = string := by
  unfold FileSystemBtree.dropSeparator
  cases string with
  | nil => rfl
  | cons unit string => exact if_neg (name.units unit (by simp))

theorem hash_fails {rootNode : BtreeNode} (fails : ∃ failure, checksumFrom unicode.mappings unicode.encoding
      handle.useCaseFolding string.length 0xffffffff string = .error failure) :
    ∃ failure, getDirectoryRecordByString unicode nodes transactionIdentifier rootNode parentIdentifier string handle =
      (.error failure, handle) := by
  obtain ⟨failure, fails⟩ := fails
  refine ⟨failure, ?_⟩
  unfold getDirectoryRecordByString calculateNameHash
  rw [Call.self_bind, fails, error_bind]
  rfl

theorem getDirectoryRecordBySegments_step {fuel identifier : Nat} {directoryRecord : Option DirectoryRecord} {unit : α}
    {segment rest : List α} (next : nextSegment unicode (unit :: string).length [] (unit :: string) = .ok (segment, rest))
    (filled : segment ≠ []) :
    getDirectoryRecordBySegments unicode nodes transactionIdentifier rootNode (fuel + 1) identifier directoryRecord
        (unit :: string) handle =
      (getDirectoryRecordByString unicode nodes transactionIdentifier rootNode identifier segment >>= fun found =>
        match found with
        | none => return none
        | some directoryRecord =>
            getDirectoryRecordBySegments unicode nodes transactionIdentifier rootNode fuel directoryRecord.identifier
              (some directoryRecord) rest) handle := by
  rw [getDirectoryRecordBySegments, next, Call.bind_of_ok (Call.lift_run _ _)]
  exact congrFun (if_neg filled) handle

variable (nodes transactionIdentifier parentIdentifier rootNode handle) in
theorem getDirectoryRecordBySegments_name (name : IsName unicode.encoding string) :
    ((∃ failure, (getDirectoryRecordBySegments unicode nodes transactionIdentifier rootNode string.length
          parentIdentifier none string handle) = (.error failure, handle)) ∧
        ∃ failure, getDirectoryRecordByString unicode nodes transactionIdentifier rootNode parentIdentifier string
          handle = (.error failure, handle)) ∨
      getDirectoryRecordBySegments unicode nodes transactionIdentifier rootNode string.length parentIdentifier none
          string handle =
        (getDirectoryRecordByString unicode nodes transactionIdentifier rootNode parentIdentifier string >>= fun found =>
          return found.map fun directoryRecord => (directoryRecord.identifier, some directoryRecord)) handle := by
  have segment := nextSegment_unbroken name.unbroken handle.useCaseFolding (Nat.le_refl _) []
  obtain ⟨unit, rest, rfl⟩ := List.exists_cons_of_ne_nil name.filled
  rcases segment with whole | ⟨⟨failure, failed⟩, hash⟩
  · refine Or.inr ?_
    rw [List.length_cons, getDirectoryRecordBySegments_step whole name.filled, List.nil_append]
    refine congrFun (congrArg (_ >>= ·) (funext fun found => ?_)) handle
    cases found with
    | none => rfl
    | some directoryRecord => cases rest <;> rfl
  · refine Or.inl ⟨⟨failure, ?_⟩, hash_fails (hash _ _ (Nat.le_refl _))⟩
    rw [List.length_cons, getDirectoryRecordBySegments, failed]
    rfl

section agrees

variable (name : IsName unicode.encoding string) (fits : string.length ≤ ssizeMax)
  (rooted : getRootNode nodes handle.rootNodeBlockNumber = .ok (some rootNode))

include fits rooted

theorem getInodeByName_agrees_one (one : string.length = 1) :
    Agree (getInodeByName unicode nodes transactionIdentifier parentIdentifier string handle).1
        (getInodeByPath unicode nodes transactionIdentifier parentIdentifier string handle).1 ↔
      NameAgreesAt unicode nodes transactionIdentifier parentIdentifier string handle rootNode := by
  have named := getInodeByName_run unicode transactionIdentifier parentIdentifier fits rooted
  unfold NameAgreesAt
  rw [if_pos one, getInodeByPath_short fits rooted (Or.inr one)]
  rcases getInodeWithRecord_run nodes transactionIdentifier parentIdentifier none handle with ⟨inode, has, pathed⟩ | ⟨hasNone, failure, pathed⟩
  · rw [pathed]
    refine ⟨fun agree => ?_, fun conditions => (conditions.1 inode has).elim⟩
    rcases named with ⟨_, named⟩ | ⟨_, failure, named⟩
    · rw [named] at agree
      exact agree.elim
    · rw [named] at agree
      exact agree.elim
  · rw [pathed]
    rcases named with ⟨searched, named⟩ | ⟨searched, failure, named⟩
    · rw [named]
      exact ⟨fun agree => agree.elim, fun conditions => (conditions.2 searched).elim⟩
    · rw [named]
      exact ⟨fun _ => ⟨hasNone, searched⟩, fun _ => trivial⟩

include name

theorem getInodeByName_agrees_more (one : string.length ≠ 1) :
    Agree (getInodeByName unicode nodes transactionIdentifier parentIdentifier string handle).1
        (getInodeByPath unicode nodes transactionIdentifier parentIdentifier string handle).1 ↔
      NameAgreesAt unicode nodes transactionIdentifier parentIdentifier string handle rootNode := by
  have named := getInodeByName_run unicode transactionIdentifier parentIdentifier fits rooted
  unfold NameAgreesAt
  have long : ¬(string.length = 0 ∨ string.length = 1) := by
    have positive := List.length_pos_iff.mpr name.filled
    omega
  rw [if_neg one, getInodeByPath_segments fits rooted long, name.dropSeparator]
  rcases getDirectoryRecordBySegments_name nodes transactionIdentifier handle rootNode parentIdentifier name with
    ⟨⟨failure, path⟩, failure', search⟩ | same
  · rw [Call.bind_of_error path]
    rcases named with ⟨searched, _⟩ | ⟨_, failure, named⟩
    · rw [search] at searched
      cases searched
    · rw [named, search]
      exact ⟨fun _ _ _ found => (nomatch found), fun _ => trivial⟩
  · cases search : getDirectoryRecordByString unicode nodes transactionIdentifier rootNode parentIdentifier string
      handle with
    | mk result handle' =>
        rw [search] at named
        cases result with
        | error failure =>
            rw [Call.bind_of_error search] at same
            rcases named with ⟨searched, _⟩ | ⟨_, failure, named⟩
            · cases searched
            · rw [named, Call.bind_of_error same]
              exact ⟨fun _ _ _ found => (nomatch found), fun _ => trivial⟩
        | ok found =>
            rw [Call.bind_of_ok search] at same
            rw [Call.bind_of_ok same]
            cases found with
            | none =>
                rcases named with ⟨_, named⟩ | ⟨searched, _⟩
                · rw [named]
                  exact ⟨fun _ _ _ found => (nomatch found), fun _ => trivial⟩
                · exact (searched rfl).elim
            | some directoryRecord =>
                rcases named with ⟨searched, _⟩ | ⟨_, failure, named⟩
                · cases searched
                · simp only [named, Option.map_some]
                  rcases getInodeWithRecord_run nodes transactionIdentifier directoryRecord.identifier (some directoryRecord) handle' with
                    ⟨inode, has, pathed⟩ | ⟨hasNone, failure, pathed⟩
                  · rw [pathed]
                    exact ⟨fun agree => agree.elim, fun conditions => (conditions _ _ rfl inode has).elim⟩
                  · rw [pathed]
                    refine ⟨fun _ directoryRecord' handle'' found => ?_, fun _ => trivial⟩
                    obtain ⟨rfl, rfl⟩ : directoryRecord = directoryRecord' ∧ handle' = handle'' := by simpa using found
                    exact hasNone

end agrees

/-- Exactly where a lookup by name and one by path agree. -/
theorem getInodeByName_agrees (name : IsName unicode.encoding string) :
    Agree (getInodeByName unicode nodes transactionIdentifier parentIdentifier string handle).1
        (getInodeByPath unicode nodes transactionIdentifier parentIdentifier string handle).1 ↔
      NameAgrees unicode nodes transactionIdentifier parentIdentifier string handle := by
  unfold NameAgrees
  by_cases fits : string.length ≤ ssizeMax
  · cases rooted : getRootNode nodes handle.rootNodeBlockNumber with
    | error failure =>
        unfold getInodeByName getInodeByPath
        rw [if_neg (Nat.not_lt.mpr fits), if_neg (Nat.not_lt.mpr fits), Call.self_bind, Call.self_bind, rooted]
        exact ⟨by simp, fun _ => trivial⟩
    | ok root =>
        cases root with
        | none =>
            unfold getInodeByName getInodeByPath
            rw [if_neg (Nat.not_lt.mpr fits), if_neg (Nat.not_lt.mpr fits), Call.self_bind, Call.self_bind, rooted]
            exact ⟨by simp, fun _ => trivial⟩
        | some rootNode =>
            have single : (∀ rootNode', Except.ok (some rootNode) = (Except.ok (some rootNode') : Result _) →
                NameAgreesAt unicode nodes transactionIdentifier parentIdentifier string handle rootNode') ↔
                NameAgreesAt unicode nodes transactionIdentifier parentIdentifier string handle rootNode := by
              simp
            rw [forall_prop_of_true fits, single]
            by_cases one : string.length = 1
            · exact getInodeByName_agrees_one fits rooted one
            · exact getInodeByName_agrees_more name fits rooted one
  · have exceeds : string.length > ssizeMax := Nat.lt_of_not_le fits
    unfold getInodeByName getInodeByPath
    rw [if_pos exceeds, if_pos exceeds]
    exact ⟨fun _ fits' => (fits fits').elim, fun _ => trivial⟩

end results

section paths

variable {α : Type}

/-- A name of characters that are no separators and do not end a string. -/
def IsComponent (encoding : CharacterEncoding α) (component : List α) : Prop :=
  component ≠ [] ∧ ∃ characters, Spells encoding component characters ∧
    ∀ character ∈ characters, character ≠ 0x2f ∧ character ≠ 0

def joinComponents (separator : α) (trailing : Bool) : List (List α) → List α
  | [] => []
  | [component] => if trailing then component ++ [separator] else component
  | component :: components => component ++ separator :: joinComponents separator trailing components

/-- A path of components, with an optional leading and an optional trailing separator. -/
def pathOf (separator : α) (leading trailing : Bool) (components : List (List α)) : List α :=
  if leading then separator :: joinComponents separator trailing components
  else joinComponents separator trailing components

variable (unicode : Unicode α) (nodes : Nat → Result BtreeNode) (transactionIdentifier : Nat)

def resolveComponents (rootNode : BtreeNode) :
    Nat → Option DirectoryRecord → List (List α) → TreeCall (Option (Nat × Option DirectoryRecord))
  | identifier, directoryRecord, [] => return some (identifier, directoryRecord)
  | identifier, _, component :: components => do
      let found ← getDirectoryRecordByString unicode nodes transactionIdentifier rootNode identifier component
      match found with
      | none => return none
      | some directoryRecord =>
          resolveComponents rootNode directoryRecord.identifier (some directoryRecord) components

/-- What a path lookup is for: the inode and the record of the last component, each component searched in the
directory of the one before it. -/
def resolvePath (parentIdentifier : Nat) (components : List (List α)) :
    TreeCall (Option (Inode × Option DirectoryRecord)) := do
  let btree ← Call.self
  let rootNode ← Call.lift (getRootNode nodes btree.rootNodeBlockNumber)
  match rootNode with
  | none => return none
  | some rootNode => do
      let found ← resolveComponents unicode nodes transactionIdentifier rootNode parentIdentifier none components
      match found with
      | none => return none
      | some (identifier, directoryRecord) =>
          getInodeWithRecord nodes transactionIdentifier identifier directoryRecord

variable {unicode nodes transactionIdentifier} {separator : α} {components : List (List α)} {trailing : Bool}

theorem joinComponents_cons (separator : α) (trailing : Bool) (component : List α) (components : List (List α)) :
    ∃ path, joinComponents separator trailing (component :: components) = component ++ path ∧
      ((path = [] ∧ components = []) ∨
        path = separator :: joinComponents separator trailing components) := by
  cases components with
  | nil =>
      cases trailing with
      | false => exact ⟨[], (List.append_nil component).symm, Or.inl ⟨rfl, rfl⟩⟩
      | true => exact ⟨[separator], rfl, Or.inr rfl⟩
  | cons component' components => exact ⟨_, rfl, Or.inr rfl⟩

theorem getDirectoryRecordBySegments_components (separates : unicode.encoding.Separates)
    (value : unicode.encoding.value separator = 0x2f)
    (each : ∀ component ∈ components, IsComponent unicode.encoding component) {rootNode : BtreeNode}
    {identifier fuel : Nat} {directoryRecord : Option DirectoryRecord}
    (enough : (joinComponents separator trailing components).length ≤ fuel) :
    getDirectoryRecordBySegments unicode nodes transactionIdentifier rootNode fuel identifier directoryRecord
        (joinComponents separator trailing components) =
      resolveComponents unicode nodes transactionIdentifier rootNode identifier directoryRecord components := by
  induction components generalizing fuel identifier directoryRecord with
  | nil => cases fuel <;> rfl
  | cons component components ih =>
      obtain ⟨⟨filled, characters, spells, plain⟩, each⟩ := List.forall_mem_cons.mp each
      obtain ⟨path, joined, ends⟩ := joinComponents_cons separator trailing component components
      obtain ⟨unit, units, same⟩ := List.exists_cons_of_ne_nil filled
      have whole : joinComponents separator trailing (component :: components) = unit :: (units ++ path) := by
        rw [joined, same, List.cons_append]
      rw [whole] at enough ⊢
      obtain ⟨fuel, rfl⟩ := Nat.exists_eq_succ_of_ne_zero (show fuel ≠ 0 by simp at enough; omega)
      have segments := nextSegment_spells separates spells plain path (Nat.le_refl _) []
      have next : nextSegment unicode (unit :: (units ++ path)).length [] (unit :: (units ++ path)) =
          .ok (component, joinComponents separator trailing components) := by
        have text : component ++ path = unit :: (units ++ path) := by rw [same, List.cons_append]
        rw [text, List.nil_append] at segments
        rcases ends with ⟨rfl, rfl⟩ | more
        · exact segments.1 rfl
        · exact segments.2 separator _ more value
      funext handle
      rw [getDirectoryRecordBySegments_step next filled, resolveComponents]
      have shorter : (joinComponents separator trailing components).length ≤ fuel := by
        rcases ends with ⟨_, rfl⟩ | rfl
        · exact Nat.zero_le _
        · simp only [List.length_cons, List.length_append] at enough
          omega
      cases search : getDirectoryRecordByString unicode nodes transactionIdentifier rootNode identifier component
          handle with
      | mk result handle' =>
          cases result with
          | error failure => rw [Call.bind_of_error search, Call.bind_of_error search]
          | ok found =>
              rw [Call.bind_of_ok search, Call.bind_of_ok search]
              cases found with
              | none => rfl
              | some directoryRecord => exact congrFun (ih each shorter) handle'

theorem IsComponent.value {component : List α} (isComponent : IsComponent unicode.encoding component)
    (separates : unicode.encoding.Separates) : ∀ unit ∈ component.head?, unicode.encoding.value unit ≠ 0x2f := by
  obtain ⟨_, characters, spells, plain⟩ := isComponent
  intro unit head separator
  cases spells with
  | nil => cases head
  | @cons unit' units rest character characters read _ =>
      obtain rfl : unit' = unit := by simpa using head
      rw [CharacterEncoding.next_separator separates separator] at read
      obtain ⟨rfl, _⟩ := Prod.mk.inj (Except.ok.inj read)
      exact (plain 0x2f (by simp)).1 rfl

theorem dropSeparator_pathOf (separates : unicode.encoding.Separates) (value : unicode.encoding.value separator = 0x2f)
    (each : ∀ component ∈ components, IsComponent unicode.encoding component) (leading : Bool)
    (filled : components ≠ []) :
    dropSeparator unicode (pathOf separator leading trailing components) =
      joinComponents separator trailing components := by
  cases leading with
  | true => exact if_pos value
  | false =>
      obtain ⟨component, components, rfl⟩ := List.exists_cons_of_ne_nil filled
      obtain ⟨path, joined, _⟩ := joinComponents_cons separator trailing component components
      have isComponent := each component (by simp)
      obtain ⟨unit, units, same⟩ := List.exists_cons_of_ne_nil isComponent.1
      have noSeparator := isComponent.value separates unit (by simp [same])
      change dropSeparator unicode (joinComponents separator trailing (component :: components)) = _
      rw [joined, same]
      exact if_neg noSeparator

theorem getInodeByPath_resolves (separates : unicode.encoding.Separates)
    (value : unicode.encoding.value separator = 0x2f)
    (each : ∀ component ∈ components, IsComponent unicode.encoding component) {leading : Bool}
    {parentIdentifier : Nat} {handle : FileSystemBtree}
    (fits : (pathOf separator leading trailing components).length ≤ ssizeMax)
    (several : components = [] ∨ (pathOf separator leading trailing components).length ≠ 1) :
    getInodeByPath unicode nodes transactionIdentifier parentIdentifier
        (pathOf separator leading trailing components) handle =
      resolvePath unicode nodes transactionIdentifier parentIdentifier components handle := by
  unfold resolvePath
  rw [Call.self_bind]
  cases rooted : getRootNode nodes handle.rootNodeBlockNumber with
  | error failure =>
      unfold getInodeByPath
      rw [if_neg (Nat.not_lt.mpr fits), Call.self_bind, rooted]
      rfl
  | ok root =>
      cases root with
      | none =>
          unfold getInodeByPath
          rw [if_neg (Nat.not_lt.mpr fits), Call.self_bind, rooted]
          rfl
      | some rootNode =>
          rw [Call.bind_of_ok (Call.lift_run _ _)]
          by_cases empty : components = []
          · have short : (pathOf separator leading trailing components).length = 0 ∨
                (pathOf separator leading trailing components).length = 1 := by
              subst empty
              cases leading with
              | true => exact Or.inr rfl
              | false => exact Or.inl rfl
            rw [getInodeByPath_short fits rooted short, empty]
            rfl
          · have longer := several.resolve_left empty
            have joined : dropSeparator unicode (pathOf separator leading trailing components) =
                joinComponents separator trailing components :=
              dropSeparator_pathOf separates value each leading empty
            have shorter : (joinComponents separator trailing components).length ≤
                (pathOf separator leading trailing components).length := by
              cases leading with
              | true => exact Nat.le_succ _
              | false => exact Nat.le_refl _
            have positive : (pathOf separator leading trailing components).length ≠ 0 := by
              obtain ⟨component, components, rfl⟩ := List.exists_cons_of_ne_nil empty
              obtain ⟨path, text, _⟩ := joinComponents_cons separator trailing component components
              have filled := List.length_pos_iff.mpr (each component (by simp)).1
              rw [text, List.length_append] at shorter
              omega
            rw [getInodeByPath_segments fits rooted (by omega), joined,
              getDirectoryRecordBySegments_components separates value each shorter]

def SameResult {β : Type} (result result' : Result β) : Prop :=
  match result, result' with
  | .ok a, .ok b => a = b
  | .error _, .error _ => True
  | _, _ => False

theorem sameResult_rfl {β : Type} (result : Result β) : SameResult result result := by
  cases result with
  | ok a => exact rfl
  | error failure => trivial

/-- What has to hold of the searches where a path is one unit that is no separator: the inode of the directory
itself is not found, and the component leads to an error as well. -/
def UnitResolves (unicode : Unicode α) (nodes : Nat → Result BtreeNode) (transactionIdentifier parentIdentifier : Nat)
    (component : List α) (handle : FileSystemBtree) (rootNode : BtreeNode) : Prop :=
  (∀ inode, ¬HasInode nodes transactionIdentifier parentIdentifier handle inode) ∧
    (getDirectoryRecordByString unicode nodes transactionIdentifier rootNode parentIdentifier component handle).1 ≠
      .ok none ∧
    ∀ directoryRecord handle',
      getDirectoryRecordByString unicode nodes transactionIdentifier rootNode parentIdentifier component handle =
        (.ok (some directoryRecord), handle') →
      ∀ inode, ¬HasInode nodes transactionIdentifier directoryRecord.identifier handle' inode

theorem resolvePath_one {parentIdentifier : Nat} {handle : FileSystemBtree} {rootNode : BtreeNode}
    (component : List α) (rooted : getRootNode nodes handle.rootNodeBlockNumber = .ok (some rootNode)) :
    resolvePath unicode nodes transactionIdentifier parentIdentifier [component] handle =
      (getDirectoryRecordByString unicode nodes transactionIdentifier rootNode parentIdentifier component >>=
        fun found =>
          match found with
          | none => return none
          | some directoryRecord =>
              getInodeWithRecord nodes transactionIdentifier directoryRecord.identifier (some directoryRecord))
        handle := by
  unfold resolvePath resolveComponents
  rw [Call.self_bind, rooted, Call.bind_of_ok (Call.lift_run _ _)]
  simp only []
  cases search : getDirectoryRecordByString unicode nodes transactionIdentifier rootNode parentIdentifier component
      handle with
  | mk result handle' =>
      cases result with
      | error failure =>
          have first := Call.bind_of_error search fun found =>
            match found with
            | none => (return none : TreeCall (Option (Nat × Option DirectoryRecord)))
            | some directoryRecord =>
                resolveComponents unicode nodes transactionIdentifier rootNode directoryRecord.identifier
                  (some directoryRecord) []
          rw [Call.bind_of_error first, Call.bind_of_error search]
      | ok found =>
          have first := Call.bind_of_ok search fun found =>
            match found with
            | none => (return none : TreeCall (Option (Nat × Option DirectoryRecord)))
            | some directoryRecord =>
                resolveComponents unicode nodes transactionIdentifier rootNode directoryRecord.identifier
                  (some directoryRecord) []
          rw [Call.bind_of_ok search]
          cases found with
          | none => rw [Call.bind_of_ok first]
          | some directoryRecord => rw [Call.bind_of_ok first]

theorem getInodeByPath_unit {parentIdentifier : Nat} {handle : FileSystemBtree} {rootNode : BtreeNode}
    {component : List α} (one : component.length = 1)
    (rooted : getRootNode nodes handle.rootNodeBlockNumber = .ok (some rootNode)) :
    SameResult (getInodeByPath unicode nodes transactionIdentifier parentIdentifier component handle).1
        (resolvePath unicode nodes transactionIdentifier parentIdentifier [component] handle).1 ↔
      UnitResolves unicode nodes transactionIdentifier parentIdentifier component handle rootNode := by
  rw [getInodeByPath_short (by rw [one]; decide) rooted (Or.inr one), resolvePath_one component rooted]
  unfold UnitResolves
  cases search : getDirectoryRecordByString unicode nodes transactionIdentifier rootNode parentIdentifier component
      handle with
  | mk result handle' =>
      have own := getInodeWithRecord_run nodes transactionIdentifier parentIdentifier none handle
      cases result with
      | error failure =>
          rw [Call.bind_of_error search]
          rcases own with ⟨inode, has, found⟩ | ⟨hasNone, failure', found⟩
          · rw [found]
            exact ⟨fun same => same.elim, fun conditions => (conditions.1 inode has).elim⟩
          · rw [found]
            exact ⟨fun _ => ⟨hasNone, by simp, by simp⟩, fun _ => trivial⟩
      | ok record =>
          rw [Call.bind_of_ok search]
          cases record with
          | none =>
              refine ⟨fun same => ?_, fun conditions => (conditions.2.1 rfl).elim⟩
              rcases own with ⟨inode, _, found⟩ | ⟨_, failure, found⟩
              · rw [found] at same
                cases same
              · rw [found] at same
                exact same.elim
          | some directoryRecord =>
              have last := getInodeWithRecord_run nodes transactionIdentifier directoryRecord.identifier (some directoryRecord) handle'
              simp only []
              rcases own with ⟨inode, has, found⟩ | ⟨hasNone, failure, found⟩
              · rw [found]
                refine ⟨fun same => ?_, fun conditions => (conditions.1 inode has).elim⟩
                rcases last with ⟨inode', _, found'⟩ | ⟨_, failure, found'⟩
                · rw [found'] at same
                  cases same
                · rw [found'] at same
                  exact same.elim
              · rw [found]
                rcases last with ⟨inode', has', found'⟩ | ⟨hasNone', failure', found'⟩
                · rw [found']
                  exact ⟨fun same => same.elim, fun conditions => (conditions.2.2 _ _ rfl inode' has').elim⟩
                · rw [found']
                  refine ⟨fun _ => ⟨hasNone, by simp, ?_⟩, fun _ => trivial⟩
                  intro directoryRecord' handle'' same
                  obtain ⟨rfl, rfl⟩ : directoryRecord = directoryRecord' ∧ handle' = handle'' := by simpa using same
                  exact hasNone'

theorem pathOf_unit (each : ∀ component ∈ components, IsComponent unicode.encoding component) {leading : Bool}
    (filled : components ≠ []) (one : (pathOf separator leading trailing components).length = 1) :
    components = [pathOf separator leading trailing components] := by
  obtain ⟨component, components, rfl⟩ := List.exists_cons_of_ne_nil filled
  have positive := List.length_pos_iff.mpr (each component (by simp)).1
  cases leading with
  | true =>
      obtain ⟨path, joined, _⟩ := joinComponents_cons separator trailing component components
      simp only [pathOf, if_true, List.length_cons, joined, List.length_append] at one
      omega
  | false =>
      simp only [pathOf, Bool.false_eq_true, if_false] at one ⊢
      obtain ⟨path, joined, ends⟩ := joinComponents_cons separator trailing component components
      rw [joined, List.length_append] at one
      rcases ends with ⟨rfl, rfl⟩ | rfl
      · rw [joined, List.append_nil]
      · rw [List.length_cons] at one
        omega

/-- Exactly where a path lookup is the fold of the directory searches over the components of the path. -/
theorem getInodeByPath_folds (separates : unicode.encoding.Separates)
    (value : unicode.encoding.value separator = 0x2f)
    (each : ∀ component ∈ components, IsComponent unicode.encoding component) {leading : Bool}
    {parentIdentifier : Nat} {handle : FileSystemBtree}
    (fits : (pathOf separator leading trailing components).length ≤ ssizeMax) :
    SameResult
        (getInodeByPath unicode nodes transactionIdentifier parentIdentifier
          (pathOf separator leading trailing components) handle).1
        (resolvePath unicode nodes transactionIdentifier parentIdentifier components handle).1 ↔
      ((pathOf separator leading trailing components).length = 1 → components ≠ [] →
        ∀ rootNode, getRootNode nodes handle.rootNodeBlockNumber = .ok (some rootNode) →
          UnitResolves unicode nodes transactionIdentifier parentIdentifier
            (pathOf separator leading trailing components) handle rootNode) := by
  by_cases unit : (pathOf separator leading trailing components).length = 1 ∧ components ≠ []
  · obtain ⟨one, filled⟩ := unit
    have single := pathOf_unit each filled one
    cases rooted : getRootNode nodes handle.rootNodeBlockNumber with
    | error failure =>
        unfold getInodeByPath resolvePath
        rw [if_neg (Nat.not_lt.mpr fits), Call.self_bind, Call.self_bind, rooted]
        exact ⟨by simp, fun _ => trivial⟩
    | ok root =>
        cases root with
        | none =>
            unfold getInodeByPath resolvePath
            rw [if_neg (Nat.not_lt.mpr fits), Call.self_bind, Call.self_bind, rooted]
            exact ⟨by simp, fun _ => rfl⟩
        | some rootNode =>
            have exact : SameResult
                (getInodeByPath unicode nodes transactionIdentifier parentIdentifier
                  (pathOf separator leading trailing components) handle).1
                (resolvePath unicode nodes transactionIdentifier parentIdentifier
                  [pathOf separator leading trailing components] handle).1 ↔
                UnitResolves unicode nodes transactionIdentifier parentIdentifier
                  (pathOf separator leading trailing components) handle rootNode :=
              getInodeByPath_unit one rooted
            rw [← single] at exact
            rw [exact]
            refine ⟨fun resolves _ _ rootNode' same => ?_, fun conditions => conditions one filled rootNode rfl⟩
            obtain rfl : rootNode = rootNode' := by simpa using same
            exact resolves
  · rw [getInodeByPath_resolves separates value each fits (by tauto)]
    exact ⟨fun _ one filled => (unit ⟨one, filled⟩).elim, fun _ => sameResult_rfl _⟩

end paths

namespace Sample

def ascii : CharacterEncoding UInt8 where
  value := UInt8.toNat
  copyFrom
    | [] => .error .valueOutOfBounds
    | byte :: _ => if byte.toNat < 0x80 then .ok (byte.toNat, 1) else .error .unsupportedValue
  advances := by
    intro units character size copied
    cases units with
    | nil => cases copied
    | cons byte units =>
        simp only at copied
        split_ifs at copied
        obtain ⟨_, rfl⟩ := Prod.mk.inj (Except.ok.inj copied)
        simp

theorem ascii_separates : ascii.Separates where
  separator := by
    intro byte rest value
    change (if byte.toNat < 0x80 then _ else _) = _
    rw [show byte.toNat = 0x2f from value]
    rfl
  stable := by
    intro units more character size copied
    cases units with
    | nil => cases copied
    | cons byte units => exact copied

def asciiMappings : NameMappings where
  caseFolding character := if 0x41 ≤ character ∧ character ≤ 0x5a then character + 0x20 else character
  specialCaseFolding _ := none
  decomposition character := [character]

def unicode : Unicode UInt8 := { mappings := asciiMappings, utf8 := ascii, encoding := ascii }

def named : Nat → Result BtreeNode
  | 2 => .ok (rootNode 3 0 [inodeEntry 2, directoryEntry 2 [97, 98, 0] 5, inodeEntry 5])
  | _ => fail .readFailed

def nested : Nat → Result BtreeNode
  | 2 => .ok (rootNode 3 0 [inodeEntry 2, directoryEntry 2 [97, 98, 0] 5, inodeEntry 5, directoryEntry 5 [99, 0] 7,
      inodeEntry 7])
  | _ => fail .readFailed

theorem name_isName : IsName ascii [97, 98] where
  filled := by simp
  unbroken := .next rfl (by decide) (by decide) (.next rfl (by decide) (by decide) .nil)
  units := by decide +kernel

theorem components_isComponent : ∀ component ∈ [[97, 98], [99]], IsComponent ascii component :=
  List.forall_mem_cons.mpr ⟨⟨by simp, [97, 98], .cons rfl (.cons rfl .nil), by decide⟩,
    List.forall_mem_singleton.mpr ⟨by simp, [99], .cons rfl .nil, by decide⟩⟩

end Sample

theorem getInodeByName_sample : IsName Sample.unicode.encoding [97, 98] ∧
    (Agree (getInodeByName Sample.unicode Sample.named 1 5 [97, 98] (Sample.btree 0)).1
        (getInodeByPath Sample.unicode Sample.named 1 5 [97, 98] (Sample.btree 0)).1 ↔
      NameAgrees Sample.unicode Sample.named 1 5 [97, 98] (Sample.btree 0)) :=
  ⟨Sample.name_isName, getInodeByName_agrees Sample.name_isName⟩

/-- By path a name leads to its inode, by name it is an error. -/
theorem lookups_disagree : IsName Sample.unicode.encoding [97, 98] ∧
    ¬Agree (getInodeByName Sample.unicode Sample.named 1 2 [97, 98] (Sample.btree 0)).1
        (getInodeByPath Sample.unicode Sample.named 1 2 [97, 98] (Sample.btree 0)).1 := by
  have named : (getInodeByName Sample.unicode Sample.named 1 2 [97, 98] (Sample.btree 0)).1 = fail .getFailed := rfl
  have pathed : ∃ found, (getInodeByPath Sample.unicode Sample.named 1 2 [97, 98] (Sample.btree 0)).1 =
      .ok (some found) := ⟨_, rfl⟩
  obtain ⟨found, pathed⟩ := pathed
  refine ⟨Sample.name_isName, ?_⟩
  rw [named, pathed]
  exact id

theorem getInodeByPath_sample :
    SameResult (getInodeByPath Sample.unicode Sample.nested 1 2 (pathOf 0x2f true true [[97, 98], [99]]) (Sample.btree 0)).1
        (resolvePath Sample.unicode Sample.nested 1 2 [[97, 98], [99]] (Sample.btree 0)).1 ∧
      (getInodeByPath Sample.unicode Sample.nested 1 2 (pathOf 0x2f true true [[97, 98], [99]])
        (Sample.btree 0)).1.toOption.map (Option.map fun found => found.1.identifier) = some (some 7) :=
  ⟨(getInodeByPath_folds Sample.ascii_separates rfl Sample.components_isComponent (by decide)).mpr
    fun one => absurd one (by decide), by decide +kernel⟩

/-- A name of one character that the directory does not have leads to the inode of the directory. -/
theorem unit_path_found : IsComponent Sample.unicode.encoding [97] ∧
    (resolvePath Sample.unicode Sample.named 1 2 [[97]] (Sample.btree 0)).1 = .ok none ∧
    ∃ inode, (getInodeByPath Sample.unicode Sample.named 1 2 [97] (Sample.btree 0)).1 = .ok (some (inode, none)) :=
  ⟨⟨by simp, [97], .cons rfl .nil, by decide⟩, rfl, _, rfl⟩

end FileSystemBtree

end Fsapfs
