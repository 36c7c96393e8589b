import Fsapfs.Btree.InodeLookup
import Fsapfs.Btree.Listing

namespace Fsapfs.FileSystemBtree
open Program Listing

variable {κ : Type} {rest : List UInt8 → List UInt8 → Prop}

structure RecordKind.OfType (kind : RecordKind κ) (dataType : Nat) : Prop where
  examine : kind.examine = examineKey dataType
  dataTypes : kind.dataTypes = [dataType]

variable {kind : RecordKind κ} {dataType identifier : Nat} {entries : List BtreeEntry}

theorem examineKey_ok {entry : BtreeEntry} (sized : 8 ≤ entry.keyData.length) :
    examineKey dataType identifier entry = .ok
      (if entryIdentifier entry > identifier ∨
          (entryIdentifier entry = identifier ∧ entryDataType entry > dataType) then .stop
      else if entryIdentifier entry = identifier ∧ entryDataType entry = dataType then .visitPrevious
      else .pass) := by
  unfold examineKey
  rw [readFileSystemIdentifier_ok sized, ok_bind]
  unfold entryIdentifier entryDataType
  split_ifs <;> rfl

namespace RecordKind.OfType

theorem keyOnly (ofType : kind.OfType dataType) : kind.KeyOnly identifier := by
  intro entry entry' key
  rw [ofType.examine]
  unfold examineKey
  rw [readFileSystemIdentifier_congr key]

theorem isRecord (ofType : kind.OfType dataType) (fits : identifier < 2 ^ 60) (entry : BtreeEntry) :
    kind.isRecord identifier entry = hasKey identifier dataType entry := by
  rw [Bool.eq_iff_iff, hasKey_iff]
  unfold RecordKind.isRecord
  rw [ofType.dataTypes, decide_eq_true_eq, List.map_singleton, List.mem_singleton]
  exact eq_lookupIdentifier fits

theorem step (ofType : kind.OfType dataType) {entry : BtreeEntry} (sized : 8 ≤ entry.keyData.length) :
    kind.step identifier entry =
      if entryIdentifier entry > identifier ∨
          (entryIdentifier entry = identifier ∧ entryDataType entry > dataType) then .stop
      else if entryIdentifier entry = identifier ∧ entryDataType entry = dataType then .visitPrevious
      else .pass := by
  unfold RecordKind.step
  rw [ofType.examine, examineKey_ok sized]

theorem stops_iff (ofType : kind.OfType dataType) {entry : BtreeEntry} (sized : 8 ≤ entry.keyData.length) :
    kind.stops identifier entry ↔ entryIdentifier entry > identifier ∨
      (entryIdentifier entry = identifier ∧ entryDataType entry > dataType) := by
  unfold RecordKind.stops
  rw [ofType.step sized, beq_iff_eq]
  split_ifs with after same <;> simp [after]

theorem visits_iff (ofType : kind.OfType dataType) {entry : BtreeEntry} (sized : 8 ≤ entry.keyData.length) :
    kind.visits identifier entry ↔ entryIdentifier entry = identifier ∧ entryDataType entry = dataType := by
  unfold RecordKind.visits
  rw [ofType.step sized, beq_iff_eq]
  split_ifs with after same
  · simp only [false_iff]
    omega
  · simp [same]
  · simp [same]

theorem ranges (ofType : kind.OfType dataType) (fits : identifier < 2 ^ 60)
    (sized : ∀ entry ∈ entries, 8 ≤ entry.keyData.length) (increasing : entries.Pairwise (keyBefore rest)) :
    Ranges kind identifier entries where
  stopped := by
    refine increasing.imp_of_mem fun {entry entry'} member member' before goesOn => ?_
    simp only [Bool.not_eq_true', ← Bool.not_eq_true, ofType.stops_iff (sized _ member),
      ofType.stops_iff (sized _ member')] at *
    unfold keyBefore at before
    omega
  greater entry member more := (ofType.stops_iff (sized entry member)).mpr (Or.inl more)
  unwanted entry member stop := by
    rw [ofType.isRecord fits, ← Bool.not_eq_true, hasKey_iff]
    rw [ofType.stops_iff (sized entry member)] at stop
    omega

theorem lossless (ofType : kind.OfType dataType) (fits : identifier < 2 ^ 60) {height : Nat}
    {tree : SearchTree BtreeEntry height} (headed : tree.Headed sameKey)
    (sized : ∀ entry ∈ tree.items, 8 ≤ entry.keyData.length)
    (increasing : tree.items.Pairwise (keyBefore rest)) :
    SearchTree.Lossless (kind.passes identifier) (kind.isRecord identifier) tree := by
  refine SearchTree.lossless_of_pairwise (fun _ _ key => ofType.keyOnly.passes key) headed ?_
  refine increasing.imp_of_mem fun {entry entry'} member member' before passed => ?_
  simp only [RecordKind.passes, Bool.and_eq_true, Bool.not_eq_true', ← Bool.not_eq_true, ofType.stops_iff (sized _ member'), ofType.visits_iff (sized _ member'),
    ofType.isRecord fits, hasKey_iff] at *
  unfold keyBefore at before
  omega

theorem starts (ofType : kind.OfType dataType) (upper : 3 ≤ dataType)
    (sized : ∀ entry ∈ entries, 8 ≤ entry.keyData.length) (increasing : entries.Pairwise (keyBefore rest))
    (inode : ∃ entry ∈ entries, hasKey identifier 3 entry) :
    ∀ entry ∈ entries.head?, kind.stops identifier entry = false := by
  intro first head
  obtain ⟨entry, member, same⟩ := inode
  obtain ⟨tail, rfl⟩ := List.head?_eq_some_iff.mp head
  rw [← Bool.not_eq_true, ofType.stops_iff (sized first (by simp))]
  rw [hasKey_iff] at same
  rcases List.mem_cons.mp member with rfl | later
  · omega
  · have before := (List.pairwise_cons.mp increasing).1 entry later
    unfold keyBefore at before
    omega

section listing

variable {nodes : Nat → Result BtreeNode} {btree handle : FileSystemBtree} {transactionIdentifier height : Nat}
  {encoding : BranchChildOidEncoding} {tree : SearchTree BtreeEntry height}

theorem examines (ofType : kind.OfType dataType)
    (stores : Stores nodes btree transactionIdentifier encoding rest tree) :
    ∀ entry ∈ tree.items, kind.Examines identifier entry := by
  intro entry member
  unfold RecordKind.Examines
  rw [ofType.step (stores.sized entry member), ofType.examine, examineKey_ok (stores.sized entry member)]

theorem listing (ofType : kind.OfType dataType) (upper : 3 ≤ dataType)
    (limited : height ≤ maximumBtreeNodeRecursionDepth + 1)
    (stores : Stores nodes btree transactionIdentifier encoding rest tree)
    (inode : ∃ entry ∈ tree.items, hasKey identifier 3 entry) {decode : BtreeEntry → κ}
    (decodes : ∀ entry ∈ tree.items, hasKey identifier dataType entry → kind.read entry = .ok (decode entry))
    (held : HandleOf btree encoding handle) (records : List κ) :
    ∃ handle', HandleOf btree encoding handle' ∧
      getRecords nodes kind identifier transactionIdentifier { btree := handle, records } =
        (.ok (!(tree.items.filter (hasKey identifier dataType)).isEmpty),
          { btree := handle'
            records := records ++ (tree.items.filter (hasKey identifier dataType)).map decode }) := by
  have fits : identifier < 2 ^ 60 := by
    obtain ⟨entry, _, same⟩ := inode
    rw [← (hasKey_iff.mp same).1, entryIdentifier, keyIdentifier_eq]
    exact Nat.mod_lt _ (Nat.two_pow_pos 60)
  have reads : kind.Reads identifier decode tree.items :=
    ⟨ofType.examines stores, fun entry member wanted =>
      decodes entry member (by rwa [ofType.isRecord fits] at wanted)⟩
  have all : kind.collected identifier tree = tree.items.filter (hasKey identifier dataType) := by
    have collected : kind.collected identifier tree = tree.items.filter (kind.isRecord identifier) :=
      (SearchTree.collected_eq_iff (fun _ _ key => ofType.keyOnly.stops key) stores.headed
        (ofType.ranges fits stores.sized stores.increasing).listable).mpr
        (ofType.lossless fits stores.headed stores.sized stores.increasing)
    rw [collected, show kind.isRecord identifier = hasKey identifier dataType from funext (ofType.isRecord fits)]
  have held' : HandleOf btree encoding ({ btree := handle, records } : Listing κ).btree := held
  obtain ⟨found, after, run, gathered⟩ := (getRecords_ends ofType.keyOnly limited stores reads
    (ofType.starts upper stores.sized stores.increasing inode) held').value
  rw [all] at gathered
  refine ⟨after.btree, gathered.handle, run.trans ?_⟩
  rw [gathered.found, Bool.false_or, ← gathered.records]

theorem refused (ofType : kind.OfType dataType) (upper : 3 ≤ dataType)
    (beyond : maximumBtreeNodeRecursionDepth + 1 < height)
    (stores : Stores nodes btree transactionIdentifier encoding rest tree)
    (inode : ∃ entry ∈ tree.items, hasKey identifier 3 entry) (held : HandleOf btree encoding handle)
    (records : List κ) :
    ∃ failure, (getRecords nodes kind identifier transactionIdentifier { btree := handle, records }).1 =
      .error failure := by
  have held' : HandleOf btree encoding ({ btree := handle, records } : Listing κ).btree := held
  have fails := getRecords_fails ofType.keyOnly beyond stores (ofType.examines stores)
    (ofType.starts upper stores.sized stores.increasing inode) held'
  unfold Call.Ends at fails
  split at fails
  next => exact fails.elim
  next failure after run => exact ⟨failure, by rw [run]⟩

end listing

end RecordKind.OfType

theorem directoryRecords_ofType : directoryRecords.OfType 9 := ⟨rfl, rfl⟩

theorem extendedAttributes_ofType : extendedAttributes.OfType 4 := ⟨rfl, rfl⟩

namespace Sample

def directoryEntry (parentIdentifier : Nat) (name : List UInt8) (identifier : Nat) : BtreeEntry where
  keyData := littleEndianBytes 8 (lookupIdentifier 9 parentIdentifier) ++ littleEndianBytes 2 name.length ++ name
  valueData := littleEndianBytes 8 identifier ++ List.replicate 10 0

def attributeEntry (identifier : Nat) (name : List UInt8) : BtreeEntry where
  keyData := littleEndianBytes 8 (lookupIdentifier 4 identifier) ++ littleEndianBytes 2 name.length ++ name
  valueData := littleEndianBytes 2 2 ++ littleEndianBytes 2 1 ++ [5]

def leadingEntry (first : BtreeEntry) (objectIdentifier : Nat) : BtreeEntry where
  keyData := first.keyData
  valueData := littleEndianBytes 8 objectIdentifier

def firstLeaf : List BtreeEntry := [inodeEntry 2, attributeEntry 2 [120, 0], directoryEntry 2 [97, 0] 5]

def secondLeaf : List BtreeEntry := [directoryEntry 2 [98, 0] 6, inodeEntry 5]

def directory : Nat → Result BtreeNode
  | 1 => .ok (objectMapRoot [(7, 3), (8, 4)])
  | 2 => .ok (rootNode 1 1 [leadingEntry (inodeEntry 2) 7, leadingEntry (directoryEntry 2 [98, 0] 6) 8])
  | 3 => .ok (subNode 2 0 firstLeaf)
  | 4 => .ok (subNode 2 0 secondLeaf)
  | _ => fail .readFailed

def directoryTree : SearchTree BtreeEntry 1 :=
  [(leadingEntry (inodeEntry 2) 7, firstLeaf), (leadingEntry (directoryEntry 2 [98, 0] 6) 8, secondLeaf)]

def littleEndianLess (key key' : List UInt8) : Prop := littleEndian key < littleEndian key'

instance : DecidableRel littleEndianLess := fun _ _ => inferInstanceAs (Decidable (_ < _))

theorem directory_stored : Stores directory (btree 0) 1 .absoluteOid littleEndianLess directoryTree where
  rooted := by
    refine ⟨_, rfl, ⟨rfl, rfl, by decide⟩, List.forall_mem_cons.mpr ⟨?_, List.forall_mem_singleton.mpr ?_⟩⟩
    · exact ⟨_, ⟨by decide, rfl, by decide, Or.inl ⟨rfl, _, rfl, rfl⟩⟩, rfl, rfl, by decide⟩
    · exact ⟨_, ⟨by decide, rfl, by decide, Or.inl ⟨rfl, _, rfl, rfl⟩⟩, rfl, rfl, by decide⟩
  headed := by
    refine ⟨by simp [directoryTree], List.forall_mem_cons.mpr ⟨?_, List.forall_mem_singleton.mpr ?_⟩,
      fun _ _ => trivial⟩
    · exact ⟨_, _, rfl, rfl⟩
    · exact ⟨_, _, rfl, rfl⟩
  increasing := by decide

def decoded {κ : Type} (read : BtreeEntry → Result κ) (other : κ) (entry : BtreeEntry) : κ :=
  match read entry with
  | .ok record => record
  | .error _ => other

theorem decoded_ok {κ : Type} {read : BtreeEntry → Result κ} {other : κ} {entry : BtreeEntry}
    (reads : (read entry).isOk) : read entry = .ok (decoded read other entry) := by
  unfold decoded
  cases run : read entry with
  | ok record => rfl
  | error failure =>
      rw [run] at reads
      cases reads

def noRecord : DirectoryRecord := ⟨[], 0, 0, 0⟩

def noAttribute : ExtendedAttribute := ⟨[], ⟨0, [], 0, 0, none⟩⟩

end Sample

end Fsapfs.FileSystemBtree
