import Fsapfs.FileSystemBtree
import Fsapfs.Program.SearchTree

namespace Fsapfs.FileSystemBtree
open Program

theorem keyIdentifier_eq (fileSystemIdentifier : Nat) :
    keyIdentifier fileSystemIdentifier = fileSystemIdentifier % 2 ^ 60 :=
  Nat.and_two_pow_sub_one_eq_mod fileSystemIdentifier 60

theorem keyDataType_eq (fileSystemIdentifier : Nat) :
    keyDataType fileSystemIdentifier = fileSystemIdentifier / 2 ^ 60 :=
  Nat.shiftRight_eq_div_pow fileSystemIdentifier 60

theorem eq_lookupIdentifier {identifier dataType fileSystemIdentifier : Nat} (fits : identifier < 2 ^ 60) :
    fileSystemIdentifier = lookupIdentifier dataType identifier ↔
      keyIdentifier fileSystemIdentifier = identifier ∧ keyDataType fileSystemIdentifier = dataType := by
  rw [keyIdentifier_eq, keyDataType_eq, lookupIdentifier, ← Nat.shiftLeft_add_eq_or_of_lt fits,
    Nat.shiftLeft_eq]
  omega

def entryKey (entry : BtreeEntry) : Nat := littleEndian (entry.keyData.take 8)

def entryIdentifier (entry : BtreeEntry) : Nat := keyIdentifier (entryKey entry)

def entryDataType (entry : BtreeEntry) : Nat := keyDataType (entryKey entry)

def hasKey (identifier dataType : Nat) (entry : BtreeEntry) : Bool :=
  entryIdentifier entry == identifier && entryDataType entry == dataType

theorem hasKey_iff {identifier dataType : Nat} {entry : BtreeEntry} :
    hasKey identifier dataType entry ↔ entryIdentifier entry = identifier ∧ entryDataType entry = dataType := by
  simp [hasKey]

theorem readFileSystemIdentifier_ok {entry : BtreeEntry} (sized : 8 ≤ entry.keyData.length) :
    readFileSystemIdentifier entry = .ok (entryKey entry) := by
  unfold readFileSystemIdentifier
  rw [(requireData_ok (by simp)).mpr sized]
  exact loadLittleEndian_ok sized

/-- The order of the keys: the identifier, the data type, then the rest of the key. -/
def keyBefore (rest : List UInt8 → List UInt8 → Prop) (entry entry' : BtreeEntry) : Prop :=
  entryIdentifier entry < entryIdentifier entry' ∨ (entryIdentifier entry = entryIdentifier entry' ∧
    (entryDataType entry < entryDataType entry' ∨
      (entryDataType entry = entryDataType entry' ∧ rest entry.keyData entry'.keyData)))

instance (rest : List UInt8 → List UInt8 → Prop) [DecidableRel rest] : DecidableRel (keyBefore rest) :=
  fun _ _ => inferInstanceAs (Decidable (_ ∨ _))

def sameKey (entry entry' : BtreeEntry) : Prop := entry.keyData = entry'.keyData

theorem entryKey_congr {entry entry' : BtreeEntry} (key : sameKey entry entry') : entryKey entry = entryKey entry' :=
  congrArg (fun data : List UInt8 => littleEndian (data.take 8)) key

theorem readFileSystemIdentifier_congr {entry entry' : BtreeEntry} (key : sameKey entry entry') :
    readFileSystemIdentifier entry = readFileSystemIdentifier entry' := by
  unfold readFileSystemIdentifier
  rw [show entry.keyData = entry'.keyData from key]

theorem keyBefore_congr {rest : List UInt8 → List UInt8 → Prop} {a a' b b' : BtreeEntry} (key : sameKey a a')
    (key' : sameKey b b') : keyBefore rest a b ↔ keyBefore rest a' b' := by
  simp only [keyBefore, entryIdentifier, entryDataType, entryKey_congr key, entryKey_congr key',
    show a.keyData = a'.keyData from key, show b.keyData = b'.keyData from key']

/-- What a branch value holds: an object identifier, or what to add to that of the root node. -/
def subNodeObjectIdentifier (entry : BtreeEntry) : Nat := littleEndian (entry.valueData.take 8)

section refers

variable (nodes : Nat → Result BtreeNode) (btree : FileSystemBtree) (transactionIdentifier : Nat)

/-- The object map resolves an object identifier to a sub node. -/
def LeadsTo (objectIdentifier : Nat) (subNode : BtreeNode) : Prop :=
  ∃ descriptor, ObjectMapBtree.getDescriptorByObjectIdentifier nodes btree.objectMapBtree objectIdentifier
      transactionIdentifier = .ok (some descriptor) ∧ getSubNode nodes descriptor.physicalAddress = .ok subNode

/-- The object map does not resolve an object identifier to a sub node of the level. -/
def LeadsNowhere (objectIdentifier level : Nat) : Prop :=
  ObjectMapBtree.getDescriptorByObjectIdentifier nodes btree.objectMapBtree objectIdentifier
      transactionIdentifier = .ok none ∨
    ∃ descriptor, ObjectMapBtree.getDescriptorByObjectIdentifier nodes btree.objectMapBtree objectIdentifier
        transactionIdentifier = .ok (some descriptor) ∧
      ((∃ code, getSubNode nodes descriptor.physicalAddress = fail code) ∨
        ∃ subNode, getSubNode nodes descriptor.physicalAddress = .ok subNode ∧ subNode.level ≠ level)

/-- An entry of a branch refers to a sub node one level down, in the encoding of the tree; if that is
relative to the root node, then its value is no object identifier of such a node itself. -/
structure Refers (encoding : BranchChildOidEncoding) (node : BtreeNode) (entry : BtreeEntry)
    (subNode : BtreeNode) : Prop where
  sized : 8 ≤ entry.valueData.length
  level : subNode.level + 1 = node.level
  fits : btree.rootNodeObjectIdentifier + subNodeObjectIdentifier entry < 2 ^ 64
  resolves :
    (encoding = .absoluteOid ∧ LeadsTo nodes btree transactionIdentifier (subNodeObjectIdentifier entry) subNode) ∨
      (encoding = .relativeToRootOid ∧ btree.rootNodeObjectIdentifier ≠ 0 ∧
        LeadsTo nodes btree transactionIdentifier
          (btree.rootNodeObjectIdentifier + subNodeObjectIdentifier entry) subNode ∧
        LeadsNowhere nodes btree transactionIdentifier (subNodeObjectIdentifier entry) subNode.level)

def layout (encoding : BranchChildOidEncoding) : Layout BtreeNode BtreeEntry where
  leaf node entries := node.isLeafNode ∧ node.entries = entries ∧ ∀ entry ∈ entries, 8 ≤ entry.keyData.length
  branch node entries := node.isLeafNode = false ∧ node.entries = entries ∧
    ∀ entry ∈ entries, 8 ≤ entry.keyData.length
  leads node entry subNode := Refers nodes btree transactionIdentifier encoding node entry subNode

/-- A handle of the tree: all it can have learned is the encoding of the tree. -/
def HandleOf (encoding : BranchChildOidEncoding) (handle : FileSystemBtree) : Prop :=
  handle = { btree with branchChildOidEncoding := .unknown } ∨
    handle = { btree with branchChildOidEncoding := encoding }

/-- The tree of a file system at a transaction, its keys strictly increasing and each branch key the
smallest key of its sub tree. -/
structure Stores (encoding : BranchChildOidEncoding) (rest : List UInt8 → List UInt8 → Prop) {height : Nat}
    (tree : SearchTree BtreeEntry height) : Prop where
  rooted : ∃ root, getRootNode nodes btree.rootNodeBlockNumber = .ok (some root) ∧
    (layout nodes btree transactionIdentifier encoding).Stored tree root
  headed : tree.Headed sameKey
  increasing : tree.items.Pairwise (keyBefore rest)

end refers

theorem Stores.sized {nodes : Nat → Result BtreeNode} {btree : FileSystemBtree} {transactionIdentifier : Nat}
    {encoding : BranchChildOidEncoding} {rest : List UInt8 → List UInt8 → Prop} {height : Nat}
    {tree : SearchTree BtreeEntry height} (stores : Stores nodes btree transactionIdentifier encoding rest tree) :
    ∀ entry ∈ tree.items, 8 ≤ entry.keyData.length := by
  obtain ⟨root, _, stored⟩ := stores.rooted
  exact stored.forall_mem fun _ _ (leaf : (layout nodes btree transactionIdentifier encoding).leaf _ _) => leaf.2.2

section resolve

variable {nodes : Nat → Result BtreeNode} {btree : FileSystemBtree} {transactionIdentifier : Nat}
  {encoding : BranchChildOidEncoding} {node subNode : BtreeNode} {entry : BtreeEntry}

theorem candidates_ok {handle : FileSystemBtree} {raw : Nat}
    (fits : handle.rootNodeObjectIdentifier + raw < 2 ^ 64) :
    candidates handle raw = .ok
      (if handle.rootNodeObjectIdentifier = 0 then [(raw, .absoluteOid)]
      else if handle.branchChildOidEncoding = .relativeToRootOid then
        [(handle.rootNodeObjectIdentifier + raw, .relativeToRootOid), (raw, .absoluteOid)]
      else [(raw, .absoluteOid), (handle.rootNodeObjectIdentifier + raw, .relativeToRootOid)]) := by
  unfold candidates
  by_cases unset : handle.rootNodeObjectIdentifier = 0
  · rw [if_pos unset, if_pos unset]
    rfl
  · have inside : ¬raw > 2 ^ 64 - 1 - handle.rootNodeObjectIdentifier := by omega
    have distinct : ¬(handle.rootNodeObjectIdentifier + raw = 0 ∨ handle.rootNodeObjectIdentifier + raw = raw) := by
      omega
    rw [if_neg unset, if_neg unset, if_neg inside, ok_bind]
    simp only [if_neg distinct]
    split_ifs <;> rfl

theorem firstCandidate_leadsTo {objectIdentifier : Nat} {kind : BranchChildOidEncoding}
    {candidates : List (Nat × BranchChildOidEncoding)}
    (leads : LeadsTo nodes btree transactionIdentifier objectIdentifier subNode) :
    ∃ blockNumber, getSubNode nodes blockNumber = .ok subNode ∧
      firstCandidate nodes btree transactionIdentifier subNode.level ((objectIdentifier, kind) :: candidates) =
        .ok (some (blockNumber, kind)) := by
  obtain ⟨descriptor, mapped, child⟩ := leads
  refine ⟨descriptor.physicalAddress, child, ?_⟩
  rw [firstCandidate, mapped, ok_bind]
  simp only [child, if_true]
  rfl

theorem firstCandidate_leadsNowhere {objectIdentifier level : Nat} {kind : BranchChildOidEncoding}
    {candidates : List (Nat × BranchChildOidEncoding)}
    (leads : LeadsNowhere nodes btree transactionIdentifier objectIdentifier level) :
    firstCandidate nodes btree transactionIdentifier level ((objectIdentifier, kind) :: candidates) =
      firstCandidate nodes btree transactionIdentifier level candidates := by
  rw [firstCandidate]
  rcases leads with none | ⟨descriptor, mapped, ⟨code, failed⟩ | ⟨other, child, differs⟩⟩
  · rw [none]
    rfl
  · rw [mapped, ok_bind]
    simp only [failed]
    rfl
  · rw [mapped, ok_bind]
    simp only [child, if_neg differs]

theorem firstCandidate_handle (handle : FileSystemBtree) (same : handle.objectMapBtree = btree.objectMapBtree)
    (level : Nat) (candidates : List (Nat × BranchChildOidEncoding)) :
    firstCandidate nodes handle transactionIdentifier level candidates =
      firstCandidate nodes btree transactionIdentifier level candidates := by
  induction candidates with
  | nil => rfl
  | cons candidate candidates ih =>
      rw [firstCandidate, firstCandidate, same]
      simp only [ih]

theorem HandleOf.objectMapBtree {handle : FileSystemBtree} (held : HandleOf btree encoding handle) :
    handle.objectMapBtree = btree.objectMapBtree := by
  rcases held with rfl | rfl <;> rfl

theorem HandleOf.rootNodeObjectIdentifier {handle : FileSystemBtree} (held : HandleOf btree encoding handle) :
    handle.rootNodeObjectIdentifier = btree.rootNodeObjectIdentifier := by
  rcases held with rfl | rfl <;> rfl

theorem HandleOf.rootNodeBlockNumber {handle : FileSystemBtree} (held : HandleOf btree encoding handle) :
    handle.rootNodeBlockNumber = btree.rootNodeBlockNumber := by
  rcases held with rfl | rfl <;> rfl

theorem HandleOf.useCaseFolding {handle : FileSystemBtree} (held : HandleOf btree encoding handle) :
    handle.useCaseFolding = btree.useCaseFolding := by
  rcases held with rfl | rfl <;> rfl

theorem HandleOf.learnEncoding {handle : FileSystemBtree} (held : HandleOf btree encoding handle) :
    HandleOf btree encoding (learnEncoding encoding handle) := by
  rcases held with rfl | rfl
  · exact Or.inr rfl
  · unfold FileSystemBtree.learnEncoding
    split_ifs
    · exact Or.inr rfl
    · exact Or.inr rfl

theorem resolveEntry_ok (refers : Refers nodes btree transactionIdentifier encoding node entry subNode)
    {handle : FileSystemBtree} (held : HandleOf btree encoding handle) :
    ∃ blockNumber, getSubNode nodes blockNumber = .ok subNode ∧
      resolveEntry nodes handle node (some entry) transactionIdentifier = .ok (some (blockNumber, encoding)) := by
  obtain ⟨sized, level, fits, resolves⟩ := refers
  have raw : loadLittleEndian64 entry.valueData 0 = .ok (subNodeObjectIdentifier entry) := loadLittleEndian_ok sized
  have expected : node.level - 1 = subNode.level := by omega
  unfold resolveEntry
  rw [if_neg (by omega)]
  simp only []
  rw [(requireData_ok (by simp)).mpr sized, ok_bind, raw, ok_bind,
    candidates_ok (by rw [held.rootNodeObjectIdentifier]; exact fits), ok_bind,
    firstCandidate_handle handle held.objectMapBtree, expected, held.rootNodeObjectIdentifier]
  rcases resolves with ⟨rfl, leads⟩ | ⟨rfl, relative, leads, nowhere⟩
  · have order : handle.branchChildOidEncoding ≠ .relativeToRootOid := by
      rcases held with rfl | rfl <;> simp
    rw [if_neg order]
    split_ifs
    · exact firstCandidate_leadsTo leads
    · exact firstCandidate_leadsTo leads
  · rw [if_neg relative]
    split_ifs
    · exact firstCandidate_leadsTo leads
    · rw [firstCandidate_leadsNowhere nowhere]
      exact firstCandidate_leadsTo leads

theorem requireSubNodeBlockNumber_ok
    (refers : Refers nodes btree transactionIdentifier encoding node entry subNode)
    {handle : FileSystemBtree} (held : HandleOf btree encoding handle) :
    ∃ blockNumber handle', getSubNode nodes blockNumber = .ok subNode ∧ HandleOf btree encoding handle' ∧
      requireSubNodeBlockNumber nodes node (some entry) transactionIdentifier handle =
        (.ok blockNumber, handle') := by
  obtain ⟨blockNumber, child, resolved⟩ := resolveEntry_ok refers held
  refine ⟨blockNumber, learnEncoding encoding handle, child, held.learnEncoding, ?_⟩
  have found : getSubNodeBlockNumberFromEntry nodes node (some entry) transactionIdentifier handle =
      (.ok (some blockNumber), learnEncoding encoding handle) := by
    unfold getSubNodeBlockNumberFromEntry
    rw [Call.self_bind, resolved]
    rfl
  unfold requireSubNodeBlockNumber
  rw [Call.bind_of_ok found]
  rfl

end resolve

end Fsapfs.FileSystemBtree
