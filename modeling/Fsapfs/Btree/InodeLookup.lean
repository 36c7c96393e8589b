import Fsapfs.Btree.FileSystemTree

namespace Fsapfs.FileSystemBtree
open Program

def atMost (identifier dataType : Nat) (entry : BtreeEntry) : Bool :=
  entryIdentifier entry < identifier ||
    (entryIdentifier entry == identifier && entryDataType entry ≤ dataType)

/-- Keys of a data type that is the smallest of each identifier and whose keys have no rest. -/
structure Smallest (rest : List UInt8 → List UInt8 → Prop) (dataType : Nat) (entries : List BtreeEntry) : Prop where
  increasing : entries.Pairwise (keyBefore rest)
  least : ∀ entry ∈ entries, dataType ≤ entryDataType entry
  whole : ∀ entry ∈ entries, ∀ entry' ∈ entries, entryDataType entry = dataType →
    ¬rest entry.keyData entry'.keyData

variable {rest : List UInt8 → List UInt8 → Prop} {identifier dataType : Nat} {entries : List BtreeEntry}

theorem atMost_congr {entry entry' : BtreeEntry} (key : sameKey entry entry') :
    atMost identifier dataType entry = atMost identifier dataType entry' := by
  unfold atMost entryIdentifier entryDataType
  rw [entryKey_congr key]

theorem atMost_of_before {entry entry' : BtreeEntry} (before : keyBefore rest entry entry')
    (within : atMost identifier dataType entry') : atMost identifier dataType entry := by
  simp only [keyBefore, atMost, Bool.or_eq_true, Bool.and_eq_true, decide_eq_true_eq, beq_iff_eq] at *
  omega

theorem atMost_falling (increasing : entries.Pairwise (keyBefore rest)) :
    Falling (atMost identifier dataType) entries :=
  increasing.imp atMost_of_before

theorem Smallest.sublist {part : List BtreeEntry} (smallest : Smallest rest dataType entries)
    (sublist : part.Sublist entries) : Smallest rest dataType part where
  increasing := smallest.increasing.sublist sublist
  least entry member := smallest.least entry (sublist.subset member)
  whole entry member entry' member' :=
    smallest.whole entry (sublist.subset member) entry' (sublist.subset member')

theorem Smallest.tail {entry : BtreeEntry} (smallest : Smallest rest dataType (entry :: entries)) :
    Smallest rest dataType entries :=
  smallest.sublist (List.sublist_cons_self entry entries)

theorem Smallest.after {entry : BtreeEntry} (smallest : Smallest rest dataType (entry :: entries))
    (same : hasKey identifier dataType entry) : ∀ entry' ∈ entries, atMost identifier dataType entry' = false := by
  intro entry' member
  have before := (List.pairwise_cons.mp smallest.increasing).1 entry' member
  have least := smallest.least entry' (List.mem_cons_of_mem _ member)
  simp only [hasKey, Bool.and_eq_true, beq_iff_eq] at same
  have whole := smallest.whole entry (by simp) entry' (by simp [member]) same.2
  simp only [atMost, Bool.or_eq_false_iff, Bool.and_eq_false_iff, decide_eq_false_iff_not, beq_eq_false_iff_ne]
  rcases before with less | ⟨same', less | ⟨_, rest⟩⟩
  · omega
  · omega
  · exact (whole rest).elim

theorem findBranchEntry_ok (smallest : Smallest rest dataType entries)
    (sized : ∀ entry ∈ entries, 8 ≤ entry.keyData.length) (previousEntry : Option BtreeEntry) :
    findBranchEntry identifier dataType previousEntry entries =
      .ok ((lastWhile (atMost identifier dataType) entries).or (previousEntry.or entries.head?)) := by
  induction entries generalizing previousEntry with
  | nil => simp [findBranchEntry, lastWhile]
  | cons entry entries ih =>
      obtain ⟨first, sized⟩ := List.forall_mem_cons.mp sized
      rw [findBranchEntry, readFileSystemIdentifier_ok first, ok_bind]
      change (if entryIdentifier entry ≥ identifier then
        if previousEntry = none ∨ (entryIdentifier entry = identifier ∧ entryDataType entry ≤ dataType) then
          Except.ok (some entry) else .ok previousEntry else _) = _
      by_cases reached : entryIdentifier entry ≥ identifier
      · rw [if_pos reached]
        by_cases same : entryIdentifier entry = identifier ∧ entryDataType entry ≤ dataType
        · have least := smallest.least entry (by simp)
          have key : hasKey identifier dataType entry := by
            simp only [hasKey, Bool.and_eq_true, beq_iff_eq]
            omega
          have after := smallest.after key
          have none : lastWhile (atMost identifier dataType) entries = none :=
            lastWhile_eq_none.mpr fun entry' head => after entry' (List.mem_of_mem_head? head)
          have passes : atMost identifier dataType entry := by simp [atMost, same]
          rw [if_pos (Or.inr same), lastWhile, if_pos passes, none]
          rfl
        · have fails : ¬atMost identifier dataType entry := by
            simp only [atMost, Bool.or_eq_true, Bool.and_eq_true, decide_eq_true_eq, beq_iff_eq]
            omega
          rw [lastWhile, if_neg fails]
          cases previousEntry with
          | none => simp
          | some previousEntry =>
              rw [if_neg (by simp [same])]
              rfl
      · rw [if_neg reached, ih smallest.tail sized]
        have passes : atMost identifier dataType entry := by
          simp only [atMost, Bool.or_eq_true, Bool.and_eq_true, decide_eq_true_eq, beq_iff_eq]
          omega
        rw [lastWhile, if_pos passes]
        cases lastWhile (atMost identifier dataType) entries <;> simp

theorem findLeafEntry_ok (fits : identifier < 2 ^ 60) (sized : ∀ entry ∈ entries, 8 ≤ entry.keyData.length) :
    findLeafEntry (lookupIdentifier dataType identifier) entries =
      .ok (entries.find? (hasKey identifier dataType)) := by
  induction entries with
  | nil => rfl
  | cons entry entries ih =>
      obtain ⟨first, sized⟩ := List.forall_mem_cons.mp sized
      rw [findLeafEntry, readFileSystemIdentifier_ok first, ok_bind]
      by_cases same : hasKey identifier dataType entry
      · have key := (eq_lookupIdentifier fits).mpr (by simpa [hasKey, entryIdentifier, entryDataType] using same)
        rw [if_pos key, List.find?_cons_of_pos same]
        rfl
      · have key : entryKey entry ≠ lookupIdentifier dataType identifier := fun key =>
          same (by simpa [hasKey, entryIdentifier, entryDataType] using (eq_lookupIdentifier fits).mp key)
        rw [if_neg key, List.find?_cons_of_neg same, ih sized]

theorem hasKey_atMost {entry : BtreeEntry} (same : hasKey identifier dataType entry) :
    atMost identifier dataType entry := by
  simp only [hasKey, atMost, Bool.and_eq_true, Bool.or_eq_true, decide_eq_true_eq, beq_iff_eq] at same ⊢
  omega

theorem find_hasKey (smallest : Smallest rest dataType entries) :
    entries.find? (hasKey identifier dataType) =
      (lastWhile (atMost identifier dataType) entries).filter (hasKey identifier dataType) := by
  cases last : lastWhile (atMost identifier dataType) entries with
  | none =>
      have fails := falling_fails (atMost_falling smallest.increasing) last
      rw [Option.filter_none, List.find?_eq_none]
      intro entry member same
      have fail := fails entry member
      rw [hasKey_atMost same] at fail
      cases fail
  | some entry =>
      obtain ⟨before, after, rfl, passes, _, fails⟩ :=
        lastWhile_split (atMost_falling smallest.increasing) last
      have earlier : ∀ entry' ∈ before, ¬hasKey identifier dataType entry' := by
        intro entry' member same
        obtain ⟨left, right, rfl⟩ := List.append_of_mem member
        rw [List.append_assoc, List.cons_append] at smallest
        have later := (smallest.sublist (List.sublist_append_right _ _)).after same entry (by simp)
        rw [passes] at later
        cases later
      rw [List.find?_append, List.find?_eq_none.mpr earlier, Option.none_or, Option.filter_some]
      by_cases same : hasKey identifier dataType entry
      · rw [List.find?_cons_of_pos same, if_pos same]
      · rw [List.find?_cons_of_neg same, if_neg same, List.find?_eq_none]
        intro entry' member same'
        have fail := fails entry' member
        rw [hasKey_atMost same'] at fail
        cases fail

section descent

variable {nodes : Nat → Result BtreeNode} {btree : FileSystemBtree} {transactionIdentifier : Nat}
  {encoding : BranchChildOidEncoding}

theorem Smallest.heads {height : Nat} {branch : List (BtreeEntry × SearchTree BtreeEntry height)}
    (heads : SearchTree.Heads sameKey branch)
    (smallest : Smallest rest dataType (branch.flatMap fun sub => sub.2.items)) :
    Smallest rest dataType (branch.map Prod.fst) where
  increasing := SearchTree.heads_pairwise (fun _ _ _ _ key key' => (keyBefore_congr key key').mpr) heads
    smallest.increasing
  least entry member := by
    obtain ⟨sub, inside, rfl⟩ := List.mem_map.mp member
    obtain ⟨a, held, key⟩ := SearchTree.heads_mem heads inside
    rw [entryDataType, entryKey_congr key]
    exact smallest.least a held
  whole entry member entry' member' same := by
    obtain ⟨sub, inside, rfl⟩ := List.mem_map.mp member
    obtain ⟨sub', inside', rfl⟩ := List.mem_map.mp member'
    obtain ⟨a, held, key⟩ := SearchTree.heads_mem heads inside
    obtain ⟨a', held', key'⟩ := SearchTree.heads_mem heads inside'
    rw [show sub.1.keyData = a.keyData from key, show sub'.1.keyData = a'.keyData from key']
    exact smallest.whole a held a' held' (by rwa [entryDataType, entryKey_congr key] at same)

theorem getEntryFromSubTree_leaf (fits : identifier < 2 ^ 60) {next : Nat → TreeCall (Option BtreeEntry)}
    {node : BtreeNode} (leaf : node.isLeafNode) (sized : ∀ entry ∈ node.entries, 8 ≤ entry.keyData.length)
    (handle : FileSystemBtree) :
    getEntryFromSubTree nodes identifier dataType transactionIdentifier next node handle =
      (.ok (node.entries.find? (hasKey identifier dataType)), handle) := by
  have found : getEntryFromNodeByIdentifier node identifier dataType =
      .ok ((node.entries.find? (hasKey identifier dataType)).map some) := by
    unfold getEntryFromNodeByIdentifier
    rw [if_pos leaf, findLeafEntry_ok fits sized]
    rfl
  unfold getEntryFromSubTree
  rw [found, Call.bind_of_ok (Call.lift_run _ _)]
  cases node.entries.find? (hasKey identifier dataType) with
  | none => rfl
  | some entry =>
      simp only [Option.map_some, leaf, if_true]
      rfl

theorem getEntryFromSubTree_branch {height : Nat} {branch : List (BtreeEntry × SearchTree BtreeEntry height)}
    {node : BtreeNode}
    (stored : (layout nodes btree transactionIdentifier encoding).Stored (SearchTree.branch branch) node)
    (filled : branch ≠ []) (heads : SearchTree.Heads sameKey branch)
    (smallest : Smallest rest dataType (branch.flatMap fun sub => sub.2.items)) {handle : FileSystemBtree}
    (held : HandleOf btree encoding handle) :
    ∃ sub ∈ branch, ∃ subNode blockNumber handle', getSubNode nodes blockNumber = .ok subNode ∧
      (layout nodes btree transactionIdentifier encoding).Stored sub.2 subNode ∧
      HandleOf btree encoding handle' ∧
      sub.2.items.find? (hasKey identifier dataType) =
        (branch.flatMap fun sub => sub.2.items).find? (hasKey identifier dataType) ∧
      ∀ next, getEntryFromSubTree nodes identifier dataType transactionIdentifier next node handle =
        next blockNumber handle' := by
  obtain ⟨⟨isBranch, same, sized⟩, leads⟩ := stored
  obtain ⟨sub, member, continues, last⟩ := SearchTree.route (atMost identifier dataType)
    (fun _ _ key => atMost_congr key) filled heads (atMost_falling smallest.increasing)
  obtain ⟨subNode, refers, stored⟩ := leads sub member
  obtain ⟨blockNumber, handle', child, held', resolved⟩ := requireSubNodeBlockNumber_ok refers held
  have found : getEntryFromNodeByIdentifier node identifier dataType = .ok (some (some sub.1)) := by
    unfold getEntryFromNodeByIdentifier
    rw [if_neg (by simp [isBranch]), same, findBranchEntry_ok (smallest.heads heads) sized, Option.none_or,
      show (lastWhile _ _).or _ = some sub.1 from continues]
    rfl
  refine ⟨sub, member, subNode, blockNumber, handle', child, stored, held', ?_, fun next => ?_⟩
  · rw [find_hasKey (smallest.sublist (SearchTree.items_sublist member)), last, find_hasKey smallest]
  · unfold getEntryFromSubTree
    rw [found, Call.bind_of_ok (Call.lift_run _ _)]
    simp only [isBranch, Bool.false_eq_true, if_false]
    rw [Call.bind_of_ok resolved]

theorem getEntryFromSubNode_ok (fits : identifier < 2 ^ 60) {height depth : Nat} (within : height < depth)
    {tree : SearchTree BtreeEntry height} {node : BtreeNode} {blockNumber : Nat}
    (child : getSubNode nodes blockNumber = .ok node)
    (stored : (layout nodes btree transactionIdentifier encoding).Stored tree node)
    (headed : tree.Headed sameKey) (smallest : Smallest rest dataType tree.items) {handle : FileSystemBtree}
    (held : HandleOf btree encoding handle) :
    ∃ handle', HandleOf btree encoding handle' ∧
      getEntryFromSubNode nodes identifier dataType transactionIdentifier depth blockNumber handle =
        (.ok (tree.items.find? (hasKey identifier dataType)), handle') := by
  induction height generalizing depth node blockNumber handle with
  | zero =>
      obtain ⟨depth, rfl⟩ := Nat.exists_eq_succ_of_ne_zero (Nat.ne_of_gt within)
      obtain ⟨leaf, rfl, sized⟩ := stored
      refine ⟨handle, held, ?_⟩
      unfold getEntryFromSubNode descend
      rw [child, Call.bind_of_ok (Call.lift_run _ _)]
      exact getEntryFromSubTree_leaf fits leaf sized handle
  | succ height ih =>
      obtain ⟨depth, rfl⟩ := Nat.exists_eq_succ_of_ne_zero (show depth ≠ 0 by omega)
      obtain ⟨filled, heads, headed⟩ := headed
      obtain ⟨sub, member, subNode, blockNumber', handle', child', stored', held', same, step⟩ :=
        getEntryFromSubTree_branch stored filled heads smallest held
      obtain ⟨handle'', held'', found⟩ := ih (show height < depth by omega) child' stored' (headed sub member)
        (smallest.sublist (SearchTree.items_sublist member)) held'
      refine ⟨handle'', held'', ?_⟩
      unfold getEntryFromSubNode descend
      rw [child, Call.bind_of_ok (Call.lift_run _ _), step]
      exact found.trans (by rw [same]; rfl)

theorem getEntryByIdentifier_ok (fits : identifier < 2 ^ 60) {height : Nat}
    {tree : SearchTree BtreeEntry height} (limited : height ≤ maximumBtreeNodeRecursionDepth)
    (stores : Stores nodes btree transactionIdentifier encoding rest tree)
    (smallest : Smallest rest dataType tree.items) {handle : FileSystemBtree}
    (held : HandleOf btree encoding handle) :
    ∃ handle', HandleOf btree encoding handle' ∧
      getEntryByIdentifier nodes identifier dataType transactionIdentifier handle =
        (.ok (tree.items.find? (hasKey identifier dataType)), handle') := by
  obtain ⟨⟨root, rooted, stored⟩, headed, _⟩ := stores
  unfold getEntryByIdentifier
  rw [Call.self_bind, held.rootNodeBlockNumber, rooted, Call.bind_of_ok (Call.lift_run _ _)]
  simp only []
  cases height with
  | zero =>
      obtain ⟨leaf, rfl, sized⟩ := stored
      exact ⟨handle, held, getEntryFromSubTree_leaf fits leaf sized handle⟩
  | succ height =>
      obtain ⟨filled, heads, headed⟩ := headed
      obtain ⟨sub, member, subNode, blockNumber, handle', child, stored', held', same, step⟩ :=
        getEntryFromSubTree_branch stored filled heads smallest held
      obtain ⟨handle'', held'', found⟩ := getEntryFromSubNode_ok fits limited child stored' (headed sub member)
        (smallest.sublist (SearchTree.items_sublist member)) held'
      refine ⟨handle'', held'', ?_⟩
      rw [step]
      exact found.trans (by rw [same]; rfl)

end descent

theorem hasKey_unique (smallest : Smallest rest dataType entries) {entry entry' : BtreeEntry}
    (member : entry ∈ entries) (member' : entry' ∈ entries) (same : hasKey identifier dataType entry)
    (same' : hasKey identifier dataType entry') : entry = entry' := by
  induction entries with
  | nil => cases member
  | cons first entries ih =>
      rcases List.mem_cons.mp member with rfl | later
      · rcases List.mem_cons.mp member' with rfl | later'
        · rfl
        · have after := smallest.after same entry' later'
          rw [hasKey_atMost same'] at after
          cases after
      · rcases List.mem_cons.mp member' with rfl | later'
        · have after := smallest.after same' entry later
          rw [hasKey_atMost same] at after
          cases after
        · exact ih smallest.tail later later'

/-- A lookup gives the inode of the one record with the identifier, and leaves a handle of the tree. -/
theorem getInodeByIdentifier_exact {nodes : Nat → Result BtreeNode} {btree handle : FileSystemBtree}
    {transactionIdentifier height : Nat} {tree : SearchTree BtreeEntry height}
    (stores : Stores nodes btree transactionIdentifier .absoluteOid rest tree)
    (smallest : Smallest rest 3 tree.items) (limited : height ≤ maximumBtreeNodeRecursionDepth)
    (held : HandleOf btree .absoluteOid handle) (fits : identifier < 2 ^ 60) :
    HandleOf btree .absoluteOid (getInodeByIdentifier nodes identifier transactionIdentifier handle).2 ∧
      ((∃ entry ∈ tree.items, hasKey identifier 3 entry ∧
          (∀ entry' ∈ tree.items, hasKey identifier 3 entry' → entry' = entry) ∧
          (getInodeByIdentifier nodes identifier transactionIdentifier handle).1 =
            (Inode.read entry).map some) ∨
        ((∀ entry ∈ tree.items, ¬hasKey identifier 3 entry) ∧
          (getInodeByIdentifier nodes identifier transactionIdentifier handle).1 = .ok none)) := by
  obtain ⟨handle', held', found⟩ := getEntryByIdentifier_ok fits limited stores smallest held
  unfold getInodeByIdentifier
  rw [Call.bind_of_ok found]
  cases search : tree.items.find? (hasKey identifier 3) with
  | none =>
      refine ⟨held', Or.inr ⟨fun entry member same => ?_, rfl⟩⟩
      exact List.find?_eq_none.mp search entry member same
  | some entry =>
      have member := List.mem_of_find?_eq_some search
      have same : hasKey identifier 3 entry := List.find?_some search
      have unique : ∀ entry' ∈ tree.items, hasKey identifier 3 entry' → entry' = entry :=
        fun entry' member' same' => hasKey_unique smallest member' member same' same
      cases decoded : Inode.read entry with
      | ok inode =>
          simp only [decoded]
          exact ⟨held', Or.inl ⟨entry, member, same, unique, by rw [decoded]; rfl⟩⟩
      | error failure =>
          simp only [decoded]
          exact ⟨held', Or.inl ⟨entry, member, same, unique, by rw [decoded]; rfl⟩⟩

namespace Sample

def objectMapRoot (mappings : List (Nat × Nat)) : BtreeNode where
  objectType := 0x40000002
  objectSubtype := 0x0000000b
  flags := 7
  level := 0
  footer := some { nodeSize := 4096, keySize := 16, valueSize := 16 }
  entries := mappings.map fun mapping =>
    { keyData := littleEndianBytes 8 mapping.1 ++ littleEndianBytes 8 1
      valueData := littleEndianBytes 8 0 ++ littleEndianBytes 8 mapping.2 }

def rootNode (flags level : Nat) (entries : List BtreeEntry) : BtreeNode where
  objectType := 0x00000002
  objectSubtype := 0x0000000e
  flags := flags
  level := level
  footer := some { nodeSize := 4096, keySize := 0, valueSize := 0 }
  entries := entries

def subNode (flags level : Nat) (entries : List BtreeEntry) : BtreeNode where
  objectType := 0x00000003
  objectSubtype := 0x0000000e
  flags := flags
  level := level
  footer := none
  entries := entries

def inodeEntry (identifier : Nat) : BtreeEntry where
  keyData := littleEndianBytes 8 (lookupIdentifier 3 identifier)
  valueData := littleEndianBytes 8 1 ++ List.replicate 84 0

def branchEntry (identifier dataType objectIdentifier : Nat) : BtreeEntry where
  keyData := littleEndianBytes 8 (lookupIdentifier dataType identifier)
  valueData := littleEndianBytes 8 objectIdentifier

def btree (rootNodeObjectIdentifier : Nat) : FileSystemBtree where
  objectMapBtree := { rootNodeBlockNumber := 1 }
  rootNodeBlockNumber := 2
  rootNodeObjectIdentifier := rootNodeObjectIdentifier
  branchChildOidEncoding := .unknown
  useCaseFolding := false

def inodes : Nat → Result BtreeNode
  | 1 => .ok (objectMapRoot [(7, 3), (8, 4)])
  | 2 => .ok (rootNode 1 1 [branchEntry 2 3 7, branchEntry 5 3 8])
  | 3 => .ok (subNode 2 0 [inodeEntry 2])
  | 4 => .ok (subNode 2 0 [inodeEntry 5])
  | _ => fail .readFailed

def inodeTree : SearchTree BtreeEntry 1 :=
  [(branchEntry 2 3 7, [inodeEntry 2]), (branchEntry 5 3 8, [inodeEntry 5])]

theorem inodes_stored (rootNodeObjectIdentifier : Nat) (fits : rootNodeObjectIdentifier + 8 < 2 ^ 64) :
    Stores inodes (btree rootNodeObjectIdentifier) 1 .absoluteOid (fun _ _ => False) inodeTree where
  rooted := by
    refine ⟨rootNode 1 1 [branchEntry 2 3 7, branchEntry 5 3 8], rfl, ⟨rfl, rfl, by decide⟩,
      List.forall_mem_cons.mpr ⟨?_, List.forall_mem_singleton.mpr ?_⟩⟩
    · refine ⟨subNode 2 0 [inodeEntry 2], ⟨by decide, rfl, ?_, Or.inl ⟨rfl, _, rfl, rfl⟩⟩, rfl, rfl, by decide⟩
      have number : subNodeObjectIdentifier (branchEntry 2 3 7) = 7 := by decide
      rw [number]
      exact Nat.lt_of_succ_lt fits
    · refine ⟨subNode 2 0 [inodeEntry 5], ⟨by decide, rfl, ?_, Or.inl ⟨rfl, _, rfl, rfl⟩⟩, rfl, rfl, by decide⟩
      have number : subNodeObjectIdentifier (branchEntry 5 3 8) = 8 := by decide
      rw [number]
      exact fits
  headed := by
    refine ⟨by simp [inodeTree], List.forall_mem_cons.mpr ⟨?_, List.forall_mem_singleton.mpr ?_⟩,
      fun _ _ => trivial⟩
    · exact ⟨_, _, rfl, rfl⟩
    · exact ⟨_, _, rfl, rfl⟩
  increasing := by decide

theorem inodes_smallest : Smallest (fun _ _ => False) 3 inodeTree.items where
  increasing := by decide
  least := by decide
  whole _ _ _ _ _ := not_false

end Sample

theorem inodes_exact : (5 : Nat) < 2 ^ 60 ∧
    HandleOf (Sample.btree 0) .absoluteOid (getInodeByIdentifier Sample.inodes 5 1 (Sample.btree 0)).2 ∧
      ((∃ entry ∈ Sample.inodeTree.items, hasKey 5 3 entry ∧
          (∀ entry' ∈ Sample.inodeTree.items, hasKey 5 3 entry' → entry' = entry) ∧
          (getInodeByIdentifier Sample.inodes 5 1 (Sample.btree 0)).1 = (Inode.read entry).map some) ∨
        ((∀ entry ∈ Sample.inodeTree.items, ¬hasKey 5 3 entry) ∧
          (getInodeByIdentifier Sample.inodes 5 1 (Sample.btree 0)).1 = .ok none)) :=
  ⟨by decide, getInodeByIdentifier_exact (Sample.inodes_stored 0 (by decide)) Sample.inodes_smallest (by decide)
    (Or.inl rfl) (by decide)⟩

theorem inode_lookup_limits :
    ((∀ entry ∈ Sample.inodeTree.items, entryIdentifier entry ≠ 2 ^ 60 + 5) ∧
      Stores Sample.inodes (Sample.btree 0) 1 .absoluteOid (fun _ _ => False) Sample.inodeTree ∧
      ∃ inode, (getInodeByIdentifier Sample.inodes (2 ^ 60 + 5) 1 (Sample.btree 0)).1 = .ok (some inode)) ∧
    (LeadsTo Sample.inodes (Sample.btree (2 ^ 64 - 1)) 1 8 (Sample.subNode 2 0 [Sample.inodeEntry 5]) ∧
      (getInodeByIdentifier Sample.inodes 5 1 (Sample.btree (2 ^ 64 - 1))).1 = fail .valueOutOfBounds) := by
  refine ⟨⟨by decide, Sample.inodes_stored 0 (by decide), ?_⟩, ⟨_, rfl, rfl⟩, rfl⟩
  exact ⟨_, rfl⟩

end Fsapfs.FileSystemBtree
