import Fsapfs.ObjectMapBtree
import Fsapfs.Program.SearchTree

namespace Fsapfs.ObjectMapBtree
open Program

def entryKey (entry : BtreeEntry) : Nat × Nat :=
  (littleEndian (entry.keyData.take 8), littleEndian ((entry.keyData.drop 8).take 8))

def atMost (objectIdentifier transactionIdentifier : Nat) (entry : BtreeEntry) : Bool :=
  (entryKey entry).1 < objectIdentifier ||
    ((entryKey entry).1 == objectIdentifier && (entryKey entry).2 ≤ transactionIdentifier)

def keyLess (entry entry' : BtreeEntry) : Prop :=
  (entryKey entry).1 < (entryKey entry').1 ∨
    ((entryKey entry).1 = (entryKey entry').1 ∧ (entryKey entry).2 < (entryKey entry').2)

instance : DecidableRel keyLess := fun _ _ => inferInstanceAs (Decidable (_ ∨ _))

def subNodeBlockNumber (entry : BtreeEntry) : Nat := littleEndian (entry.valueData.take 8)

def descriptorOf (entry : BtreeEntry) : ObjectMapDescriptor where
  identifier := (entryKey entry).1
  transactionIdentifier := (entryKey entry).2
  flags := littleEndian (entry.valueData.take 4)
  size := littleEndian ((entry.valueData.drop 4).take 4)
  physicalAddress := littleEndian ((entry.valueData.drop 8).take 8)

def layout (nodes : Nat → Result BtreeNode) : Layout BtreeNode BtreeEntry where
  leaf node entries := node.isLeafNode ∧ node.entries = entries ∧
    ∀ entry ∈ entries, 16 ≤ entry.keyData.length ∧ 16 ≤ entry.valueData.length
  branch node entries := node.isLeafNode = false ∧ node.entries = entries ∧
    ∀ entry ∈ entries, 16 ≤ entry.keyData.length ∧ 8 ≤ entry.valueData.length
  leads _ entry subNode := getSubNode nodes (subNodeBlockNumber entry) = .ok subNode

def sameKey (entry entry' : BtreeEntry) : Prop := entryKey entry = entryKey entry'

/-- The tree of an object map, its keys strictly increasing and each branch key the smallest key of its
sub tree. -/
structure Stores (nodes : Nat → Result BtreeNode) (btree : ObjectMapBtree) {height : Nat}
    (tree : SearchTree BtreeEntry height) : Prop where
  rooted : ∃ root, getRootNode nodes btree.rootNodeBlockNumber = .ok root ∧ (layout nodes).Stored tree root
  headed : tree.Headed sameKey
  increasing : tree.items.Pairwise keyLess

variable {nodes : Nat → Result BtreeNode} {objectIdentifier transactionIdentifier : Nat}

theorem atMost_falling {entries : List BtreeEntry} (increasing : entries.Pairwise keyLess) :
    Falling (atMost objectIdentifier transactionIdentifier) entries := by
  refine increasing.imp fun {entry entry'} less within => ?_
  simp only [keyLess, atMost, Bool.or_eq_true, Bool.and_eq_true, decide_eq_true_eq, beq_iff_eq] at *
  omega

theorem readKey_ok {entry : BtreeEntry} (sized : 16 ≤ entry.keyData.length) :
    requireData entry.keyData 16 = .ok () ∧
      loadLittleEndian64 entry.keyData 0 = .ok (entryKey entry).1 ∧
      loadLittleEndian64 entry.keyData 8 = .ok (entryKey entry).2 :=
  ⟨(requireData_ok (by simp)).mpr sized, loadLittleEndian_ok (by omega), loadLittleEndian_ok (by omega)⟩

theorem scanEntries_cons {scan : Scan} {entry : BtreeEntry} {entries : List BtreeEntry}
    (sized : 16 ≤ entry.keyData.length) :
    scanEntries objectIdentifier transactionIdentifier scan (entry :: entries) =
      if atMost objectIdentifier transactionIdentifier entry then
        scanEntries objectIdentifier transactionIdentifier
          { entry := some entry
            objectMapIdentifier := (entryKey entry).1
            objectMapTransaction := (entryKey entry).2
            previousEntry := some entry
            previousObjectMapIdentifier := (entryKey entry).1 } entries
      else
        .ok { scan with
          entry := some entry
          objectMapIdentifier := (entryKey entry).1
          objectMapTransaction := (entryKey entry).2 } := by
  obtain ⟨require, identifier, transaction⟩ := readKey_ok sized
  rw [scanEntries, require, ok_bind, identifier, ok_bind, transaction, ok_bind]
  by_cases within : atMost objectIdentifier transactionIdentifier entry
  · have order := within
    simp only [atMost, Bool.or_eq_true, Bool.and_eq_true, decide_eq_true_eq, beq_iff_eq] at order
    rw [if_pos within, if_neg (by omega), if_neg (by omega)]
  · have order := within
    simp only [atMost, Bool.or_eq_true, Bool.and_eq_true, decide_eq_true_eq, beq_iff_eq] at order
    rw [if_neg within]
    by_cases more : (entryKey entry).1 > objectIdentifier
    · rw [if_pos more]
      rfl
    · rw [if_neg more, if_pos (by omega)]
      rfl

def Scan.choice (scan : Scan) (objectIdentifier transactionIdentifier : Nat) : Option BtreeEntry :=
  if scan.previousEntry = none ∨
      (scan.objectMapIdentifier = objectIdentifier ∧ scan.objectMapTransaction ≤ transactionIdentifier) then
    scan.entry
  else scan.previousEntry

theorem scanEntries_ok {entries : List BtreeEntry} (sized : ∀ entry ∈ entries, 16 ≤ entry.keyData.length)
    (scan : Scan) (settled : scan.entry = scan.previousEntry) :
    ∃ scan', scanEntries objectIdentifier transactionIdentifier scan entries = .ok scan' ∧
      scan'.previousEntry =
        (lastWhile (atMost objectIdentifier transactionIdentifier) entries).or scan.previousEntry ∧
      scan'.previousObjectMapIdentifier =
        ((lastWhile (atMost objectIdentifier transactionIdentifier) entries).map
          fun entry => (entryKey entry).1).getD scan.previousObjectMapIdentifier ∧
      scan'.choice objectIdentifier transactionIdentifier = scan'.previousEntry.or entries.head? := by
  induction entries generalizing scan with
  | nil =>
      refine ⟨scan, rfl, by simp [lastWhile], by simp [lastWhile], ?_⟩
      simp [Scan.choice, settled]
  | cons entry entries ih =>
      obtain ⟨first, rest⟩ := List.forall_mem_cons.mp sized
      rw [scanEntries_cons first]
      by_cases within : atMost objectIdentifier transactionIdentifier entry
      · rw [if_pos within]
        obtain ⟨scan', scanned, previous, identifier, choice⟩ := ih rest
          ⟨some entry, (entryKey entry).1, (entryKey entry).2, some entry, (entryKey entry).1⟩ rfl
        refine ⟨scan', scanned, ?_, ?_, ?_⟩
        · rw [previous]
          cases last : lastWhile (atMost objectIdentifier transactionIdentifier) entries <;>
            simp [lastWhile, within, last]
        · rw [identifier]
          cases last : lastWhile (atMost objectIdentifier transactionIdentifier) entries <;>
            simp [lastWhile, within, last]
        · rw [choice, previous]
          cases last : lastWhile (atMost objectIdentifier transactionIdentifier) entries <;> simp
      · rw [if_neg within]
        have order := within
        simp only [atMost, Bool.or_eq_true, Bool.and_eq_true, decide_eq_true_eq, beq_iff_eq] at order
        refine ⟨_, rfl, by simp [lastWhile, within], by simp [lastWhile, within], ?_⟩
        unfold Scan.choice
        cases previous : scan.previousEntry with
        | none => simp
        | some entry' =>
            rw [if_neg (by simp; omega)]
            rfl

theorem getEntryFromLeaf {node : BtreeNode} (leaf : node.isLeafNode) (nonzero : objectIdentifier ≠ 0)
    (sized : ∀ entry ∈ node.entries, 16 ≤ entry.keyData.length) :
    getEntryFromNodeByIdentifier node objectIdentifier transactionIdentifier =
      .ok (((lastWhile (atMost objectIdentifier transactionIdentifier) node.entries).filter
        fun entry => (entryKey entry).1 == objectIdentifier).map some) := by
  obtain ⟨scan, scanned, previous, identifier, _⟩ := scanEntries_ok sized Scan.start rfl
  unfold getEntryFromNodeByIdentifier
  rw [scanned, ok_bind, if_pos leaf, identifier, previous]
  cases last : lastWhile (atMost objectIdentifier transactionIdentifier) node.entries with
  | none =>
      rw [if_neg (by simpa [Scan.start] using nonzero.symm)]
      rfl
  | some entry =>
      by_cases same : (entryKey entry).1 = objectIdentifier
      · rw [if_pos (by simpa using same), Option.filter_some, if_pos (by simpa using same)]
        rfl
      · rw [if_neg (by simpa using same), Option.filter_some, if_neg (by simpa using same)]
        rfl

theorem getEntryFromBranch {node : BtreeNode} (branch : node.isLeafNode = false)
    (sized : ∀ entry ∈ node.entries, 16 ≤ entry.keyData.length) :
    getEntryFromNodeByIdentifier node objectIdentifier transactionIdentifier =
      .ok (some (routed (atMost objectIdentifier transactionIdentifier) node.entries)) := by
  obtain ⟨scan, scanned, previous, _, choice⟩ := scanEntries_ok sized Scan.start rfl
  rw [previous] at choice
  unfold getEntryFromNodeByIdentifier
  rw [scanned, ok_bind, if_neg (by simp [branch])]
  unfold Scan.choice at choice
  split_ifs at choice ⊢ with continues
  · rw [choice]
    simp [routed, Scan.start]
    rfl
  · rw [choice]
    simp [routed, Scan.start]
    rfl

theorem getEntryUnderNode_ok (nonzero : objectIdentifier ≠ 0) {height depth : Nat} (within : height < depth)
    {tree : SearchTree BtreeEntry height} {node : BtreeNode} (stored : (layout nodes).Stored tree node)
    (headed : tree.Headed sameKey) (increasing : tree.items.Pairwise keyLess) :
    getEntryUnderNode nodes objectIdentifier transactionIdentifier depth node =
      .ok (((lastWhile (atMost objectIdentifier transactionIdentifier) tree.items).filter
        fun entry => (entryKey entry).1 == objectIdentifier).map some) := by
  induction height generalizing depth node with
  | zero =>
      obtain ⟨depth, rfl⟩ := Nat.exists_eq_succ_of_ne_zero (Nat.ne_of_gt within)
      obtain ⟨leaf, rfl, sized⟩ := stored
      rw [getEntryUnderNode, getEntryFromLeaf leaf nonzero fun entry member => (sized entry member).1, ok_bind]
      simp only [SearchTree.items]
      cases ((lastWhile (atMost objectIdentifier transactionIdentifier) node.entries).filter
        fun entry => (entryKey entry).1 == objectIdentifier) with
      | none => rfl
      | some entry => exact if_pos leaf
  | succ height ih =>
      obtain ⟨⟨branch, same, sized⟩, leads⟩ := stored
      obtain ⟨filled, heads, headed⟩ := headed
      obtain ⟨sub, member, continues, last⟩ := SearchTree.route (atMost objectIdentifier transactionIdentifier)
        (fun entry entry' (key : entryKey entry = entryKey entry') => by simp only [atMost, key]) filled heads
        (atMost_falling increasing)
      obtain ⟨subNode, child, stored⟩ := leads sub member
      have number : readSubNodeBlockNumber (some sub.1) = .ok (subNodeBlockNumber sub.1) := by
        have value := (sized sub.1 (List.mem_map_of_mem member)).2
        simp only [readSubNodeBlockNumber]
        rw [(requireData_ok (by simp)).mpr value]
        exact loadLittleEndian_ok value
      obtain ⟨depth, rfl⟩ := Nat.exists_eq_succ_of_ne_zero (show depth ≠ 0 by omega)
      have found := ih (show height < depth by omega) stored (headed sub member)
        (increasing.sublist (SearchTree.items_sublist member))
      rw [getEntryUnderNode, getEntryFromBranch branch (fun entry inside => (sized entry (same ▸ inside)).1),
        ok_bind, same, continues]
      simp only [branch, Bool.false_eq_true, if_false]
      rw [number, ok_bind, show getSubNode nodes (subNodeBlockNumber sub.1) = .ok subNode from child, ok_bind,
        found, last]
      rfl

theorem readDescriptor_ok {entry : BtreeEntry} (key : 16 ≤ entry.keyData.length)
    (value : 16 ≤ entry.valueData.length) : ObjectMapDescriptor.read entry = .ok (descriptorOf entry) := by
  obtain ⟨require, identifier, transaction⟩ := readKey_ok key
  unfold ObjectMapDescriptor.read ObjectMapDescriptor.readKeyData ObjectMapDescriptor.readValueData
  rw [require, ok_bind, identifier, ok_bind, transaction, (requireData_ok (by simp)).mpr value]
  simp only [loadLittleEndian32, loadLittleEndian64]
  rw [loadLittleEndian_ok (by omega), loadLittleEndian_ok (by omega), loadLittleEndian_ok (by omega)]
  rfl

/-- The entry of the identifier with the largest transaction identifier up to the one given. -/
def Latest (objectIdentifier transactionIdentifier : Nat) (entries : List BtreeEntry) (entry : BtreeEntry) :
    Prop :=
  entry ∈ entries ∧ (entryKey entry).1 = objectIdentifier ∧ (entryKey entry).2 ≤ transactionIdentifier ∧
    ∀ entry' ∈ entries, (entryKey entry').1 = objectIdentifier →
      (entryKey entry').2 ≤ transactionIdentifier → (entryKey entry').2 ≤ (entryKey entry).2

theorem lastWhile_latest (objectIdentifier transactionIdentifier : Nat) {entries : List BtreeEntry} (increasing : entries.Pairwise keyLess) :
    (∃ entry, lastWhile (atMost objectIdentifier transactionIdentifier) entries = some entry ∧
        (entryKey entry).1 = objectIdentifier ∧
        Latest objectIdentifier transactionIdentifier entries entry) ∨
      (((lastWhile (atMost objectIdentifier transactionIdentifier) entries).filter
          fun entry => (entryKey entry).1 == objectIdentifier) = none ∧
        ∀ entry ∈ entries, (entryKey entry).1 = objectIdentifier →
          transactionIdentifier < (entryKey entry).2) := by
  cases last : lastWhile (atMost objectIdentifier transactionIdentifier) entries with
  | none =>
      refine Or.inr ⟨rfl, fun entry member same => ?_⟩
      have fails := falling_fails (atMost_falling increasing) last entry member
      simp only [atMost, Bool.or_eq_false_iff, Bool.and_eq_false_iff, decide_eq_false_iff_not,
        beq_eq_false_iff_ne] at fails
      omega
  | some entry =>
      obtain ⟨before, after, rfl, held, _, fails⟩ := lastWhile_split (atMost_falling increasing) last
      obtain ⟨_, _, across⟩ := List.pairwise_append.mp increasing
      have earlier : ∀ entry' ∈ before, keyLess entry' entry := fun entry' member =>
        across entry' member entry (by simp)
      simp only [atMost, Bool.or_eq_true, Bool.and_eq_true, decide_eq_true_eq, beq_iff_eq] at held
      simp only [atMost, Bool.or_eq_false_iff, Bool.and_eq_false_iff, decide_eq_false_iff_not,
        beq_eq_false_iff_ne] at fails
      by_cases same : (entryKey entry).1 = objectIdentifier
      · refine Or.inl ⟨entry, rfl, same, by simp, same, by omega, fun entry' member same' within => ?_⟩
        rcases List.mem_append.mp member with first | rest
        · have less := earlier entry' first
          unfold keyLess at less
          omega
        · rcases List.mem_cons.mp rest with rfl | later
          · exact Nat.le_refl _
          · have after := fails entry' later
            omega
      · refine Or.inr ⟨by rw [Option.filter_some, if_neg (by simpa using same)], fun entry' member same' => ?_⟩
        rcases List.mem_append.mp member with first | rest
        · have less := earlier entry' first
          unfold keyLess at less
          omega
        · rcases List.mem_cons.mp rest with rfl | later
          · exact (same same').elim
          · have after := fails entry' later
            omega

/-- A lookup gives the latest descriptor of the object that is not after the transaction. -/
theorem getDescriptor_latest {btree : ObjectMapBtree} {height : Nat} {tree : SearchTree BtreeEntry height}
    (stores : Stores nodes btree tree) (limited : height ≤ maximumBtreeNodeRecursionDepth)
    {objectIdentifier : Nat} (nonzero : objectIdentifier ≠ 0) (transactionIdentifier : Nat) :
    (∃ entry, Latest objectIdentifier transactionIdentifier tree.items entry ∧
        getDescriptorByObjectIdentifier nodes btree objectIdentifier transactionIdentifier =
          .ok (some (descriptorOf entry))) ∨
      ((∀ entry ∈ tree.items, (entryKey entry).1 = objectIdentifier →
          transactionIdentifier < (entryKey entry).2) ∧
        getDescriptorByObjectIdentifier nodes btree objectIdentifier transactionIdentifier = .ok none) := by
  obtain ⟨⟨root, rooted, stored⟩, headed, increasing⟩ := stores
  have sized : ∀ entry ∈ tree.items, 16 ≤ entry.keyData.length ∧ 16 ≤ entry.valueData.length :=
    stored.forall_mem fun _ _ (leaf : (layout nodes).leaf _ _) => leaf.2.2
  have found : getEntryUnderNode nodes objectIdentifier transactionIdentifier
      (maximumBtreeNodeRecursionDepth + 1) root = _ :=
    getEntryUnderNode_ok nonzero (Nat.lt_succ_of_le limited) stored headed increasing
  unfold getDescriptorByObjectIdentifier getEntryByIdentifier
  rw [rooted, ok_bind, found, ok_bind]
  rcases lastWhile_latest objectIdentifier transactionIdentifier increasing with
    ⟨entry, last, same, latest⟩ | ⟨none, absent⟩
  · obtain ⟨key, value⟩ := sized entry latest.1
    refine Or.inl ⟨entry, latest, ?_⟩
    rw [last, Option.filter_some, if_pos (by simpa using same)]
    simp only [Option.map_some]
    rw [readDescriptor_ok key value]
    rfl
  · refine Or.inr ⟨absent, ?_⟩
    rw [none]
    rfl

namespace Sample

def entry (identifier transactionIdentifier physicalAddress : Nat) : BtreeEntry where
  keyData := littleEndianBytes 8 identifier ++ littleEndianBytes 8 transactionIdentifier
  valueData := littleEndianBytes 4 0 ++ littleEndianBytes 4 4096 ++ littleEndianBytes 8 physicalAddress

def branchEntry (identifier transactionIdentifier subNodeBlockNumber : Nat) : BtreeEntry where
  keyData := littleEndianBytes 8 identifier ++ littleEndianBytes 8 transactionIdentifier
  valueData := littleEndianBytes 8 subNodeBlockNumber

def root : BtreeNode where
  objectType := 0x40000002
  objectSubtype := 0x0000000b
  flags := 5
  level := 1
  footer := some { nodeSize := 4096, keySize := 16, valueSize := 16 }
  entries := [branchEntry 1 2 2, branchEntry 1 9 3]

def leaf (entries : List BtreeEntry) : BtreeNode where
  objectType := 0x40000003
  objectSubtype := 0x0000000b
  flags := 6
  level := 0
  footer := none
  entries := entries

def store : Nat → Result BtreeNode
  | 1 => .ok root
  | 2 => .ok (leaf [entry 1 2 100, entry 1 5 101])
  | 3 => .ok (leaf [entry 1 9 102, entry 4 1 103])
  | _ => fail .readFailed

def tree : SearchTree BtreeEntry 1 :=
  [(branchEntry 1 2 2, [entry 1 2 100, entry 1 5 101]), (branchEntry 1 9 3, [entry 1 9 102, entry 4 1 103])]

theorem stores : Stores store { rootNodeBlockNumber := 1 } tree where
  rooted := by
    refine ⟨root, rfl, ⟨rfl, rfl, by decide⟩, List.forall_mem_cons.mpr ⟨?_, List.forall_mem_singleton.mpr ?_⟩⟩
    · exact ⟨leaf [entry 1 2 100, entry 1 5 101], rfl, rfl, rfl, by decide⟩
    · exact ⟨leaf [entry 1 9 102, entry 4 1 103], rfl, rfl, rfl, by decide⟩
  headed := by
    refine ⟨by simp [tree], List.forall_mem_cons.mpr ⟨?_, List.forall_mem_singleton.mpr ?_⟩, fun _ _ => trivial⟩
    · exact ⟨_, _, rfl, rfl⟩
    · exact ⟨_, _, rfl, rfl⟩
  increasing := by decide

end Sample

theorem sample_latest : Stores Sample.store { rootNodeBlockNumber := 1 } Sample.tree ∧
    1 ≤ maximumBtreeNodeRecursionDepth ∧
    ((∃ entry, Latest 1 8 Sample.tree.items entry ∧
        getDescriptorByObjectIdentifier Sample.store { rootNodeBlockNumber := 1 } 1 8 =
          .ok (some (descriptorOf entry))) ∨
      ((∀ entry ∈ Sample.tree.items, (entryKey entry).1 = 1 → 8 < (entryKey entry).2) ∧
        getDescriptorByObjectIdentifier Sample.store { rootNodeBlockNumber := 1 } 1 8 = .ok none)) :=
  ⟨Sample.stores, by decide, getDescriptor_latest Sample.stores (by decide) (by decide) 8⟩

section search

/-- The entry of a node that is found has the object identifier, and a transaction identifier that is not after the
one looked for. -/
def FindsKey (node : BtreeNode) (objectIdentifier transactionIdentifier : Nat) : Prop :=
  ∀ found, getEntryFromNodeByIdentifier node objectIdentifier transactionIdentifier = .ok (some found) →
    ∃ entry ∈ node.entries, found = some entry ∧ 16 ≤ entry.keyData.length ∧
      (entryKey entry).1 = objectIdentifier ∧ (entryKey entry).2 ≤ transactionIdentifier

/-- The entry a scan remembers is one of the node that it passed, and the identifier next to it is that of its key. -/
def Remembers (entries : List BtreeEntry) (objectIdentifier transactionIdentifier : Nat) (scan : Scan) : Prop :=
  match scan.previousEntry with
  | none => scan.previousObjectMapIdentifier = 0
  | some entry => entry ∈ entries ∧ 16 ≤ entry.keyData.length ∧
      atMost objectIdentifier transactionIdentifier entry ∧ scan.previousObjectMapIdentifier = (entryKey entry).1

variable {node : BtreeNode}

theorem scanEntries_short {scan : Scan} {entry : BtreeEntry} {entries : List BtreeEntry}
    (short : entry.keyData.length < 16) :
    ∃ code, scanEntries objectIdentifier transactionIdentifier scan (entry :: entries) = fail code := by
  unfold scanEntries requireData
  split_ifs
  · exact ⟨_, rfl⟩
  · exact ⟨_, rfl⟩

theorem scanEntries_remembers {all entries : List BtreeEntry} (inside : entries ⊆ all) {scan scan' : Scan}
    (remembers : Remembers all objectIdentifier transactionIdentifier scan)
    (scanned : scanEntries objectIdentifier transactionIdentifier scan entries = .ok scan') :
    Remembers all objectIdentifier transactionIdentifier scan' := by
  induction entries generalizing scan with
  | nil =>
      cases scanned
      exact remembers
  | cons entry entries ih =>
      obtain ⟨member, rest⟩ := List.cons_subset.mp inside
      rcases Nat.lt_or_ge entry.keyData.length 16 with short | sized
      · obtain ⟨code, failed⟩ := scanEntries_short short
        cases failed.symm.trans scanned
      · rw [scanEntries_cons sized] at scanned
        by_cases within : atMost objectIdentifier transactionIdentifier entry
        · rw [if_pos within] at scanned
          refine ih rest ?_ scanned
          exact ⟨member, sized, within, rfl⟩
        · rw [if_neg within] at scanned
          cases scanned
          exact remembers

theorem scanEntries_passed {entries : List BtreeEntry} {scan scan' : Scan} (passed : scan.previousEntry ≠ none)
    (scanned : scanEntries objectIdentifier transactionIdentifier scan entries = .ok scan') :
    scan'.previousEntry ≠ none := by
  induction entries generalizing scan with
  | nil =>
      cases scanned
      exact passed
  | cons entry entries ih =>
      rcases Nat.lt_or_ge entry.keyData.length 16 with short | sized
      · obtain ⟨code, failed⟩ := scanEntries_short short
        cases failed.symm.trans scanned
      · rw [scanEntries_cons sized] at scanned
        split at scanned
        · exact ih (by simp) scanned
        · cases scanned
          exact passed

theorem getEntryFromLeaf_remembers (leaf : node.isLeafNode) {found : Option BtreeEntry}
    (run : getEntryFromNodeByIdentifier node objectIdentifier transactionIdentifier = .ok (some found)) :
    ∃ scan, scanEntries objectIdentifier transactionIdentifier Scan.start node.entries = .ok scan ∧
      Remembers node.entries objectIdentifier transactionIdentifier scan ∧
      scan.previousObjectMapIdentifier = objectIdentifier ∧ found = scan.previousEntry := by
  obtain ⟨scan, scanned, run⟩ := bind_eq_ok.mp run
  have start : Remembers node.entries objectIdentifier transactionIdentifier Scan.start := rfl
  have remembers := scanEntries_remembers (List.Subset.refl _) start scanned
  rw [if_pos leaf] at run
  split_ifs at run with same
  · cases run
    exact ⟨scan, scanned, remembers, same, rfl⟩
  · cases run

theorem scanEntries_nothing (missing : ∀ entry, node.entries.head? = some entry →
      16 ≤ entry.keyData.length ∧ ¬atMost objectIdentifier transactionIdentifier entry) :
    ∃ scan, scanEntries objectIdentifier transactionIdentifier Scan.start node.entries = .ok scan ∧
      scan.previousEntry = none ∧ scan.previousObjectMapIdentifier = 0 := by
  cases entries : node.entries with
  | nil => exact ⟨Scan.start, rfl, rfl, rfl⟩
  | cons entry rest =>
      obtain ⟨sized, after⟩ := missing entry (by simp [entries])
      rw [scanEntries_cons sized, if_neg after]
      exact ⟨_, rfl, rfl, rfl⟩

/-- In a leaf the search finds what it looks for, except that it finds no entry at all for the identifier 0 if the
first entry is not one of it. -/
theorem getEntryFromLeaf_finds (leaf : node.isLeafNode) :
    FindsKey node objectIdentifier transactionIdentifier ↔ objectIdentifier ≠ 0 ∨
      ∃ entry, node.entries.head? = some entry ∧
        (16 ≤ entry.keyData.length → (entryKey entry).1 = 0 ∧ (entryKey entry).2 ≤ transactionIdentifier) := by
  constructor
  · intro finds
    by_contra neither
    push Not at neither
    obtain ⟨rfl, missing⟩ := neither
    have unmatched : ∀ entry, node.entries.head? = some entry →
        16 ≤ entry.keyData.length ∧ ¬atMost 0 transactionIdentifier entry := by
      intro entry first
      obtain ⟨sized, after⟩ := missing entry first
      refine ⟨sized, fun within => ?_⟩
      simp [atMost] at within
      omega
    obtain ⟨scan, scanned, nothing, identifier⟩ := scanEntries_nothing unmatched
    have run : getEntryFromNodeByIdentifier node 0 transactionIdentifier = .ok (some none) := by
      unfold getEntryFromNodeByIdentifier
      rw [scanned, ok_bind, if_pos leaf, if_pos identifier, nothing]
      rfl
    obtain ⟨_, _, found, _⟩ := finds none run
    cases found
  · intro condition found run
    obtain ⟨scan, scanned, remembers, same, rfl⟩ := getEntryFromLeaf_remembers leaf run
    unfold Remembers at remembers
    cases previous : scan.previousEntry with
    | none =>
        rw [previous] at remembers
        obtain rfl : 0 = objectIdentifier := remembers.symm.trans same
        obtain ⟨entry, first, key⟩ := condition.resolve_left (by simp)
        obtain ⟨rest, split⟩ : ∃ rest, node.entries = entry :: rest := List.head?_eq_some_iff.mp first
        rw [split] at scanned
        rcases Nat.lt_or_ge entry.keyData.length 16 with short | sized
        · obtain ⟨code, failed⟩ := scanEntries_short short
          cases failed.symm.trans scanned
        · rw [scanEntries_cons sized, if_pos (by simp [atMost, key sized])] at scanned
          exact absurd previous (scanEntries_passed (by simp) scanned)
    | some entry =>
        rw [previous] at remembers
        obtain ⟨member, sized, within, identifier⟩ := remembers
        have own := identifier.symm.trans same
        refine ⟨entry, member, rfl, sized, own, ?_⟩
        simp [atMost, own] at within
        exact within

end search

namespace Sample

def emptyLeaf : BtreeNode := leaf []

end Sample

/-- In an empty node the search for the identifier 0 finds an entry that is none. -/
theorem emptyLeaf_finds : Sample.emptyLeaf.isLeafNode = true ∧
    getEntryFromNodeByIdentifier Sample.emptyLeaf 0 1 = .ok (some none) ∧ ¬FindsKey Sample.emptyLeaf 0 1 := by
  have run : getEntryFromNodeByIdentifier Sample.emptyLeaf 0 1 = .ok (some none) := rfl
  refine ⟨rfl, run, fun finds => ?_⟩
  obtain ⟨_, member, _⟩ := finds none run
  cases member

def Sample.unordered : BtreeNode :=
  leaf [entry 4 2 105, entry 2 5 101, entry 4 1 103, entry 4 9 104, entry 3 1 102]

theorem getEntryFromLeaf_sample :
    FindsKey Sample.unordered 4 3 ∧
      getEntryFromNodeByIdentifier Sample.unordered 4 3 = .ok (some (some (Sample.entry 4 1 103))) ∧
      ¬FindsKey Sample.unordered 0 3 :=
  ⟨(getEntryFromLeaf_finds rfl).mpr (Or.inl (by decide)), by decide, fun finds => by
    have condition := (getEntryFromLeaf_finds rfl).mp finds
    revert condition
    simp [Sample.unordered, Sample.leaf]
    decide⟩

end Fsapfs.ObjectMapBtree
