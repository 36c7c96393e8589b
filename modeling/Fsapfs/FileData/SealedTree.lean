import Fsapfs.Btree.Answers
import Fsapfs.SealedExtentTree

namespace Fsapfs
open Program

namespace SealedExtentTree

section walk

variable {nodes : Nat → Result BtreeNode}

def Child (nodes : Nat → Result BtreeNode) (blockNumber childBlockNumber : Nat) : Prop :=
  ∃ node entry, nodes blockNumber = .ok node ∧ node.isLeafNode = false ∧ entry ∈ node.entries ∧
    readBranchEntry entry = .ok childBlockNumber

def readNodeBody (nodes : Nat → Result BtreeNode) (next : Nat → TreeCall Unit) (nodeBlockNumber : Nat) :
    TreeCall Unit := do
  let tree ← Call.self
  if tree.blockSize = 0 then Call.lift (fail .valueOutOfBounds)
  else do
    let node ← Call.lift (nodes nodeBlockNumber)
    node.entries.forM fun entry => do
      if node.isLeafNode then do
        let extent ← Call.lift (readLeafEntry entry)
        Call.update (appendEntry extent)
      else do
        let childBlockNumber ← Call.lift (readBranchEntry entry)
        next childBlockNumber

theorem readNode_eq (depth : Nat) :
    readNode nodes depth = descend (fun _ => Call.lift (fail .valueOutOfBounds)) (readNodeBody nodes) depth := by
  induction depth with
  | zero =>
      funext nodeBlockNumber
      rfl
  | succ depth ih =>
      funext nodeBlockNumber
      unfold readNode descend
      rw [ih]
      rfl

/-- The build under a watch over the path of blocks from the root. -/
def buildAlong (nodes : Nat → Result BtreeNode) (watch : List Nat → Nat → Bool) : TreeCall Unit := do
  let tree ← Call.self
  if tree.isBuilt then return ()
  else if tree.rootNodeBlockNumber = 0 then Call.lift (fail .valueMissing)
  else do
    descendAlong watch (fun _ => Call.lift (fail .valueOutOfBounds)) (readNodeBody nodes)
      (maximumBtreeNodeRecursionDepth + 1) [] tree.rootNodeBlockNumber
    Call.update sortEntries

theorem buildAlong_short (nodes : Nat → Result BtreeNode) :
    buildAlong nodes (fun path _ => path.length ≤ maximumBtreeNodeRecursionDepth + 1) = build nodes := by
  unfold buildAlong build
  generalize maximumBtreeNodeRecursionDepth + 1 = depth
  have same : descendAlong (fun path _ => path.length ≤ depth) (fun _ => Call.lift (fail .valueOutOfBounds))
      (readNodeBody nodes) depth [] = readNode nodes depth := by
    funext blockNumber
    simp only [← Nat.lt_succ_iff]
    rw [descendAlong_short depth (by simp), readNode_eq]
  rw [same]

theorem readLeafEntry_returns (entry : BtreeEntry) : Returns (readLeafEntry entry) := by
  refine (requireData_returns (by simp)).bind fun _ sized => ?_
  iterate 2
    apply loadLittleEndian_bind_returns (by omega)
    intro
  refine (requireData_returns (by simp)).bind fun _ sized => ?_
  iterate 2
    apply loadLittleEndian_bind_returns (by omega)
    intro
  trivial

theorem readBranchEntry_returns (entry : BtreeEntry) : Returns (readBranchEntry entry) :=
  (requireData_returns (by simp)).bind fun _ _ => (requireData_returns (by simp)).bind fun _ sized =>
    loadLittleEndian_returns sized

theorem answers_forM {α : Type} {step : α → TreeCall PUnit} (answers : ∀ a, (step a).Answers) (items : List α) :
    (items.forM step).Answers := by
  induction items with
  | nil => exact Call.answers_pure _
  | cons item items ih => exact (answers item).bind fun _ => ih

theorem readNode_answers (parsed : Parsed nodes) (depth nodeBlockNumber : Nat) :
    (readNode nodes depth nodeBlockNumber).Answers := by
  rw [readNode_eq]
  refine answers_descend (fun _ => Call.answers_lift (show Returns (fail _) from trivial)) (fun next answers nodeBlockNumber => ?_) depth _
  refine Call.answers_self.bind fun tree => ?_
  split
  · exact Call.answers_lift trivial
  · have read : Returns (nodes nodeBlockNumber) := (parsed nodeBlockNumber).mono (fun _ _ => trivial) id
    refine (Call.answers_lift read).bind fun node => answers_forM (fun entry => ?_) node.entries
    split
    · exact (Call.answers_lift (readLeafEntry_returns entry)).bind fun _ => Call.answers_update _
    · exact (Call.answers_lift (readBranchEntry_returns entry)).bind answers

theorem build_answers (parsed : Parsed nodes) : (build nodes).Answers := by
  refine Call.answers_self.bind fun tree => ?_
  split_ifs
  · exact Call.answers_pure ()
  · exact Call.answers_lift trivial
  · exact (readNode_answers parsed _ _).bind fun _ => Call.answers_update _

theorem forM_ok {α : Type} {step : α → TreeCall PUnit} {items : List α} {item : α} (member : item ∈ items)
    {tree tree' : SealedExtentTree} (run : items.forM step tree = (.ok (), tree')) :
    ∃ before after, step item before = (.ok (), after) := by
  induction items generalizing tree with
  | nil => cases member
  | cons first items ih =>
      obtain ⟨_, middle, run, rest⟩ := Call.bind_ok run
      rcases List.mem_cons.mp member with rfl | later
      · exact ⟨tree, middle, run⟩
      · exact ih later rest

theorem readNode_child (depth blockNumber childBlockNumber : Nat)
    (finished : ∃ tree tree', readNode nodes depth blockNumber tree = (.ok (), tree'))
    (child : Child nodes blockNumber childBlockNumber) :
    ∃ depth' < depth, ∃ tree tree', readNode nodes depth' childBlockNumber tree = (.ok (), tree') := by
  obtain ⟨tree, tree', run⟩ := finished
  cases depth with
  | zero => cases run
  | succ depth =>
      obtain ⟨node, entry, read, branch, member, value⟩ := child
      unfold readNode at run
      rw [Call.self_bind] at run
      split_ifs at run
      · cases run
      · obtain ⟨node', before, found, run⟩ := Call.bind_ok run
        obtain rfl : node = node' := by simpa [read] using congrArg Prod.fst found
        obtain ⟨before, after, run⟩ := forM_ok member run
        rw [if_neg (by simp [branch])] at run
        obtain ⟨number, _, found, run⟩ := Call.bind_ok run
        obtain rfl : childBlockNumber = number := by simpa [value] using congrArg Prod.fst found
        exact ⟨depth, Nat.lt_succ_self depth, _, _, run⟩

/-- A build does not finish if a branch leads back to a block on its path from the root. -/
theorem build_acyclic {tree : SealedExtentTree} (unbuilt : tree.isBuilt = false) {blockNumber : Nat}
    (reached : Relation.ReflTransGen (Child nodes) tree.rootNodeBlockNumber blockNumber)
    (back : Relation.TransGen (Child nodes) blockNumber blockNumber) (parsed : Parsed nodes) :
    ∃ code, (build nodes tree).1 = fail code := by
  rcases outcome_returns (build_answers parsed tree) with ⟨_, built, _⟩ | ⟨failed, _⟩
  · exfalso
    cases ended : build nodes tree with
    | mk result tree' =>
        obtain rfl : result = .ok () := by simpa [ended] using built
        unfold build at ended
        rw [Call.self_bind, if_neg (by simp [unbuilt])] at ended
        split_ifs at ended
        · cases ended
        · obtain ⟨_, middle, run, _⟩ := Call.bind_ok ended
          exact finishes_acyclic readNode_child ⟨tree, middle, run⟩ reached back
  · exact failed

end walk

section stored

variable {nodes : Nat → Result BtreeNode} {tree : SealedExtentTree}

def LeafRecord (nodes : Nat → Result BtreeNode) (blockNumber : Nat) (extent : SealedExtent) : Prop :=
  ∃ node entry, nodes blockNumber = .ok node ∧ node.isLeafNode ∧ entry ∈ node.entries ∧ readLeafEntry entry = .ok extent

/-- The extents of the leaves at and below a block. -/
def StoredExtent (nodes : Nat → Result BtreeNode) (blockNumber : Nat) (extent : SealedExtent) : Prop :=
  ∃ leafBlockNumber, Relation.ReflTransGen (Child nodes) blockNumber leafBlockNumber ∧
    LeafRecord nodes leafBlockNumber extent

/-- Between two states only extents of a kind were added to the entries. -/
structure Adds (added : SealedExtent → Prop) (tree tree' : SealedExtentTree) : Prop where
  blockSize : tree'.blockSize = tree.blockSize
  kept : tree.entries ⊆ tree'.entries
  added : ∀ extent ∈ tree'.entries, extent ∈ tree.entries ∨ added extent

theorem Adds.refl {added : SealedExtent → Prop} (tree : SealedExtentTree) : Adds added tree tree :=
  ⟨rfl, List.Subset.refl _, fun _ => Or.inl⟩

theorem Adds.trans {added : SealedExtent → Prop} {tree' tree'' : SealedExtentTree} (first : Adds added tree tree')
    (second : Adds added tree' tree'') : Adds added tree tree'' where
  blockSize := second.blockSize.trans first.blockSize
  kept := List.Subset.trans first.kept second.kept
  added extent member := (second.added extent member).elim (first.added extent) Or.inr

theorem Adds.mono {added added' : SealedExtent → Prop} {tree' : SealedExtentTree} (adds : Adds added tree tree')
    (more : ∀ extent, added extent → added' extent) : Adds added' tree tree' where
  blockSize := adds.blockSize
  kept := adds.kept
  added extent member := (adds.added extent member).imp_right (more extent)

theorem forM_adds {α : Type} {added : SealedExtent → Prop} {step : α → TreeCall PUnit} {items : List α}
    (adds : ∀ item ∈ items, ∀ tree, Adds added tree (step item tree).2) (tree : SealedExtentTree) :
    Adds added tree (items.forM step tree).2 := by
  induction items generalizing tree with
  | nil => exact .refl tree
  | cons item items ih =>
      obtain ⟨first, rest⟩ := List.forall_mem_cons.mp adds
      have added := first tree
      change Adds _ tree ((step item >>= fun _ => items.forM step) tree).2
      cases run : step item tree with
      | mk result tree' =>
          rw [run] at added
          cases result with
          | ok value =>
              rw [Call.bind_of_ok run]
              exact added.trans (ih rest tree')
          | error failure =>
              rw [Call.bind_of_error run]
              exact added

theorem readNode_adds (depth blockNumber : Nat) (tree : SealedExtentTree) :
    Adds (StoredExtent nodes blockNumber) tree (readNode nodes depth blockNumber tree).2 := by
  induction depth generalizing blockNumber tree with
  | zero => exact .refl tree
  | succ depth ih =>
      unfold readNode
      rw [Call.self_bind]
      split_ifs
      · exact .refl tree
      · cases read : nodes blockNumber with
        | error failure => exact .refl tree
        | ok node =>
            refine forM_adds (fun entry member tree => ?_) tree
            by_cases leaf : node.isLeafNode
            · rw [if_pos leaf]
              cases value : readLeafEntry entry with
              | error failure => exact .refl tree
              | ok extent =>
                  refine ⟨rfl, List.subset_append_left _ _, fun extent' member' => ?_⟩
                  refine (List.mem_append.mp member').imp_right fun own => ?_
                  obtain rfl := List.mem_singleton.mp own
                  exact ⟨blockNumber, .refl, node, entry, read, leaf, member, value⟩
            · rw [if_neg leaf]
              cases value : readBranchEntry entry with
              | error failure => exact .refl tree
              | ok childBlockNumber =>
                  refine (ih childBlockNumber tree).mono fun extent stored => ?_
                  obtain ⟨leafBlockNumber, reached, record⟩ := stored
                  have child : Child nodes blockNumber childBlockNumber :=
                    ⟨node, entry, read, by simpa using leaf, member, value⟩
                  exact ⟨leafBlockNumber, .head child reached, record⟩

theorem forM_ok_adds {α : Type} {added : SealedExtent → Prop} {step : α → TreeCall PUnit} {items : List α} {item : α}
    (adds : ∀ item ∈ items, ∀ tree, Adds added tree (step item tree).2) (member : item ∈ items)
    {tree tree' : SealedExtentTree} (run : items.forM step tree = (.ok (), tree')) :
    ∃ before after, step item before = (.ok (), after) ∧ after.entries ⊆ tree'.entries := by
  induction items generalizing tree with
  | nil => cases member
  | cons first items ih =>
      obtain ⟨_, rest⟩ := List.forall_mem_cons.mp adds
      obtain ⟨_, middle, run, later⟩ := Call.bind_ok run
      rcases List.mem_cons.mp member with rfl | other
      · have kept := (forM_adds rest middle).kept
        rw [later] at kept
        exact ⟨tree, middle, run, kept⟩
      · exact ih rest other later

theorem readNode_complete {depth blockNumber : Nat} {tree tree' : SealedExtentTree}
    (run : readNode nodes depth blockNumber tree = (.ok (), tree')) {extent : SealedExtent}
    (stored : StoredExtent nodes blockNumber extent) : extent ∈ tree'.entries := by
  obtain ⟨leafBlockNumber, reached, record⟩ := stored
  induction depth generalizing blockNumber tree tree' with
  | zero => cases run
  | succ depth ih =>
      have steps : ∀ node, nodes blockNumber = .ok node → ∀ entry ∈ node.entries, ∀ tree : SealedExtentTree,
          Adds (fun _ => True) tree ((if node.isLeafNode then do
              let extent ← Call.lift (readLeafEntry entry)
              Call.update (appendEntry extent)
            else do
              let childBlockNumber ← Call.lift (readBranchEntry entry)
              readNode nodes depth childBlockNumber : TreeCall PUnit) tree).2 := by
        intro node read entry member tree
        split
        · cases readLeafEntry entry with
          | error failure => exact .refl tree
          | ok extent => exact ⟨rfl, List.subset_append_left _ _, fun _ _ => Or.inr trivial⟩
        · cases readBranchEntry entry with
          | error failure => exact .refl tree
          | ok childBlockNumber => exact (readNode_adds depth childBlockNumber tree).mono fun _ _ => trivial
      unfold readNode at run
      rw [Call.self_bind] at run
      split_ifs at run
      · cases run
      · obtain ⟨node, before, found, visited⟩ := Call.bind_ok run
        obtain ⟨read, rfl⟩ := Call.lift_ok found
        rcases Relation.ReflTransGen.cases_head reached with rfl | ⟨childBlockNumber, child, rest⟩
        · obtain ⟨node', entry, read', leaf, member, value⟩ := record
          cases read.symm.trans read'
          obtain ⟨_, after, own, kept⟩ := forM_ok_adds (steps node read) member visited
          rw [if_pos leaf] at own
          obtain ⟨extent', _, lifted, appended⟩ := Call.bind_ok own
          obtain ⟨value', rfl⟩ := Call.lift_ok lifted
          cases value.symm.trans value'
          cases appended
          exact kept (List.mem_append_right _ (List.mem_singleton_self _))
        · obtain ⟨node', entry, read', branch, member, value⟩ := child
          cases read.symm.trans read'
          obtain ⟨_, after, own, kept⟩ := forM_ok_adds (steps node read) member visited
          rw [if_neg (by simp [branch])] at own
          obtain ⟨number, _, lifted, below⟩ := Call.bind_ok own
          obtain ⟨value', rfl⟩ := Call.lift_ok lifted
          cases value.symm.trans value'
          exact kept (ih below rest)

theorem build_entries {blockSize rootNodeBlockNumber : Nat}
    (run : build nodes (create blockSize rootNodeBlockNumber) = (.ok (), tree)) :
    Built tree ∧ tree.blockSize = blockSize ∧ tree.blockSize ≠ 0 ∧
      ∀ extent, extent ∈ tree.entries ↔ StoredExtent nodes rootNodeBlockNumber extent := by
  unfold build at run
  rw [Call.self_bind, if_neg (by simp [create])] at run
  split_ifs at run
  · cases run
  · obtain ⟨_, middle, read, sorted⟩ := Call.bind_ok run
    cases sorted
    have adds : Adds (StoredExtent nodes rootNodeBlockNumber) (create blockSize rootNodeBlockNumber)
        (readNode nodes (maximumBtreeNodeRecursionDepth + 1) rootNodeBlockNumber
          (create blockSize rootNodeBlockNumber)).2 := readNode_adds ..
    have read' : readNode nodes (maximumBtreeNodeRecursionDepth + 1) rootNodeBlockNumber
        (create blockSize rootNodeBlockNumber) = (.ok (), middle) := read
    rw [read'] at adds
    refine ⟨sortEntries_built middle, adds.blockSize, ?_, fun extent => ?_⟩
    · intro none
      unfold readNode at read'
      rw [Call.self_bind, if_pos (adds.blockSize.symm.trans none)] at read'
      cases read'
    · have same : extent ∈ (sortEntries middle).entries ↔ extent ∈ middle.entries := List.mem_mergeSort
      rw [same]
      constructor
      · intro member
        exact (adds.added extent member).resolve_left (by simp [create])
      · exact readNode_complete read'

end stored

section lookup

variable {tree : SealedExtentTree} {identifier logicalOffset : Nat}

/-- The logical range of an extent of the identifier holds the offset. -/
def SealedExtent.Holds (extent : SealedExtent) (identifier logicalOffset : Nat) : Prop :=
  extent.identifier = identifier ∧ extent.logicalOffset ≤ logicalOffset ∧
    logicalOffset < extent.logicalOffset + extent.dataSize

/-- Extents of positive sizes whose ranges do not overlap. -/
structure Apart (extents : SealedExtent → Prop) : Prop where
  positive : ∀ extent, extents extent → 0 < extent.dataSize
  apart : ∀ extent extent', extents extent → extents extent' → extent.identifier = extent'.identifier →
    extent = extent' ∨ extent.logicalOffset + extent.dataSize ≤ extent'.logicalOffset ∨
      extent'.logicalOffset + extent'.dataSize ≤ extent.logicalOffset

theorem Apart.unique {extents : SealedExtent → Prop} (apart : Apart extents) {extent extent' : SealedExtent}
    (member : extents extent) (member' : extents extent') (holds : SealedExtent.Holds extent identifier logicalOffset)
    (holds' : SealedExtent.Holds extent' identifier logicalOffset) : extent = extent' := by
  obtain ⟨same, first, last⟩ := holds
  obtain ⟨same', first', last'⟩ := holds'
  rcases apart.apart extent extent' member member' (same.trans same'.symm) with eq | before | after
  · exact eq
  · omega
  · omega

def yielded (tree : SealedExtentTree) (extent : SealedExtent) (logicalOffset : Nat) : Result (Option (Nat × Nat)) :=
  if tree.blockSize = 0 then fail .valueOutOfBounds
  else if (logicalOffset - extent.logicalOffset) % tree.blockSize ≠ 0 then fail .valueOutOfBounds
  else .ok (some ((extent.physicalBlockNumber + (logicalOffset - extent.logicalOffset) / tree.blockSize) % 2 ^ 64,
    extent.dataSize - (logicalOffset - extent.logicalOffset)))

theorem lookup_run (built : Built tree) (apart : Apart (· ∈ tree.entries)) (identifier logicalOffset : Nat) :
    (∃ extent ∈ tree.entries, SealedExtent.Holds extent identifier logicalOffset ∧
      tree.lookup identifier logicalOffset = yielded tree extent logicalOffset) ∨
    ((∀ extent ∈ tree.entries, ¬SealedExtent.Holds extent identifier logicalOffset) ∧
      tree.lookup identifier logicalOffset = .ok none) := by
  have partitioned : Partitioned tree.entries (atMost identifier logicalOffset) :=
    atMost_partitioned built logicalOffset
  obtain ⟨found, search, bound, before⟩ := search_ok (ε := ErrorCode) partitioned
  have reach (k : Nat) (within : k < tree.entries.length)
      (holds : SealedExtent.Holds tree.entries[k] identifier logicalOffset) : k < found :=
    (before k within).mp (by simp [atMost, holds.1, holds.2.1])
  unfold lookup
  rw [if_neg (by simp [built.isBuilt]), search, ok_bind]
  by_cases nothing : found = 0
  · rw [if_pos nothing]
    refine Or.inr ⟨fun extent member holds => ?_, rfl⟩
    obtain ⟨k, within, rfl⟩ := List.getElem_of_mem member
    have := reach k within holds
    omega
  · have last : found - 1 < tree.entries.length := by omega
    have reached := (before (found - 1) last).mpr (by omega)
    rw [if_neg nothing, load_of_lt last, ok_bind]
    have final (extent : SealedExtent) (member : extent ∈ tree.entries)
        (holds : SealedExtent.Holds extent identifier logicalOffset) : tree.entries[found - 1] = extent := by
      obtain ⟨k, within, rfl⟩ := List.getElem_of_mem member
      have early := reach k within holds
      rcases Nat.lt_or_eq_of_le (show k ≤ found - 1 by omega) with less | eq
      · have ordered := List.pairwise_iff_getElem.mp built.sorted k (found - 1) within last less
        obtain ⟨same, first, inside⟩ := holds
        simp only [entryCompare, atMost, Bool.or_eq_true, Bool.and_eq_true, decide_eq_true_eq, beq_iff_eq] at ordered reached
        have positive := apart.positive _ (List.getElem_mem last)
        rcases apart.apart _ _ (List.getElem_mem last) (List.getElem_mem within) (by omega) with eq | early | late
        · exact eq
        · omega
        · omega
      · simp only [eq]
    by_cases other : tree.entries[found - 1].identifier ≠ identifier
    · rw [if_pos other]
      refine Or.inr ⟨fun extent member holds => other ?_, rfl⟩
      rw [final extent member holds]
      exact holds.1
    · rw [if_neg other]
      by_cases outside : logicalOffset < tree.entries[found - 1].logicalOffset ∨
          logicalOffset - tree.entries[found - 1].logicalOffset ≥ tree.entries[found - 1].dataSize
      · rw [if_pos outside]
        refine Or.inr ⟨fun extent member holds => ?_, rfl⟩
        have eq := final extent member holds
        obtain ⟨_, first, inside⟩ := holds
        rw [eq] at outside
        omega
      · rw [if_neg outside]
        refine Or.inl ⟨_, List.getElem_mem last, ⟨not_not.mp other, by omega, by omega⟩, ?_⟩
        unfold yielded
        split_ifs
        · rfl
        · rfl
        · rfl

/-- The lookups in a tree that was built are the inverse of the stored extents. -/
theorem lookup_inverts {nodes : Nat → Result BtreeNode} {blockSize rootNodeBlockNumber : Nat}
    (run : build nodes (create blockSize rootNodeBlockNumber) = (.ok (), tree))
    (apart : Apart (StoredExtent nodes rootNodeBlockNumber)) (identifier logicalOffset : Nat) :
    (∀ physicalBlockNumber maximumDataSize,
      tree.lookup identifier logicalOffset = .ok (some (physicalBlockNumber, maximumDataSize)) ↔
        ∃ extent, StoredExtent nodes rootNodeBlockNumber extent ∧ SealedExtent.Holds extent identifier logicalOffset ∧
          blockSize ∣ logicalOffset - extent.logicalOffset ∧
          physicalBlockNumber =
            (extent.physicalBlockNumber + (logicalOffset - extent.logicalOffset) / blockSize) % 2 ^ 64 ∧
          maximumDataSize = extent.dataSize - (logicalOffset - extent.logicalOffset)) ∧
    ((∀ extent, StoredExtent nodes rootNodeBlockNumber extent →
        ¬SealedExtent.Holds extent identifier logicalOffset) →
      tree.lookup identifier logicalOffset = .ok none) := by
  obtain ⟨built, rfl, positive, stored⟩ := build_entries run
  have apart' : Apart (· ∈ tree.entries) := by
    refine ⟨fun extent member => apart.positive extent ((stored extent).mp member), fun extent extent' member member' => ?_⟩
    exact apart.apart extent extent' ((stored extent).mp member) ((stored extent').mp member')
  rcases lookup_run built apart' identifier logicalOffset with ⟨extent, member, holds, found⟩ | ⟨none, missed⟩
  · constructor
    · intro physicalBlockNumber maximumDataSize
      rw [found]
      unfold yielded
      rw [if_neg positive]
      constructor
      · intro value
        split_ifs at value with uneven
        · cases value
        · cases value
          exact ⟨extent, (stored extent).mp member, holds, Nat.dvd_of_mod_eq_zero (not_not.mp uneven), rfl, rfl⟩
      · rintro ⟨extent', member', holds', even, rfl, rfl⟩
        obtain rfl := apart'.unique member ((stored extent').mpr member') holds holds'
        rw [if_neg (not_not.mpr (Nat.mod_eq_zero_of_dvd even))]
    · intro none
      exact absurd holds (none extent ((stored extent).mp member))
  · constructor
    · intro physicalBlockNumber maximumDataSize
      rw [missed]
      constructor
      · intro value
        cases value
      · rintro ⟨extent, member, holds, _⟩
        exact absurd holds (none extent ((stored extent).mpr member))
    · exact fun _ => missed

end lookup

namespace Sample

def lastBlock : Nat → Result BtreeNode
  | 1 => .ok {
      objectType := 0x40000002
      objectSubtype := 0x00000023
      flags := 3
      level := 0
      footer := some { nodeSize := 4096, keySize := 16, valueSize := 16 }
      entries := [{
        keyData := littleEndianBytes 8 5 ++ littleEndianBytes 8 0
        valueData := littleEndianBytes 4 8192 ++ littleEndianBytes 4 0 ++ littleEndianBytes 8 (2 ^ 64 - 1) }] }
  | _ => fail .readFailed

def lastExtent : SealedExtent where
  identifier := 5
  logicalOffset := 0
  dataSize := 8192
  physicalBlockNumber := 2 ^ 64 - 1

def lastTree : SealedExtentTree where
  blockSize := 4096
  rootNodeBlockNumber := 1
  entries := [lastExtent]
  isBuilt := true

theorem lastTree_built : build lastBlock (create 4096 1) = (.ok (), lastTree) := by
  have read : readNode lastBlock (maximumBtreeNodeRecursionDepth + 1) 1 (create 4096 1) =
      (.ok (), { create 4096 1 with entries := [lastExtent] }) := rfl
  unfold build
  rw [Call.self_bind, if_neg (by decide), if_neg (by decide)]
  refine (Call.bind_of_ok read _).trans ?_
  change ((.ok () : Result Unit), sortEntries { create 4096 1 with entries := [lastExtent] }) = _
  simp [sortEntries, lastTree, create]

theorem lastTree_stored (extent : SealedExtent) : StoredExtent lastBlock 1 extent ↔ extent = lastExtent :=
  ((build_entries lastTree_built).2.2.2 extent).symm.trans List.mem_singleton

def treeNode (flags level : Nat) (entries : List BtreeEntry) : BtreeNode where
  objectType := 0x40000003
  objectSubtype := 0x00000023
  flags := flags
  level := level
  footer := none
  entries := entries

def leafEntry (extent : SealedExtent) : BtreeEntry where
  keyData := littleEndianBytes 8 extent.identifier ++ littleEndianBytes 8 extent.logicalOffset
  valueData := littleEndianBytes 8 extent.dataSize ++ littleEndianBytes 8 extent.physicalBlockNumber

def branchEntry (identifier blockNumber : Nat) : BtreeEntry where
  keyData := littleEndianBytes 8 identifier ++ littleEndianBytes 8 0
  valueData := littleEndianBytes 8 blockNumber

def branchedEntries : List SealedExtent := [⟨5, 0, 8192, 20⟩, ⟨5, 8192, 4096, 40⟩, ⟨6, 0, 4096, 60⟩]

/-- A branch node whose leaves are not in the order of their extents. -/
def branched : Nat → Result BtreeNode
  | 1 => .ok (treeNode 0 1 [branchEntry 6 3, branchEntry 5 2])
  | 2 => .ok (treeNode 2 0 [leafEntry ⟨5, 0, 8192, 20⟩, leafEntry ⟨5, 8192, 4096, 40⟩])
  | 3 => .ok (treeNode 2 0 [leafEntry ⟨6, 0, 4096, 60⟩])
  | _ => fail .readFailed

def branchedTree : SealedExtentTree where
  blockSize := 4096
  rootNodeBlockNumber := 1
  entries := branchedEntries
  isBuilt := true

theorem branchedTree_built : build branched (create 4096 1) = (.ok (), branchedTree) := by
  have read : readNode branched (maximumBtreeNodeRecursionDepth + 1) 1 (create 4096 1) =
      (.ok (), { create 4096 1 with entries := [⟨6, 0, 4096, 60⟩, ⟨5, 0, 8192, 20⟩, ⟨5, 8192, 4096, 40⟩] }) := rfl
  unfold build
  rw [Call.self_bind, if_neg (by decide), if_neg (by decide)]
  refine (Call.bind_of_ok read _).trans ?_
  change ((.ok () : Result Unit), sortEntries _) = _
  simp [sortEntries, branchedTree, branchedEntries, create, List.mergeSort, List.MergeSort.Internal.splitInTwo,
    entryCompare, atMost]

theorem branchedTree_stored (extent : SealedExtent) : StoredExtent branched 1 extent ↔ extent ∈ branchedEntries :=
  ((build_entries branchedTree_built).2.2.2 extent).symm

theorem branchedTree_apart : Apart (StoredExtent branched 1) where
  positive extent stored := (by decide : ∀ extent ∈ branchedEntries, 0 < extent.dataSize) extent
    ((branchedTree_stored extent).mp stored)
  apart extent extent' stored stored' :=
    (by decide : ∀ extent ∈ branchedEntries, ∀ extent' ∈ branchedEntries, extent.identifier = extent'.identifier →
      extent = extent' ∨ extent.logicalOffset + extent.dataSize ≤ extent'.logicalOffset ∨
        extent'.logicalOffset + extent'.dataSize ≤ extent.logicalOffset) extent ((branchedTree_stored extent).mp stored)
      extent' ((branchedTree_stored extent').mp stored')

end Sample

/-- The second block of the first extent, the extent behind it, and no extent behind that. -/
theorem lookup_inverts_sample : build Sample.branched (create 4096 1) = (.ok (), Sample.branchedTree) ∧
    Sample.branchedTree.lookup 5 4096 = .ok (some (21, 4096)) ∧
    Sample.branchedTree.lookup 5 8192 = .ok (some (40, 4096)) ∧
    Sample.branchedTree.lookup 5 12288 = .ok none := by
  have inverts := lookup_inverts Sample.branchedTree_built Sample.branchedTree_apart
  refine ⟨Sample.branchedTree_built, ((inverts 5 4096).1 21 4096).mpr ?_, ((inverts 5 8192).1 40 4096).mpr ?_,
    (inverts 5 12288).2 fun extent stored => ?_⟩
  · exact ⟨⟨5, 0, 8192, 20⟩, (Sample.branchedTree_stored _).mpr (by decide), ⟨rfl, by decide, by decide⟩, by decide,
      by decide, by decide⟩
  · exact ⟨⟨5, 8192, 4096, 40⟩, (Sample.branchedTree_stored _).mpr (by decide), ⟨rfl, by decide, by decide⟩, by decide,
      by decide, by decide⟩
  · rintro ⟨same, first, inside⟩
    have behind : ∀ extent ∈ Sample.branchedEntries, extent.identifier = 5 →
        extent.logicalOffset + extent.dataSize ≤ 12288 := by decide
    have := behind extent ((Sample.branchedTree_stored extent).mp stored) same
    omega

/-- After the last of all block numbers comes block 0. -/
theorem lookup_wraps : build Sample.lastBlock (create 4096 1) = (.ok (), Sample.lastTree) ∧
    StoredExtent Sample.lastBlock 1 Sample.lastExtent ∧ SealedExtent.Holds Sample.lastExtent 5 4096 ∧
    Sample.lastTree.lookup 5 4096 = .ok (some (0, 4096)) ∧
    0 ≠ Sample.lastExtent.physicalBlockNumber + (4096 - Sample.lastExtent.logicalOffset) / 4096 :=
  ⟨Sample.lastTree_built, (Sample.lastTree_stored _).mpr rfl, ⟨rfl, by decide, by decide⟩, by decide, by decide⟩

end SealedExtentTree

end Fsapfs
