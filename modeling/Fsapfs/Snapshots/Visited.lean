import Fsapfs.Snapshots.Room

namespace Fsapfs.SnapshotMetadataTree
open Program NodeCache

variable {nodes : Nat → Result BtreeNode} {tree tree' : SnapshotMetadataTree} {objectMapBtree : ObjectMapBtree}
  {transactionIdentifier : Nat}

/-- There is room in the cache at every branch of the tree at a block. -/
def RoomyTree (nodes : Nat → Result BtreeNode) (tree : SnapshotMetadataTree) (transactionIdentifier : Nat)
    (capacity : Option Nat) (blockNumber : Nat) : Prop :=
  ∀ below, Relation.ReflTransGen (Child nodes tree transactionIdentifier) blockNumber below →
    Roomy nodes tree transactionIdentifier capacity below

theorem getSubNode_visits (parsed : Parsed nodes) (sound : Sound nodes objectMapBtree tree) {blockNumber : Nat}
    {reference : NodeReference} (run : (cachedNodes nodes).getSubNode blockNumber tree = (.ok reference, tree')) :
    Visits (· = blockNumber) tree.nodeCache tree'.nodeCache ∧ reference.value.blockNumber = blockNumber ∧
      Spans (fun _ => False) reference tree'.nodeCache := by
  rcases getSubNode_run parsed sound.coherent blockNumber with ⟨_, failed, _⟩ | ⟨value, got, _, rfl, _, _⟩
  · cases failed.symm.trans run
  · cases got.symm.trans run
    exact ⟨visits_access value, rfl, spans_access value⟩

theorem useNode_ok {reference : NodeReference} (run : (cachedNodes nodes).useNode reference tree = (.ok (), tree')) :
    reference.value ∈ tree.nodeCache.values ∧ tree' = { tree with nodeCache := use reference tree.nodeCache } := by
  change onCache (useNode reference) tree = _ at run
  unfold onCache useNode at run
  rw [Call.update_bind, Call.self_bind] at run
  by_cases live : reference.value ∈ (use reference tree.nodeCache).values
  · rw [if_pos live] at run
    exact ⟨live, (congrArg Prod.snd run).symm⟩
  · rw [if_neg live] at run
    cases run

end Fsapfs.SnapshotMetadataTree

namespace Fsapfs.SnapshotListing
open Program SnapshotMetadataTree NodeCache

variable {nodes : Nat → Result BtreeNode} {tree : SnapshotMetadataTree} {transactionIdentifier : Nat}
  {capacity : Option Nat} {listing listing' : SnapshotListing} {found : Bool}

theorem appendLeafSnapshots_tree {before : Bool} {entries : List BtreeEntry}
    (run : appendLeafSnapshots before entries listing = (.ok found, listing')) : listing'.tree = listing.tree := by
  induction entries generalizing before listing with
  | nil =>
      cases run
      rfl
  | cons entry entries ih =>
      obtain ⟨_, _, read, rest⟩ := Call.bind_ok run
      obtain ⟨_, rfl⟩ := Call.lift_ok read
      split at rest
      · exact ih rest
      · obtain ⟨metadata, _, read, appended⟩ := Call.bind_ok rest
        obtain ⟨_, rfl⟩ := Call.lift_ok read
        rw [Call.update_bind] at appended
        have same : listing'.tree = (append metadata _).tree := ih appended
        exact same

theorem getSnapshotsFromLeafNode_visits {reference : NodeReference}
    (run : getSnapshotsFromLeafNode (cachedNodes nodes) reference listing = (.ok found, listing')) :
    Visits (fun _ => False) listing.tree.nodeCache listing'.tree.nodeCache := by
  obtain ⟨_, _, used, run⟩ := Call.bind_ok (emptyOnError_ok run)
  obtain ⟨tree', use, rfl⟩ := onTree_ok used
  obtain ⟨_, rfl⟩ := useNode_ok use
  split at run
  · exact visits_nothing (by rw [appendLeafSnapshots_tree run]; rfl)
  · cases run

/-- What a listing that goes on from a block and succeeds says of the tree at the block: the listing visited all of
it, and there was room for it. -/
def Succeeds (nodes : Nat → Result BtreeNode) (tree : SnapshotMetadataTree) (transactionIdentifier : Nat)
    (capacity : Option Nat) (blockNumber : Nat) (next : ListingCall Bool) : Prop :=
  ∀ listing found listing', Current nodes tree capacity listing → next listing = (.ok found, listing') →
    Later nodes listing.tree listing'.tree ∧
      Visits (Relation.ReflTransGen (Child nodes tree transactionIdentifier) blockNumber) listing.tree.nodeCache
        listing'.tree.nodeCache ∧
      RoomyTree nodes tree transactionIdentifier capacity blockNumber

section branch

variable {reference : NodeReference} {next : Nat → ListingCall Bool}

theorem under_cons {entry : BtreeEntry} {entries : List BtreeEntry} {subNodeBlockNumber : Nat}
    (resolves : getSubNodeBlockNumberFromEntry nodes tree entry transactionIdentifier = .ok (some subNodeBlockNumber))
    (blockNumber : Nat) : Under nodes tree transactionIdentifier (entry :: entries) blockNumber ↔
      Relation.ReflTransGen (Child nodes tree transactionIdentifier) subNodeBlockNumber blockNumber ∨
        Under nodes tree transactionIdentifier entries blockNumber := by
  unfold Under
  simp [resolves]

theorem under_append {entries entries' : List BtreeEntry} (blockNumber : Nat) :
    Under nodes tree transactionIdentifier (entries ++ entries') blockNumber ↔
      Under nodes tree transactionIdentifier entries blockNumber ∨
        Under nodes tree transactionIdentifier entries' blockNumber := by
  unfold Under
  simp only [List.mem_append, or_and_right, exists_or]

theorem visitEntries_visits
    (continues : ∀ blockNumber, Succeeds nodes tree transactionIdentifier capacity blockNumber (next blockNumber))
    {before entries : List BtreeEntry} {found' : Bool} (current : Current nodes tree capacity listing)
    (holds : Holds nodes reference listing.tree)
    (spans : Spans (Under nodes tree transactionIdentifier before) reference listing.tree.nodeCache)
    (acyclic : ¬Under nodes tree transactionIdentifier (before ++ entries) reference.value.blockNumber)
    (run : visitEntries (cachedNodes nodes) nodes transactionIdentifier next reference found entries listing =
      (.ok found', listing')) :
    Later nodes listing.tree listing'.tree ∧
      Visits (Under nodes tree transactionIdentifier entries) listing.tree.nodeCache listing'.tree.nodeCache ∧
      (entries ≠ [] → Few capacity (Under nodes tree transactionIdentifier (before ++ entries).dropLast)) ∧
      ∀ entry ∈ entries, ∀ blockNumber,
        getSubNodeBlockNumberFromEntry nodes tree entry transactionIdentifier = .ok (some blockNumber) →
        RoomyTree nodes tree transactionIdentifier capacity blockNumber := by
  induction entries generalizing before found listing with
  | nil =>
      cases run
      exact ⟨(SnapshotMetadataTree.guard nodes).refl _, (visits_nothing rfl).congr (by simp [Under]), by simp, by simp⟩
  | cons entry entries ih =>
      obtain ⟨_, _, used, run⟩ := Call.bind_ok run
      obtain ⟨tree', use, rfl⟩ := onTree_ok used
      obtain ⟨live, rfl⟩ := useNode_ok use
      have few := spans.few (fun under => acyclic ((under_append _).mpr (Or.inl under))) live
      rw [current.capacity] at few
      have used' := (useNode_run holds).1
      have current' : Current nodes tree capacity { listing with tree := _ } := current.later used'
      obtain ⟨_, _, checked, run⟩ := Call.bind_ok run
      obtain ⟨_, rfl⟩ := Call.lift_ok checked
      rw [Call.self_bind] at run
      obtain ⟨resolved, _, lifted, run⟩ := Call.bind_ok run
      obtain ⟨resolution, rfl⟩ := Call.lift_ok lifted
      cases resolved with
      | none => cases run
      | some blockNumber =>
          obtain ⟨result, after, visited, run⟩ := Call.bind_ok run
          have resolves : getSubNodeBlockNumberFromEntry nodes tree entry transactionIdentifier =
              .ok (some blockNumber) := by
            rw [← resolution]
            unfold getSubNodeBlockNumberFromEntry
            rw [current'.sound.objectMap]
          obtain ⟨later, visits, roomy⟩ := continues blockNumber _ _ _ current' visited
          have spans' : Spans (Under nodes tree transactionIdentifier (before ++ [entry])) reference
              after.tree.nodeCache := by
            refine (Spans.visits spans visits).congr fun below => ?_
            rw [under_append, under_cons resolves]
            simp [Under]
          have split : before ++ entry :: entries = (before ++ [entry]) ++ entries := by simp
          obtain ⟨later', visits', few', roomy'⟩ := ih (current'.later later) ((holds.later used').later later) spans'
            (split ▸ acyclic) run
          refine ⟨(SnapshotMetadataTree.guard nodes).trans used' ((SnapshotMetadataTree.guard nodes).trans later later'),
            (visits.trans visits').congr fun below => (under_cons resolves below).symm, fun _ => ?_, ?_⟩
          · cases entries with
            | nil => rwa [List.dropLast_concat]
            | cons next entries =>
                rw [split]
                exact few' (List.cons_ne_nil next entries)
          · refine List.forall_mem_cons.mpr ⟨fun blockNumber' resolves' => ?_, roomy'⟩
            obtain rfl : blockNumber = blockNumber' := by simpa using resolves.symm.trans resolves'
            exact roomy

theorem leaf_below {blockNumber : Nat} {node : BtreeNode} (stored : nodes blockNumber = .ok node)
    (leaf : node.isLeafNode) (below : Nat) :
    ¬Relation.TransGen (Child nodes tree transactionIdentifier) blockNumber below := by
  intro path
  obtain ⟨_, ⟨node', _, read, branch, _⟩, _⟩ := Relation.TransGen.head'_iff.mp path
  cases stored.symm.trans read
  exact absurd leaf (by simp [branch])

theorem branch_below {blockNumber : Nat} {node : BtreeNode} (stored : nodes blockNumber = .ok node)
    (branch : node.isLeafNode = false) (below : Nat) :
    Under nodes tree transactionIdentifier node.entries below ↔
      Relation.TransGen (Child nodes tree transactionIdentifier) blockNumber below := by
  rw [Relation.TransGen.head'_iff]
  constructor
  · rintro ⟨entry, member, child, resolves, path⟩
    exact ⟨child, ⟨node, entry, stored, branch, member, resolves⟩, path⟩
  · rintro ⟨child, ⟨node', entry, read, _, member, resolves⟩, path⟩
    cases stored.symm.trans read
    exact ⟨entry, member, child, resolves, path⟩

theorem getSnapshotsFromNode_visits
    (continues : ∀ blockNumber, Succeeds nodes tree transactionIdentifier capacity blockNumber (next blockNumber))
    (current : Current nodes tree capacity listing) (holds : Holds nodes reference listing.tree)
    (spans : Spans (fun _ => False) reference listing.tree.nodeCache)
    (acyclic : ¬Relation.TransGen (Child nodes tree transactionIdentifier) reference.value.blockNumber
      reference.value.blockNumber)
    (run : getSnapshotsFromNode (cachedNodes nodes) nodes transactionIdentifier next reference listing =
      (.ok found, listing')) :
    Visits (Relation.TransGen (Child nodes tree transactionIdentifier) reference.value.blockNumber)
        listing.tree.nodeCache listing'.tree.nodeCache ∧
      RoomyTree nodes tree transactionIdentifier capacity reference.value.blockNumber := by
  have stored := holds.checked.stored
  have room : capacity ≠ some 0 := current.capacity ▸ holds.valid.room
  have node : (cachedNodes nodes).node reference = reference.value.node := rfl
  unfold getSnapshotsFromNode getSnapshotsFromBranchNode at run
  rw [node] at run
  by_cases leaf : reference.value.node.isLeafNode
  · rw [if_pos leaf] at run
    refine ⟨(getSnapshotsFromLeafNode_visits run).congr fun below => ?_, fun below path node' read branch => ?_⟩
    · exact ⟨fun impossible => impossible.elim, leaf_below stored leaf below⟩
    · rcases Relation.reflTransGen_iff_eq_or_transGen.mp path with rfl | path
      · cases stored.symm.trans read
        exact absurd leaf (by simp [branch])
      · exact (leaf_below stored leaf below path).elim
  · have branch : reference.value.node.isLeafNode = false := by simpa using leaf
    rw [if_neg leaf, if_neg leaf] at run
    have start : Spans (Under nodes tree transactionIdentifier []) reference listing.tree.nodeCache :=
      spans.congr (by simp [Under])
    have acyclic' : ¬Under nodes tree transactionIdentifier ([] ++ reference.value.node.entries)
        reference.value.blockNumber := fun under => acyclic ((branch_below stored branch _).mp under)
    obtain ⟨_, visits, few, roomy⟩ := visitEntries_visits continues current holds start acyclic' (emptyOnError_ok run)
    refine ⟨visits.congr (branch_below stored branch), fun below path => ?_⟩
    rcases Relation.ReflTransGen.cases_head path with rfl | ⟨child, ⟨node', entry, read, _, member, resolves⟩, path⟩
    · intro node' read _
      cases stored.symm.trans read
      cases empty : reference.value.node.entries with
      | nil => exact few_none room fun _ under => by simp [Under] at under
      | cons entry entries =>
          rw [empty] at few
          exact few (List.cons_ne_nil entry entries)
    · cases stored.symm.trans read
      exact roomy entry member child resolves below path

end branch

theorem getSnapshotsFromSubNode_ok {depth blockNumber : Nat}
    (ih : ∀ depth' < depth, ∀ blockNumber, Succeeds nodes tree transactionIdentifier capacity blockNumber
      (getSnapshotsFromSubNode (cachedNodes nodes) nodes transactionIdentifier depth' blockNumber))
    (run : getSnapshotsFromSubNode (cachedNodes nodes) nodes transactionIdentifier depth blockNumber listing =
      (.ok found, listing')) :
    ∃ (reference : NodeReference) (tree' : SnapshotMetadataTree) (next : Nat → ListingCall Bool),
      (cachedNodes nodes).getSubNode blockNumber listing.tree = (.ok reference, tree') ∧
        (∀ blockNumber, Succeeds nodes tree transactionIdentifier capacity blockNumber (next blockNumber)) ∧
        getSnapshotsFromNode (cachedNodes nodes) nodes transactionIdentifier next reference
          { listing with tree := tree' } = (.ok found, listing') := by
  cases depth with
  | zero =>
      obtain ⟨reference, _, got, whole⟩ := Call.bind_ok run
      obtain ⟨tree', ran, rfl⟩ := onTree_ok got
      refine ⟨reference, tree', fun _ => Call.lift (fail .valueOutOfBounds), ran, ?_, ?_⟩
      · rintro blockNumber listing found listing' _ ⟨⟩
      · split at whole
        next leaf =>
          unfold getSnapshotsFromNode
          rwa [if_pos leaf]
        next => cases whole
  | succ depth =>
      obtain ⟨reference, _, got, whole⟩ := Call.bind_ok run
      obtain ⟨tree', ran, rfl⟩ := onTree_ok got
      exact ⟨reference, tree', _, ran, ih depth (Nat.lt_succ_self depth), whole⟩

theorem getSnapshotsFromSubNode_visits (parsed : Parsed nodes) (depth blockNumber : Nat) :
    Succeeds nodes tree transactionIdentifier capacity blockNumber
      (getSnapshotsFromSubNode (cachedNodes nodes) nodes transactionIdentifier depth blockNumber) := by
  induction depth using Nat.strongRecOn generalizing blockNumber with
  | ind depth ih =>
      intro listing found listing' current run
      have later : Later nodes listing.tree listing'.tree := by
        have defined := (getSnapshotsFromSubNode_defined parsed transactionIdentifier depth blockNumber
          current.sound).1
        rwa [run] at defined
      have acyclic := finishes_acyclic (finishes_child parsed) (.of_run current.sound run) .refl
      obtain ⟨reference, tree', next, ran, continues, whole⟩ := getSnapshotsFromSubNode_ok ih run
      obtain ⟨visits, rfl, spans⟩ := getSubNode_visits parsed current.sound ran
      obtain ⟨later', holds, _⟩ := getSubNode_ok parsed current.sound ran
      have current' : Current nodes tree capacity { listing with tree := tree' } := current.later later'
      obtain ⟨visits', roomy⟩ := getSnapshotsFromNode_visits continues current' holds spans acyclic whole
      refine ⟨later, (visits.trans visits').congr fun below => ?_, roomy⟩
      exact Relation.reflTransGen_iff_eq_or_transGen.symm

end Fsapfs.SnapshotListing
