import Fsapfs.Snapshots.Visited
import Fsapfs.Snapshots.Lookup

namespace Fsapfs.SnapshotMetadataTree
open Program NodeCache
open FileSystemBtree (sameKey)

variable {nodes : Nat → Result BtreeNode} {tree : SnapshotMetadataTree} {transactionIdentifier : Nat}

theorem getRootNode_placed {objectMapBtree : ObjectMapBtree} (parsed : Parsed nodes)
    (sound : Sound nodes objectMapBtree tree) {blockNumber : Nat} {root : BtreeNode}
    (physical : rootNodePhysicalBlockNumber nodes tree transactionIdentifier = .ok blockNumber)
    (inside : blockNumber ≤ intMax) (read : readRootNode nodes blockNumber = .ok (some root))
    (placed : blockNumber = tree.rootNodeBlockNumber ∨ Cached tree blockNumber) :
    ∃ reference tree', getRootNode nodes transactionIdentifier tree = (.ok (some reference), tree') ∧
      reference.value.blockNumber = blockNumber ∧ reference.value.node = root := by
  obtain ⟨_, run⟩ := getRootNode_run parsed sound.valid sound.coherent transactionIdentifier
  generalize getRootNode nodes transactionIdentifier tree = ended at run ⊢
  have misplaced : ∀ {blockNumber'}, rootNodePhysicalBlockNumber nodes tree transactionIdentifier = .ok blockNumber' →
      blockNumber' ≠ tree.rootNodeBlockNumber → ¬Cached tree blockNumber' → False := by
    intro blockNumber' physical' translated absent
    cases physical.symm.trans physical'
    exact placed.elim translated absent
  cases run with
  | unresolved code code' tree' physical' => cases physical.symm.trans physical'
  | outside code tree' physical' beyond =>
      cases physical.symm.trans physical'
      exact absurd inside (Nat.not_le.mpr beyond)
  | unreadable code code' tree' physical' read' =>
      cases physical.symm.trans physical'
      cases read.symm.trans read'
  | unused tree' physical' _ read' =>
      cases physical.symm.trans physical'
      cases read.symm.trans read'
  | misplaced code tree' physical' translated absent => exact (misplaced physical' translated absent).elim
  | mistaken reference tree' physical' translated absent => exact (misplaced physical' translated absent).elim
  | found reference tree' physical' _ holds =>
      cases physical.symm.trans physical'
      refine ⟨reference, tree', rfl, rfl, ?_⟩
      exact Except.ok.inj (holds.checked.stored.symm.trans (readRootNode_ok read).1)

theorem getRootNode_misplaced {blockNumber : Nat} {root : BtreeNode}
    (physical : rootNodePhysicalBlockNumber nodes tree transactionIdentifier = .ok blockNumber)
    (inside : blockNumber ≤ intMax) (read : readRootNode nodes blockNumber = .ok (some root))
    (translated : blockNumber ≠ tree.rootNodeBlockNumber) (absent : ¬Cached tree blockNumber)
    (other : ¬Cached tree tree.rootNodeBlockNumber) :
    ∃ tree', getRootNode nodes transactionIdentifier tree = (fail .getFailed, tree') := by
  let value : CachedNode := { blockNumber, serial := tree.nodeCache.accesses.length, node := root }
  have missing : tree.nodeCache.getValue blockNumber = none := by
    refine List.find?_eq_none.mpr fun other member same => ?_
    exact absent ⟨other, member, by simpa using same⟩
  have lost : (access value tree.nodeCache).getValue tree.rootNodeBlockNumber = none := by
    refine List.find?_eq_none.mpr fun found member same => ?_
    have number : found.blockNumber = tree.rootNodeBlockNumber := by simpa using same
    rcases mem_access member with rfl | ⟨before, _⟩
    · exact translated number
    · exact other ⟨found, before, number⟩
  have stored : storeRootNode blockNumber tree.rootNodeBlockNumber root tree.nodeCache =
      (fail .getFailed, access value tree.nodeCache) := storeRootNode_lost lost
  refine ⟨{ tree with nodeCache := access value tree.nodeCache }, ?_⟩
  unfold getRootNode
  rw [Call.self_bind, physical, Call.bind_of_ok (Call.lift_run _ _), if_neg (Nat.not_lt.mpr inside)]
  unfold onCache
  simp only [Call.self_bind]
  rw [missing, read]
  change ((storeRootNode blockNumber tree.rootNodeBlockNumber root tree.nodeCache).1,
    { tree with nodeCache := (storeRootNode blockNumber tree.rootNodeBlockNumber root tree.nodeCache).2 }) = _
  rw [stored]

end Fsapfs.SnapshotMetadataTree

namespace Fsapfs.SnapshotListing
open Program SnapshotMetadataTree NodeCache
open FileSystemBtree (sameKey)

variable {nodes : Nat → Result BtreeNode} {transactionIdentifier : Nat} {listing : SnapshotListing}

theorem emptyOnError_tree {α : Type} (call : ListingCall α) (listing : SnapshotListing) :
    (emptyOnError call listing).2.tree = (call listing).2.tree := by
  unfold emptyOnError
  split
  next run => rw [run]
  next run =>
    rw [run]
    rfl

theorem emptyOnError_failed {α : Type} {call : ListingCall α} {code : ErrorCode}
    (failed : (emptyOnError call listing).1 = fail code) : (emptyOnError call listing).2.snapshots = [] := by
  unfold emptyOnError at *
  split
  next run =>
    rw [run] at failed
    cases failed
  next => rfl

theorem getSnapshots_undropped (parsed : Parsed nodes) {capacity : Option Nat} {tree' : SnapshotMetadataTree}
    {reference : NodeReference} (current : Current nodes listing.tree capacity listing)
    (undropped : listing.tree.nodeCache.Undropped)
    (rooted : getRootNode nodes transactionIdentifier listing.tree = (.ok (some reference), tree'))
    (roomy : RoomyTree nodes listing.tree transactionIdentifier capacity reference.value.blockNumber) :
    (getSnapshots (cachedNodes nodes) nodes transactionIdentifier listing).2.tree.nodeCache.Undropped := by
  obtain ⟨later, holds⟩ := getRootNode_holds parsed current.sound rooted
  obtain ⟨undropped', last⟩ := getRootNode_last current.sound.valid undropped rooted
  have sound' := current.sound.later later
  have current' : Current nodes listing.tree capacity { listing with tree := tree' } :=
    ⟨sound', later.grows.capacity.trans current.capacity⟩
  have moves := getSnapshotsFromNode_moves holds.checked.stored (roomy _ .refl)
    (fun child edge => getSnapshotsFromSubNode_moves parsed maximumBtreeNodeRecursionDepth child fun below path =>
      roomy below (.head edge path)) current' ⟨holds, last.since⟩
  have rooted' : onTree ((cachedNodes nodes).getRootNode transactionIdentifier) listing =
      (.ok (some reference), { listing with tree := tree' }) := by
    have run : (cachedNodes nodes).getRootNode transactionIdentifier listing.tree = _ := rooted
    unfold onTree
    rw [run]
  have run : (getSnapshots (cachedNodes nodes) nodes transactionIdentifier listing).2.tree =
      (getSnapshotsFromNode (cachedNodes nodes) nodes transactionIdentifier
        (getSnapshotsFromSubNode (cachedNodes nodes) nodes transactionIdentifier maximumBtreeNodeRecursionDepth)
        reference { listing with tree := tree' }).2.tree := by
    unfold getSnapshots getSnapshotsWithin
    rw [emptyOnError_tree, Call.bind_of_ok rooted']
  rw [run]
  exact (show Tame nodes _ tree' _ from moves).within.undropped sound'.valid undropped'

theorem getSnapshots_roomy (parsed : Parsed nodes) {capacity : Option Nat} {tree' : SnapshotMetadataTree}
    {reference : NodeReference} (current : Current nodes listing.tree capacity listing)
    (undropped : listing.tree.nodeCache.Undropped)
    (rooted : getRootNode nodes transactionIdentifier listing.tree = (.ok (some reference), tree')) {found : Bool}
    (ended : (getSnapshots (cachedNodes nodes) nodes transactionIdentifier listing).1 = .ok found) :
    RoomyTree nodes listing.tree transactionIdentifier capacity reference.value.blockNumber := by
  obtain ⟨later, holds⟩ := getRootNode_holds parsed current.sound rooted
  obtain ⟨_, last⟩ := getRootNode_last current.sound.valid undropped rooted
  have current' : Current nodes listing.tree capacity { listing with tree := tree' } := current.later later
  have acyclic : ¬Relation.TransGen (Child nodes listing.tree transactionIdentifier) reference.value.blockNumber
      reference.value.blockNumber := fun back => getSnapshots_acyclic parsed current.sound rooted .refl back found ended
  have run : getSnapshots (cachedNodes nodes) nodes transactionIdentifier listing =
      (.ok found, (getSnapshots (cachedNodes nodes) nodes transactionIdentifier listing).2) := Prod.ext ended rfl
  obtain ⟨_, _, got, whole⟩ := Call.bind_ok (emptyOnError_ok run)
  obtain ⟨_, rooted', rfl⟩ := onTree_ok got
  cases rooted.symm.trans rooted'
  have spans : Spans (fun _ => False) reference tree'.nodeCache := by
    obtain ⟨recently, earlier, eq, _, none⟩ := last.since
    exact ⟨recently, earlier, eq, fun blockNumber => ⟨none blockNumber, fun impossible => impossible.elim⟩⟩
  exact (getSnapshotsFromNode_visits
    (fun blockNumber => getSnapshotsFromSubNode_visits parsed maximumBtreeNodeRecursionDepth blockNumber)
    current' holds spans acyclic whole).2

/-- What a listing of an empty array gives that is complete. -/
def Complete (entries : List BtreeEntry) (ended : Result Bool × SnapshotListing) : Prop :=
  ended.1 = .ok !(metadataOf entries).isEmpty ∧ ended.2.snapshots = metadataOf entries

theorem getSnapshots_unrooted {code : ErrorCode} {tree' : SnapshotMetadataTree}
    (failed : getRootNode nodes transactionIdentifier listing.tree = (fail code, tree')) :
    (getSnapshots (cachedNodes nodes) nodes transactionIdentifier listing).1 = fail code := by
  have failed' : onTree ((cachedNodes nodes).getRootNode transactionIdentifier) listing =
      (fail code, { listing with tree := tree' }) := by
    have run : (cachedNodes nodes).getRootNode transactionIdentifier listing.tree = _ := failed
    unfold onTree
    rw [run]
  unfold getSnapshots getSnapshotsWithin emptyOnError
  rw [Call.bind_of_error failed']
  rfl

theorem getSnapshots_whole (parsed : Parsed nodes) {objectMapBtree : ObjectMapBtree} {tree tree' : SnapshotMetadataTree}
    (sound : Sound nodes objectMapBtree tree) {reference : NodeReference}
    (rooted : getRootNode nodes transactionIdentifier tree = (.ok (some reference), tree')) {height : Nat}
    {metadataTree : SearchTree BtreeEntry height}
    (stored : (layout nodes objectMapBtree transactionIdentifier).Stored metadataTree reference.value.node)
    (headed : metadataTree.Headed sameKey) (limited : height ≤ maximumBtreeNodeRecursionDepth + 1)
    (decodes : Decodes metadataTree.items)
    (undropped : (getSnapshots (cachedNodes nodes) nodes transactionIdentifier
      { tree, snapshots := [] }).2.tree.nodeCache.Undropped) :
    Complete metadataTree.items
      (getSnapshots (cachedNodes nodes) nodes transactionIdentifier { tree, snapshots := [] }) := by
  have listed := @getSnapshots_rooted _ _ _ parsed { tree, snapshots := [] } sound _ _ rooted _ _ stored headed
  generalize getSnapshots (cachedNodes nodes) nodes transactionIdentifier { tree, snapshots := [] } = ended at *
  rcases listed with spoiled | read | refused
  · exact (spoiled.2 undropped).elim
  · exact read.2
  · exact (refused.1 ⟨limited, decodes⟩).elim

section complete

variable {objectMapBtree : ObjectMapBtree} {capacity : Option Nat} {tree : SnapshotMetadataTree}
  {rootNodeBlockNumber blockNumber : Nat} {root : BtreeNode} {height : Nat} {metadataTree : SearchTree BtreeEntry height}

theorem complete_of_roomy (parsed : Parsed nodes) (held : Handle nodes objectMapBtree rootNodeBlockNumber capacity tree)
    (physical : rootNodePhysicalBlockNumber nodes tree transactionIdentifier = .ok blockNumber)
    (inside : blockNumber ≤ intMax) (read : readRootNode nodes blockNumber = .ok (some root))
    (stored : (layout nodes objectMapBtree transactionIdentifier).Stored metadataTree root)
    (headed : metadataTree.Headed sameKey) (limited : height ≤ maximumBtreeNodeRecursionDepth + 1)
    (decodes : Decodes metadataTree.items) (placed : blockNumber = rootNodeBlockNumber ∨ Cached tree blockNumber)
    (roomy : RoomyTree nodes tree transactionIdentifier capacity blockNumber) :
    Complete metadataTree.items
      (getSnapshots (cachedNodes nodes) nodes transactionIdentifier { tree, snapshots := [] }) := by
  obtain ⟨reference, tree', rooted, number, node⟩ :=
    getRootNode_placed parsed held.sound physical inside read (held.rooted.symm ▸ placed)
  have current : Current nodes tree capacity { tree, snapshots := [] } :=
    ⟨held.sound.objectMap ▸ held.sound, held.capacity⟩
  rw [← number] at roomy
  have undropped := @getSnapshots_undropped nodes transactionIdentifier { tree, snapshots := [] } parsed _ _ _ current
    held.undropped rooted roomy
  rw [← node] at stored
  exact getSnapshots_whole parsed held.sound rooted stored headed limited decodes undropped

theorem roomy_of_complete (parsed : Parsed nodes) (held : Handle nodes objectMapBtree rootNodeBlockNumber capacity tree)
    (physical : rootNodePhysicalBlockNumber nodes tree transactionIdentifier = .ok blockNumber)
    (inside : blockNumber ≤ intMax) (read : readRootNode nodes blockNumber = .ok (some root))
    (known : (blockNumber = rootNodeBlockNumber ∨ Cached tree blockNumber) ∨ ¬Cached tree rootNodeBlockNumber)
    (complete : Complete metadataTree.items
      (getSnapshots (cachedNodes nodes) nodes transactionIdentifier { tree, snapshots := [] })) :
    (blockNumber = rootNodeBlockNumber ∨ Cached tree blockNumber) ∧
      RoomyTree nodes tree transactionIdentifier capacity blockNumber := by
  by_cases here : blockNumber = rootNodeBlockNumber ∨ Cached tree blockNumber
  · obtain ⟨reference, tree', rooted, number, _⟩ :=
      getRootNode_placed parsed held.sound physical inside read (held.rooted.symm ▸ here)
    have current : Current nodes tree capacity { tree, snapshots := [] } :=
      ⟨held.sound.objectMap ▸ held.sound, held.capacity⟩
    have roomy := getSnapshots_roomy parsed current held.undropped rooted complete.1
    rw [number] at roomy
    exact ⟨here, roomy⟩
  · have other := known.resolve_left here
    rw [← held.rooted] at other here
    obtain ⟨tree', failed⟩ := getRootNode_misplaced physical inside read (fun same => here (Or.inl same))
      (fun cached => here (Or.inr cached)) other
    have stopped := @getSnapshots_unrooted nodes transactionIdentifier { tree, snapshots := [] } _ _ failed
    cases stopped.symm.trans complete.1

end complete

/-- After any earlier calls a listing is complete just if its root node is in the block it is asked for, or still in
the cache, and there is room in the cache at every branch; unless another node is in the cache under the number of the
root node. -/
theorem getSnapshots_complete (libfcache : Libfcache) (parsed : Parsed nodes) {objectMapBtree : ObjectMapBtree}
    {capacity : Option Nat} (room : capacity ≠ some 0) {rootNodeBlockNumber : Nat} {earlier : List TreeRequest} {blockNumber : Nat}
    {root : BtreeNode} {height : Nat} {metadataTree : SearchTree BtreeEntry height}
    (physical : rootNodePhysicalBlockNumber nodes
      (handle libfcache nodes objectMapBtree rootNodeBlockNumber capacity earlier) transactionIdentifier = .ok blockNumber) (inside : blockNumber ≤ intMax)
    (read : readRootNode nodes blockNumber = .ok (some root))
    (stored : (layout nodes objectMapBtree transactionIdentifier).Stored metadataTree root)
    (headed : metadataTree.Headed sameKey) (limited : height ≤ maximumBtreeNodeRecursionDepth + 1)
    (decodes : Decodes metadataTree.items) :
    let tree := handle libfcache nodes objectMapBtree rootNodeBlockNumber capacity earlier
    let ended := getSnapshots (cachedNodes nodes) nodes transactionIdentifier { tree, snapshots := [] }
    let placed := blockNumber = rootNodeBlockNumber ∨ Cached tree blockNumber
    (placed ∧ RoomyTree nodes tree transactionIdentifier capacity blockNumber → Complete metadataTree.items ended) ∧
      (placed ∨ ¬Cached tree rootNodeBlockNumber → Complete metadataTree.items ended →
        placed ∧ RoomyTree nodes tree transactionIdentifier capacity blockNumber) ∧
      ∀ code, ended.1 = fail code → ended.2.snapshots = [] := by
  have held := @handle_held nodes objectMapBtree capacity libfcache parsed room rootNodeBlockNumber earlier
  refine ⟨fun whole => ?_, fun known complete => ?_, fun code failed => emptyOnError_failed failed⟩
  · exact complete_of_roomy parsed held physical inside read stored headed limited decodes whole.1 whole.2
  · exact roomy_of_complete parsed held physical inside read known complete

section
open SnapshotMetadataTree.Sample

theorem oneLeaf_roomy (objectIdentifier : Nat) (tree : SnapshotMetadataTree) (transactionIdentifier blockNumber : Nat) :
    RoomyTree (oneLeaf objectIdentifier) tree transactionIdentifier (some maximumCacheEntriesBtreeNodes) blockNumber := by
  intro below _ node stored branch
  have single : node.entries.dropLast = [] := by
    unfold oneLeaf at stored
    split at stored
    all_goals cases stored
    all_goals rfl
  refine few_none (by decide) fun blockNumber under => ?_
  obtain ⟨entry, member, _⟩ := single ▸ under
  cases member

theorem getSnapshots_complete_sample : Parsed (oneLeaf 3) ∧
    Complete [metadataEntry 1] (getSnapshots (cachedNodes (oneLeaf 3)) (oneLeaf 3) 1
      { tree := oneLeafHandle 3 [.getSnapshots 1 [], .getMetadataByObjectIdentifier 1 1], snapshots := [] }) :=
  ⟨oneLeaf_parsed 3, (getSnapshots_complete .lastAccess (oneLeaf_parsed 3)
    (by decide : some maximumCacheEntriesBtreeNodes ≠ some 0) rfl (by decide) rfl (oneLeaf_stored resolves_three) (oneLeaf_headed 3) (by decide)
    (List.forall_mem_singleton.mpr fun _ => ⟨metadata, rfl⟩)).1 ⟨Or.inl rfl, oneLeaf_roomy 3 _ 1 2⟩⟩

def translatedRoot : Nat → Result BtreeNode
  | 1 => .ok (FileSystemBtree.Sample.objectMapRoot [(9, 2)])
  | 2 => .ok (rootNode 3 0 [metadataEntry 1])
  | _ => fail .readFailed

def translatedHandle : SnapshotMetadataTree :=
  handle .lastAccess translatedRoot { rootNodeBlockNumber := 1 } 9 (some maximumCacheEntriesBtreeNodes) []

def translatedTree : SearchTree BtreeEntry 0 := [metadataEntry 1]

/-- The first listing of the tree fails: the root node is stored under 2 and fetched under 9. -/
theorem getSnapshots_incomplete :
    let tree := translatedHandle
    (rootNodePhysicalBlockNumber translatedRoot tree 1 = .ok 2 ∧
      readRootNode translatedRoot 2 = .ok (some (rootNode 3 0 [metadataEntry 1]))) ∧
    (layout translatedRoot { rootNodeBlockNumber := 1 } 1).Stored translatedTree (rootNode 3 0 [metadataEntry 1]) ∧ Decodes [metadataEntry 1] ∧
    (getSnapshots (cachedNodes translatedRoot) translatedRoot 1 { tree, snapshots := [] }).1 = fail .getFailed ∧
    ¬Complete [metadataEntry 1]
      (getSnapshots (cachedNodes translatedRoot) translatedRoot 1 { tree, snapshots := [] }) := by
  have failed : (getSnapshots (cachedNodes translatedRoot) translatedRoot 1
      { tree := translatedHandle, snapshots := [] }).1 =
      fail .getFailed := rfl
  refine ⟨⟨rfl, rfl⟩, ⟨rfl, rfl, show ∀ entry ∈ [metadataEntry 1], 8 ≤ entry.keyData.length by decide⟩,
    List.forall_mem_singleton.mpr fun _ => ⟨metadata, rfl⟩, failed, fun complete => ?_⟩
  cases failed.symm.trans complete.1

end

end Fsapfs.SnapshotListing
