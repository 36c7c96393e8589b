import Fsapfs.Btree.InodeLookup
import Fsapfs.FileData.SealedTree
import Fsapfs.Snapshots.Requests

namespace Fsapfs
open Program

namespace SnapshotMetadataTree

/-- A branch has an entry that the object map resolves to a block. -/
def Child (nodes : Nat → Result BtreeNode) (tree : SnapshotMetadataTree) (transactionIdentifier blockNumber
    subNodeBlockNumber : Nat) : Prop :=
  ∃ node entry, nodes blockNumber = .ok node ∧ node.isLeafNode = false ∧ entry ∈ node.entries ∧
    getSubNodeBlockNumberFromEntry nodes tree entry transactionIdentifier = .ok (some subNodeBlockNumber)

end SnapshotMetadataTree

namespace SnapshotListing
open SnapshotMetadataTree NodeCache

def getSnapshotsAlong {ρ : Type} (access : NodeAccess ρ) (nodes : Nat → Result BtreeNode) (transactionIdentifier : Nat)
    (watch : List Nat → Nat → Bool) : ListingCall Bool :=
  getSnapshotsWithin access nodes transactionIdentifier
    (descendAlong watch (getSnapshotsLimit access) (getSnapshotsBody access nodes transactionIdentifier)
      maximumBtreeNodeRecursionDepth [])

theorem getSnapshotsAlong_short {ρ : Type} (access : NodeAccess ρ) (nodes : Nat → Result BtreeNode)
    (transactionIdentifier : Nat) :
    getSnapshotsAlong access nodes transactionIdentifier (fun path _ => path.length ≤ maximumBtreeNodeRecursionDepth) =
      getSnapshots access nodes transactionIdentifier := by
  unfold getSnapshotsAlong getSnapshots
  generalize maximumBtreeNodeRecursionDepth = depth
  have same : descendAlong (fun path _ => path.length ≤ depth) (getSnapshotsLimit access)
      (getSnapshotsBody access nodes transactionIdentifier) depth [] =
        getSnapshotsFromSubNode access nodes transactionIdentifier depth := by
    funext subNodeBlockNumber
    simp only [← Nat.lt_succ_iff]
    exact descendAlong_short depth (by simp) subNodeBlockNumber
  rw [same]

variable {nodes : Nat → Result BtreeNode} {tree : SnapshotMetadataTree} {transactionIdentifier : Nat}

def Finishes (nodes : Nat → Result BtreeNode) (tree : SnapshotMetadataTree) (transactionIdentifier depth
    blockNumber : Nat) : Prop :=
  ∃ listing found listing', Sound nodes tree.objectMapBtree listing.tree ∧
    getSnapshotsFromSubNode (cachedNodes nodes) nodes transactionIdentifier depth blockNumber listing =
      (.ok found, listing')

theorem emptyOnError_ok {α : Type} {call : ListingCall α} {listing listing' : SnapshotListing} {a : α}
    (run : emptyOnError call listing = (.ok a, listing')) : call listing = (.ok a, listing') := by
  unfold emptyOnError at run
  split at run
  next run' => exact run'.trans run
  next => cases run

theorem onTree_ok {α : Type} {call : TreeCall α} {listing listing' : SnapshotListing} {a : α}
    (run : onTree call listing = (.ok a, listing')) :
    ∃ tree', call listing.tree = (.ok a, tree') ∧ listing' = { listing with tree := tree' } := by
  unfold onTree at run
  obtain ⟨value, rfl⟩ := Prod.mk.inj run
  exact ⟨_, Prod.ext value rfl, rfl⟩

theorem useNode_later {reference : NodeReference} {tree : SnapshotMetadataTree} (holds : Holds nodes reference tree) :
    Later nodes tree ((cachedNodes nodes).useNode reference tree).2 := by
  obtain ⟨later, run | ⟨run, _⟩⟩ := useNode_run holds
  · exact (congrArg Prod.snd run : ((cachedNodes nodes).useNode reference tree).2 = _) ▸ later
  · exact (congrArg Prod.snd run : ((cachedNodes nodes).useNode reference tree).2 = _) ▸ later

theorem Finishes.of_run {depth blockNumber : Nat} {listing listing' : SnapshotListing} {found : Bool}
    (sound : Sound nodes tree.objectMapBtree listing.tree)
    (run : getSnapshotsFromSubNode (cachedNodes nodes) nodes transactionIdentifier depth blockNumber listing =
      (.ok found, listing')) : Finishes nodes tree transactionIdentifier depth blockNumber :=
  ⟨listing, found, listing', sound, run⟩

theorem visitEntries_child (parsed : Parsed nodes) {depth : Nat} {reference : NodeReference} {entry : BtreeEntry}
    {blockNumber : Nat} (resolves : getSubNodeBlockNumberFromEntry nodes tree entry transactionIdentifier =
      .ok (some blockNumber))
    {entries : List BtreeEntry} (member : entry ∈ entries) {found found' : Bool} {listing listing' : SnapshotListing}
    (sound : Sound nodes tree.objectMapBtree listing.tree) (holds : Holds nodes reference listing.tree)
    (run : visitEntries (cachedNodes nodes) nodes transactionIdentifier
      (getSnapshotsFromSubNode (cachedNodes nodes) nodes transactionIdentifier depth) reference found entries listing =
        (.ok found', listing')) :
    Finishes nodes tree transactionIdentifier depth blockNumber := by
  induction entries generalizing found listing with
  | nil => cases member
  | cons first entries ih =>
      obtain ⟨_, _, used, run⟩ := Call.bind_ok run
      obtain ⟨tree', use, rfl⟩ := onTree_ok used
      have later : Later nodes listing.tree tree' := by
        have later := useNode_later holds
        rwa [use] at later
      have sound' := sound.later later
      obtain ⟨_, _, checked, run⟩ := Call.bind_ok run
      obtain ⟨_, rfl⟩ := Call.lift_ok checked
      rw [Call.self_bind] at run
      obtain ⟨resolved, _, lifted, run⟩ := Call.bind_ok run
      obtain ⟨resolution, rfl⟩ := Call.lift_ok lifted
      cases resolved with
      | none => cases run
      | some blockNumber' =>
          obtain ⟨result, after, visited, run⟩ := Call.bind_ok run
          rcases List.mem_cons.mp member with rfl | rest
          · have same : getSubNodeBlockNumberFromEntry nodes tree' entry transactionIdentifier =
                getSubNodeBlockNumberFromEntry nodes tree entry transactionIdentifier := by
              unfold getSubNodeBlockNumberFromEntry
              rw [sound'.objectMap]
            obtain rfl : blockNumber' = blockNumber := by simpa using (resolution.symm.trans (same.trans resolves))
            exact .of_run sound' visited
          · have defined : Defined nodes { listing with tree := tree' } _ :=
              getSnapshotsFromSubNode_defined parsed transactionIdentifier depth blockNumber' sound'
            have later' : Later nodes tree' after.tree := by
              have later' := defined.1
              rwa [visited] at later'
            exact ih rest (sound'.later later') ((holds.later later).later later') run

section walk

variable (parsed : Parsed nodes)

include parsed

theorem getSubNode_ok {objectMapBtree : ObjectMapBtree} {tree tree' : SnapshotMetadataTree} {blockNumber : Nat}
    {reference : NodeReference} (sound : Sound nodes objectMapBtree tree)
    (run : (cachedNodes nodes).getSubNode blockNumber tree = (.ok reference, tree')) :
    Later nodes tree tree' ∧ Holds nodes reference tree' ∧ nodes blockNumber = .ok reference.value.node := by
  rcases getSubNode_run parsed sound.coherent blockNumber with ⟨code, refused, _⟩ | ⟨value, obtained, _, rfl, checked, fresh⟩
  · cases refused.symm.trans run
  · cases obtained.symm.trans run
    obtain ⟨later, holds⟩ := obtain_later sound.valid checked fresh
    exact ⟨later, holds, checked.stored⟩

theorem getSnapshotsFromNode_child {depth blockNumber childBlockNumber : Nat} {reference : NodeReference}
    (stored : nodes blockNumber = .ok reference.value.node)
    (child : Child nodes tree transactionIdentifier blockNumber childBlockNumber) {found : Bool}
    {listing listing' : SnapshotListing} (sound : Sound nodes tree.objectMapBtree listing.tree)
    (holds : Holds nodes reference listing.tree)
    (run : getSnapshotsFromNode (cachedNodes nodes) nodes transactionIdentifier
      (getSnapshotsFromSubNode (cachedNodes nodes) nodes transactionIdentifier depth) reference listing =
        (.ok found, listing')) :
    Finishes nodes tree transactionIdentifier depth childBlockNumber := by
  obtain ⟨node, entry, read, branch, member, resolves⟩ := child
  cases read.symm.trans stored
  have branch' : ¬((cachedNodes nodes).node reference).isLeafNode = true := by simp [cachedNodes, branch]
  unfold getSnapshotsFromNode getSnapshotsFromBranchNode at run
  rw [if_neg branch', if_neg branch'] at run
  exact visitEntries_child parsed resolves member sound holds (emptyOnError_ok run)

theorem finishes_child (depth blockNumber childBlockNumber : Nat)
    (finished : Finishes nodes tree transactionIdentifier depth blockNumber)
    (child : Child nodes tree transactionIdentifier blockNumber childBlockNumber) :
    ∃ depth' < depth, Finishes nodes tree transactionIdentifier depth' childBlockNumber := by
  obtain ⟨listing, found, listing', sound, run⟩ := finished
  cases depth with
  | zero =>
      obtain ⟨reference, _, obtained, run⟩ := Call.bind_ok run
      obtain ⟨tree', subNode, rfl⟩ := onTree_ok obtained
      obtain ⟨_, _, stored⟩ := getSubNode_ok parsed sound subNode
      obtain ⟨node, _, read, branch, _⟩ := child
      cases read.symm.trans stored
      rw [if_neg (by simp [cachedNodes, branch])] at run
      cases run
  | succ depth =>
      obtain ⟨reference, _, obtained, run⟩ := Call.bind_ok run
      obtain ⟨tree', subNode, rfl⟩ := onTree_ok obtained
      obtain ⟨later, holds, stored⟩ := getSubNode_ok parsed sound subNode
      exact ⟨depth, Nat.lt_succ_self depth, getSnapshotsFromNode_child parsed stored child (sound.later later) holds run⟩

theorem getSnapshots_acyclic {listing : SnapshotListing} (sound : Sound nodes tree.objectMapBtree listing.tree)
    {reference : NodeReference} {tree' : SnapshotMetadataTree}
    (rooted : getRootNode nodes transactionIdentifier listing.tree = (.ok (some reference), tree')) {blockNumber : Nat}
    (reached : Relation.ReflTransGen (Child nodes tree transactionIdentifier) reference.value.blockNumber blockNumber)
    (back : Relation.TransGen (Child nodes tree transactionIdentifier) blockNumber blockNumber) (found : Bool) :
    (getSnapshots (cachedNodes nodes) nodes transactionIdentifier listing).1 ≠ .ok found := by
  intro ended
  obtain ⟨later, run⟩ := getRootNode_run parsed sound.valid sound.coherent transactionIdentifier
  rw [rooted] at later run
  have holds : Holds nodes reference tree' := by
    cases run with
    | found _ _ _ _ holds => exact holds
    | mistaken _ _ _ _ _ holds => exact holds
  have whole : getSnapshots (cachedNodes nodes) nodes transactionIdentifier listing =
      (.ok found, (getSnapshots (cachedNodes nodes) nodes transactionIdentifier listing).2) := Prod.ext ended rfl
  obtain ⟨_, _, obtained, run'⟩ := Call.bind_ok (emptyOnError_ok whole)
  obtain ⟨_, rootNode, rfl⟩ := onTree_ok obtained
  cases rooted.symm.trans rootNode
  have finished : ∀ childBlockNumber,
      Child nodes tree transactionIdentifier reference.value.blockNumber childBlockNumber →
      Finishes nodes tree transactionIdentifier maximumBtreeNodeRecursionDepth childBlockNumber := fun _ child =>
    getSnapshotsFromNode_child parsed holds.checked.stored child (sound.later later) holds run'
  rcases Relation.ReflTransGen.cases_head reached with rfl | ⟨first, edge, rest⟩
  · obtain ⟨first, edge, rest⟩ := Relation.TransGen.head'_iff.mp back
    exact finishes_acyclic (finishes_child parsed) (finished first edge) rest back
  · exact finishes_acyclic (finishes_child parsed) (finished first edge) rest back

end walk

end SnapshotListing

open SnapshotMetadataTree in
/-- The paths of both walks are as short as the recursion is deep, and a walk where a branch leads back to a block
on the path reports an error. -/
theorem walks_bounded {nodes : Nat → Result BtreeNode} (parsed : Parsed nodes) :
    (SealedExtentTree.buildAlong nodes (fun path _ => path.length ≤ maximumBtreeNodeRecursionDepth + 1) =
        SealedExtentTree.build nodes ∧
      ∀ (tree : SealedExtentTree) (blockNumber : Nat), tree.isBuilt = false →
        Relation.ReflTransGen (SealedExtentTree.Child nodes) tree.rootNodeBlockNumber blockNumber →
        Relation.TransGen (SealedExtentTree.Child nodes) blockNumber blockNumber →
        ∃ code, (SealedExtentTree.build nodes tree).1 = fail code) ∧
    ∀ transactionIdentifier,
      SnapshotListing.getSnapshotsAlong (cachedNodes nodes) nodes transactionIdentifier
          (fun path _ => path.length ≤ maximumBtreeNodeRecursionDepth) =
        SnapshotListing.getSnapshots (cachedNodes nodes) nodes transactionIdentifier ∧
      ∀ (libfcache : Libfcache) (objectMapBtree : ObjectMapBtree) (rootNodeBlockNumber : Nat) (capacity : Option Nat)
        (earlier : List TreeRequest) (snapshots : List SnapshotMetadata), capacity ≠ some 0 →
        let tree := handle libfcache nodes objectMapBtree rootNodeBlockNumber capacity earlier
        let ended := SnapshotListing.getSnapshots (cachedNodes nodes) nodes transactionIdentifier { tree, snapshots }
        ∀ reference tree' blockNumber, getRootNode nodes transactionIdentifier tree = (.ok (some reference), tree') →
          Relation.ReflTransGen (Child nodes tree transactionIdentifier) reference.value.blockNumber blockNumber →
          Relation.TransGen (Child nodes tree transactionIdentifier) blockNumber blockNumber →
          (∀ found, ended.1 ≠ .ok found) ∧
            (ended.2.tree.nodeCache.Undropped → ∃ code, ended.1 = fail code) := by
  refine ⟨⟨SealedExtentTree.buildAlong_short nodes, fun tree blockNumber unbuilt reached back =>
    SealedExtentTree.build_acyclic unbuilt reached back parsed⟩, fun transactionIdentifier =>
    ⟨SnapshotListing.getSnapshotsAlong_short _ nodes transactionIdentifier, ?_⟩⟩
  intro libfcache objectMapBtree rootNodeBlockNumber capacity earlier snapshots room tree ended reference tree' blockNumber
    rooted reached back
  have held := @handle_held nodes objectMapBtree capacity libfcache parsed room rootNodeBlockNumber earlier
  have sound' : Sound nodes tree.objectMapBtree tree := held.sound.objectMap ▸ held.sound
  have unfinished : ∀ found, ended.1 ≠ .ok found :=
    @SnapshotListing.getSnapshots_acyclic nodes tree transactionIdentifier parsed { tree, snapshots } sound' _ _ rooted _
      reached back
  refine ⟨unfinished, fun undropped => ?_⟩
  have defined : SnapshotListing.Defined nodes { tree, snapshots } _ :=
    SnapshotListing.getSnapshots_defined parsed transactionIdentifier sound'
  rcases defined.2 with ⟨_, spoiled⟩ | returned
  · exact absurd undropped spoiled
  · rcases outcome_returns returned with ⟨found, value, _⟩ | ⟨failed, _⟩
    · exact absurd value (unfinished found)
    · exact failed

namespace SnapshotMetadataTree.Sample
open FileSystemBtree.Sample (objectMapRoot)

def rootNode (flags level : Nat) (entries : List BtreeEntry) : BtreeNode where
  objectType := 0x40000002
  objectSubtype := 0x00000010
  flags := flags
  level := level
  footer := some { nodeSize := 4096, keySize := 0, valueSize := 0 }
  entries := entries

def subNode (flags level : Nat) (entries : List BtreeEntry) : BtreeNode where
  objectType := 0x40000003
  objectSubtype := 0x00000010
  flags := flags
  level := level
  footer := none
  entries := entries

def branchEntry (identifier value : Nat) : BtreeEntry where
  keyData := littleEndianBytes 8 (identifier + 2 ^ 60)
  valueData := littleEndianBytes 8 value

def looped : Nat → Result BtreeNode
  | 1 => .ok (objectMapRoot [(7, 3)])
  | 2 => .ok (rootNode 1 1 [branchEntry 1 7])
  | 3 => .ok (subNode 0 1 [branchEntry 1 7])
  | 4 => .ok (subNode 0 1 [{ keyData := littleEndianBytes 16 1, valueData := littleEndianBytes 8 4 }])
  | _ => fail .readFailed

theorem looped_parsed : Parsed looped := by
  intro blockNumber
  unfold looped
  split
  · exact fun _ => by simp [objectMapRoot]
  · exact fun _ => by simp [rootNode]
  · exact fun root => absurd root (by decide)
  · exact fun root => absurd root (by decide)
  · trivial

def loopedHandle : SnapshotMetadataTree :=
  handle .lastAccess looped { rootNodeBlockNumber := 1 } 2 (some maximumCacheEntriesBtreeNodes) []

theorem looped_child : Child looped loopedHandle 1 2 3 := ⟨_, branchEntry 1 7, rfl, rfl, List.mem_singleton_self _, rfl⟩

theorem looped_back : Child looped loopedHandle 1 3 3 := ⟨_, branchEntry 1 7, rfl, rfl, List.mem_singleton_self _, rfl⟩

theorem looped_sealed : SealedExtentTree.Child looped 4 4 := ⟨_, _, rfl, rfl, List.mem_singleton_self _, rfl⟩

end SnapshotMetadataTree.Sample

open SnapshotMetadataTree SnapshotMetadataTree.Sample in
theorem walks_bounded_looped : Parsed looped ∧
    (∃ code, (SealedExtentTree.build looped (SealedExtentTree.create 4096 4)).1 = fail code) ∧
    ∀ found, (SnapshotListing.getSnapshots (cachedNodes looped) looped 1 { tree := loopedHandle, snapshots := [] }).1 ≠
      .ok found :=
  ⟨looped_parsed, (walks_bounded looped_parsed).1.2 _ 4 rfl .refl (.single looped_sealed),
    ((walks_bounded looped_parsed).2 1).2 .lastAccess { rootNodeBlockNumber := 1 } 2 (some maximumCacheEntriesBtreeNodes) [] []
      (by decide) _ _ 3 rfl
      (.single looped_child) (.single looped_back) |>.1⟩

open SnapshotMetadataTree SnapshotMetadataTree.Sample in
/-- Both walks read a block again on the path that leads back to it. -/
theorem walks_repeat :
    (SealedExtentTree.buildAlong looped (fun path blockNumber => blockNumber ∉ path) (SealedExtentTree.create 4096 4)).1 =
      .error .undefined ∧
    SealedExtentTree.buildAlong looped (fun path blockNumber => blockNumber ∉ path) ≠ SealedExtentTree.build looped ∧
    (SnapshotListing.getSnapshotsAlong (cachedNodes looped) looped 1 (fun path blockNumber => blockNumber ∉ path)
      { tree := loopedHandle, snapshots := [] }).1 = .error .undefined := by
  have watched : (SealedExtentTree.buildAlong looped (fun path blockNumber => blockNumber ∉ path)
      (SealedExtentTree.create 4096 4)).1 = .error .undefined := rfl
  refine ⟨watched, fun same => ?_, rfl⟩
  have answers : (SealedExtentTree.build looped).Answers := SealedExtentTree.build_answers looped_parsed
  rw [← same] at answers
  have ended := answers (SealedExtentTree.create 4096 4)
  rw [watched] at ended
  exact ended

end Fsapfs
