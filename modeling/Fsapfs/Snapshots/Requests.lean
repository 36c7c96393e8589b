import Fsapfs.Snapshots.CachedNodes

namespace Fsapfs.SnapshotMetadataTree
open Program NodeCache

inductive TreeRequest
  | getSnapshots (transactionIdentifier : Nat) (snapshots : List SnapshotMetadata)
  | getMetadataByObjectIdentifier (transactionIdentifier objectIdentifier : Nat)

def forgetUses (tree : SnapshotMetadataTree) : SnapshotMetadataTree :=
  { tree with nodeCache := tree.nodeCache.forgetUses }

def TreeRequest.perform (nodes : Nat → Result BtreeNode) (tree : SnapshotMetadataTree) :
    TreeRequest → SnapshotMetadataTree
  | .getSnapshots transactionIdentifier snapshots =>
      (SnapshotListing.getSnapshots (cachedNodes nodes) nodes transactionIdentifier { tree, snapshots }).2.tree.forgetUses
  | .getMetadataByObjectIdentifier transactionIdentifier objectIdentifier =>
      (SnapshotMetadataTree.getMetadataByObjectIdentifier (cachedNodes nodes) transactionIdentifier objectIdentifier
        tree).2.forgetUses

def handle (libfcache : Libfcache) (nodes : Nat → Result BtreeNode) (objectMapBtree : ObjectMapBtree)
    (rootNodeBlockNumber : Nat) (capacity : Option Nat) (earlier : List TreeRequest) : SnapshotMetadataTree :=
  earlier.foldl (TreeRequest.perform nodes) (create libfcache objectMapBtree rootNodeBlockNumber capacity)

variable {libfcache : Libfcache} {nodes : Nat → Result BtreeNode} {objectMapBtree : ObjectMapBtree} {tree : SnapshotMetadataTree}

theorem getMetadataByObjectIdentifier_later (parsed : Parsed nodes) (sound : Sound nodes objectMapBtree tree)
    (transactionIdentifier objectIdentifier : Nat) :
    Later nodes tree
      (getMetadataByObjectIdentifier (cachedNodes nodes) transactionIdentifier objectIdentifier tree).2 := by
  have steady := @cachedNodes_steady nodes objectMapBtree transactionIdentifier parsed
  exact (getMetadataByObjectIdentifier_simulates steady (fun _ _ _ _ _ _ _ _ => trivial)
    (getRootNode_steady parsed transactionIdentifier) tree tree ⟨rfl, sound⟩ trivial (Or.inl trivial)).1

/-- A tree as the calls on it leave it: with its object map and root node, and a cache of the same capacity. -/
structure Handle (nodes : Nat → Result BtreeNode) (objectMapBtree : ObjectMapBtree) (rootNodeBlockNumber : Nat)
    (capacity : Option Nat) (tree : SnapshotMetadataTree) : Prop where
  sound : Sound nodes objectMapBtree tree
  rooted : tree.rootNodeBlockNumber = rootNodeBlockNumber
  capacity : tree.nodeCache.capacity = capacity
  undropped : tree.nodeCache.Undropped

variable {rootNodeBlockNumber : Nat} {capacity : Option Nat}

theorem Handle.later {tree' : SnapshotMetadataTree}
    (held : Handle nodes objectMapBtree rootNodeBlockNumber capacity tree) (later : Later nodes tree tree') :
    Handle nodes objectMapBtree rootNodeBlockNumber capacity tree'.forgetUses where
  sound := by
    have sound := held.sound.later later
    exact ⟨sound.objectMap, forgetUses_valid sound.valid, sound.coherent⟩
  rooted := later.rootNodeBlockNumber.trans held.rooted
  capacity := later.grows.capacity.trans held.capacity
  undropped := forgetUses_undropped _

theorem perform_handle (parsed : Parsed nodes) (held : Handle nodes objectMapBtree rootNodeBlockNumber capacity tree)
    (request : TreeRequest) :
    Handle nodes objectMapBtree rootNodeBlockNumber capacity (request.perform nodes tree) := by
  cases request with
  | getSnapshots transactionIdentifier snapshots =>
      have defined : SnapshotListing.Defined nodes { tree, snapshots } _ :=
        SnapshotListing.getSnapshots_defined parsed transactionIdentifier held.sound
      exact held.later defined.1
  | getMetadataByObjectIdentifier transactionIdentifier objectIdentifier =>
      exact held.later (getMetadataByObjectIdentifier_later parsed held.sound transactionIdentifier objectIdentifier)

theorem create_handle (libfcache : Libfcache) (room : capacity ≠ some 0) (rootNodeBlockNumber : Nat) :
    Handle nodes objectMapBtree rootNodeBlockNumber capacity
      (create libfcache objectMapBtree rootNodeBlockNumber capacity) where
  sound := ⟨rfl, create_valid room, fun _ member => by cases create_values libfcache capacity ▸ member⟩
  rooted := rfl
  capacity := rfl
  undropped := forgetUses_undropped (NodeCache.create libfcache capacity)

theorem handle_held (libfcache : Libfcache) (parsed : Parsed nodes) (room : capacity ≠ some 0) (rootNodeBlockNumber : Nat)
    (earlier : List TreeRequest) :
    Handle nodes objectMapBtree rootNodeBlockNumber capacity
      (handle libfcache nodes objectMapBtree rootNodeBlockNumber capacity earlier) := by
  unfold handle
  have created : Handle nodes objectMapBtree rootNodeBlockNumber capacity _ :=
    create_handle libfcache room rootNodeBlockNumber
  generalize create libfcache objectMapBtree rootNodeBlockNumber capacity = tree at created ⊢
  induction earlier generalizing tree with
  | nil => exact created
  | cons request earlier ih => exact ih _ (perform_handle parsed created request)

end Fsapfs.SnapshotMetadataTree
