import Fsapfs.CacheRoom
import Fsapfs.Snapshots.StoredTrees
import Fsapfs.Snapshots.TreeWalks

namespace Fsapfs.SnapshotMetadataTree
open Program NodeCache

/-- A later tree, up to which only these blocks were accessed and no dropped node was used. -/
structure Tame (nodes : Nat → Result BtreeNode) (blocks : Nat → Prop) (tree tree' : SnapshotMetadataTree) : Prop where
  later : Later nodes tree tree'
  within : Within blocks tree.nodeCache tree'.nodeCache

/-- The blocks at and below the sub nodes of entries. -/
def Under (nodes : Nat → Result BtreeNode) (tree : SnapshotMetadataTree) (transactionIdentifier : Nat)
    (entries : List BtreeEntry) (blockNumber : Nat) : Prop :=
  ∃ entry ∈ entries, ∃ subNodeBlockNumber,
    getSubNodeBlockNumberFromEntry nodes tree entry transactionIdentifier = .ok (some subNodeBlockNumber) ∧
      Relation.ReflTransGen (Child nodes tree transactionIdentifier) subNodeBlockNumber blockNumber

/-- The blocks below a branch that are visited before its last entry are fewer than the cache holds. -/
def Roomy (nodes : Nat → Result BtreeNode) (tree : SnapshotMetadataTree) (transactionIdentifier : Nat)
    (capacity : Option Nat) (blockNumber : Nat) : Prop :=
  ∀ node, nodes blockNumber = .ok node → node.isLeafNode = false →
    Few capacity (Under nodes tree transactionIdentifier node.entries.dropLast)

variable {nodes : Nat → Result BtreeNode} {blocks blocks' : Nat → Prop} {tree tree' tree'' : SnapshotMetadataTree}
  {objectMapBtree : ObjectMapBtree} {transactionIdentifier : Nat}

theorem Tame.refl (tree : SnapshotMetadataTree) : Tame nodes blocks tree tree :=
  ⟨(guard nodes).refl tree, Within.refl tree.nodeCache⟩

theorem Tame.trans (first : Tame nodes blocks tree tree') (second : Tame nodes blocks tree' tree'') :
    Tame nodes blocks tree tree'' :=
  ⟨(guard nodes).trans first.later second.later, first.within.trans second.within⟩

theorem Tame.mono (tame : Tame nodes blocks tree tree') (more : ∀ blockNumber, blocks blockNumber → blocks' blockNumber) :
    Tame nodes blocks' tree tree' :=
  ⟨tame.later, tame.within.mono more⟩

theorem Under.append {entries entries' : List BtreeEntry} {blockNumber : Nat}
    (under : Under nodes tree transactionIdentifier entries blockNumber) (inside : entries ⊆ entries') :
    Under nodes tree transactionIdentifier entries' blockNumber := by
  obtain ⟨entry, member, below⟩ := under
  exact ⟨entry, inside member, below⟩

structure Obtained (nodes : Nat → Result BtreeNode) (reference : NodeReference) (tree : SnapshotMetadataTree) : Prop where
  holds : Holds nodes reference tree
  since : Since (fun _ => False) reference tree.nodeCache

theorem getSubNode_tame (parsed : Parsed nodes) (sound : Sound nodes objectMapBtree tree) (blockNumber : Nat) :
    Tame nodes (· = blockNumber) tree ((cachedNodes nodes).getSubNode blockNumber tree).2 ∧
      ∀ reference tree', (cachedNodes nodes).getSubNode blockNumber tree = (.ok reference, tree') →
        Obtained nodes reference tree' ∧ nodes blockNumber = .ok reference.value.node := by
  rcases getSubNode_run parsed sound.coherent blockNumber with
    ⟨code, run, _⟩ | ⟨value, run, _, rfl, checked, fresh⟩
  · have run' : (cachedNodes nodes).getSubNode blockNumber tree = _ := run
    rw [run']
    exact ⟨Tame.refl tree, fun reference tree' ended => by cases ended⟩
  · have run' : (cachedNodes nodes).getSubNode value.blockNumber tree = _ := run
    rw [run']
    obtain ⟨later, holds⟩ := obtain_later sound.valid checked fresh
    refine ⟨⟨later, access_within fresh⟩, ?_⟩
    rintro reference tree' ⟨⟩
    exact ⟨⟨holds, since_obtained value tree.nodeCache⟩, checked.stored⟩

theorem useNode_tame {reference : NodeReference} (holds : Holds nodes reference tree)
    (since : Since blocks reference tree.nodeCache) (few : Few tree.nodeCache.capacity blocks) :
    Tame nodes blocks' tree ((cachedNodes nodes).useNode reference tree).2 := by
  have used : ((cachedNodes nodes).useNode reference tree).2 =
      { tree with nodeCache := use reference tree.nodeCache } := by
    rcases (useNode_run holds).2 with run | ⟨run, _⟩
    · exact congrArg Prod.snd run
    · exact congrArg Prod.snd run
  rw [used]
  exact ⟨(useNode_run holds).1, (use_within holds.points since few).mono fun _ impossible => impossible.elim⟩

section root

variable {cache : NodeCache} {reference : NodeReference}

/-- A node that was accessed last, and is in the cache. -/
structure Last (reference : NodeReference) (cache : NodeCache) : Prop where
  since : Since (fun _ => False) reference cache
  live : reference.value ∈ cache.values

/-- What getting a root node leaves: the node is the last one that was accessed, and no dropped node was used. -/
def Got (found : Option NodeReference) (cache : NodeCache) : Prop :=
  cache.Undropped ∧ ∀ reference, found = some reference → Last reference cache

theorem access_last (room : cache.capacity ≠ some 0) (value : CachedNode) :
    Last { value, obtained := (access value cache).accesses.length } (access value cache) where
  since := since_obtained value cache
  live := List.mem_of_find?_eq_some (getValue_access room value)

theorem access_undropped_iff (valid : cache.Valid) (value : CachedNode) :
    (access value cache).Undropped ↔ cache.Undropped := by
  refine ⟨access_undropped valid value, fun undropped use member time from_ until_ => ?_⟩
  exact (access_recent (Nat.le_trans until_ (valid.logged use member).2.1)).mpr (undropped use member time from_ until_)

theorem obtain_got (valid : cache.Valid) (undropped : cache.Undropped) (value : CachedNode) :
    (do let reference ← obtain value; return some reference : CacheCall (Option NodeReference)).Ends cache Got
      Undropped := by
  refine ⟨(access_undropped_iff valid value).mpr undropped, ?_⟩
  rintro reference ⟨⟩
  exact access_last valid.room value

theorem storeRootNode_got (valid : cache.Valid) (undropped : cache.Undropped)
    (physicalBlockNumber rootNodeBlockNumber : Nat) (node : BtreeNode) :
    (storeRootNode physicalBlockNumber rootNodeBlockNumber node).Ends cache Got Undropped := by
  let value : CachedNode := { blockNumber := physicalBlockNumber, serial := cache.accesses.length, node }
  have undropped' := (access_undropped_iff valid value).mpr undropped
  unfold Call.Ends
  cases found : (access value cache).getValue rootNodeBlockNumber with
  | none =>
      rw [storeRootNode_lost found]
      exact undropped'
  | some value' =>
      rw [storeRootNode_found found]
      exact obtain_got (access_valid valid value) undropped' value'

theorem onCache_ends {α : Type} {call : CacheCall α} {post : α → NodeCache → Prop} {failed : NodeCache → Prop}
    (ends : call.Ends tree.nodeCache post failed) :
    (onCache call).Ends tree (fun a tree' => post a tree'.nodeCache) fun tree' => failed tree'.nodeCache := by
  cases run : call tree.nodeCache with
  | mk result cache =>
      have run' : onCache call tree = (result, { tree with nodeCache := cache }) := by
        unfold onCache
        rw [run]
      unfold Call.Ends at ends ⊢
      rw [run] at ends
      rw [run']
      cases result with
      | ok a => exact ends
      | error failure => exact ends

theorem getRootNode_got (valid : tree.nodeCache.Valid) (undropped : tree.nodeCache.Undropped) :
    (getRootNode nodes transactionIdentifier).Ends tree (fun found tree' => Got found tree'.nodeCache)
      fun tree' => tree'.nodeCache.Undropped := by
  unfold getRootNode
  rw [Call.ends_self_bind]
  cases rootNodePhysicalBlockNumber nodes tree transactionIdentifier with
  | error failure => exact undropped
  | ok physicalBlockNumber =>
      rw [Call.ends_lift_ok_bind]
      by_cases beyond : physicalBlockNumber > intMax
      · rw [if_pos beyond]
        exact undropped
      · rw [if_neg beyond]
        refine onCache_ends ?_
        rw [Call.ends_self_bind]
        cases tree.nodeCache.getValue physicalBlockNumber with
        | some value => exact obtain_got valid undropped value
        | none =>
            rcases readRootNode nodes physicalBlockNumber with failure | (_ | node)
            · exact undropped
            · exact ⟨undropped, fun reference none => by cases none⟩
            · exact storeRootNode_got valid undropped physicalBlockNumber tree.rootNodeBlockNumber node

theorem getRootNode_last (valid : tree.nodeCache.Valid) (undropped : tree.nodeCache.Undropped)
    (run : getRootNode nodes transactionIdentifier tree = (.ok (some reference), tree')) :
    tree'.nodeCache.Undropped ∧ Last reference tree'.nodeCache := by
  have got : Got (some reference) tree'.nodeCache := (getRootNode_got valid undropped).of_ok run
  exact ⟨got.1, got.2 reference rfl⟩

end root

theorem Obtained.few {reference : NodeReference} (obtained : Obtained nodes reference tree) :
    Few tree.nodeCache.capacity fun _ => False :=
  few_none obtained.holds.valid.room fun _ => id

end Fsapfs.SnapshotMetadataTree

namespace Fsapfs.SnapshotListing
open Program SnapshotMetadataTree NodeCache

variable {nodes : Nat → Result BtreeNode} {tree : SnapshotMetadataTree} {transactionIdentifier : Nat}
  {capacity : Option Nat}

def TameListing (nodes : Nat → Result BtreeNode) (blocks : Nat → Prop) (listing listing' : SnapshotListing) : Prop :=
  Tame nodes blocks listing.tree listing'.tree

/-- A listing of a tree as it is at some time, with the cache of that tree. -/
structure Current (nodes : Nat → Result BtreeNode) (tree : SnapshotMetadataTree) (capacity : Option Nat)
    (listing : SnapshotListing) : Prop where
  sound : Sound nodes tree.objectMapBtree listing.tree
  capacity : listing.tree.nodeCache.capacity = capacity

theorem Current.later {listing listing' : SnapshotListing} (current : Current nodes tree capacity listing)
    (later : Later nodes listing.tree listing'.tree) : Current nodes tree capacity listing' :=
  ⟨current.sound.later later, later.grows.capacity.trans current.capacity⟩

theorem Current.tame {blocks : Nat → Prop} {listing listing' : SnapshotListing}
    (current : Current nodes tree capacity listing) (tame : TameListing nodes blocks listing listing') :
    Current nodes tree capacity listing' := current.later tame.later

theorem emptyOnError_moves {blocks : Nat → Prop} {call : ListingCall Bool} {listing : SnapshotListing}
    (moves : call.Moves (TameListing nodes blocks) listing) :
    (emptyOnError call).Moves (TameListing nodes blocks) listing := by
  unfold Call.Moves emptyOnError at *
  split
  next run => rwa [run] at moves
  next run =>
    rw [run] at moves
    exact moves

theorem appendLeafSnapshots_moves {blocks : Nat → Prop} (found : Bool) (entries : List BtreeEntry)
    (listing : SnapshotListing) : (appendLeafSnapshots found entries).Moves (TameListing nodes blocks) listing := by
  induction entries generalizing found listing with
  | nil => exact Tame.refl listing.tree
  | cons entry entries ih =>
      refine Call.moves_lift_bind (Tame.refl _) fun _ _ => ?_
      split
      · exact ih found listing
      · refine Call.moves_lift_bind (Tame.refl _) fun metadata _ => ?_
        exact ih true (append metadata listing)

theorem getSnapshotsFromLeafNode_moves {blocks : Nat → Prop} {reference : NodeReference} {listing : SnapshotListing}
    (obtained : Obtained nodes reference listing.tree) :
    (getSnapshotsFromLeafNode (cachedNodes nodes) reference).Moves (TameListing nodes blocks) listing := by
  refine emptyOnError_moves (Call.Moves.bind Tame.trans (useNode_tame obtained.holds obtained.since obtained.few) ?_)
  intro _ listing' _
  split
  · exact appendLeafSnapshots_moves false _ listing'
  · exact Tame.refl listing'.tree

/-- What a listing does that goes on from a block: it keeps to the blocks below it. -/
def StaysBelow (nodes : Nat → Result BtreeNode) (tree : SnapshotMetadataTree) (transactionIdentifier : Nat)
    (capacity : Option Nat) (blockNumber : Nat) (next : ListingCall Bool) : Prop :=
  ∀ listing, Current nodes tree capacity listing →
    next.Moves (TameListing nodes (Relation.ReflTransGen (Child nodes tree transactionIdentifier) blockNumber)) listing

section branch

variable {reference : NodeReference} {next : Nat → ListingCall Bool}

theorem visitEntries_moves (few : Few capacity (Under nodes tree transactionIdentifier reference.value.node.entries.dropLast))
    (continues : ∀ entry ∈ reference.value.node.entries, ∀ blockNumber,
      getSubNodeBlockNumberFromEntry nodes tree entry transactionIdentifier = .ok (some blockNumber) →
      StaysBelow nodes tree transactionIdentifier capacity blockNumber (next blockNumber))
    (before entries : List BtreeEntry) (whole : reference.value.node.entries = before ++ entries) (found : Bool)
    {listing : SnapshotListing} (current : Current nodes tree capacity listing) (holds : Holds nodes reference listing.tree)
    (since : Since (Under nodes tree transactionIdentifier before) reference listing.tree.nodeCache) :
    (visitEntries (cachedNodes nodes) nodes transactionIdentifier next reference found entries).Moves
      (TameListing nodes (Under nodes tree transactionIdentifier reference.value.node.entries)) listing := by
  induction entries generalizing before found listing with
  | nil => exact Tame.refl listing.tree
  | cons entry entries ih =>
      have first : before ⊆ reference.value.node.entries.dropLast := by
        rw [whole, List.dropLast_append_of_ne_nil (List.cons_ne_nil entry entries)]
        exact List.subset_append_left before _
      have few' : Few listing.tree.nodeCache.capacity (Under nodes tree transactionIdentifier before) := by
        rw [current.capacity]
        exact few.mono fun _ under => under.append first
      have use : Tame nodes (fun _ => False) _ _ := useNode_tame holds since few'
      refine Call.Moves.bind Tame.trans (use.mono fun _ impossible => impossible.elim) fun _ listing' used => ?_
      obtain ⟨tree', ran, rfl⟩ := onTree_ok used
      rw [ran] at use
      have current' : Current nodes tree capacity { listing with tree := tree' } := current.tame use
      have since' := since.within (use.within.mono fun _ impossible => impossible.elim)
      refine Call.moves_lift_bind (Tame.refl _) fun _ _ => Call.moves_self_bind ?_
      refine Call.moves_lift_bind (Tame.refl _) fun blockNumber resolved => ?_
      cases blockNumber with
      | none => exact Tame.refl tree'
      | some blockNumber =>
          have resolves : getSubNodeBlockNumberFromEntry nodes tree entry transactionIdentifier = .ok (some blockNumber) := by
            rw [← resolved]
            unfold getSubNodeBlockNumberFromEntry
            rw [current'.sound.objectMap]
          have member : entry ∈ reference.value.node.entries := by simp [whole]
          have visit := continues entry member blockNumber resolves _ current'
          refine Call.Moves.bind Tame.trans
            (visit.mono fun _ tame => Tame.mono tame fun _ below => ⟨entry, member, blockNumber, resolves, below⟩)
            fun result after visited => ?_
          have tame : Tame nodes (Relation.ReflTransGen (Child nodes tree transactionIdentifier) blockNumber) tree'
              after.tree := visit.of_run visited
          have since'' : Since (Under nodes tree transactionIdentifier (before ++ [entry])) reference after.tree.nodeCache :=
            (since'.mono fun _ under => under.append (List.subset_append_left before [entry])).within
              (tame.within.mono fun _ below => ⟨entry, by simp, blockNumber, resolves, below⟩)
          exact ih (before ++ [entry]) (by simp [whole]) (found || result) (current'.tame tame)
            ((holds.later use.later).later tame.later) since''

theorem getSnapshotsFromNode_moves {blockNumber : Nat} (stored : nodes blockNumber = .ok reference.value.node)
    (roomy : Roomy nodes tree transactionIdentifier capacity blockNumber)
    (continues : ∀ childBlockNumber, Child nodes tree transactionIdentifier blockNumber childBlockNumber →
      StaysBelow nodes tree transactionIdentifier capacity childBlockNumber (next childBlockNumber))
    {listing : SnapshotListing} (current : Current nodes tree capacity listing)
    (obtained : Obtained nodes reference listing.tree) :
    (getSnapshotsFromNode (cachedNodes nodes) nodes transactionIdentifier next reference).Moves
      (TameListing nodes (Relation.ReflTransGen (Child nodes tree transactionIdentifier) blockNumber)) listing := by
  have node : (cachedNodes nodes).node reference = reference.value.node := rfl
  unfold getSnapshotsFromNode getSnapshotsFromBranchNode
  rw [node]
  by_cases leaf : reference.value.node.isLeafNode
  · rw [if_pos leaf]
    exact getSnapshotsFromLeafNode_moves obtained
  · have branch : reference.value.node.isLeafNode = false := by simpa using leaf
    rw [if_neg leaf, if_neg leaf]
    have visits := visitEntries_moves (roomy _ stored branch)
      (fun entry member childBlockNumber resolves =>
        continues childBlockNumber ⟨_, entry, stored, branch, member, resolves⟩)
      [] reference.value.node.entries rfl false current obtained.holds
      (obtained.since.mono fun _ impossible => impossible.elim)
    refine emptyOnError_moves (visits.mono fun _ tame => Tame.mono tame ?_)
    rintro below ⟨entry, member, childBlockNumber, resolves, path⟩
    exact .head ⟨_, entry, stored, branch, member, resolves⟩ path

end branch

theorem getSnapshotsFromSubNode_moves (parsed : Parsed nodes) (depth blockNumber : Nat)
    (roomy : ∀ below, Relation.ReflTransGen (Child nodes tree transactionIdentifier) blockNumber below →
      Roomy nodes tree transactionIdentifier capacity below) :
    StaysBelow nodes tree transactionIdentifier capacity blockNumber
      (getSnapshotsFromSubNode (cachedNodes nodes) nodes transactionIdentifier depth blockNumber) := by
  induction depth generalizing blockNumber with
  | zero =>
      intro listing current
      obtain ⟨tame, got⟩ := getSubNode_tame parsed current.sound blockNumber
      refine Call.Moves.bind Tame.trans (tame.mono fun _ same => same ▸ .refl) fun reference listing' run => ?_
      obtain ⟨tree', ran, rfl⟩ := onTree_ok run
      split
      · exact getSnapshotsFromLeafNode_moves (got reference tree' ran).1
      · exact Tame.refl tree'
  | succ depth ih =>
      intro listing current
      obtain ⟨tame, got⟩ := getSubNode_tame parsed current.sound blockNumber
      refine Call.Moves.bind Tame.trans (tame.mono fun _ same => same ▸ .refl) fun reference listing' run => ?_
      obtain ⟨tree', ran, rfl⟩ := onTree_ok run
      obtain ⟨obtained, stored⟩ := got reference tree' ran
      rw [ran] at tame
      exact getSnapshotsFromNode_moves stored (roomy blockNumber .refl)
        (fun childBlockNumber child => ih childBlockNumber fun below path => roomy below (.head child path))
        (current.tame (tame : TameListing nodes _ listing { listing with tree := tree' })) obtained

end Fsapfs.SnapshotListing
