import Fsapfs.Snapshots.Simulation

namespace Fsapfs.SnapshotMetadataTree
open Program NodeCache

variable {nodes : Nat → Result BtreeNode}

def storedNodes (nodes : Nat → Result BtreeNode) : NodeAccess BtreeNode where
  getRootNode transactionIdentifier := do
    let tree ← Call.self
    let physicalBlockNumber ← Call.lift (rootNodePhysicalBlockNumber nodes tree transactionIdentifier)
    if physicalBlockNumber > intMax then Call.lift (fail .valueOutOfBounds)
    else Call.lift (readRootNode nodes physicalBlockNumber)
  getSubNode blockNumber :=
    if blockNumber > intMax then Call.lift (fail .valueOutOfBounds)
    else Call.lift (readSubNode nodes blockNumber)
  useNode _ := pure ()
  node node := node

section checks

variable {blockNumber : Nat} {node : BtreeNode}

theorem readRootNode_ok (read : readRootNode nodes blockNumber = .ok (some node)) :
    nodes blockNumber = .ok node ∧ node.isRootNode := by
  obtain ⟨node', found, read⟩ := bind_eq_ok.mp read
  split_ifs at read with unused object flags footed
  · cases read
  · cases read
  · cases read
  · cases read
  · obtain ⟨_, _, read⟩ := bind_eq_ok.mp read
    cases read
    exact ⟨found, by simpa using flags⟩

theorem readSubNode_ok (read : readSubNode nodes blockNumber = .ok node) :
    nodes blockNumber = .ok node ∧ node.isRootNode = false := by
  obtain ⟨node', found, read⟩ := bind_eq_ok.mp read
  split_ifs at read with object flags
  · cases read
  · cases read
  · cases read
    exact ⟨found, by simpa using flags⟩

theorem readSubNode_root {node' : BtreeNode} (root : readRootNode nodes blockNumber = .ok (some node))
    (sub : readSubNode nodes blockNumber = .ok node') : False := by
  obtain ⟨found, isRoot⟩ := readRootNode_ok root
  obtain ⟨found', notRoot⟩ := readSubNode_ok sub
  cases found.symm.trans found'
  exact absurd isRoot (by simp [notRoot])

theorem readRootNode_returns (parsed : Parsed nodes) (blockNumber : Nat) : Returns (readRootNode nodes blockNumber) := by
  refine (parsed blockNumber).bind fun node _ => ?_
  split_ifs with unused object flags footed
  · trivial
  · trivial
  · trivial
  · trivial
  · exact (node.requireFooter_returns footed _ _ _).bind fun _ _ => trivial

theorem readSubNode_returns (parsed : Parsed nodes) (blockNumber : Nat) : Returns (readSubNode nodes blockNumber) := by
  refine (parsed blockNumber).bind fun node _ => ?_
  split_ifs
  · trivial
  · trivial
  · trivial

theorem rootNodePhysicalBlockNumber_returns (parsed : Parsed nodes) (tree : SnapshotMetadataTree)
    (transactionIdentifier : Nat) : Returns (rootNodePhysicalBlockNumber nodes tree transactionIdentifier) := by
  refine (ObjectMapBtree.getDescriptorByObjectIdentifier_returns parsed _ _ _).bind fun descriptor _ => ?_
  cases descriptor with
  | none => trivial
  | some descriptor => trivial

end checks

section cache

variable {cache : NodeCache} {blockNumber : Nat} {value : CachedNode}

/-- A node that has been checked as the root node or as a sub node. -/
def Checked (nodes : Nat → Result BtreeNode) (value : CachedNode) : Prop :=
  readRootNode nodes value.blockNumber = .ok (some value.node) ∨ readSubNode nodes value.blockNumber = .ok value.node

theorem Checked.stored (checked : Checked nodes value) : nodes value.blockNumber = .ok value.node :=
  checked.elim (fun root => (readRootNode_ok root).1) fun sub => (readSubNode_ok sub).1

theorem getValue_some (found : cache.getValue blockNumber = some value) :
    value ∈ cache.values ∧ value.blockNumber = blockNumber :=
  ⟨List.mem_of_find?_eq_some found, by simpa using List.find?_some found⟩

theorem getValue_none (absent : cache.getValue blockNumber = none) :
    ∀ other ∈ cache.values, other.blockNumber ≠ blockNumber := by
  simpa using List.find?_eq_none.mp absent

theorem coherent_access (coherent : Coherent nodes cache) (checked : Checked nodes value) :
    Coherent nodes (access value cache) := by
  intro other member
  rcases mem_access member with rfl | ⟨before, _⟩
  · exact checked
  · exact coherent other before

/-- A pointer to a checked node of the cache of a tree. -/
structure Holds (nodes : Nat → Result BtreeNode) (reference : NodeReference) (tree : SnapshotMetadataTree) : Prop where
  points : Points reference tree.nodeCache
  valid : tree.nodeCache.Valid
  checked : Checked nodes reference.value

theorem Holds.later {reference : NodeReference} {tree tree' : SnapshotMetadataTree} (holds : Holds nodes reference tree)
    (later : Later nodes tree tree') : Holds nodes reference tree' :=
  ⟨later.grows.points holds.valid reference holds.points, later.grows.valid holds.valid, holds.checked⟩

variable {tree : SnapshotMetadataTree}

theorem obtain_later (valid : tree.nodeCache.Valid) (checked : Checked nodes value)
    (fresh : value ∈ tree.nodeCache.values ∨ ∀ other ∈ tree.nodeCache.values, other.blockNumber ≠ value.blockNumber) :
    Later nodes tree { tree with nodeCache := access value tree.nodeCache } ∧
      Holds nodes { value, obtained := (access value tree.nodeCache).accesses.length }
        { tree with nodeCache := access value tree.nodeCache } :=
  ⟨⟨access_grows fresh, fun coherent => coherent_access coherent checked, rfl, rfl⟩,
    access_obtained value, access_valid valid value, checked⟩

theorem getSubNode_run (parsed : Parsed nodes) (coherent : Coherent nodes tree.nodeCache) (blockNumber : Nat) :
    (∃ code, getSubNode nodes blockNumber tree = (fail code, tree) ∧
      (blockNumber > intMax ∨ ∃ code', readSubNode nodes blockNumber = fail code')) ∨
    ∃ value, getSubNode nodes blockNumber tree =
        (.ok { value, obtained := (access value tree.nodeCache).accesses.length },
          { tree with nodeCache := access value tree.nodeCache }) ∧
      blockNumber ≤ intMax ∧ value.blockNumber = blockNumber ∧ Checked nodes value ∧
      (value ∈ tree.nodeCache.values ∨ ∀ other ∈ tree.nodeCache.values, other.blockNumber ≠ value.blockNumber) := by
  unfold getSubNode
  by_cases beyond : blockNumber > intMax
  · rw [if_pos beyond]
    exact Or.inl ⟨_, rfl, Or.inl beyond⟩
  · rw [if_neg beyond]
    unfold onCache getNode
    simp only [Call.self_bind]
    cases found : tree.nodeCache.getValue blockNumber with
    | some value =>
        obtain ⟨member, same⟩ := getValue_some found
        exact Or.inr ⟨value, rfl, Nat.not_lt.mp beyond, same, coherent value member, Or.inl member⟩
    | none =>
        rcases outcome_returns (readSubNode_returns parsed blockNumber) with ⟨node, read, _⟩ | ⟨⟨code, read⟩, _⟩
        · rw [read]
          exact Or.inr ⟨_, rfl, Nat.not_lt.mp beyond, rfl, Or.inr read, Or.inr (getValue_none found)⟩
        · rw [read]
          exact Or.inl ⟨code, rfl, Or.inr ⟨code, rfl⟩⟩

theorem useNode_run {reference : NodeReference} (holds : Holds nodes reference tree) :
    Later nodes tree { tree with nodeCache := use reference tree.nodeCache } ∧
      (onCache (useNode reference) tree = (.ok (), { tree with nodeCache := use reference tree.nodeCache }) ∨
        (onCache (useNode reference) tree =
            (.error .undefined, { tree with nodeCache := use reference tree.nodeCache }) ∧
          ¬(use reference tree.nodeCache).Undropped)) := by
  refine ⟨⟨use_grows holds.points, id, rfl, rfl⟩, ?_⟩
  unfold onCache useNode
  rw [Call.update_bind, Call.self_bind]
  by_cases live : reference.value ∈ (use reference tree.nodeCache).values
  · rw [if_pos live]
    exact Or.inl rfl
  · rw [if_neg live]
    exact Or.inr ⟨rfl, fun undropped => live (holds.points.live undropped)⟩

def Cached (tree : SnapshotMetadataTree) (blockNumber : Nat) : Prop :=
  ∃ value ∈ tree.nodeCache.values, value.blockNumber = blockNumber

/-- What getting the root node can do, by the block that its number stands for. -/
inductive RootNodeRun (nodes : Nat → Result BtreeNode) (tree : SnapshotMetadataTree) (transactionIdentifier : Nat) :
    Result (Option NodeReference) × SnapshotMetadataTree → Prop
  | unresolved (code code' : ErrorCode) (tree' : SnapshotMetadataTree)
      (physical : rootNodePhysicalBlockNumber nodes tree transactionIdentifier = fail code') :
      RootNodeRun nodes tree transactionIdentifier (fail code, tree')
  | outside (code : ErrorCode) (tree' : SnapshotMetadataTree) {blockNumber : Nat}
      (physical : rootNodePhysicalBlockNumber nodes tree transactionIdentifier = .ok blockNumber)
      (beyond : blockNumber > intMax) : RootNodeRun nodes tree transactionIdentifier (fail code, tree')
  | unreadable (code code' : ErrorCode) (tree' : SnapshotMetadataTree) {blockNumber : Nat}
      (physical : rootNodePhysicalBlockNumber nodes tree transactionIdentifier = .ok blockNumber)
      (read : readRootNode nodes blockNumber = fail code') :
      RootNodeRun nodes tree transactionIdentifier (fail code, tree')
  | unused (tree' : SnapshotMetadataTree) {blockNumber : Nat}
      (physical : rootNodePhysicalBlockNumber nodes tree transactionIdentifier = .ok blockNumber)
      (inside : blockNumber ≤ intMax) (read : readRootNode nodes blockNumber = .ok none) :
      RootNodeRun nodes tree transactionIdentifier (.ok none, tree')
  | misplaced (code : ErrorCode) (tree' : SnapshotMetadataTree) {blockNumber : Nat}
      (physical : rootNodePhysicalBlockNumber nodes tree transactionIdentifier = .ok blockNumber)
      (translated : blockNumber ≠ tree.rootNodeBlockNumber) (absent : ¬Cached tree blockNumber) :
      RootNodeRun nodes tree transactionIdentifier (fail code, tree')
  | found (reference : NodeReference) (tree' : SnapshotMetadataTree)
      (physical : rootNodePhysicalBlockNumber nodes tree transactionIdentifier =
        .ok reference.value.blockNumber)
      (inside : reference.value.blockNumber ≤ intMax) (holds : Holds nodes reference tree') :
      RootNodeRun nodes tree transactionIdentifier (.ok (some reference), tree')
  | mistaken (reference : NodeReference) (tree' : SnapshotMetadataTree) {blockNumber : Nat}
      (physical : rootNodePhysicalBlockNumber nodes tree transactionIdentifier = .ok blockNumber)
      (translated : blockNumber ≠ tree.rootNodeBlockNumber) (absent : ¬Cached tree blockNumber)
      (holds : Holds nodes reference tree') :
      RootNodeRun nodes tree transactionIdentifier (.ok (some reference), tree')

theorem storeRootNode_lost {physicalBlockNumber rootNodeBlockNumber : Nat} {node : BtreeNode}
    (lost : (access { blockNumber := physicalBlockNumber, serial := cache.accesses.length, node } cache).getValue
      rootNodeBlockNumber = none) :
    storeRootNode physicalBlockNumber rootNodeBlockNumber node cache =
      (fail .getFailed, access { blockNumber := physicalBlockNumber, serial := cache.accesses.length, node } cache) := by
  have stored : obtain { blockNumber := physicalBlockNumber, serial := cache.accesses.length, node } cache = _ := rfl
  unfold storeRootNode
  rw [Call.self_bind, Call.bind_of_ok stored, Call.self_bind, lost]
  rfl

theorem storeRootNode_found {physicalBlockNumber rootNodeBlockNumber : Nat} {node : BtreeNode}
    (found : (access { blockNumber := physicalBlockNumber, serial := cache.accesses.length, node } cache).getValue
      rootNodeBlockNumber = some value) :
    storeRootNode physicalBlockNumber rootNodeBlockNumber node cache =
      (do let reference ← obtain value; return some reference : CacheCall (Option NodeReference))
        (access { blockNumber := physicalBlockNumber, serial := cache.accesses.length, node } cache) := by
  have stored : obtain { blockNumber := physicalBlockNumber, serial := cache.accesses.length, node } cache = _ := rfl
  unfold storeRootNode
  rw [Call.self_bind, Call.bind_of_ok stored, Call.self_bind, found]

theorem storeRootNode_run {node : BtreeNode} (valid : tree.nodeCache.Valid) (coherent : Coherent nodes tree.nodeCache)
    (read : readRootNode nodes blockNumber = .ok (some node)) (missing : ¬Cached tree blockNumber) :
    let run := storeRootNode blockNumber tree.rootNodeBlockNumber node tree.nodeCache
    Later nodes tree { tree with nodeCache := run.2 } ∧
      ((blockNumber ≠ tree.rootNodeBlockNumber ∧ ∃ code, run = (fail code, run.2)) ∨
        ∃ reference, run = (.ok (some reference), run.2) ∧ Holds nodes reference { tree with nodeCache := run.2 } ∧
          (blockNumber = reference.value.blockNumber ∨ blockNumber ≠ tree.rootNodeBlockNumber)) := by
  have absent : ∀ other ∈ tree.nodeCache.values, other.blockNumber ≠ blockNumber :=
    fun other member same => missing ⟨other, member, same⟩
  have checked : Checked nodes { blockNumber, serial := tree.nodeCache.accesses.length, node } := Or.inl read
  obtain ⟨later, _⟩ := obtain_later valid checked (Or.inr absent)
  cases found : (access { blockNumber, serial := tree.nodeCache.accesses.length, node } tree.nodeCache).getValue
      tree.rootNodeBlockNumber with
  | none =>
      rw [storeRootNode_lost found]
      refine ⟨later, Or.inl ⟨?_, _, rfl⟩⟩
      rintro rfl
      rw [getValue_access valid.room] at found
      cases found
  | some value =>
      rw [storeRootNode_found found]
      obtain ⟨member, same⟩ := getValue_some found
      have coherent' := later.coherent coherent
      have valid' := later.grows.valid valid
      obtain ⟨later', holds⟩ := obtain_later valid' (coherent' value member) (Or.inl member)
      refine ⟨(guard nodes).trans later later', Or.inr ⟨_, rfl, holds, ?_⟩⟩
      by_cases own : blockNumber = tree.rootNodeBlockNumber
      · exact Or.inl (own.trans same.symm)
      · exact Or.inr own

theorem getRootNode_run (parsed : Parsed nodes) (valid : tree.nodeCache.Valid)
    (coherent : Coherent nodes tree.nodeCache) (transactionIdentifier : Nat) :
    Later nodes tree (getRootNode nodes transactionIdentifier tree).2 ∧
      RootNodeRun nodes tree transactionIdentifier (getRootNode nodes transactionIdentifier tree) := by
  have unchanged : Later nodes tree tree := (guard nodes).refl tree
  unfold getRootNode
  rw [Call.self_bind]
  rcases outcome_returns (rootNodePhysicalBlockNumber_returns parsed tree transactionIdentifier) with
    ⟨physicalBlockNumber, physical, _⟩ | ⟨⟨code, physical⟩, _⟩
  · rw [physical]
    change Later nodes tree ((if physicalBlockNumber > intMax then _ else _ : TreeCall _) tree).2 ∧
      RootNodeRun nodes tree transactionIdentifier ((if physicalBlockNumber > intMax then _ else _ : TreeCall _) tree)
    by_cases beyond : physicalBlockNumber > intMax
    · rw [if_pos beyond]
      exact ⟨unchanged, .outside _ _ physical beyond⟩
    · rw [if_neg beyond]
      have inside := Nat.not_lt.mp beyond
      unfold onCache
      simp only [Call.self_bind]
      cases found : tree.nodeCache.getValue physicalBlockNumber with
      | some value =>
          obtain ⟨member, rfl⟩ := getValue_some found
          obtain ⟨later, holds⟩ := obtain_later valid (coherent value member) (Or.inl member)
          exact ⟨later, .found _ _ physical inside holds⟩
      | none =>
          have absent := getValue_none found
          have missing : ¬Cached tree physicalBlockNumber := fun ⟨value, member, same⟩ => absent value member same
          rcases outcome_returns (readRootNode_returns parsed physicalBlockNumber) with
            ⟨rootNode, read, _⟩ | ⟨⟨code, read⟩, _⟩
          · rw [read]
            cases rootNode with
            | none => exact ⟨unchanged, .unused _ physical inside read⟩
            | some node =>
                obtain ⟨later, run⟩ := storeRootNode_run valid coherent read missing
                refine ⟨later, ?_⟩
                change RootNodeRun nodes tree transactionIdentifier
                  ((storeRootNode physicalBlockNumber tree.rootNodeBlockNumber node tree.nodeCache).1, _)
                rcases run with ⟨translated, code, failed⟩ | ⟨reference, obtained, holds, placed⟩
                · rw [failed]
                  exact .misplaced code _ physical translated missing
                · rw [obtained]
                  rcases placed with rfl | translated
                  · exact .found reference _ physical inside holds
                  · exact .mistaken reference _ physical translated missing holds
          · rw [read]
            exact ⟨unchanged, .unreadable code code _ physical read⟩
  · rw [physical]
    exact ⟨unchanged, .unresolved code code tree physical⟩

end cache

section simulates

variable {objectMapBtree : ObjectMapBtree} {transactionIdentifier : Nat}

/-- A tree of an object map whose cache is as it should be. -/
structure Sound (nodes : Nat → Result BtreeNode) (objectMapBtree : ObjectMapBtree) (tree : SnapshotMetadataTree) :
    Prop where
  objectMap : tree.objectMapBtree = objectMapBtree
  valid : tree.nodeCache.Valid
  coherent : Coherent nodes tree.nodeCache

theorem Sound.later {tree tree' : SnapshotMetadataTree} (sound : Sound nodes objectMapBtree tree)
    (later : Later nodes tree tree') : Sound nodes objectMapBtree tree' :=
  ⟨later.objectMapBtree.trans sound.objectMap, later.grows.valid sound.valid, later.coherent sound.coherent⟩

def Steady (nodes : Nat → Result BtreeNode) (objectMapBtree : ObjectMapBtree) (tree tree' : SnapshotMetadataTree) :
    Prop :=
  tree = tree' ∧ Sound nodes objectMapBtree tree

theorem simulates_self {α : Type} {pre : SnapshotMetadataTree → Prop} {call : TreeCall α}
    {post : α → α → SnapshotMetadataTree → Prop}
    (runs : ∀ tree, Sound nodes objectMapBtree tree → pre tree → Later nodes tree (call tree).2 ∧
      (((call tree).1 = .error .undefined ∧ ¬(call tree).2.nodeCache.Undropped) ∨
        Outcome (call tree).1 (fun a => post a a (call tree).2) True)) :
    Call.Simulates (guard nodes) (Steady nodes objectMapBtree) True pre call call post := by
  rintro tree _ ⟨rfl, sound⟩ held _
  obtain ⟨later, spoiled | ended⟩ := runs tree sound held
  · exact ⟨later, Or.inl spoiled⟩
  · refine ⟨later, Or.inr ?_⟩
    have steady := sound.later later
    cases run : call tree with
    | mk result tree' =>
        rw [run] at ended steady
        rcases outcome_returns ended with ⟨a, rfl, holds⟩ | ⟨⟨code, rfl⟩, _⟩
        · exact ⟨a, tree', rfl, holds, rfl, steady⟩
        · exact ⟨code, tree', rfl, rfl, steady⟩

theorem cachedNodes_steady (parsed : Parsed nodes) :
    AccessSimulates nodes (Steady nodes objectMapBtree) True (cachedNodes nodes) (cachedNodes nodes)
      (fun reference reference' tree => reference = reference' ∧ Holds nodes reference tree) objectMapBtree
      transactionIdentifier (fun _ => True) where
  getSubNode blockNumber _ := simulates_self fun tree sound _ => by
    rcases getSubNode_run parsed sound.coherent blockNumber with
      ⟨code, run, _⟩ | ⟨value, run, _, _, checked, fresh⟩
    · have run' : (cachedNodes nodes).getSubNode blockNumber tree = _ := run
      rw [run']
      exact ⟨(guard nodes).refl tree, Or.inr trivial⟩
    · have run' : (cachedNodes nodes).getSubNode blockNumber tree = _ := run
      rw [run']
      obtain ⟨later, holds⟩ := obtain_later sound.valid checked fresh
      exact ⟨later, Or.inr ⟨rfl, holds⟩⟩
  useNode reference reference' := by
    rintro tree tree' steady ⟨rfl, holds⟩ asked
    refine (simulates_self fun tree _ holds => ?_) tree tree' steady holds asked
    obtain ⟨later, run | ⟨run, spoiled⟩⟩ := useNode_run holds
    · have run' : (cachedNodes nodes).useNode reference tree = _ := run
      rw [run']
      exact ⟨later, Or.inr ⟨rfl, holds.later later⟩⟩
    · have run' : (cachedNodes nodes).useNode reference tree = _ := run
      rw [run']
      exact ⟨later, Or.inl ⟨rfl, spoiled⟩⟩
  node reference reference' tree same := congrArg (cachedNodes nodes).node same.1
  stable reference reference' tree tree' later same := ⟨same.1, same.2.later later⟩
  same tree tree' steady := ⟨steady.2.objectMap, steady.1 ▸ steady.2.objectMap⟩
  children _ _ _ _ _ _ _ _ _ _ _ := trivial

theorem getRootNode_steady (parsed : Parsed nodes) (transactionIdentifier : Nat) :
    Call.Simulates (guard nodes) (Steady nodes objectMapBtree) True (fun _ => True)
      ((cachedNodes nodes).getRootNode transactionIdentifier) ((cachedNodes nodes).getRootNode transactionIdentifier)
      fun found found' tree => (found = none ∧ found' = none) ∨ ∃ reference reference', found = some reference ∧
        found' = some reference' ∧ reference = reference' ∧ Holds nodes reference tree := by
  refine simulates_self fun tree sound _ => ?_
  obtain ⟨later, run⟩ := getRootNode_run parsed sound.valid sound.coherent transactionIdentifier
  refine ⟨later, Or.inr ?_⟩
  change Outcome (getRootNode nodes transactionIdentifier tree).1 (fun found => (found = none ∧ found = none) ∨
    ∃ reference reference', found = some reference ∧ found = some reference' ∧ reference = reference' ∧
      Holds nodes reference (getRootNode nodes transactionIdentifier tree).2) True
  generalize getRootNode nodes transactionIdentifier tree = ended at run ⊢
  cases run with
  | unresolved => trivial
  | outside => trivial
  | unreadable => trivial
  | unused => exact Or.inl ⟨rfl, rfl⟩
  | misplaced => trivial
  | found reference tree' _ _ holds => exact Or.inr ⟨reference, reference, rfl, rfl, rfl, holds⟩
  | mistaken reference tree' _ _ _ holds => exact Or.inr ⟨reference, reference, rfl, rfl, rfl, holds⟩

end simulates

end Fsapfs.SnapshotMetadataTree

namespace Fsapfs.SnapshotListing
open Program SnapshotMetadataTree

variable {nodes : Nat → Result BtreeNode} {objectMapBtree : ObjectMapBtree} {listing : SnapshotListing}

/-- A call on a sound tree leaves a later one, and its result is defined unless a node was dropped in use. -/
def Defined {α : Type} (nodes : Nat → Result BtreeNode) (listing : SnapshotListing) (call : ListingCall α) : Prop :=
  Later nodes listing.tree (call listing).2.tree ∧
    (((call listing).1 = .error .undefined ∧ ¬(call listing).2.tree.nodeCache.Undropped) ∨
      Outcome (call listing).1 (fun _ => True) True)

theorem defined_of_simulates {α : Type} {pre : SnapshotListing → Prop} {call : ListingCall α}
    {post : α → α → SnapshotListing → Prop}
    (simulates : Call.Simulates (guard nodes) (SameArray (Steady nodes objectMapBtree)) True pre call call post)
    (sound : Sound nodes objectMapBtree listing.tree) (held : pre listing) : Defined nodes listing call := by
  obtain ⟨later, spoiled | alike⟩ := simulates listing listing ⟨⟨rfl, sound⟩, rfl⟩ held (Or.inl trivial)
  · exact ⟨later, Or.inl spoiled⟩
  · refine ⟨later, Or.inr ?_⟩
    unfold Call.Alike at alike
    split at alike
    next run =>
      rw [run]
      trivial
    next =>
      obtain ⟨code, _, run, _⟩ := alike
      rw [run]
      trivial

theorem getSnapshotsFromSubNode_defined (parsed : Parsed nodes) (transactionIdentifier depth blockNumber : Nat)
    (sound : Sound nodes objectMapBtree listing.tree) :
    Defined nodes listing (getSnapshotsFromSubNode (cachedNodes nodes) nodes transactionIdentifier depth blockNumber) :=
  defined_of_simulates (getSnapshotsFromSubNode_simulates (cachedNodes_steady parsed) parsed depth blockNumber trivial)
    sound trivial

theorem getSnapshots_defined (parsed : Parsed nodes) (transactionIdentifier : Nat)
    (sound : Sound nodes objectMapBtree listing.tree) :
    Defined nodes listing (getSnapshots (cachedNodes nodes) nodes transactionIdentifier) :=
  defined_of_simulates (getSnapshots_simulates (cachedNodes_steady parsed) parsed
    (getRootNode_steady parsed transactionIdentifier)) sound trivial

end Fsapfs.SnapshotListing
