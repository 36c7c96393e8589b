import Fsapfs.Btree.Descents
import Fsapfs.CacheRoom
import Fsapfs.CachedBtree
import Fsapfs.Program.Following

namespace Fsapfs.FileSystemBtree
open Program

variable {nodes : Nat → Result BtreeNode} {blockNumber : Nat} {node node' : BtreeNode}

theorem getSubNode_flags (read : getSubNode nodes blockNumber = .ok node) : node.isRootNode = false := by
  unfold getSubNode at read
  split_ifs at read with beyond
  · cases read
  · obtain ⟨node', _, read⟩ := bind_eq_ok.mp read
    split_ifs at read with object flags
    · cases read
    · cases read
    · cases read
      simpa using (not_or.mp flags).1

theorem getRootNode_flags (read : getRootNode nodes blockNumber = .ok (some node)) : node.isRootNode := by
  unfold getRootNode at read
  split_ifs at read with beyond
  · cases read
  · obtain ⟨node', _, read⟩ := bind_eq_ok.mp read
    split_ifs at read with unused object flags
    · cases read
    · cases read
    · cases read
    · obtain ⟨_, _, read⟩ := bind_eq_ok.mp read
      cases read
      simpa using (not_or.mp flags).1

theorem getSubNode_root (sub : getSubNode nodes blockNumber = .ok node)
    (root : getRootNode nodes blockNumber = .ok (some node')) : False := by
  have same : node = node' := Except.ok.inj ((getSubNode_read sub).symm.trans (getRootNode_read root))
  have flags := getRootNode_flags root
  rw [← same, getSubNode_flags sub] at flags
  cases flags

/-- All that a handle can learn is the encoding, once. -/
def Learns (btree btree' : FileSystemBtree) : Prop :=
  btree' = btree ∨ (btree.branchChildOidEncoding = .unknown ∧
    ∃ encoding, btree' = { btree with branchChildOidEncoding := encoding })

theorem Learns.trans {btree btree' btree'' : FileSystemBtree} (first : Learns btree btree')
    (second : Learns btree' btree'') : Learns btree btree'' := by
  rcases first with rfl | ⟨unknown, encoding, rfl⟩
  · exact second
  · rcases second with rfl | ⟨_, encoding', rfl⟩
    · exact Or.inr ⟨unknown, encoding, rfl⟩
    · exact Or.inr ⟨unknown, encoding', rfl⟩

theorem Learns.rootNodeBlockNumber {btree btree' : FileSystemBtree} (learns : Learns btree btree') :
    btree'.rootNodeBlockNumber = btree.rootNodeBlockNumber := by
  rcases learns with rfl | ⟨_, _, rfl⟩ <;> rfl

theorem Learns.known {btree btree' : FileSystemBtree} (learns : Learns btree btree')
    (known : btree.branchChildOidEncoding ≠ .unknown) : btree' = btree :=
  learns.resolve_right fun unknown => known unknown.1

theorem learnEncoding_learns (encoding : BranchChildOidEncoding) (btree : FileSystemBtree) :
    Learns btree (learnEncoding encoding btree) := by
  unfold learnEncoding
  split
  next unknown => exact Or.inr ⟨unknown, encoding, rfl⟩
  next => exact Or.inl rfl

/-- A node that is not above the root node of the tree. -/
def Beneath (nodes : Nat → Result BtreeNode) (rootNodeBlockNumber level : Nat) : Prop :=
  ∀ root, getRootNode nodes rootNodeBlockNumber = .ok (some root) → level ≤ root.level

end Fsapfs.FileSystemBtree

namespace Fsapfs.CachedBtree
open Program NodeCache

variable {nodes : Nat → Result BtreeNode} {blocks blocks' : Nat → Prop}

/-- A node that has been checked as a sub node, or as the root node in the block of that. -/
def Checked (nodes : Nat → Result BtreeNode) (rootNodeBlockNumber : Nat) (value : CachedNode) : Prop :=
  FileSystemBtree.getSubNode nodes value.blockNumber = .ok value.node ∨
    (value.blockNumber = rootNodeBlockNumber ∧
      FileSystemBtree.getRootNode nodes rootNodeBlockNumber = .ok (some value.node))

structure Sound (nodes : Nat → Result BtreeNode) (tree : CachedBtree) : Prop where
  valid : tree.nodeCache.Valid
  checked : ∀ value ∈ tree.nodeCache.values, Checked nodes tree.btree.rootNodeBlockNumber value

/-- A later tree, up to which only these blocks were accessed and no dropped node was used. -/
structure Tame (nodes : Nat → Result BtreeNode) (blocks : Nat → Prop) (tree tree' : CachedBtree) : Prop where
  within : Within blocks tree.nodeCache tree'.nodeCache
  sound : Sound nodes tree → Sound nodes tree'
  learns : FileSystemBtree.Learns tree.btree tree'.btree

/-- A pointer to a node, since which only these blocks were accessed. -/
structure Held (nodes : Nat → Result BtreeNode) (blocks : Nat → Prop) (reference : NodeReference) (tree : CachedBtree) :
    Prop where
  sound : Sound nodes tree
  points : Points reference tree.nodeCache
  since : Since blocks reference tree.nodeCache

section tame

variable {tree tree' tree'' : CachedBtree} {reference : NodeReference}

theorem Tame.refl (tree : CachedBtree) : Tame nodes blocks tree tree :=
  ⟨Within.refl tree.nodeCache, id, Or.inl rfl⟩

theorem Tame.trans (first : Tame nodes blocks tree tree') (second : Tame nodes blocks tree' tree'') :
    Tame nodes blocks tree tree'' :=
  ⟨first.within.trans second.within, second.sound ∘ first.sound, first.learns.trans second.learns⟩

theorem Tame.mono (tame : Tame nodes blocks tree tree') (more : ∀ blockNumber, blocks blockNumber → blocks' blockNumber) :
    Tame nodes blocks' tree tree' :=
  ⟨tame.within.mono more, tame.sound, tame.learns⟩

theorem Held.later (held : Held nodes blocks reference tree) (tame : Tame nodes blocks tree tree') :
    Held nodes blocks reference tree' where
  sound := tame.sound held.sound
  points := tame.within.grows.points held.sound.valid reference held.points
  since := held.since.within tame.within

theorem Held.mono (held : Held nodes blocks reference tree)
    (more : ∀ blockNumber, blocks blockNumber → blocks' blockNumber) : Held nodes blocks' reference tree :=
  ⟨held.sound, held.points, held.since.mono more⟩

theorem Held.live (held : Held nodes blocks reference tree) (few : Few tree.nodeCache.capacity blocks) :
    reference.value ∈ tree.nodeCache.values :=
  held.points.held fun _ from_ until_ => held.since.recent few from_ until_

theorem useNode_held (held : Held nodes blocks reference tree) (few : Few tree.nodeCache.capacity blocks) :
    onCache (useNode reference) tree = (.ok (), { tree with nodeCache := use reference tree.nodeCache }) ∧
      Tame nodes blocks' tree { tree with nodeCache := use reference tree.nodeCache } := by
  constructor
  · unfold onCache useNode
    rw [Call.update_bind, Call.self_bind, if_pos (show reference.value ∈ (use reference tree.nodeCache).values from
      held.live few)]
    rfl
  · have within := use_within held.points held.since few
    refine ⟨within.mono fun _ impossible => impossible.elim, fun sound => ?_, Or.inl rfl⟩
    exact ⟨within.grows.valid sound.valid, sound.checked⟩

end tame

section obtain

variable {tree : CachedBtree} {value : CachedNode}

theorem access_tame (sound : Sound nodes tree) (checked : Checked nodes tree.btree.rootNodeBlockNumber value)
    (fresh : value ∈ tree.nodeCache.values ∨ ∀ other ∈ tree.nodeCache.values, other.blockNumber ≠ value.blockNumber) :
    Tame nodes (· = value.blockNumber) tree { tree with nodeCache := access value tree.nodeCache } ∧
      Held nodes (fun _ => False) { value, obtained := (access value tree.nodeCache).accesses.length }
        { tree with nodeCache := access value tree.nodeCache } := by
  have sound' : Sound nodes { tree with nodeCache := access value tree.nodeCache } := by
    refine ⟨access_valid sound.valid value, fun other member => ?_⟩
    rcases mem_access member with rfl | ⟨before, _⟩
    · exact checked
    · exact sound.checked other before
  exact ⟨⟨access_within fresh, fun _ => sound', Or.inl rfl⟩,
    ⟨sound', access_obtained value, since_obtained value tree.nodeCache⟩⟩

theorem getValue_fresh {blockNumber : Nat} (absent : tree.nodeCache.getValue blockNumber = none) :
    ∀ other ∈ tree.nodeCache.values, other.blockNumber ≠ blockNumber := by
  simpa using List.find?_eq_none.mp absent

/-- A sub node is got as it is read, or the root node is got in place of it. -/
inductive SubNodeRun (nodes : Nat → Result BtreeNode) (tree : CachedBtree) (blockNumber : Nat) :
    Result NodeReference × CachedBtree → Prop
  | refused (code : ErrorCode) (read : FileSystemBtree.getSubNode nodes blockNumber = fail code) :
      SubNodeRun nodes tree blockNumber (fail code, tree)
  | obtained (reference : NodeReference) (cache : NodeCache)
      (checked : Checked nodes tree.btree.rootNodeBlockNumber reference.value)
      (own : reference.value.blockNumber = blockNumber)
      (tame : Tame nodes (· = blockNumber) tree { tree with nodeCache := cache })
      (held : Held nodes (fun _ => False) reference { tree with nodeCache := cache }) :
      SubNodeRun nodes tree blockNumber (.ok reference, { tree with nodeCache := cache })

theorem getSubNode_run (parsed : Parsed nodes) (sound : Sound nodes tree) (blockNumber : Nat) :
    SubNodeRun nodes tree blockNumber (getSubNode nodes blockNumber tree) := by
  unfold getSubNode
  by_cases beyond : blockNumber > intMax
  · rw [if_pos beyond]
    refine .refused _ ?_
    unfold FileSystemBtree.getSubNode
    rw [if_pos beyond]
  · rw [if_neg beyond]
    unfold onCache getNode
    simp only [Call.self_bind]
    cases found : tree.nodeCache.getValue blockNumber with
    | some value =>
        have member : value ∈ tree.nodeCache.values := List.mem_of_find?_eq_some found
        obtain rfl : value.blockNumber = blockNumber := by simpa using List.find?_some found
        obtain ⟨tame, held⟩ := access_tame sound (sound.checked value member) (Or.inl member)
        exact .obtained _ _ (sound.checked value member) rfl tame held
    | none =>
        rcases outcome_returns (FileSystemBtree.getSubNode_returns parsed blockNumber) with
          ⟨node, read, _⟩ | ⟨⟨code, read⟩, _⟩
        · rw [read]
          let value : CachedNode := { blockNumber, serial := tree.nodeCache.accesses.length, node }
          have checked : Checked nodes tree.btree.rootNodeBlockNumber value := Or.inl read
          obtain ⟨tame, held⟩ := access_tame sound checked (Or.inr (getValue_fresh found))
          exact .obtained _ _ checked rfl tame held
        · rw [read]
          exact .refused code read

theorem getSubNode_ok (parsed : Parsed nodes) (sound : Sound nodes tree) {blockNumber : Nat} {subNode : BtreeNode}
    (read : FileSystemBtree.getSubNode nodes blockNumber = .ok subNode) :
    ∃ reference cache, getSubNode nodes blockNumber tree = (.ok reference, { tree with nodeCache := cache }) ∧
      reference.value.node = subNode ∧ Tame nodes (· = blockNumber) tree { tree with nodeCache := cache } ∧
      Held nodes (fun _ => False) reference { tree with nodeCache := cache } := by
  have run := getSubNode_run parsed sound blockNumber
  generalize getSubNode nodes blockNumber tree = ended at run ⊢
  cases run with
  | refused code read' => cases read.symm.trans read'
  | obtained reference cache checked own tame held =>
      refine ⟨reference, cache, rfl, ?_, tame, held⟩
      rcases checked with sub | ⟨here, root⟩
      · rw [own, read] at sub
        exact (Except.ok.inj sub).symm
      · rw [← here, own] at root
        exact (FileSystemBtree.getSubNode_root read root).elim

end obtain

end Fsapfs.CachedBtree
