import Fsapfs.Btree.FileSystemTree
import Fsapfs.Snapshots.Requests

namespace Fsapfs.SnapshotMetadataTree
open Program NodeCache
open FileSystemBtree (entryIdentifier entryDataType subNodeObjectIdentifier readFileSystemIdentifier_ok)

section stored

variable (nodes : Nat → Result BtreeNode) (objectMapBtree : ObjectMapBtree) (transactionIdentifier : Nat)

/-- The object map resolves the value of a branch entry to a block, whose number is in range. -/
structure Resolves (entry : BtreeEntry) (blockNumber : Nat) : Prop where
  sized : 8 ≤ entry.valueData.length
  mapped : ∃ descriptor, ObjectMapBtree.getDescriptorByObjectIdentifier nodes objectMapBtree
    (subNodeObjectIdentifier entry) transactionIdentifier = .ok (some descriptor) ∧
    descriptor.physicalAddress = blockNumber
  inside : blockNumber ≤ intMax

def layout : Layout BtreeNode BtreeEntry where
  leaf node entries := node.isLeafNode ∧ node.entries = entries ∧ ∀ entry ∈ entries, 8 ≤ entry.keyData.length
  branch node entries := node.isLeafNode = false ∧ node.entries = entries ∧
    ∀ entry ∈ entries, 8 ≤ entry.keyData.length
  leads _ entry subNode := ∃ blockNumber, Resolves nodes objectMapBtree transactionIdentifier entry blockNumber ∧
    readSubNode nodes blockNumber = .ok subNode

end stored

def isSnapshotMetadata (entry : BtreeEntry) : Bool := entryDataType entry == 1

def Decodes (entries : List BtreeEntry) : Prop :=
  ∀ entry ∈ entries, isSnapshotMetadata entry → ∃ metadata, SnapshotMetadata.read entry = .ok metadata

def metadataOf (entries : List BtreeEntry) : List SnapshotMetadata :=
  (entries.filter isSnapshotMetadata).filterMap fun entry => (SnapshotMetadata.read entry).toOption

section metadata

variable {entry : BtreeEntry} {entries entries' : List BtreeEntry}

theorem metadataOf_append : metadataOf (entries ++ entries') = metadataOf entries ++ metadataOf entries' := by
  simp [metadataOf]

theorem decodes_append : Decodes (entries ++ entries') ↔ Decodes entries ∧ Decodes entries' :=
  List.forall_mem_append

theorem metadataOf_other (other : isSnapshotMetadata entry = false) :
    metadataOf (entry :: entries) = metadataOf entries := by
  simp [metadataOf, other]

theorem metadataOf_record {metadata : SnapshotMetadata} (record : isSnapshotMetadata entry)
    (read : SnapshotMetadata.read entry = .ok metadata) :
    metadataOf (entry :: entries) = metadata :: metadataOf entries := by
  simp [metadataOf, record, read, Except.toOption]

end metadata

variable {nodes : Nat → Result BtreeNode} {objectMapBtree : ObjectMapBtree} {transactionIdentifier : Nat}

theorem getSubNodeBlockNumberFromEntry_eq {tree : SnapshotMetadataTree} (own : tree.objectMapBtree = objectMapBtree)
    {entry : BtreeEntry} {blockNumber : Nat}
    (resolves : Resolves nodes objectMapBtree transactionIdentifier entry blockNumber) :
    getSubNodeBlockNumberFromEntry nodes tree entry transactionIdentifier = .ok (some blockNumber) := by
  obtain ⟨sized, ⟨descriptor, mapped, rfl⟩, _⟩ := resolves
  have number : loadLittleEndian64 entry.valueData 0 = .ok (subNodeObjectIdentifier entry) := loadLittleEndian_ok sized
  unfold getSubNodeBlockNumberFromEntry
  rw [(requireData_ok (by simp)).mpr sized, ok_bind, number, ok_bind, own, mapped]
  rfl

def storedUnder (nodes : Nat → Result BtreeNode) (root : BtreeNode) : NodeAccess BtreeNode where
  getRootNode _ := pure (some root)
  getSubNode := (storedNodes nodes).getSubNode
  useNode := (storedNodes nodes).useNode
  node := (storedNodes nodes).node

def Stores (nodes : Nat → Result BtreeNode) (objectMapBtree : ObjectMapBtree) (transactionIdentifier : Nat)
    (node : BtreeNode) : Prop :=
  ∃ (height : Nat) (tree : SearchTree BtreeEntry height), (layout nodes objectMapBtree transactionIdentifier).Stored tree node

theorem Stores.child {node : BtreeNode} (stores : Stores nodes objectMapBtree transactionIdentifier node)
    (branch : node.isLeafNode = false) {entry : BtreeEntry} (member : entry ∈ node.entries) :
    ∃ blockNumber subNode, Resolves nodes objectMapBtree transactionIdentifier entry blockNumber ∧
      readSubNode nodes blockNumber = .ok subNode ∧ Stores nodes objectMapBtree transactionIdentifier subNode := by
  obtain ⟨height, tree, stored⟩ := stores
  cases height with
  | zero =>
      obtain ⟨leaf, _⟩ := stored
      exact absurd leaf (by simp [branch])
  | succ height =>
      obtain ⟨⟨_, same, _⟩, leads⟩ := stored
      rw [same] at member
      obtain ⟨sub, inside, rfl⟩ := List.mem_map.mp member
      obtain ⟨subNode, ⟨blockNumber, resolves, read⟩, stored⟩ := leads sub inside
      exact ⟨blockNumber, subNode, resolves, read, height, sub.2, stored⟩

/-- A sound tree, and any tree of its object map. -/
def Plain (nodes : Nat → Result BtreeNode) (objectMapBtree : ObjectMapBtree) (tree tree' : SnapshotMetadataTree) : Prop :=
  Sound nodes objectMapBtree tree ∧ tree'.objectMapBtree = objectMapBtree

def Same (nodes : Nat → Result BtreeNode) (objectMapBtree : ObjectMapBtree) (transactionIdentifier : Nat)
    (reference : NodeReference) (node : BtreeNode) (tree : SnapshotMetadataTree) : Prop :=
  Holds nodes reference tree ∧ reference.value.node = node ∧ Stores nodes objectMapBtree transactionIdentifier node

theorem getSubNode_stored (parsed : Parsed nodes) {tree : SnapshotMetadataTree}
    (coherent : Coherent nodes tree.nodeCache) {blockNumber : Nat} {subNode : BtreeNode} (inside : blockNumber ≤ intMax)
    (read : readSubNode nodes blockNumber = .ok subNode) :
    ∃ value, getSubNode nodes blockNumber tree =
        (.ok { value, obtained := (access value tree.nodeCache).accesses.length },
          { tree with nodeCache := access value tree.nodeCache }) ∧
      value.blockNumber = blockNumber ∧ value.node = subNode ∧ Checked nodes value ∧
      (value ∈ tree.nodeCache.values ∨ ∀ other ∈ tree.nodeCache.values, other.blockNumber ≠ value.blockNumber) := by
  rcases getSubNode_run parsed coherent blockNumber with
    ⟨_, _, beyond | ⟨_, failed⟩⟩ | ⟨value, run, _, rfl, checked, fresh⟩
  · exact absurd inside (Nat.not_le.mpr beyond)
  · cases read.symm.trans failed
  · rcases checked with root | sub
    · exact (readSubNode_root root read).elim
    · exact ⟨value, run, rfl, Except.ok.inj (sub.symm.trans read), Or.inr sub, fresh⟩

theorem cachedNodes_stored (parsed : Parsed nodes) (root : BtreeNode) :
    AccessSimulates nodes (Plain nodes objectMapBtree) True (cachedNodes nodes) (storedUnder nodes root)
      (Same nodes objectMapBtree transactionIdentifier) objectMapBtree transactionIdentifier
      (fun blockNumber => blockNumber ≤ intMax ∧ ∃ subNode, readSubNode nodes blockNumber = .ok subNode ∧
        Stores nodes objectMapBtree transactionIdentifier subNode) where
  getSubNode blockNumber := by
    rintro ⟨inside, subNode, read, stores⟩ tree tree' ⟨sound, own⟩ _ _
    obtain ⟨value, run, rfl, rfl, checked, fresh⟩ := getSubNode_stored parsed sound.coherent inside read
    obtain ⟨later, holds⟩ := obtain_later sound.valid checked fresh
    have run' : (cachedNodes nodes).getSubNode value.blockNumber tree = _ := run
    have plain : (storedUnder nodes root).getSubNode value.blockNumber tree' = (.ok value.node, tree') := by
      change (if value.blockNumber > intMax then _ else _ : TreeCall BtreeNode) tree' = _
      rw [if_neg (Nat.not_lt.mpr inside), read]
      rfl
    rw [run', plain]
    exact ⟨later, Or.inr ⟨_, _, rfl, ⟨holds, rfl, stores⟩, sound.later later, own⟩⟩
  useNode reference node := by
    rintro tree tree' ⟨sound, own⟩ ⟨holds, same, stores⟩ _
    obtain ⟨later, run | ⟨run, spoiled⟩⟩ := useNode_run holds
    · have run' : (cachedNodes nodes).useNode reference tree = _ := run
      rw [run']
      exact ⟨later, Or.inr ⟨_, _, rfl, ⟨holds.later later, same, stores⟩, sound.later later, own⟩⟩
    · have run' : (cachedNodes nodes).useNode reference tree = _ := run
      rw [run']
      exact ⟨later, Or.inl ⟨rfl, spoiled⟩⟩
  node _ _ _ same := same.2.1
  stable _ _ _ _ later same := ⟨same.1.later later, same.2⟩
  same _ _ plain := ⟨plain.1.objectMap, plain.2⟩
  children reference node tree same branch entry member tree' own blockNumber resolved := by
    obtain ⟨_, rfl, stores⟩ := same
    obtain ⟨blockNumber', subNode, resolves, read, stores⟩ := stores.child branch member
    obtain rfl : blockNumber' = blockNumber := by
      simpa using (getSubNodeBlockNumberFromEntry_eq own resolves).symm.trans resolved
    exact ⟨resolves.inside, subNode, read, stores⟩

end Fsapfs.SnapshotMetadataTree

namespace Fsapfs.SnapshotListing
open Program SnapshotMetadataTree
open FileSystemBtree (entryDataType entryKey readFileSystemIdentifier_ok sameKey)

variable {nodes : Nat → Result BtreeNode} {objectMapBtree : ObjectMapBtree} {transactionIdentifier : Nat}

/-- A listing appends the records of entries, and fails if one of them cannot be read or the tree is too high. -/
def Lists (fits : Prop) (before : Bool) (entries : List BtreeEntry) (listing : SnapshotListing)
    (call : ListingCall Bool) : Prop :=
  call.Ends listing
    (fun found listing' => (fits ∧ Decodes entries) ∧ found = (before || !(metadataOf entries).isEmpty) ∧
      listing' = { listing with snapshots := listing.snapshots ++ metadataOf entries })
    fun _ => ¬(fits ∧ Decodes entries)

theorem Lists.congr {fits fits' : Prop} {before : Bool} {entries : List BtreeEntry} {listing : SnapshotListing}
    {call : ListingCall Bool} (lists : Lists fits before entries listing call) (same : fits ↔ fits') :
    Lists fits' before entries listing call := by
  unfold Lists at *
  rwa [← same]

theorem Lists.emptyOnError {fits : Prop} {before : Bool} {entries : List BtreeEntry} {listing : SnapshotListing}
    {call : ListingCall Bool} (lists : Lists fits before entries listing call) :
    Lists fits before entries listing (emptyOnError call) := by
  unfold Lists Call.Ends SnapshotListing.emptyOnError at *
  split at lists
  next run =>
    rw [run]
    exact lists
  next run =>
    rw [run]
    exact lists

theorem appendLeafSnapshots_lists (before : Bool) (entries : List BtreeEntry)
    (sized : ∀ entry ∈ entries, 8 ≤ entry.keyData.length) (listing : SnapshotListing) :
    Lists True before entries listing (appendLeafSnapshots before entries) := by
  induction entries generalizing before listing with
  | nil => exact ⟨⟨trivial, by simp [Decodes]⟩, by simp [metadataOf], by simp [metadataOf]⟩
  | cons entry entries ih =>
      obtain ⟨first, sized⟩ := List.forall_mem_cons.mp sized
      unfold Lists appendLeafSnapshots
      rw [readFileSystemIdentifier_ok first, Call.ends_lift_ok_bind]
      by_cases other : keyDataType (entryKey entry) ≠ 1
      · rw [if_pos other]
        have skipped : isSnapshotMetadata entry = false := by simpa [isSnapshotMetadata, entryDataType] using other
        have same : Decodes (entry :: entries) ↔ Decodes entries := by simp [Decodes, skipped]
        refine (ih before sized listing).mono (fun found listing' => ?_) fun _ => ?_
        · rw [same, metadataOf_other skipped]
          exact id
        · rw [same]
          exact id
      · rw [if_neg other]
        have record : isSnapshotMetadata entry := by simpa [isSnapshotMetadata, entryDataType] using other
        cases read : SnapshotMetadata.read entry with
        | error failure =>
            rw [Call.ends_lift_error_bind]
            rintro ⟨_, decodes⟩
            obtain ⟨metadata, read'⟩ := decodes entry (by simp) record
            cases read.symm.trans read'
        | ok metadata =>
            have same : Decodes (entry :: entries) ↔ Decodes entries := by simp [Decodes, read]
            rw [Call.ends_lift_ok_bind, Call.ends_update_bind]
            refine (ih true sized _).mono (fun found listing' => ?_) fun _ => ?_
            · rw [same, metadataOf_record record read]
              rintro ⟨good, rfl, rfl⟩
              exact ⟨good, by simp, by simp [append]⟩
            · rw [same]
              exact id

theorem getSnapshotsFromLeafNode_lists (root : BtreeNode) {node : BtreeNode} (leaf : node.isLeafNode)
    (sized : ∀ entry ∈ node.entries, 8 ≤ entry.keyData.length) (listing : SnapshotListing) :
    Lists True false node.entries listing (getSnapshotsFromLeafNode (storedUnder nodes root) node) := by
  refine Lists.emptyOnError ?_
  change Lists True false node.entries listing (if node.isLeafNode then appendLeafSnapshots false node.entries else _)
  rw [if_pos leaf]
  exact appendLeafSnapshots_lists false node.entries sized listing

section tree

variable {root : BtreeNode} {next : Nat → ListingCall Bool} {fits : Prop} {height : Nat}

theorem visitEntries_lists (node : BtreeNode) {branch : List (BtreeEntry × SearchTree BtreeEntry height)}
    (sized : ∀ entry ∈ branch.map Prod.fst, 8 ≤ entry.keyData.length)
    (continues : ∀ sub ∈ branch, ∃ blockNumber,
      SnapshotMetadataTree.Resolves nodes objectMapBtree transactionIdentifier sub.1 blockNumber ∧
      ∀ listing : SnapshotListing, listing.tree.objectMapBtree = objectMapBtree →
        Lists fits false sub.2.items listing (next blockNumber))
    (before : Bool) (listing : SnapshotListing) (own : listing.tree.objectMapBtree = objectMapBtree) :
    Lists (branch ≠ [] → fits) before (branch.flatMap fun sub => sub.2.items) listing
      (visitEntries (storedUnder nodes root) nodes transactionIdentifier next node before (branch.map Prod.fst)) := by
  induction branch generalizing before listing with
  | nil => exact ⟨⟨by simp, by simp [Decodes]⟩, by simp [metadataOf], by simp [metadataOf]⟩
  | cons sub branch ih =>
      obtain ⟨first, sized⟩ := List.forall_mem_cons.mp sized
      obtain ⟨⟨blockNumber, resolves, visits⟩, continues⟩ := List.forall_mem_cons.mp continues
      have used : onTree ((storedUnder nodes root).useNode node) listing = (.ok (), listing) := rfl
      unfold Lists
      rw [List.map_cons, visitEntries, Call.ends_bind_of_ok used, (requireData_ok (by simp)).mpr first, Call.ends_lift_ok_bind, Call.ends_self_bind,
        getSubNodeBlockNumberFromEntry_eq own resolves, Call.ends_lift_ok_bind, List.flatMap_cons, metadataOf_append,
        decodes_append]
      have visited : (next blockNumber).Ends listing _ _ := visits listing own
      refine (visited.mono (fun _ _ => id) fun listing' spoilt whole => ?_).bind fun result listing' ended => ?_
      · exact spoilt ⟨whole.1 (by simp), whole.2.1⟩
      · obtain ⟨⟨fits, decodes⟩, rfl, rfl⟩ := ended
        have rest : Call.Ends _ _ _ _ := ih sized continues (before || (false || !(metadataOf sub.2.items).isEmpty))
          { listing with snapshots := listing.snapshots ++ metadataOf sub.2.items } own
        refine rest.mono (fun found listing' => ?_) fun _ failed whole => failed ⟨fun _ => fits, whole.2.2⟩
        rintro ⟨⟨_, decodes'⟩, rfl, rfl⟩
        exact ⟨⟨fun _ => fits, decodes, decodes'⟩, by cases metadataOf sub.2.items <;> simp, by simp⟩

/-- The trees of some heights that are listed from their blocks. -/
def ListsTrees (nodes : Nat → Result BtreeNode) (objectMapBtree : ObjectMapBtree) (transactionIdentifier depth : Nat)
    (next : Nat → ListingCall Bool) : Prop :=
  ∀ (height : Nat) (tree : SearchTree BtreeEntry height) (blockNumber : Nat) (node : BtreeNode),
    blockNumber ≤ intMax → readSubNode nodes blockNumber = .ok node →
    (layout nodes objectMapBtree transactionIdentifier).Stored tree node → tree.Headed sameKey →
    ∀ listing : SnapshotListing, listing.tree.objectMapBtree = objectMapBtree →
      Lists (height ≤ depth) false tree.items listing (next blockNumber)

theorem getSnapshotsFromNode_lists {depth : Nat}
    (continues : ListsTrees nodes objectMapBtree transactionIdentifier depth next) {tree : SearchTree BtreeEntry height}
    {node : BtreeNode} (stored : (layout nodes objectMapBtree transactionIdentifier).Stored tree node)
    (headed : tree.Headed sameKey) (listing : SnapshotListing) (own : listing.tree.objectMapBtree = objectMapBtree) :
    Lists (height ≤ depth + 1) false tree.items listing
      (getSnapshotsFromNode (storedUnder nodes root) nodes transactionIdentifier next node) := by
  have node' : (storedUnder nodes root).node node = node := rfl
  unfold getSnapshotsFromNode getSnapshotsFromBranchNode
  rw [node']
  cases height with
  | zero =>
      obtain ⟨leaf, rfl, sized⟩ := stored
      rw [if_pos leaf]
      exact (getSnapshotsFromLeafNode_lists root leaf sized listing).congr (by simp)
  | succ height =>
      obtain ⟨⟨branch, same, sized⟩, leads⟩ := stored
      obtain ⟨filled, _, headed⟩ := headed
      rw [if_neg (by simp [branch]), if_neg (by simp [branch]), same]
      have children : ∀ sub ∈ tree.subTrees, ∃ blockNumber,
          SnapshotMetadataTree.Resolves nodes objectMapBtree transactionIdentifier sub.1 blockNumber ∧
          ∀ listing : SnapshotListing, listing.tree.objectMapBtree = objectMapBtree →
            Lists (height ≤ depth) false sub.2.items listing (next blockNumber) := by
        intro sub member
        obtain ⟨subNode, ⟨blockNumber, resolves, read⟩, stored⟩ := leads sub member
        exact ⟨blockNumber, resolves,
          continues height sub.2 blockNumber subNode resolves.inside read stored (headed sub member)⟩
      have nonempty : (tree.subTrees ≠ [] → height ≤ depth) ↔ height + 1 ≤ depth + 1 :=
        ⟨fun fits => Nat.succ_le_succ (fits filled), fun fits _ => Nat.le_of_succ_le_succ fits⟩
      exact (visitEntries_lists node sized children false listing own).emptyOnError.congr nonempty

theorem getSubNode_plain {blockNumber : Nat} {node : BtreeNode} (inside : blockNumber ≤ intMax)
    (read : readSubNode nodes blockNumber = .ok node) (listing : SnapshotListing) :
    onTree ((storedUnder nodes root).getSubNode blockNumber) listing = (.ok node, listing) := by
  change ((if blockNumber > intMax then _ else _ : TreeCall BtreeNode) listing.tree |>.1,
    { listing with tree := ((if blockNumber > intMax then _ else _ : TreeCall BtreeNode) listing.tree).2 }) = _
  rw [if_neg (Nat.not_lt.mpr inside), read]
  rfl

theorem getSnapshotsFromSubNode_lists (root : BtreeNode) (depth : Nat) :
    ListsTrees nodes objectMapBtree transactionIdentifier depth
      (getSnapshotsFromSubNode (storedUnder nodes root) nodes transactionIdentifier depth) := by
  induction depth with
  | zero =>
      intro height tree blockNumber node inside read stored _ listing _
      have limit : Lists (height ≤ 0) false tree.items listing (if node.isLeafNode then
          getSnapshotsFromLeafNode (storedUnder nodes root) node else Call.lift (fail .valueOutOfBounds)) := by
        cases height with
        | zero =>
            obtain ⟨leaf, rfl, sized⟩ := stored
            rw [if_pos leaf]
            exact (getSnapshotsFromLeafNode_lists root leaf sized listing).congr (by simp)
        | succ height =>
            obtain ⟨⟨branch, _⟩, _⟩ := stored
            rw [if_neg (by simp [branch])]
            exact fun whole => absurd whole.1 (by simp)
      unfold Lists Call.Ends at *
      rw [getSnapshotsFromSubNode, descend, getSnapshotsLimit, Call.bind_of_ok (getSubNode_plain inside read listing)]
      exact limit
  | succ depth ih =>
      intro height tree blockNumber node inside read stored headed listing own
      have whole : Lists _ _ _ _ (getSnapshotsFromNode (storedUnder nodes root) _ _ _ _) :=
        getSnapshotsFromNode_lists ih stored headed listing own
      unfold Lists Call.Ends at *
      rw [getSnapshotsFromSubNode, descend, getSnapshotsBody, Call.bind_of_ok (getSubNode_plain inside read listing)]
      exact whole

theorem getSnapshots_lists {tree : SearchTree BtreeEntry height}
    (stored : (layout nodes objectMapBtree transactionIdentifier).Stored tree root) (headed : tree.Headed sameKey)
    (listing : SnapshotListing) (own : listing.tree.objectMapBtree = objectMapBtree) :
    Lists (height ≤ maximumBtreeNodeRecursionDepth + 1) false tree.items listing
      (getSnapshots (storedUnder nodes root) nodes transactionIdentifier) :=
  (getSnapshotsFromNode_lists (getSnapshotsFromSubNode_lists root _) stored headed listing own).emptyOnError

end tree

theorem getRootNode_holds (parsed : Parsed nodes) {tree tree' : SnapshotMetadataTree}
    (sound : Sound nodes objectMapBtree tree) {reference : NodeReference}
    (run : getRootNode nodes transactionIdentifier tree = (.ok (some reference), tree')) :
    Later nodes tree tree' ∧ Holds nodes reference tree' := by
  obtain ⟨later, ended⟩ := getRootNode_run parsed sound.valid sound.coherent transactionIdentifier
  rw [run] at later ended
  refine ⟨later, ?_⟩
  cases ended with
  | found _ _ _ _ holds => exact holds
  | mistaken _ _ _ _ _ holds => exact holds

theorem getSnapshots_rooted (parsed : Parsed nodes) {listing : SnapshotListing}
    (sound : Sound nodes objectMapBtree listing.tree) {reference : NodeReference} {tree' : SnapshotMetadataTree}
    (rooted : getRootNode nodes transactionIdentifier listing.tree = (.ok (some reference), tree')) {height : Nat}
    {tree : SearchTree BtreeEntry height}
    (stored : (layout nodes objectMapBtree transactionIdentifier).Stored tree reference.value.node)
    (headed : tree.Headed sameKey) :
    let ended := getSnapshots (cachedNodes nodes) nodes transactionIdentifier listing
    let listed := height ≤ maximumBtreeNodeRecursionDepth + 1 ∧ Decodes tree.items
    (ended.1 = .error .undefined ∧ ¬ended.2.tree.nodeCache.Undropped) ∨
      (listed ∧ ended.1 = .ok !(metadataOf tree.items).isEmpty ∧
        ended.2.snapshots = listing.snapshots ++ metadataOf tree.items) ∨
      (¬listed ∧ ∃ code, ended.1 = fail code) := by
  intro ended listed
  obtain ⟨later, holds⟩ := getRootNode_holds parsed sound rooted
  have stores : Stores nodes objectMapBtree transactionIdentifier reference.value.node := ⟨height, tree, stored⟩
  have root : Call.Simulates (SnapshotMetadataTree.guard nodes) (Plain nodes objectMapBtree) True
      (· = listing.tree) ((cachedNodes nodes).getRootNode transactionIdentifier)
      ((storedUnder nodes reference.value.node).getRootNode transactionIdentifier) fun found found' tree =>
        (found = none ∧ found' = none) ∨ ∃ reference reference', found = some reference ∧ found' = some reference' ∧
          Same nodes objectMapBtree transactionIdentifier reference reference' tree := by
    rintro _ tree'' ⟨sound, own⟩ rfl _
    have run : (cachedNodes nodes).getRootNode transactionIdentifier listing.tree = _ := rooted
    rw [run]
    exact ⟨later, Or.inr ⟨_, _, rfl, Or.inr ⟨_, _, rfl, rfl, holds, rfl, stores⟩, sound.later later, own⟩⟩
  have plain : Call.Ends _ _ _ _ := getSnapshots_lists stored headed listing sound.objectMap
  obtain ⟨_, spoiled | alike⟩ := getSnapshots_simulates (cachedNodes_stored parsed reference.value.node) parsed root
    listing listing ⟨⟨sound, sound.objectMap⟩, rfl⟩ rfl (Or.inl trivial)
  · exact Or.inl spoiled
  · unfold Call.Ends at plain
    unfold Call.Alike at alike
    split at plain
    next found listing' run =>
      rw [run] at alike
      obtain ⟨_, listing'', ended', rfl, _, same⟩ := alike
      obtain ⟨fits, rfl, rfl⟩ := plain
      exact Or.inr (Or.inl ⟨fits, congrArg Prod.fst ended', (congrArg (·.2.snapshots) ended').trans same⟩)
    next listing' run =>
      rw [run] at alike
      obtain ⟨code, listing'', ended', _⟩ := alike
      exact Or.inr (Or.inr ⟨plain, code, congrArg Prod.fst ended'⟩)

end Fsapfs.SnapshotListing
