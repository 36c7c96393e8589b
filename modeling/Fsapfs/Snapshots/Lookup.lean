import Fsapfs.Snapshots.Room

namespace Fsapfs.SnapshotMetadataTree
open Program NodeCache
open FileSystemBtree (entryIdentifier entryDataType entryKey subNodeObjectIdentifier keyBefore sameKey entryKey_congr
  readFileSystemIdentifier_ok)

section keys

def upTo (objectIdentifier : Nat) (entry : BtreeEntry) : Bool := entryIdentifier entry ≤ objectIdentifier

def identifies (objectIdentifier : Nat) (entry : BtreeEntry) : Bool := entryIdentifier entry == objectIdentifier

/-- Keys that increase strictly, where the one with the identifier is that of snapshot metadata. Such keys have no
rest. -/
structure Lone (rest : List UInt8 → List UInt8 → Prop) (objectIdentifier : Nat) (entries : List BtreeEntry) : Prop where
  increasing : entries.Pairwise (keyBefore rest)
  own : ∀ entry ∈ entries, entryIdentifier entry = objectIdentifier → isSnapshotMetadata entry
  whole : ∀ entry ∈ entries, ∀ entry' ∈ entries, isSnapshotMetadata entry → ¬rest entry.keyData entry'.keyData

/-- The identifiers are in order, and not both are the one looked for. -/
def Apart (objectIdentifier : Nat) (entry entry' : BtreeEntry) : Prop :=
  entryIdentifier entry < entryIdentifier entry' ∨
    (entryIdentifier entry = entryIdentifier entry' ∧ entryIdentifier entry ≠ objectIdentifier)

variable {rest : List UInt8 → List UInt8 → Prop} {objectIdentifier : Nat} {entries : List BtreeEntry}

theorem Lone.apart (lone : Lone rest objectIdentifier entries) : entries.Pairwise (Apart objectIdentifier) := by
  refine lone.increasing.imp_of_mem fun {entry entry'} member member' before => ?_
  rcases before with less | ⟨same, types⟩
  · exact Or.inl less
  · refine Or.inr ⟨same, fun found => ?_⟩
    have record := lone.own entry member found
    have record' := lone.own entry' member' (same ▸ found)
    rcases types with less | ⟨_, tail⟩
    · have one : entryDataType entry = 1 := by simpa [isSnapshotMetadata] using record
      have one' : entryDataType entry' = 1 := by simpa [isSnapshotMetadata] using record'
      omega
    · exact lone.whole entry member entry' member' record tail

theorem entryIdentifier_congr {entry entry' : BtreeEntry} (key : sameKey entry entry') :
    entryIdentifier entry = entryIdentifier entry' := by
  unfold entryIdentifier
  rw [entryKey_congr key]

theorem upTo_congr {entry entry' : BtreeEntry} (key : sameKey entry entry') :
    upTo objectIdentifier entry = upTo objectIdentifier entry' := by
  unfold upTo
  rw [entryIdentifier_congr key]

theorem apart_congr (a a' b b' : BtreeEntry) (key : sameKey a a') (key' : sameKey b b')
    (apart : Apart objectIdentifier a' b') : Apart objectIdentifier a b := by
  unfold Apart at *
  rwa [entryIdentifier_congr key, entryIdentifier_congr key']

theorem upTo_falling (apart : entries.Pairwise (Apart objectIdentifier)) : Falling (upTo objectIdentifier) entries := by
  refine apart.imp fun {entry entry'} order passes => ?_
  simp only [upTo, decide_eq_true_eq, Apart] at *
  omega

theorem upTo_after {entry : BtreeEntry} (apart : (entry :: entries).Pairwise (Apart objectIdentifier))
    (found : entryIdentifier entry = objectIdentifier) : lastWhile (upTo objectIdentifier) entries = none := by
  refine lastWhile_eq_none.mpr fun entry' head => ?_
  have order := (List.pairwise_cons.mp apart).1 entry' (List.mem_of_mem_head? head)
  simp only [upTo, Apart, decide_eq_false_iff_not] at *
  omega

theorem findBranchEntry_ok (apart : entries.Pairwise (Apart objectIdentifier))
    (sized : ∀ entry ∈ entries, 8 ≤ entry.keyData.length) (previousEntry : Option BtreeEntry) :
    findBranchEntry objectIdentifier previousEntry entries =
      .ok ((lastWhile (upTo objectIdentifier) entries).or (previousEntry.or entries.head?)) := by
  induction entries generalizing previousEntry with
  | nil => simp [findBranchEntry, lastWhile]
  | cons entry entries ih =>
      obtain ⟨first, sized⟩ := List.forall_mem_cons.mp sized
      rw [findBranchEntry, readFileSystemIdentifier_ok first, ok_bind]
      change (if entryIdentifier entry ≥ objectIdentifier then
        if previousEntry = none ∨ entryIdentifier entry = objectIdentifier then
          Except.ok (some entry) else .ok previousEntry else _) = _
      by_cases reached : entryIdentifier entry ≥ objectIdentifier
      · rw [if_pos reached]
        by_cases found : entryIdentifier entry = objectIdentifier
        · have passes : upTo objectIdentifier entry := by simp [upTo, found]
          rw [if_pos (Or.inr found), lastWhile, if_pos passes, upTo_after apart found]
          rfl
        · have fails : ¬upTo objectIdentifier entry := by
            simp only [upTo, decide_eq_true_eq]
            omega
          rw [lastWhile, if_neg fails]
          cases previousEntry with
          | none => simp
          | some previousEntry => simp [found]
      · have passes : upTo objectIdentifier entry := by
          simp only [upTo, decide_eq_true_eq]
          omega
        rw [if_neg reached, ih apart.tail sized, lastWhile, if_pos passes]
        cases lastWhile (upTo objectIdentifier) entries <;> simp

theorem findLeafEntry_ok (sized : ∀ entry ∈ entries, 8 ≤ entry.keyData.length) :
    findLeafEntry objectIdentifier entries = .ok (entries.find? (identifies objectIdentifier)) := by
  induction entries with
  | nil => rfl
  | cons entry entries ih =>
      obtain ⟨first, sized⟩ := List.forall_mem_cons.mp sized
      rw [findLeafEntry, readFileSystemIdentifier_ok first, ok_bind]
      change (if entryIdentifier entry = objectIdentifier then Except.ok (some entry) else _) = _
      by_cases found : entryIdentifier entry = objectIdentifier
      · rw [if_pos found, List.find?_cons_of_pos (by simpa [identifies] using found)]
      · rw [if_neg found, List.find?_cons_of_neg (by simpa [identifies] using found), ih sized]

theorem find_identifies (apart : entries.Pairwise (Apart objectIdentifier)) :
    entries.find? (identifies objectIdentifier) =
      (lastWhile (upTo objectIdentifier) entries).filter (identifies objectIdentifier) := by
  induction entries with
  | nil => rfl
  | cons entry entries ih =>
      have rest := ih apart.tail
      rw [lastWhile]
      by_cases found : entryIdentifier entry = objectIdentifier
      · have passes : upTo objectIdentifier entry := by simp [upTo, found]
        have same : identifies objectIdentifier entry := by simpa [identifies] using found
        rw [List.find?_cons_of_pos same, if_pos passes, upTo_after apart found]
        simp [Option.filter_some, same]
      · have other : ¬identifies objectIdentifier entry := by simpa [identifies] using found
        rw [List.find?_cons_of_neg other, rest]
        by_cases passes : upTo objectIdentifier entry
        · rw [if_pos passes]
          cases lastWhile (upTo objectIdentifier) entries with
          | none => simp [Option.filter_some, other]
          | some entry' => rfl
        · have none : lastWhile (upTo objectIdentifier) entries = none := by
            refine lastWhile_eq_none.mpr fun entry' head => ?_
            have order := (List.pairwise_cons.mp apart).1 entry' (List.mem_of_mem_head? head)
            simp only [upTo, Apart, decide_eq_false_iff_not, decide_eq_true_eq] at *
            omega
          rw [if_neg passes, none]

end keys

variable {nodes : Nat → Result BtreeNode} {objectMapBtree : ObjectMapBtree} {transactionIdentifier : Nat}
  {tree : SnapshotMetadataTree}

section node

variable {reference : NodeReference}

theorem useNode_live (live : reference.value ∈ tree.nodeCache.values) :
    (cachedNodes nodes).useNode reference tree = (.ok (), { tree with nodeCache := use reference tree.nodeCache }) := by
  change onCache (useNode reference) tree = _
  unfold onCache useNode
  rw [Call.update_bind, Call.self_bind, if_pos (show reference.value ∈ (use reference tree.nodeCache).values from live)]
  rfl

end node

/-- A branch value that is the number of the block itself that it resolves to. -/
def Direct (nodes : Nat → Result BtreeNode) (objectMapBtree : ObjectMapBtree) (transactionIdentifier : Nat)
    (entry : BtreeEntry) : Prop :=
  Resolves nodes objectMapBtree transactionIdentifier entry (subNodeObjectIdentifier entry)

def Vacant (nodes : Nat → Result BtreeNode) (blockNumber : Nat) : Prop :=
  intMax < blockNumber ∨ ∀ node, nodes blockNumber ≠ .ok node

section descent

variable {objectIdentifier height : Nat} {reference : NodeReference}

theorem Resolves.unique {entry : BtreeEntry} {blockNumber blockNumber' : Nat}
    (resolves : Resolves nodes objectMapBtree transactionIdentifier entry blockNumber)
    (resolves' : Resolves nodes objectMapBtree transactionIdentifier entry blockNumber') :
    blockNumber = blockNumber' := by
  obtain ⟨descriptor, mapped, rfl⟩ := resolves.mapped
  obtain ⟨descriptor', mapped', rfl⟩ := resolves'.mapped
  obtain rfl : descriptor = descriptor' := by simpa using mapped.symm.trans mapped'
  rfl

theorem getSubNode_vacant (parsed : Parsed nodes) (coherent : Coherent nodes tree.nodeCache) {blockNumber : Nat}
    (vacant : Vacant nodes blockNumber) : ∃ code, getSubNode nodes blockNumber tree = (fail code, tree) := by
  rcases getSubNode_run parsed coherent blockNumber with ⟨code, failed, _⟩ | ⟨value, _, inside, rfl, checked, _⟩
  · exact ⟨code, failed⟩
  · rcases vacant with beyond | none
    · exact absurd inside (Nat.not_le.mpr beyond)
    · exact absurd checked.stored (none value.node)

theorem getEntryUnderNode_leaf (live : reference.value ∈ tree.nodeCache.values)
    (leaf : reference.value.node.isLeafNode)
    (sized : ∀ entry ∈ reference.value.node.entries, 8 ≤ entry.keyData.length) (depth : Nat) :
    ∃ tree', getEntryUnderNode (cachedNodes nodes) objectIdentifier (depth + 1) reference tree =
      (.ok (reference.value.node.entries.find? (identifies objectIdentifier)), tree') := by
  have found : getEntryFromNodeByIdentifier reference.value.node objectIdentifier =
      .ok ((reference.value.node.entries.find? (identifies objectIdentifier)).map some) := by
    unfold getEntryFromNodeByIdentifier
    rw [if_pos leaf, findLeafEntry_ok sized]
    rfl
  have node : (cachedNodes nodes).node reference = reference.value.node := rfl
  refine ⟨{ tree with nodeCache := use reference tree.nodeCache }, ?_⟩
  rw [getEntryUnderNode, Call.bind_of_ok (useNode_live live), node, found, Call.bind_of_ok (Call.lift_run _ _)]
  cases reference.value.node.entries.find? (identifies objectIdentifier) with
  | none => rfl
  | some entry =>
      simp only [Option.map_some, if_pos leaf]
      rfl

theorem getEntryUnderNode_branch (live : reference.value ∈ tree.nodeCache.values)
    (branch : reference.value.node.isLeafNode = false)
    (sized : ∀ entry ∈ reference.value.node.entries, 8 ≤ entry.keyData.length)
    (apart : reference.value.node.entries.Pairwise (Apart objectIdentifier)) {entry : BtreeEntry}
    (continues : routed (upTo objectIdentifier) reference.value.node.entries = some entry)
    (value : 8 ≤ entry.valueData.length) (depth : Nat) :
    getEntryUnderNode (cachedNodes nodes) objectIdentifier (depth + 1) reference tree =
      (getSubNode nodes (subNodeObjectIdentifier entry) >>=
        getEntryUnderNode (cachedNodes nodes) objectIdentifier depth)
        { tree with nodeCache := use reference tree.nodeCache } := by
  have found : getEntryFromNodeByIdentifier reference.value.node objectIdentifier = .ok (some (some entry)) := by
    unfold getEntryFromNodeByIdentifier
    rw [if_neg (by simp [branch]), findBranchEntry_ok apart sized, Option.none_or,
      show (lastWhile _ _).or _ = some entry from continues]
    rfl
  have number : ObjectMapBtree.readSubNodeBlockNumber (some entry) = .ok (subNodeObjectIdentifier entry) := by
    simp only [ObjectMapBtree.readSubNodeBlockNumber]
    rw [(requireData_ok (by simp)).mpr value]
    exact loadLittleEndian_ok value
  have node : (cachedNodes nodes).node reference = reference.value.node := rfl
  rw [getEntryUnderNode, Call.bind_of_ok (useNode_live live), node, found, Call.bind_of_ok (Call.lift_run _ _)]
  simp only [branch, Bool.false_eq_true, if_false]
  rw [number, Call.bind_of_ok (Call.lift_run _ _)]
  rfl

theorem getEntryUnderNode_run (parsed : Parsed nodes) {metadataTree : SearchTree BtreeEntry height} (depth : Nat)
    (sound : Sound nodes objectMapBtree tree) (holds : Holds nodes reference tree)
    (live : reference.value ∈ tree.nodeCache.values)
    (stored : (layout nodes objectMapBtree transactionIdentifier).Stored metadataTree reference.value.node)
    (headed : metadataTree.Headed sameKey) (apart : metadataTree.items.Pairwise (Apart objectIdentifier)) :
    (height < depth → (∀ entry ∈ metadataTree.trail (upTo objectIdentifier),
        Direct nodes objectMapBtree transactionIdentifier entry) →
      ∃ tree', getEntryUnderNode (cachedNodes nodes) objectIdentifier depth reference tree =
        (.ok (metadataTree.items.find? (identifies objectIdentifier)), tree')) ∧
    ((height < depth → ¬∀ entry ∈ metadataTree.trail (upTo objectIdentifier),
        Direct nodes objectMapBtree transactionIdentifier entry) →
      (∀ entry ∈ metadataTree.trail (upTo objectIdentifier),
        ¬Direct nodes objectMapBtree transactionIdentifier entry → Vacant nodes (subNodeObjectIdentifier entry)) →
      ∃ code tree', getEntryUnderNode (cachedNodes nodes) objectIdentifier depth reference tree = (fail code, tree')) := by
  induction depth generalizing height reference tree with
  | zero => exact ⟨fun limited => absurd limited (Nat.not_lt_zero height), fun _ _ => ⟨_, tree, rfl⟩⟩
  | succ depth ih =>
      cases height with
      | zero =>
          obtain ⟨leaf, rfl, sized⟩ := stored
          refine ⟨fun _ _ => getEntryUnderNode_leaf live leaf sized depth, fun not _ => ?_⟩
          exact absurd (fun _ member => by cases member) (not (Nat.zero_lt_succ depth))
      | succ height =>
          obtain ⟨⟨branch, same, sized⟩, leads⟩ := stored
          obtain ⟨filled, heads, headed⟩ := headed
          obtain ⟨sub, member, continues, last⟩ := SearchTree.routed_subTree (upTo objectIdentifier)
            (fun _ _ => upTo_congr) filled heads (upTo_falling apart)
          obtain ⟨subNode, ⟨blockNumber, resolves, read⟩, stored⟩ := leads sub member
          have apartSub := apart.sublist (SearchTree.items_sublist member)
          have apartHeads := SearchTree.heads_pairwise apart_congr heads apart
          rw [← same] at sized apartHeads
          have continues' : routed (upTo objectIdentifier) reference.value.node.entries = some sub.1 := by
            rw [same]
            exact (SearchTree.routed_map Prod.fst metadataTree.subTrees).trans (congrArg (Option.map Prod.fst) continues)
          have trail : metadataTree.trail (upTo objectIdentifier) = sub.1 :: sub.2.trail (upTo objectIdentifier) :=
            SearchTree.trail_branch continues
          have sound' := sound.later (useNode_run holds).1
          have found : metadataTree.items.find? (identifies objectIdentifier) =
              sub.2.items.find? (identifies objectIdentifier) := by
            rw [find_identifies apart, find_identifies apartSub, last]
            rfl
          rw [getEntryUnderNode_branch live branch sized apartHeads continues' resolves.sized, trail, found]
          simp only [List.forall_mem_cons, Nat.succ_lt_succ_iff]
          by_cases direct : Direct nodes objectMapBtree transactionIdentifier sub.1
          · obtain rfl := resolves.unique direct
            obtain ⟨value, obtained, _, rfl, checked, fresh⟩ := getSubNode_stored parsed sound'.coherent direct.inside read
            obtain ⟨later, holds'⟩ := obtain_later sound'.valid checked fresh
            obtain ⟨finds, fails⟩ := ih (sound'.later later) holds' (access_last sound'.valid.room value).live stored
              (headed sub member) apartSub
            rw [Call.bind_of_ok obtained]
            exact ⟨fun limited all => finds limited all.2,
              fun not vacant => fails (fun limited all => not limited ⟨direct, all⟩) vacant.2⟩
          · refine ⟨fun _ all => absurd all.1 direct, fun _ vacant => ?_⟩
            obtain ⟨code, failed⟩ := getSubNode_vacant parsed sound'.coherent (vacant.1 direct)
            exact ⟨code, _, Call.bind_of_error failed _⟩

end descent

/-- The answer of a lookup is the record that a listing has under the identifier, or that there is none. -/
structure Agrees (entries : List BtreeEntry) (objectIdentifier : Nat) (answer : Result (Option SnapshotMetadata)) :
    Prop where
  listed : ∀ entry ∈ entries, isSnapshotMetadata entry → entryIdentifier entry = objectIdentifier →
    ∃ metadata, SnapshotMetadata.read entry = .ok metadata ∧ answer = .ok (some metadata)
  unlisted : (∀ entry ∈ entries, isSnapshotMetadata entry → entryIdentifier entry ≠ objectIdentifier) →
    answer = .ok none

def answerOf : Option BtreeEntry → Result (Option SnapshotMetadata)
  | none => .ok none
  | some entry => (SnapshotMetadata.read entry).map some

section answer

variable {objectIdentifier : Nat} {entries : List BtreeEntry} {answer : Result (Option SnapshotMetadata)}

theorem Agrees.ok (agrees : Agrees entries objectIdentifier answer) : ∃ found, answer = .ok found := by
  by_cases absent : ∀ entry ∈ entries, isSnapshotMetadata entry → entryIdentifier entry ≠ objectIdentifier
  · exact ⟨none, agrees.unlisted absent⟩
  · simp only [not_forall, ne_eq, not_not] at absent
    obtain ⟨entry, member, record, found⟩ := absent
    obtain ⟨metadata, _, answered⟩ := agrees.listed entry member record found
    exact ⟨some metadata, answered⟩

theorem unique_identifies (apart : entries.Pairwise (Apart objectIdentifier)) {entry : BtreeEntry}
    (member : entry ∈ entries) (found : entryIdentifier entry = objectIdentifier) :
    entries.find? (identifies objectIdentifier) = some entry := by
  induction entries with
  | nil => cases member
  | cons first entries ih =>
      obtain ⟨order, apart⟩ := List.pairwise_cons.mp apart
      rcases List.mem_cons.mp member with rfl | later
      · exact List.find?_cons_of_pos (by simpa [identifies] using found)
      · have other : ¬identifies objectIdentifier first := by
          have before := order entry later
          simp only [identifies, Apart, beq_iff_eq] at *
          omega
        rw [List.find?_cons_of_neg other]
        exact ih apart later

theorem agrees_of_find {rest : List UInt8 → List UInt8 → Prop} (lone : Lone rest objectIdentifier entries)
    (decodes : Decodes entries) :
    Agrees entries objectIdentifier (answerOf (entries.find? (identifies objectIdentifier))) where
  listed entry member record found := by
    obtain ⟨metadata, read⟩ := decodes entry member record
    refine ⟨metadata, read, ?_⟩
    rw [unique_identifies lone.apart member found, answerOf, read]
    rfl
  unlisted absent := by
    have none : entries.find? (identifies objectIdentifier) = none := by
      refine List.find?_eq_none.mpr fun entry member found => ?_
      have same : entryIdentifier entry = objectIdentifier := by simpa [identifies] using found
      exact absent entry member (lone.own entry member same) same
    rw [none]
    rfl

end answer

theorem getMetadataByObjectIdentifier_of_entry {objectIdentifier : Nat} {tree tree' tree'' : SnapshotMetadataTree}
    {reference : NodeReference} (rooted : getRootNode nodes transactionIdentifier tree = (.ok (some reference), tree'))
    {found : Option BtreeEntry}
    (run : getEntryUnderNode (cachedNodes nodes) objectIdentifier (maximumBtreeNodeRecursionDepth + 1) reference tree' =
      (.ok found, tree'')) :
    (getMetadataByObjectIdentifier (cachedNodes nodes) transactionIdentifier objectIdentifier tree).1 =
      answerOf found := by
  have searched : getEntryByIdentifier (cachedNodes nodes) transactionIdentifier objectIdentifier tree =
      (.ok found, tree'') := by
    have rooted' : (cachedNodes nodes).getRootNode transactionIdentifier tree = _ := rooted
    rw [getEntryByIdentifier, Call.bind_of_ok rooted']
    exact run
  rw [getMetadataByObjectIdentifier, Call.bind_of_ok searched]
  cases found with
  | none => rfl
  | some entry =>
      rw [answerOf]
      cases read : SnapshotMetadata.read entry with
      | error failure =>
          simp only [read]
          rfl
      | ok metadata =>
          simp only [read]
          rfl

theorem getMetadataByObjectIdentifier_of_failed {objectIdentifier : Nat} {tree tree' tree'' : SnapshotMetadataTree}
    {reference : NodeReference} (rooted : getRootNode nodes transactionIdentifier tree = (.ok (some reference), tree'))
    {code : ErrorCode}
    (run : getEntryUnderNode (cachedNodes nodes) objectIdentifier (maximumBtreeNodeRecursionDepth + 1) reference tree' =
      (fail code, tree'')) :
    (getMetadataByObjectIdentifier (cachedNodes nodes) transactionIdentifier objectIdentifier tree).1 = fail code := by
  have searched : getEntryByIdentifier (cachedNodes nodes) transactionIdentifier objectIdentifier tree =
      (fail code, tree'') := by
    have rooted' : (cachedNodes nodes).getRootNode transactionIdentifier tree = _ := rooted
    rw [getEntryByIdentifier, Call.bind_of_ok rooted']
    exact run
  rw [getMetadataByObjectIdentifier, Call.bind_of_error searched]
  rfl

/-- Where a listing succeeds, a lookup from the same root node agrees with it if the branch values on its trail are
block numbers and the tree is no higher than a lookup goes; and it does not agree otherwise if there are no nodes in
the blocks that it asks for by mistake. -/
theorem lookup_agrees (libfcache libfcache' : Libfcache) (parsed : Parsed nodes) {capacity capacity' : Option Nat} (room : capacity ≠ some 0)
    (room' : capacity' ≠ some 0) {rootNodeBlockNumber : Nat} {earlier earlier' : List TreeRequest}
    {reference reference' : NodeReference} {tree' tree'' : SnapshotMetadataTree} {height : Nat}
    {metadataTree : SearchTree BtreeEntry height} {rest : List UInt8 → List UInt8 → Prop} {objectIdentifier : Nat}
    {found : Bool} {listing : SnapshotListing}
    (rooted : getRootNode nodes transactionIdentifier
      (handle libfcache nodes objectMapBtree rootNodeBlockNumber capacity earlier) = (.ok (some reference), tree'))
    (stored : (layout nodes objectMapBtree transactionIdentifier).Stored metadataTree reference.value.node)
    (headed : metadataTree.Headed sameKey) (lone : Lone rest objectIdentifier metadataTree.items)
    (lists : SnapshotListing.getSnapshots (cachedNodes nodes) nodes transactionIdentifier
      { tree := handle libfcache nodes objectMapBtree rootNodeBlockNumber capacity earlier, snapshots := [] } =
        (.ok found, listing))
    (rooted' : getRootNode nodes transactionIdentifier
      (handle libfcache' nodes objectMapBtree rootNodeBlockNumber capacity' earlier') = (.ok (some reference'), tree''))
    (same : reference'.value.node = reference.value.node) :
    let answer := (getMetadataByObjectIdentifier (cachedNodes nodes) transactionIdentifier objectIdentifier
      (handle libfcache' nodes objectMapBtree rootNodeBlockNumber capacity' earlier')).1
    let trail := metadataTree.trail (upTo objectIdentifier)
    Decodes metadataTree.items ∧ listing.snapshots = metadataOf metadataTree.items ∧
      (height ≤ maximumBtreeNodeRecursionDepth ∧
          (∀ entry ∈ trail, Direct nodes objectMapBtree transactionIdentifier entry) →
        Agrees metadataTree.items objectIdentifier answer) ∧
      ((∀ entry ∈ trail, ¬Direct nodes objectMapBtree transactionIdentifier entry →
          Vacant nodes (subNodeObjectIdentifier entry)) →
        Agrees metadataTree.items objectIdentifier answer →
        height ≤ maximumBtreeNodeRecursionDepth ∧
          ∀ entry ∈ trail, Direct nodes objectMapBtree transactionIdentifier entry) := by
  have sound := (@handle_held nodes objectMapBtree capacity libfcache parsed room rootNodeBlockNumber earlier).sound
  have held' := @handle_held nodes objectMapBtree capacity' libfcache' parsed room' rootNodeBlockNumber earlier'
  have sound' := held'.sound
  obtain ⟨later, holds⟩ := SnapshotListing.getRootNode_holds parsed sound' rooted'
  have live := (getRootNode_last sound'.valid held'.undropped rooted').2.live
  obtain ⟨finds, fails⟩ := getEntryUnderNode_run parsed (maximumBtreeNodeRecursionDepth + 1) (sound'.later later) holds live
    (same.symm ▸ stored) headed lone.apart
  have ended := @SnapshotListing.getSnapshots_rooted _ _ _ parsed
    { tree := handle libfcache nodes objectMapBtree rootNodeBlockNumber capacity earlier, snapshots := [] } sound _ _
    rooted _ _ stored headed
  rw [lists] at ended
  rcases ended with ⟨undefined, _⟩ | ⟨⟨_, decodes⟩, _, snapshots⟩ | ⟨_, code, failed⟩
  · cases undefined
  · refine ⟨decodes, snapshots, ?_, fun vacant agrees => ?_⟩
    · rintro ⟨limited, direct⟩
      obtain ⟨_, run⟩ := finds (Nat.lt_succ_of_le limited) direct
      rw [getMetadataByObjectIdentifier_of_entry rooted' run]
      exact agrees_of_find lone decodes
    · by_contra broken
      obtain ⟨code, _, run⟩ := fails (fun limited direct => broken ⟨Nat.le_of_lt_succ limited, direct⟩) vacant
      obtain ⟨answered, value⟩ := agrees.ok
      rw [getMetadataByObjectIdentifier_of_failed rooted' run] at value
      cases value
  · cases failed

namespace Sample
open FileSystemBtree.Sample (objectMapRoot)

def metadataEntry (identifier : Nat) : BtreeEntry where
  keyData := littleEndianBytes 8 (identifier + 2 ^ 60)
  valueData := List.replicate 48 0 ++ [1, 0, 0x61]

def metadata : SnapshotMetadata where
  volumeSuperblockBlockNumber := 0
  name := [0x61]

def oneLeaf (objectIdentifier : Nat) : Nat → Result BtreeNode
  | 1 => .ok (objectMapRoot [(objectIdentifier, 3)])
  | 2 => .ok (rootNode 1 1 [branchEntry 1 objectIdentifier])
  | 3 => .ok (subNode 2 0 [metadataEntry 1])
  | _ => fail .readFailed

def oneLeafTree (objectIdentifier : Nat) : SearchTree BtreeEntry 1 :=
  [(branchEntry 1 objectIdentifier, [metadataEntry 1])]

theorem oneLeaf_parsed (objectIdentifier : Nat) : Parsed (oneLeaf objectIdentifier) := by
  intro blockNumber
  unfold oneLeaf
  split
  · exact fun _ => by simp [objectMapRoot]
  · exact fun _ => by simp [rootNode]
  · exact fun root => absurd root (by decide)
  · trivial

def oneLeafHandle (objectIdentifier : Nat) (earlier : List TreeRequest) : SnapshotMetadataTree :=
  handle .lastAccess (oneLeaf objectIdentifier) { rootNodeBlockNumber := 1 } 2 (some maximumCacheEntriesBtreeNodes) earlier

theorem oneLeaf_stored {objectIdentifier : Nat}
    (resolves : Resolves (oneLeaf objectIdentifier) { rootNodeBlockNumber := 1 } 1 (branchEntry 1 objectIdentifier) 3) :
    (layout (oneLeaf objectIdentifier) { rootNodeBlockNumber := 1 } 1).Stored (oneLeafTree objectIdentifier)
      (rootNode 1 1 [branchEntry 1 objectIdentifier]) :=
  ⟨⟨(by decide : (rootNode 1 1 []).isLeafNode = false), rfl, List.forall_mem_singleton.mpr (show 8 ≤ (branchEntry 1 3).keyData.length by decide)⟩,
    List.forall_mem_singleton.mpr ⟨subNode 2 0 [metadataEntry 1], ⟨3, resolves, rfl⟩, rfl, rfl,
      show ∀ entry ∈ [metadataEntry 1], 8 ≤ entry.keyData.length by decide⟩⟩

theorem oneLeaf_headed (objectIdentifier : Nat) : (oneLeafTree objectIdentifier).Headed sameKey := by
  refine ⟨by simp [oneLeafTree], List.forall_mem_singleton.mpr ⟨metadataEntry 1, [], rfl, rfl⟩, fun _ _ => trivial⟩

theorem oneLeaf_lone (objectIdentifier : Nat) : Lone (fun _ _ => False) 1 (oneLeafTree objectIdentifier).items where
  increasing := List.pairwise_singleton _ _
  own := show ∀ entry ∈ [metadataEntry 1], entryIdentifier entry = 1 → isSnapshotMetadata entry by decide
  whole _ _ _ _ _ := not_false

theorem resolves_three : Resolves (oneLeaf 3) { rootNodeBlockNumber := 1 } 1 (branchEntry 1 3) 3 where
  sized := by decide
  mapped := ⟨_, rfl, rfl⟩
  inside := by decide

theorem resolves_seven : Resolves (oneLeaf 7) { rootNodeBlockNumber := 1 } 1 (branchEntry 1 7) 3 where
  sized := by decide
  mapped := ⟨_, rfl, rfl⟩
  inside := by decide

end Sample

open SnapshotMetadataTree.Sample

theorem lookup_agrees_sample : Parsed (oneLeaf 3) ∧
    Agrees (oneLeafTree 3).items 1 (getMetadataByObjectIdentifier (cachedNodes (oneLeaf 3)) 1 1
      (oneLeafHandle 3 [.getSnapshots 1 []])).1 :=
  have room : some maximumCacheEntriesBtreeNodes ≠ some 0 := by decide
  have rooted : getRootNode (oneLeaf 3) 1 (oneLeafHandle 3 []) = _ := rfl
  have rooted' : getRootNode (oneLeaf 3) 1 (oneLeafHandle 3 [.getSnapshots 1 []]) = _ := rfl
  ⟨oneLeaf_parsed 3, (lookup_agrees .lastAccess .lastAccess (oneLeaf_parsed 3) room room rooted (oneLeaf_stored resolves_three)
    (oneLeaf_headed 3) (oneLeaf_lone 3) rfl rooted' rfl).2.2.1
      ⟨by decide, List.forall_mem_singleton.mpr resolves_three⟩⟩

/-- The listing resolves the branch value, the lookup takes it for a block number. -/
theorem lookup_disagrees : (layout (oneLeaf 7) { rootNodeBlockNumber := 1 } 1).Stored (oneLeafTree 7)
      (rootNode 1 1 [branchEntry 1 7]) ∧ (oneLeafTree 7).Headed sameKey ∧
    Lone (fun _ _ => False) 1 (oneLeafTree 7).items ∧
    ((SnapshotListing.getSnapshots (cachedNodes (oneLeaf 7)) (oneLeaf 7) 1
        { tree := oneLeafHandle 7 [], snapshots := [] }).1 = .ok true ∧
      (SnapshotListing.getSnapshots (cachedNodes (oneLeaf 7)) (oneLeaf 7) 1
        { tree := oneLeafHandle 7 [], snapshots := [] }).2.snapshots = [metadata]) ∧
    ¬Agrees (oneLeafTree 7).items 1
      (getMetadataByObjectIdentifier (cachedNodes (oneLeaf 7)) 1 1 (oneLeafHandle 7 [])).1 := by
  refine ⟨oneLeaf_stored resolves_seven, oneLeaf_headed 7, oneLeaf_lone 7, ⟨rfl, rfl⟩, fun agrees => ?_⟩
  have failed : (getMetadataByObjectIdentifier (cachedNodes (oneLeaf 7)) 1 1 (oneLeafHandle 7 [])).1 =
      fail .readFailed := rfl
  obtain ⟨found, answered⟩ := agrees.ok
  cases failed.symm.trans answered

end Fsapfs.SnapshotMetadataTree
