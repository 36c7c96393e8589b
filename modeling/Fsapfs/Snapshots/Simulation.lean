import Fsapfs.Btree.Answers
import Fsapfs.Program.Simulation
import Fsapfs.SnapshotMetadataTree

namespace Fsapfs
open Program

theorem SnapshotMetadata.read_returns (entry : BtreeEntry) : Fsapfs.Returns (SnapshotMetadata.read entry) := by
  refine (requireData_returns (by simp)).bind fun _ _ => ?_
  refine (requireData_returns (by simp)).bind fun _ sized => ?_
  iterate 2
    apply loadLittleEndian_bind_returns (by omega)
    intro
  split
  · trivial
  · exact slice_bind_returns (by omega) fun _ => trivial

namespace SnapshotMetadataTree
open NodeCache

variable (nodes : Nat → Result BtreeNode)

theorem getSubNodeBlockNumberFromEntry_returns (parsed : Parsed nodes) (tree : SnapshotMetadataTree)
    (entry : BtreeEntry) (transactionIdentifier : Nat) :
    Returns (getSubNodeBlockNumberFromEntry nodes tree entry transactionIdentifier) := by
  refine (requireData_returns (by simp)).bind fun _ sized => ?_
  apply loadLittleEndian_bind_returns sized
  intro
  exact (ObjectMapBtree.getDescriptorByObjectIdentifier_returns parsed _ _ _).bind fun _ _ => trivial

/-- The nodes of the cache are those of their blocks, each checked as the root node or as a sub node. -/
def Coherent (cache : NodeCache) : Prop :=
  ∀ value ∈ cache.values, readRootNode nodes value.blockNumber = .ok (some value.node) ∨
    readSubNode nodes value.blockNumber = .ok value.node

/-- The later states of a tree: all that changes is the cache. -/
structure Later (tree tree' : SnapshotMetadataTree) : Prop where
  grows : Grows tree.nodeCache tree'.nodeCache
  coherent : Coherent nodes tree.nodeCache → Coherent nodes tree'.nodeCache
  objectMapBtree : tree'.objectMapBtree = tree.objectMapBtree
  rootNodeBlockNumber : tree'.rootNodeBlockNumber = tree.rootNodeBlockNumber

def guard : Guard SnapshotMetadataTree where
  later := Later nodes
  spoiled tree := ¬tree.nodeCache.Undropped
  refl _ := ⟨Grows.refl _, id, rfl, rfl⟩
  trans first second := ⟨first.grows.trans second.grows, second.coherent ∘ first.coherent,
    second.objectMapBtree.trans first.objectMapBtree, second.rootNodeBlockNumber.trans first.rootNodeBlockNumber⟩

variable {ρ ρ' : Type}

/-- Two ways to get at the nodes of a tree go together, as far as they are asked for blocks that are allowed. -/
structure AccessSimulates (R : SnapshotMetadataTree → SnapshotMetadataTree → Prop) (exact : Prop)
    (access : NodeAccess ρ) (access' : NodeAccess ρ') (related : ρ → ρ' → SnapshotMetadataTree → Prop)
    (objectMapBtree : ObjectMapBtree) (transactionIdentifier : Nat) (allowed : Nat → Prop) : Prop where
  getSubNode : ∀ blockNumber, allowed blockNumber →
    Call.Simulates (guard nodes) R exact (fun _ => True) (access.getSubNode blockNumber)
      (access'.getSubNode blockNumber) related
  useNode : ∀ reference reference',
    Call.Simulates (guard nodes) R exact (related reference reference') (access.useNode reference)
      (access'.useNode reference') (fun _ _ => related reference reference')
  node : ∀ reference reference' tree, related reference reference' tree →
    access.node reference = access'.node reference'
  stable : ∀ reference reference' tree tree', Later nodes tree tree' → related reference reference' tree →
    related reference reference' tree'
  same : ∀ tree tree', R tree tree' → tree.objectMapBtree = objectMapBtree ∧ tree'.objectMapBtree = objectMapBtree
  children : ∀ reference reference' tree, related reference reference' tree →
    (access.node reference).isLeafNode = false →
    ∀ entry ∈ (access.node reference).entries, ∀ tree' : SnapshotMetadataTree,
      tree'.objectMapBtree = objectMapBtree → ∀ blockNumber,
      getSubNodeBlockNumberFromEntry nodes tree' entry transactionIdentifier = .ok (some blockNumber) →
      allowed blockNumber

section lookup

variable {nodes : Nat → Result BtreeNode}

theorem findLeafEntry_returns (objectIdentifier : Nat) (entries : List BtreeEntry) :
    Returns (findLeafEntry objectIdentifier entries) := by
  induction entries with
  | nil => trivial
  | cons entry entries ih =>
      refine (readFileSystemIdentifier_returns entry).bind fun _ _ => ?_
      split
      · trivial
      · exact ih

theorem findBranchEntry_returns (objectIdentifier : Nat) (previousEntry : Option BtreeEntry)
    (entries : List BtreeEntry) : Returns (findBranchEntry objectIdentifier previousEntry entries) := by
  induction entries generalizing previousEntry with
  | nil => trivial
  | cons entry entries ih =>
      refine (readFileSystemIdentifier_returns entry).bind fun _ _ => ?_
      split_ifs
      · trivial
      · trivial
      · exact ih (some entry)

theorem getEntryFromNodeByIdentifier_returns (node : BtreeNode) (objectIdentifier : Nat) :
    Returns (getEntryFromNodeByIdentifier node objectIdentifier) := by
  unfold getEntryFromNodeByIdentifier
  split
  · exact (findLeafEntry_returns objectIdentifier node.entries).bind fun _ _ => trivial
  · exact (findBranchEntry_returns objectIdentifier none node.entries).bind fun _ _ => trivial

variable {R : SnapshotMetadataTree → SnapshotMetadataTree → Prop} {exact : Prop} {access : NodeAccess ρ}
  {access' : NodeAccess ρ'} {related : ρ → ρ' → SnapshotMetadataTree → Prop} {objectMapBtree : ObjectMapBtree}
  {transactionIdentifier objectIdentifier : Nat} {allowed : Nat → Prop}
  (simulates : AccessSimulates nodes R exact access access' related objectMapBtree transactionIdentifier allowed)
  (direct : ∀ reference reference' tree, related reference reference' tree → ∀ entry blockNumber,
    getEntryFromNodeByIdentifier (access.node reference) objectIdentifier = .ok (some entry) →
    ObjectMapBtree.readSubNodeBlockNumber entry = .ok blockNumber → allowed blockNumber)

include simulates direct

theorem getEntryUnderNode_simulates (depth : Nat) (reference : ρ) (reference' : ρ') :
    Call.Simulates (guard nodes) R exact (related reference reference')
      (getEntryUnderNode access objectIdentifier depth reference)
      (getEntryUnderNode access' objectIdentifier depth reference') (fun found found' _ => found = found') := by
  induction depth generalizing reference reference' with
  | zero => exact Call.simulates_fail _ _
  | succ depth ih =>
      refine (simulates.useNode reference reference').bind fun _ _ => ?_
      intro tree tree' same held
      rw [← simulates.node reference reference' tree held]
      have returns := getEntryFromNodeByIdentifier_returns (access.node reference) objectIdentifier
      refine Call.simulates_lift_bind returns (fun found searched => ?_) tree tree' same held
      cases found with
      | none => exact Call.simulates_pure fun _ _ => rfl
      | some entry =>
          by_cases leaf : (access.node reference).isLeafNode
          · simp only [leaf, if_true]
            exact Call.simulates_pure fun _ _ => rfl
          · simp only [leaf]
            refine Call.simulates_lift_bind (ObjectMapBtree.readSubNodeBlockNumber_returns entry) fun blockNumber read => ?_
            have permitted := direct reference reference' tree held entry blockNumber searched read
            exact ((simulates.getSubNode blockNumber permitted).mono (fun _ _ => trivial) fun _ _ _ => id).bind ih

theorem getMetadataByObjectIdentifier_simulates {pre : SnapshotMetadataTree → Prop}
    (rooted : Call.Simulates (guard nodes) R exact pre (access.getRootNode transactionIdentifier)
      (access'.getRootNode transactionIdentifier) fun found found' tree =>
        (found = none ∧ found' = none) ∨ ∃ reference reference', found = some reference ∧ found' = some reference' ∧
          related reference reference' tree) :
    Call.Simulates (guard nodes) R exact pre
      (getMetadataByObjectIdentifier access transactionIdentifier objectIdentifier)
      (getMetadataByObjectIdentifier access' transactionIdentifier objectIdentifier)
      (fun found found' _ => found = found') := by
  have failed : Call.Simulates (guard nodes) R exact (fun _ => True)
      (Call.lift (fail .getFailed) : TreeCall (Option BtreeEntry)) (Call.lift (fail .getFailed))
      (fun found found' _ => found = found') := Call.simulates_fail _ _
  have entries : Call.Simulates (guard nodes) R exact pre
      (getEntryByIdentifier access transactionIdentifier objectIdentifier)
      (getEntryByIdentifier access' transactionIdentifier objectIdentifier) (fun found found' _ => found = found') := by
    refine rooted.bind fun found found' => ?_
    rintro tree tree' same (⟨rfl, rfl⟩ | ⟨reference, reference', rfl, rfl, held⟩)
    · exact failed tree tree' same trivial
    · exact getEntryUnderNode_simulates simulates direct _ reference reference' tree tree' same held
  refine entries.bind fun entry entry' => ?_
  rintro tree tree' same rfl
  cases entry with
  | none => exact Call.simulates_pure (fun _ (_ : True) => rfl) tree tree' same trivial
  | some entry =>
      exact Call.simulates_lift_bind (SnapshotMetadata.read_returns entry)
        (fun _ _ => Call.simulates_pure fun _ (_ : True) => rfl) tree tree' same trivial

end lookup

end SnapshotMetadataTree

namespace SnapshotListing
open SnapshotMetadataTree

variable {nodes : Nat → Result BtreeNode}

def guard (nodes : Nat → Result BtreeNode) : Guard SnapshotListing where
  later listing listing' := Later nodes listing.tree listing'.tree
  spoiled listing := ¬listing.tree.nodeCache.Undropped
  refl listing := (SnapshotMetadataTree.guard nodes).refl listing.tree
  trans first second := (SnapshotMetadataTree.guard nodes).trans first second

def SameArray (R : SnapshotMetadataTree → SnapshotMetadataTree → Prop) (listing listing' : SnapshotListing) : Prop :=
  R listing.tree listing'.tree ∧ listing.snapshots = listing'.snapshots

section rules

variable {R : SnapshotMetadataTree → SnapshotMetadataTree → Prop} {exact : Prop} {α β : Type}

theorem onTree_simulates {pre : SnapshotMetadataTree → Prop} {call : TreeCall α} {plain : TreeCall β}
    {post : α → β → SnapshotMetadataTree → Prop}
    (simulates : Call.Simulates (SnapshotMetadataTree.guard nodes) R exact pre call plain post) :
    Call.Simulates (guard nodes) (SameArray R) exact (fun listing => pre listing.tree) (onTree call) (onTree plain)
      (fun a b listing => post a b listing.tree) := by
  intro listing listing' related held asked
  have asked' : exact ∨ ∃ b tree', plain listing'.tree = (.ok b, tree') := by
    refine asked.imp_right fun ⟨b, _, run⟩ => ⟨b, (plain listing'.tree).2, ?_⟩
    exact Prod.ext (show (plain listing'.tree).1 = .ok b from congrArg Prod.fst run) rfl
  obtain ⟨later, spoiled | alike⟩ := simulates listing.tree listing'.tree related.1 held asked'
  · exact ⟨later, Or.inl spoiled⟩
  · refine ⟨later, Or.inr ?_⟩
    unfold onTree Call.Alike at *
    cases run' : plain listing'.tree with
    | mk result' tree' =>
        rw [run'] at alike
        cases result' with
        | ok b =>
            obtain ⟨a, tree, run, ended, related'⟩ := alike
            rw [run]
            exact ⟨a, _, rfl, ended, related', related.2⟩
        | error failure =>
            obtain ⟨code, tree, run, related'⟩ := alike
            rw [run]
            exact ⟨code, _, rfl, related', related.2⟩

theorem emptyOnError_simulates {pre : SnapshotListing → Prop} {call : ListingCall α} {plain : ListingCall β}
    {post : α → β → SnapshotListing → Prop}
    (simulates : Call.Simulates (guard nodes) (SameArray R) exact pre call plain post) :
    Call.Simulates (guard nodes) (SameArray R) exact pre (emptyOnError call) (emptyOnError plain) post := by
  intro listing listing' related held asked
  have asked' : exact ∨ ∃ b after, plain listing' = (.ok b, after) := by
    refine asked.imp_right fun ⟨b, after, run⟩ => ?_
    unfold emptyOnError at run
    split at run
    next b' after' run' => exact ⟨b', after', run'⟩
    next => cases run
  have simulated := simulates listing listing' related held asked'
  unfold emptyOnError
  cases run : call listing with
  | mk result after =>
      cases run' : plain listing' with
      | mk result' after' =>
          rw [run, run'] at simulated
          obtain ⟨later, ⟨undefined, spoiled⟩ | alike⟩ := simulated
          · obtain rfl : result = .error .undefined := undefined
            exact ⟨later, Or.inl ⟨rfl, spoiled⟩⟩
          · cases result' with
            | ok b =>
                obtain ⟨a, s', ended, holds⟩ := alike
                cases ended
                exact ⟨later, Or.inr ⟨a, _, rfl, holds⟩⟩
            | error failure =>
                obtain ⟨code, s', ended, related'⟩ := alike
                cases ended
                exact ⟨later, Or.inr ⟨code, _, rfl, related'.1, rfl⟩⟩

end rules

section walk

variable {R : SnapshotMetadataTree → SnapshotMetadataTree → Prop} {exact : Prop} {ρ ρ' : Type}
  {access : NodeAccess ρ} {access' : NodeAccess ρ'} {related : ρ → ρ' → SnapshotMetadataTree → Prop}
  {objectMapBtree : ObjectMapBtree} {transactionIdentifier : Nat} {allowed : Nat → Prop}

/-- A call and a plain one that go on from an allowed block. -/
abbrev SimulatesFrom (nodes : Nat → Result BtreeNode) (R : SnapshotMetadataTree → SnapshotMetadataTree → Prop)
    (exact : Prop) (allowed : Nat → Prop) (next next' : Nat → ListingCall Bool) : Prop :=
  ∀ blockNumber, allowed blockNumber → Call.Simulates (guard nodes) (SameArray R) exact (fun _ => True)
    (next blockNumber) (next' blockNumber) (fun found found' _ => found = found')

theorem failed (code code' : ErrorCode) :
    Call.Simulates (guard nodes) (SameArray R) exact (fun _ => True) (Call.lift (fail code) : ListingCall Bool)
      (Call.lift (fail code')) (fun found found' _ => found = found') :=
  Call.simulates_fail code code'

theorem appendLeafSnapshots_simulates (found : Bool) (entries : List BtreeEntry) :
    Call.Simulates (guard nodes) (SameArray R) exact (fun _ => True) (appendLeafSnapshots found entries)
      (appendLeafSnapshots found entries) (fun found found' _ => found = found') := by
  induction entries generalizing found with
  | nil => exact Call.simulates_pure fun _ _ => rfl
  | cons entry entries ih =>
      refine Call.simulates_lift_bind (readFileSystemIdentifier_returns entry) fun _ _ => ?_
      split
      · exact ih found
      · refine Call.simulates_lift_bind (SnapshotMetadata.read_returns entry) fun metadata _ => ?_
        refine Call.simulates_update_bind (fun listing listing' same _ => ?_) (ih true)
        refine ⟨⟨same.1, ?_⟩, (guard nodes).refl listing, trivial⟩
        exact congrArg (· ++ [metadata]) same.2

variable (simulates : AccessSimulates nodes R exact access access' related objectMapBtree transactionIdentifier allowed)

include simulates

theorem getSnapshotsFromLeafNode_simulates (reference : ρ) (reference' : ρ') :
    Call.Simulates (guard nodes) (SameArray R) exact (fun listing => related reference reference' listing.tree)
      (getSnapshotsFromLeafNode access reference) (getSnapshotsFromLeafNode access' reference')
      (fun found found' _ => found = found') := by
  apply emptyOnError_simulates
  refine (onTree_simulates (simulates.useNode reference reference')).bind fun _ _ => ?_
  intro listing listing' same held
  have node := simulates.node reference reference' listing.tree held
  rw [node]
  split
  · exact appendLeafSnapshots_simulates false _ listing listing' same trivial
  · exact failed _ _ listing listing' same trivial

variable (parsed : Parsed nodes) {next next' : Nat → ListingCall Bool}
  (continues : SimulatesFrom nodes R exact allowed next next')

include parsed continues

theorem visitEntries_simulates (reference : ρ) (reference' : ρ') (branch : (access.node reference).isLeafNode = false)
    (found : Bool) (entries : List BtreeEntry) (inside : entries ⊆ (access.node reference).entries) :
    Call.Simulates (guard nodes) (SameArray R) exact (fun listing => related reference reference' listing.tree)
      (visitEntries access nodes transactionIdentifier next reference found entries)
      (visitEntries access' nodes transactionIdentifier next' reference' found entries)
      (fun found found' _ => found = found') := by
  induction entries generalizing found with
  | nil => exact Call.simulates_pure fun _ _ => rfl
  | cons entry entries ih =>
      obtain ⟨member, rest⟩ := List.cons_subset.mp inside
      refine (onTree_simulates (simulates.useNode reference reference')).bind fun _ _ => ?_
      refine Call.simulates_lift_bind ((requireData_returns (by simp)).mono (fun _ _ => trivial) id) fun _ _ => ?_
      refine Call.simulates_self_bind fun listing listing' same held => ?_
      obtain ⟨own, own'⟩ := simulates.same _ _ same.1
      have resolves : getSubNodeBlockNumberFromEntry nodes listing'.tree entry transactionIdentifier =
          getSubNodeBlockNumberFromEntry nodes listing.tree entry transactionIdentifier := by
        unfold getSubNodeBlockNumberFromEntry
        rw [own, own']
      rw [resolves]
      refine Call.simulates_lift_bind
        (getSubNodeBlockNumberFromEntry_returns nodes parsed listing.tree entry transactionIdentifier)
        fun blockNumber resolved => ?_
      cases blockNumber with
      | none => exact Call.simulates_fail _ _
      | some blockNumber =>
          have permitted := simulates.children reference reference' listing.tree held branch entry member listing.tree
            own blockNumber resolved
          have framed : Call.Simulates (guard nodes) (SameArray R) exact
              (fun listing => True ∧ related reference reference' listing.tree) (next blockNumber) (next' blockNumber)
              (fun found found' listing => found = found' ∧ related reference reference' listing.tree) :=
            (continues blockNumber permitted).frame fun s s' later =>
              simulates.stable reference reference' s.tree s'.tree later
          refine Call.Simulates.bind (framed.mono (fun s eq => ?_) fun _ _ _ => id) fun result result' => ?_
          · exact ⟨trivial, eq ▸ held⟩
          · intro s t same' ended
            obtain ⟨rfl, held'⟩ := ended
            exact ih (found || result) rest s t same' held'

theorem getSnapshotsFromNode_simulates (reference : ρ) (reference' : ρ') :
    Call.Simulates (guard nodes) (SameArray R) exact (fun listing => related reference reference' listing.tree)
      (getSnapshotsFromNode access nodes transactionIdentifier next reference)
      (getSnapshotsFromNode access' nodes transactionIdentifier next' reference')
      (fun found found' _ => found = found') := by
  intro listing listing' same held
  have node := simulates.node reference reference' listing.tree held
  unfold getSnapshotsFromNode getSnapshotsFromBranchNode
  rw [← node]
  cases leaf : (access.node reference).isLeafNode with
  | true => exact getSnapshotsFromLeafNode_simulates simulates reference reference' listing listing' same held
  | false =>
      have visits := visitEntries_simulates simulates parsed continues reference reference' leaf false _
        (List.Subset.refl _)
      exact emptyOnError_simulates visits listing listing' same held

omit continues

theorem getSnapshotsFromSubNode_simulates (depth : Nat) :
    SimulatesFrom nodes R exact allowed (getSnapshotsFromSubNode access nodes transactionIdentifier depth)
      (getSnapshotsFromSubNode access' nodes transactionIdentifier depth) := by
  induction depth with
  | zero =>
      intro blockNumber permitted
      refine (onTree_simulates (simulates.getSubNode blockNumber permitted)).bind fun reference reference' => ?_
      intro listing listing' same held
      rw [simulates.node reference reference' listing.tree held]
      split
      · exact getSnapshotsFromLeafNode_simulates simulates reference reference' listing listing' same held
      · exact failed _ _ listing listing' same trivial
  | succ depth ih =>
      intro blockNumber permitted
      exact (onTree_simulates (simulates.getSubNode blockNumber permitted)).bind fun reference reference' =>
        getSnapshotsFromNode_simulates simulates parsed ih reference reference'

theorem getSnapshots_simulates {pre : SnapshotMetadataTree → Prop}
    (rooted : Call.Simulates (SnapshotMetadataTree.guard nodes) R exact pre (access.getRootNode transactionIdentifier)
      (access'.getRootNode transactionIdentifier) fun found found' tree =>
        (found = none ∧ found' = none) ∨ ∃ reference reference', found = some reference ∧ found' = some reference' ∧
          related reference reference' tree) :
    Call.Simulates (guard nodes) (SameArray R) exact (fun listing => pre listing.tree)
      (getSnapshots access nodes transactionIdentifier) (getSnapshots access' nodes transactionIdentifier)
      (fun found found' _ => found = found') := by
  apply emptyOnError_simulates
  refine (onTree_simulates rooted).bind fun found found' => ?_
  rintro listing listing' same (⟨rfl, rfl⟩ | ⟨reference, reference', rfl, rfl, held⟩)
  · exact failed _ _ listing listing' same trivial
  · exact getSnapshotsFromNode_simulates simulates parsed (getSnapshotsFromSubNode_simulates simulates parsed _)
      reference reference' listing listing' same held

end walk

end SnapshotListing

end Fsapfs
