import Fsapfs.Btree.Answers
import Fsapfs.Btree.PathLookup

namespace Fsapfs.FileSystemBtree
open Program Listing

section levels

variable (nodes : Nat → Result BtreeNode)

def levelOf (blockNumber : Nat) : Option Nat :=
  match nodes blockNumber with
  | .ok node => some node.level
  | .error _ => none

def below (blockNumber' blockNumber : Nat) : Bool :=
  match levelOf nodes blockNumber', levelOf nodes blockNumber with
  | some level', some level => level' < level
  | _, _ => false

/-- A path of blocks from the last one visited back to the root: its levels fall from the root on, no block
occurs twice, and there are at most as many blocks as levels. -/
structure Descends (path : List Nat) : Prop where
  falling : path.Pairwise fun key' key => below nodes key' key
  distinct : path.Nodup
  bounded : path.length ≤ (path.getLast?.bind (levelOf nodes)).getD 0 + 1

instance (path : List Nat) : Decidable (Descends nodes path) :=
  decidable_of_iff ((path.Pairwise fun key' key => below nodes key' key) ∧ path.Nodup ∧
      path.length ≤ (path.getLast?.bind (levelOf nodes)).getD 0 + 1)
    ⟨fun h => ⟨h.1, h.2.1, h.2.2⟩, fun h => ⟨h.falling, h.distinct, h.bounded⟩⟩

/-- The watch that ends a search where its path does not descend. -/
def descending (path : List Nat) (blockNumber : Nat) : Bool := decide (Descends nodes (blockNumber :: path))

def OneLevelDown (blockNumber blockNumber' : Nat) : Prop :=
  ∃ node subNode, nodes blockNumber = .ok node ∧ nodes blockNumber' = .ok subNode ∧ subNode.level + 1 = node.level

variable {nodes} {path : List Nat} {blockNumber : Nat}

theorem below_iff {blockNumber' : Nat} :
    below nodes blockNumber' blockNumber ↔ ∃ level' level, levelOf nodes blockNumber' = some level' ∧
      levelOf nodes blockNumber = some level ∧ level' < level := by
  unfold below
  cases levelOf nodes blockNumber' <;> cases levelOf nodes blockNumber <;> simp

theorem below_of_oneLevelDown {blockNumber' : Nat} (step : OneLevelDown nodes blockNumber blockNumber') :
    below nodes blockNumber' blockNumber := by
  obtain ⟨node, subNode, read, read', level⟩ := step
  have smaller : subNode.level < node.level := by omega
  simpa [below, levelOf, read, read'] using smaller

theorem below_trans {key key' key'' : Nat} (first : below nodes key key') (second : below nodes key' key'') :
    below nodes key key'' := by
  obtain ⟨low, middle, atLow, atMiddle, lower⟩ := below_iff.mp first
  obtain ⟨middle', high, atMiddle', atHigh, higher⟩ := below_iff.mp second
  obtain rfl : middle = middle' := Option.some_inj.mp (atMiddle.symm.trans atMiddle')
  exact below_iff.mpr ⟨low, high, atLow, atHigh, Nat.lt_trans lower higher⟩

theorem not_below_self (key : Nat) : ¬below nodes key key := by
  intro self
  obtain ⟨level, level', at_key, at_key', smaller⟩ := below_iff.mp self
  obtain rfl : level = level' := Option.some_inj.mp (at_key.symm.trans at_key')
  exact Nat.lt_irrefl _ smaller

theorem level_of_chain {level : Nat} (start : levelOf nodes blockNumber = some level)
    (chain : List.IsChain (fun key' key => OneLevelDown nodes key key') (blockNumber :: path)) :
    (blockNumber :: path).getLast?.bind (levelOf nodes) = some (level + path.length) := by
  induction path generalizing blockNumber level with
  | nil => simpa using start
  | cons key path ih =>
      obtain ⟨⟨node, subNode, read, read', down⟩, rest⟩ := List.isChain_cons_cons.mp chain
      have sameLevel : subNode.level = level := by simpa [levelOf, read'] using start
      have above : levelOf nodes key = some (level + 1) := by simp [levelOf, read, ← down, sameLevel]
      rw [List.getLast?_cons_cons, ih above rest, List.length_cons]
      congr 1
      omega

theorem Descends.of_chain
    (chain : List.IsChain (fun key' key => OneLevelDown nodes key key') (blockNumber :: path)) :
    Descends nodes (blockNumber :: path) := by
  have transitive : IsTrans Nat fun key' key => below nodes key' key := ⟨fun _ _ _ => below_trans⟩
  have falling : (blockNumber :: path).Pairwise fun key' key => below nodes key' key :=
    List.isChain_iff_pairwise.mp (chain.imp fun _ _ step => below_of_oneLevelDown step)
  refine ⟨falling, falling.imp fun lower same => ?_, ?_⟩
  · exact not_below_self _ (same ▸ lower)
  · cases path with
    | nil => simp
    | cons key path =>
        obtain ⟨node, subNode, _, read', _⟩ := (List.isChain_cons_cons.mp chain).1
        have start : levelOf nodes blockNumber = some subNode.level := by simp [levelOf, read']
        rw [level_of_chain start chain]
        simp only [List.length_cons, Option.getD_some]
        omega

end levels

section resolved

variable {nodes : Nat → Result BtreeNode} {node : BtreeNode}

theorem getSubNode_read {blockNumber : Nat} {subNode : BtreeNode} (run : getSubNode nodes blockNumber = .ok subNode) :
    nodes blockNumber = .ok subNode := by
  unfold getSubNode at run
  split_ifs at run with beyond
  · cases run
  · obtain ⟨node, read, run⟩ := bind_eq_ok.mp run
    split_ifs at run
    · cases run
    · cases run
    · cases run
      exact read

theorem getRootNode_read {blockNumber : Nat} {rootNode : BtreeNode}
    (run : getRootNode nodes blockNumber = .ok (some rootNode)) : nodes blockNumber = .ok rootNode := by
  unfold getRootNode at run
  split_ifs at run with beyond
  · cases run
  · obtain ⟨node, read, run⟩ := bind_eq_ok.mp run
    split_ifs at run
    · cases run
    · cases run
    · cases run
    · obtain ⟨_, _, run⟩ := bind_eq_ok.mp run
      cases run
      exact read

theorem firstCandidate_level {btree : FileSystemBtree} {transactionIdentifier expectedLevel blockNumber : Nat}
    {encoding : BranchChildOidEncoding} {candidates : List (Nat × BranchChildOidEncoding)}
    (run : firstCandidate nodes btree transactionIdentifier expectedLevel candidates =
      .ok (some (blockNumber, encoding))) :
    ∃ subNode, getSubNode nodes blockNumber = .ok subNode ∧ subNode.level = expectedLevel := by
  induction candidates with
  | nil => cases run
  | cons candidate candidates ih =>
      obtain ⟨descriptor, _, run⟩ := bind_eq_ok.mp run
      cases descriptor with
      | none => exact ih run
      | some descriptor =>
          simp only [] at run
          split at run
          next subNode read =>
            split_ifs at run with level
            · cases run
              exact ⟨subNode, read, level⟩
            · exact ih run
          next => exact ih run
          next => cases run

theorem requireSubNodeBlockNumber_level {entry : Option BtreeEntry} {transactionIdentifier blockNumber : Nat}
    {btree btree' : FileSystemBtree}
    (run : requireSubNodeBlockNumber nodes node entry transactionIdentifier btree = (.ok blockNumber, btree')) :
    ∃ subNode, getSubNode nodes blockNumber = .ok subNode ∧ subNode.level + 1 = node.level := by
  have ended : (requireSubNodeBlockNumber nodes node entry transactionIdentifier).Ends btree
      (fun blockNumber _ => ∃ subNode, getSubNode nodes blockNumber = .ok subNode ∧ subNode.level + 1 = node.level)
      (fun _ => True) := by
    refine Call.Ends.bind ?_ (fun found _ (h : ∀ blockNumber ∈ found, ∃ subNode,
      getSubNode nodes blockNumber = .ok subNode ∧ subNode.level + 1 = node.level) => ?_)
    · unfold getSubNodeBlockNumberFromEntry
      rw [Call.ends_self_bind]
      cases resolved : resolveEntry nodes btree node entry transactionIdentifier with
      | error failure => trivial
      | ok found =>
          rw [Call.ends_lift_ok_bind]
          cases found with
          | none => exact fun _ absent => by cases absent
          | some found =>
              intro blockNumber taken
              cases taken
              unfold resolveEntry at resolved
              split_ifs at resolved with lowest
              · cases resolved
              · cases entry with
                | none => cases resolved
                | some entry =>
                    obtain ⟨_, _, resolved⟩ := bind_eq_ok.mp resolved
                    obtain ⟨raw, _, resolved⟩ := bind_eq_ok.mp resolved
                    obtain ⟨candidates, _, resolved⟩ := bind_eq_ok.mp resolved
                    obtain ⟨subNode, read, level⟩ := firstCandidate_level resolved
                    exact ⟨subNode, read, by omega⟩
    · cases found with
      | none => trivial
      | some blockNumber => exact h blockNumber rfl
  exact ended.of_ok run

/-- Two ways to continue agree on the sub nodes one level below a node. -/
def AgreeUnder {β : Type} (nodes : Nat → Result BtreeNode) (node : BtreeNode) (next next' : Nat → β) : Prop :=
  ∀ blockNumber subNode, getSubNode nodes blockNumber = .ok subNode → subNode.level + 1 = node.level →
    next blockNumber = next' blockNumber

section agree

variable {identifier dataType transactionIdentifier : Nat}

theorem requireSubNodeBlockNumber_congr {β : Type} {next next' : Nat → TreeCall β}
    (agree : AgreeUnder nodes node next next') (entry : Option BtreeEntry) :
    requireSubNodeBlockNumber nodes node entry transactionIdentifier >>= next =
      requireSubNodeBlockNumber nodes node entry transactionIdentifier >>= next' := by
  apply Call.bind_congr
  intro blockNumber btree btree' run
  obtain ⟨subNode, read, level⟩ := requireSubNodeBlockNumber_level run
  exact congrFun (agree blockNumber subNode read level) btree'

theorem getEntryFromSubTree_congr {next next' : Nat → TreeCall (Option BtreeEntry)}
    (agree : AgreeUnder nodes node next next') :
    getEntryFromSubTree nodes identifier dataType transactionIdentifier next node =
      getEntryFromSubTree nodes identifier dataType transactionIdentifier next' node := by
  unfold getEntryFromSubTree
  congr 1
  funext found
  cases found with
  | none => rfl
  | some entry =>
      simp only []
      rw [requireSubNodeBlockNumber_congr agree entry]

theorem getDirectoryRecordFromNode_congr {α : Type} {unicode : Unicode α} {name : DirectoryName α}
    {next next' : Nat → TreeCall (Option DirectoryRecord)} (agree : AgreeUnder nodes node next next') :
    getDirectoryRecordFromNode unicode name nodes transactionIdentifier next node =
      getDirectoryRecordFromNode unicode name nodes transactionIdentifier next' node := by
  unfold getDirectoryRecordFromNode getDirectoryRecordFromBranchNode
  congr 3
  funext entry
  exact requireSubNodeBlockNumber_congr agree entry

variable {κ : Type} {kind : RecordKind κ} {next next' : Nat → ListingCall κ Bool}

theorem visitEntry_congr (agree : AgreeUnder nodes node next next') (entry : Option BtreeEntry) :
    visitEntry nodes transactionIdentifier next node entry =
      visitEntry nodes transactionIdentifier next' node entry := by
  apply Call.bind_congr
  intro blockNumber listing listing' run
  cases resolved : requireSubNodeBlockNumber nodes node entry transactionIdentifier listing.btree with
  | mk result btree' =>
      have value : result = .ok blockNumber := by
        have first := congrArg Prod.fst run
        simpa [onBtree, resolved] using first
      rw [value] at resolved
      obtain ⟨subNode, read, level⟩ := requireSubNodeBlockNumber_level resolved
      exact congrFun (agree blockNumber subNode read level) listing'

theorem getRecordsFromNode_congr (agree : AgreeUnder nodes node next next') :
    getRecordsFromNode nodes kind identifier transactionIdentifier next node =
      getRecordsFromNode nodes kind identifier transactionIdentifier next' node := by
  have branches : ∀ (entries : List BtreeEntry) (previousEntry : Option BtreeEntry) (found : Bool),
      visitBranchEntries nodes kind identifier transactionIdentifier next node previousEntry found entries =
        visitBranchEntries nodes kind identifier transactionIdentifier next' node previousEntry found entries := by
    intro entries
    induction entries with
    | nil =>
        intro previousEntry found
        simp only [visitBranchEntries, visitEntry_congr agree]
    | cons entry entries ih =>
        intro previousEntry found
        simp only [visitBranchEntries, visitEntry_congr agree, ih]
  unfold getRecordsFromNode getRecordsFromBranchNode
  rw [branches]

end agree

end resolved

section watched

variable (nodes : Nat → Result BtreeNode) (watch : List Nat → Nat → Bool) (identifier transactionIdentifier : Nat)

def inSubNode {σ β : Type} (search : (Nat → Call ErrorCode σ β) → BtreeNode → Call ErrorCode σ β)
    (next : Nat → Call ErrorCode σ β) (subNodeBlockNumber : Nat) : Call ErrorCode σ β := do
  let subNode ← Call.lift (getSubNode nodes subNodeBlockNumber)
  search next subNode

def lookupLimit (subNodeBlockNumber : Nat) : TreeCall (Option BtreeEntry) := do
  let _ ← Call.lift (getSubNode nodes subNodeBlockNumber)
  Call.lift (fail .valueOutOfBounds)

def getEntryByIdentifierAlong (dataType : Nat) : TreeCall (Option BtreeEntry) := do
  let btree ← Call.self
  let rootNode ← Call.lift (getRootNode nodes btree.rootNodeBlockNumber)
  match rootNode with
  | none => return none
  | some node =>
      getEntryFromSubTree nodes identifier dataType transactionIdentifier
        (descendAlong watch (lookupLimit nodes)
          (inSubNode nodes (getEntryFromSubTree nodes identifier dataType transactionIdentifier))
          maximumBtreeNodeRecursionDepth [btree.rootNodeBlockNumber])
        node

def getRecordsLimit {κ : Type} (kind : RecordKind κ) (subNodeBlockNumber : Nat) : ListingCall κ Bool := do
  let subNode ← Call.lift (getSubNode nodes subNodeBlockNumber)
  if subNode.isLeafNode then getRecordsFromLeafNode kind identifier subNode
  else Call.lift (fail .valueOutOfBounds)

def getRecordsAlong {κ : Type} (kind : RecordKind κ) : ListingCall κ Bool := fun listing =>
  getRecordsWithin nodes kind identifier transactionIdentifier
    (descendAlong watch (getRecordsLimit nodes identifier kind)
      (inSubNode nodes (getRecordsFromNode nodes kind identifier transactionIdentifier))
      maximumBtreeNodeRecursionDepth [listing.btree.rootNodeBlockNumber])
    listing

variable {α : Type} (unicode : Unicode α) (name : DirectoryName α)

def getDirectoryRecordLimit (subNodeBlockNumber : Nat) : TreeCall (Option DirectoryRecord) := do
  let subNode ← Call.lift (getSubNode nodes subNodeBlockNumber)
  if subNode.isLeafNode then getDirectoryRecordFromLeafNode unicode name subNode
  else Call.lift (fail .valueOutOfBounds)

def getDirectoryRecordAlong (rootNodeBlockNumber : Nat) (rootNode : BtreeNode) : TreeCall (Option DirectoryRecord) :=
  getDirectoryRecordFromNode unicode name nodes transactionIdentifier
    (descendAlong watch (getDirectoryRecordLimit nodes unicode name)
      (inSubNode nodes (getDirectoryRecordFromNode unicode name nodes transactionIdentifier))
      maximumBtreeNodeRecursionDepth [rootNodeBlockNumber])
    rootNode

end watched

section descents

variable {nodes : Nat → Result BtreeNode} {σ β : Type} {limit : Nat → Call ErrorCode σ β}
  {search : (Nat → Call ErrorCode σ β) → BtreeNode → Call ErrorCode σ β}

/-- A search that goes on only one level down has paths that descend. -/
theorem descending_agrees
    (congr : ∀ node next next', AgreeUnder nodes node next next' → search next node = search next' node)
    {rootNodeBlockNumber : Nat} {rootNode : BtreeNode} (read : nodes rootNodeBlockNumber = .ok rootNode) :
    AgreeUnder nodes rootNode
      (descendAlong (descending nodes) limit (inSubNode nodes search) maximumBtreeNodeRecursionDepth
        [rootNodeBlockNumber])
      (descend limit (inSubNode nodes search) maximumBtreeNodeRecursionDepth) := by
  intro blockNumber subNode read' level
  have isLocal : Local (OneLevelDown nodes) (inSubNode nodes search) := by
    intro next next' key agree
    apply Call.bind_congr
    intro node s s' run
    have here : getSubNode nodes key = .ok node := congrArg Prod.fst run
    refine congrFun (congr node next next' fun key' subNode there down => ?_) s'
    exact agree key' ⟨node, subNode, getSubNode_read here, getSubNode_read there, down⟩
  refine descendAlong_eq isLocal (fun path key chain => ?_) _ ?_
  · exact decide_eq_true (Descends.of_chain chain)
  · exact List.isChain_cons_cons.mpr
      ⟨⟨rootNode, subNode, read, getSubNode_read read', level⟩, List.IsChain.singleton _⟩

variable (nodes) (identifier transactionIdentifier : Nat)

theorem getEntryByIdentifierAlong_eq (dataType : Nat) :
    getEntryByIdentifierAlong nodes (descending nodes) identifier transactionIdentifier dataType =
      getEntryByIdentifier nodes identifier dataType transactionIdentifier := by
  funext btree
  unfold getEntryByIdentifierAlong getEntryByIdentifier
  rw [Call.self_bind, Call.self_bind]
  cases rooted : getRootNode nodes btree.rootNodeBlockNumber with
  | error failure => rfl
  | ok rootNode =>
      cases rootNode with
      | none => rfl
      | some rootNode =>
          exact congrFun (getEntryFromSubTree_congr (descending_agrees
            (fun _ _ _ => getEntryFromSubTree_congr) (getRootNode_read rooted))) btree

omit nodes in
theorem emptyOnError_congr {κ α : Type} {call call' : ListingCall κ α} {listing : Listing κ}
    (same : call listing = call' listing) : emptyOnError call listing = emptyOnError call' listing := by
  unfold emptyOnError
  rw [same]

theorem getRecordsAlong_eq {κ : Type} (kind : RecordKind κ) :
    getRecordsAlong nodes (descending nodes) identifier transactionIdentifier kind =
      getRecords nodes kind identifier transactionIdentifier := by
  funext listing
  unfold getRecordsAlong getRecords getRecordsWithin
  apply emptyOnError_congr
  rw [Call.self_bind, Call.self_bind]
  cases rooted : getRootNode nodes listing.btree.rootNodeBlockNumber with
  | error failure => rfl
  | ok rootNode =>
      cases rootNode with
      | none => rfl
      | some rootNode =>
          exact congrFun (getRecordsFromNode_congr (descending_agrees
            (fun _ _ _ => getRecordsFromNode_congr) (getRootNode_read rooted))) listing

theorem getDirectoryRecordAlong_eq {α : Type} (unicode : Unicode α) (name : DirectoryName α)
    {rootNodeBlockNumber : Nat} {rootNode : BtreeNode}
    (rooted : getRootNode nodes rootNodeBlockNumber = .ok (some rootNode)) :
    getDirectoryRecordAlong nodes (descending nodes) transactionIdentifier unicode name rootNodeBlockNumber rootNode =
      getDirectoryRecordFromRootNode unicode name nodes transactionIdentifier rootNode :=
  getDirectoryRecordFromNode_congr (descending_agrees
    (fun _ _ _ => getDirectoryRecordFromNode_congr) (getRootNode_read rooted))

end descents

/-- Every search answers, and it is the search under the watch: no path of it is left that does not descend. -/
theorem searches_descend {α : Type} (unicode : Unicode α) {nodes : Nat → Result BtreeNode} (parsed : Parsed nodes)
    (transactionIdentifier : Nat) :
    (∀ identifier, (getInodeByIdentifier nodes identifier transactionIdentifier).Answers ∧
      (getDirectoryEntries nodes identifier transactionIdentifier).Answers ∧
      (getAttributes nodes identifier transactionIdentifier).Answers ∧
      (getFileExtents nodes identifier transactionIdentifier).Answers) ∧
    (∀ parentIdentifier (string : List α),
      (getInodeByName unicode nodes transactionIdentifier parentIdentifier string).Answers ∧
      (getInodeByPath unicode nodes transactionIdentifier parentIdentifier string).Answers) ∧
    (∀ identifier dataType,
      getEntryByIdentifierAlong nodes (descending nodes) identifier transactionIdentifier dataType =
        getEntryByIdentifier nodes identifier dataType transactionIdentifier) ∧
    (∀ identifier,
      getRecordsAlong nodes (descending nodes) identifier transactionIdentifier directoryRecords =
        getDirectoryEntries nodes identifier transactionIdentifier ∧
      getRecordsAlong nodes (descending nodes) identifier transactionIdentifier extendedAttributes =
        getAttributes nodes identifier transactionIdentifier ∧
      getRecordsAlong nodes (descending nodes) identifier transactionIdentifier fileExtents =
        getFileExtents nodes identifier transactionIdentifier) ∧
    ∀ (name : DirectoryName α) rootNodeBlockNumber rootNode,
      getRootNode nodes rootNodeBlockNumber = .ok (some rootNode) →
      (getDirectoryRecordFromRootNode unicode name nodes transactionIdentifier rootNode).Answers ∧
      getDirectoryRecordAlong nodes (descending nodes) transactionIdentifier unicode name rootNodeBlockNumber
          rootNode =
        getDirectoryRecordFromRootNode unicode name nodes transactionIdentifier rootNode := by
  refine ⟨fun identifier => ⟨?_, ?_, ?_, ?_⟩, fun parentIdentifier string => ⟨?_, ?_⟩, fun identifier dataType => ?_,
    fun identifier => ⟨?_, ?_, ?_⟩, fun name rootNodeBlockNumber rootNode rooted => ⟨?_, ?_⟩⟩
  · exact getInodeByIdentifier_answers parsed identifier transactionIdentifier
  · exact getRecords_answers directoryRecords_returning parsed
  · exact getRecords_answers extendedAttributes_returning parsed
  · exact getRecords_answers fileExtents_returning parsed
  · exact getInodeByName_answers parsed parentIdentifier string
  · exact getInodeByPath_answers parsed parentIdentifier string
  · exact getEntryByIdentifierAlong_eq nodes identifier transactionIdentifier dataType
  · exact getRecordsAlong_eq nodes identifier transactionIdentifier directoryRecords
  · exact getRecordsAlong_eq nodes identifier transactionIdentifier extendedAttributes
  · exact getRecordsAlong_eq nodes identifier transactionIdentifier fileExtents
  · exact getDirectoryRecordFromRootNode_answers parsed rootNode
  · exact getDirectoryRecordAlong_eq nodes transactionIdentifier unicode name rooted

namespace Sample

def circular : Nat → Result BtreeNode
  | 1 => .ok (objectMapRoot [(7, 3)])
  | 2 => .ok (rootNode 1 2 [branchEntry 2 3 7])
  | 3 => .ok (subNode 0 1 [branchEntry 2 3 7])
  | _ => fail .readFailed

theorem circular_parsed : Parsed circular := by
  intro blockNumber
  unfold circular
  split
  · exact fun _ => by simp [objectMapRoot]
  · exact fun _ => by simp [rootNode]
  · exact fun root => absurd root (by decide)
  · trivial

end Sample

theorem searches_descend_circular : Parsed Sample.circular ∧
    (getInodeByIdentifier Sample.circular 2 1 (Sample.btree 0)).1 = fail .getFailed ∧
    (getInodeByIdentifier Sample.circular 2 1).Answers ∧
    getEntryByIdentifierAlong Sample.circular (descending Sample.circular) 2 1 3 =
      getEntryByIdentifier Sample.circular 2 3 1 :=
  ⟨Sample.circular_parsed, rfl, ((searches_descend Sample.unicode Sample.circular_parsed 1).1 2).1,
    (searches_descend Sample.unicode Sample.circular_parsed 1).2.2.1 2 3⟩

end Fsapfs.FileSystemBtree
