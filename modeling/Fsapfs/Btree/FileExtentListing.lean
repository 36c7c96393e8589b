import Fsapfs.Btree.RecordsOfType

namespace Fsapfs.FileSystemBtree
open Program Listing

variable {rest : List UInt8 → List UInt8 → Prop} {identifier : Nat} {entries : List BtreeEntry}

def logicalAddress (entry : BtreeEntry) : Nat := littleEndian ((entry.keyData.drop 8).take 8)

def isFileExtent (identifier : Nat) (entry : BtreeEntry) : Bool :=
  hasKey identifier 8 entry || hasKey identifier 13 entry

/-- A key after the first extents of a file that does not tell that there are any before it. -/
def dividesExtents (identifier : Nat) (entry : BtreeEntry) : Bool :=
  entryIdentifier entry == identifier &&
    ((8 < entryDataType entry && entryDataType entry < 13) ||
      (entryDataType entry == 13 && logicalAddress entry == 0))

def beforeExtents (identifier : Nat) (entry : BtreeEntry) : Bool :=
  entryIdentifier entry < identifier || (entryIdentifier entry == identifier &&
    (entryDataType entry < 8 || (entryDataType entry == 8 && logicalAddress entry == 0)))

theorem isFileExtent_iff {entry : BtreeEntry} : isFileExtent identifier entry ↔
    entryIdentifier entry = identifier ∧ (entryDataType entry = 8 ∨ entryDataType entry = 13) := by
  simp only [isFileExtent, Bool.or_eq_true, hasKey_iff]
  tauto

theorem dividesExtents_congr {entry entry' : BtreeEntry} (key : sameKey entry entry') :
    dividesExtents identifier entry = dividesExtents identifier entry' := by
  unfold dividesExtents entryIdentifier entryDataType logicalAddress
  rw [entryKey_congr key, show entry.keyData = entry'.keyData from key]

theorem beforeExtents_congr {entry entry' : BtreeEntry} (key : sameKey entry entry') :
    beforeExtents identifier entry = beforeExtents identifier entry' := by
  unfold beforeExtents entryIdentifier entryDataType logicalAddress
  rw [entryKey_congr key, show entry.keyData = entry'.keyData from key]

/-- The keys of file extents are whole and ordered by their logical addresses. -/
structure Addressed (rest : List UInt8 → List UInt8 → Prop) (identifier : Nat) (entries : List BtreeEntry) : Prop where
  sized : ∀ entry ∈ entries, 8 ≤ entry.keyData.length
  whole : ∀ entry ∈ entries, isFileExtent identifier entry → 16 ≤ entry.keyData.length
  increasing : entries.Pairwise (keyBefore rest)
  address : ∀ entry ∈ entries, ∀ entry' ∈ entries, isFileExtent identifier entry → isFileExtent identifier entry' →
    entryDataType entry = entryDataType entry' → rest entry.keyData entry'.keyData →
    logicalAddress entry < logicalAddress entry'

theorem examineFileExtentKey_ok {entry : BtreeEntry} (sized : 8 ≤ entry.keyData.length)
    (whole : isFileExtent identifier entry → 16 ≤ entry.keyData.length) :
    examineFileExtentKey identifier entry = .ok
      (if entryIdentifier entry > identifier ∨ (entryIdentifier entry = identifier ∧ entryDataType entry > 13) then
        .stop
      else if entryIdentifier entry = identifier ∧ (entryDataType entry = 8 ∨ entryDataType entry = 13) then
        if logicalAddress entry > 0 then .visitPrevious else .pass
      else .pass) := by
  unfold examineFileExtentKey
  rw [readFileSystemIdentifier_ok sized, ok_bind]
  change (if entryIdentifier entry > identifier ∨
      (entryIdentifier entry = identifier ∧ entryDataType entry > 13) then _
    else if entryIdentifier entry = identifier ∧ (entryDataType entry = 8 ∨ entryDataType entry = 13) then _
    else _) = _
  by_cases after : entryIdentifier entry > identifier ∨ (entryIdentifier entry = identifier ∧ entryDataType entry > 13)
  · rw [if_pos after, if_pos after]
    rfl
  · rw [if_neg after, if_neg after]
    by_cases extent : entryIdentifier entry = identifier ∧ (entryDataType entry = 8 ∨ entryDataType entry = 13)
    · have long := whole (isFileExtent_iff.mpr extent)
      have address : loadLittleEndian64 entry.keyData 8 = .ok (logicalAddress entry) := loadLittleEndian_ok long
      rw [if_pos extent, if_pos extent, if_neg (by omega), address, ok_bind]
      split_ifs <;> rfl
    · rw [if_neg extent, if_neg extent]
      rfl

theorem fileExtents_keyOnly : fileExtents.KeyOnly identifier := by
  intro entry entry' key
  change examineFileExtentKey identifier entry = examineFileExtentKey identifier entry'
  unfold examineFileExtentKey
  rw [readFileSystemIdentifier_congr key, show entry.keyData = entry'.keyData from key]

section step

variable {entry : BtreeEntry} (sized : 8 ≤ entry.keyData.length)
  (whole : isFileExtent identifier entry → 16 ≤ entry.keyData.length)

include sized whole

theorem fileExtents_step : fileExtents.step identifier entry =
      if entryIdentifier entry > identifier ∨ (entryIdentifier entry = identifier ∧ entryDataType entry > 13) then
        .stop
      else if entryIdentifier entry = identifier ∧ (entryDataType entry = 8 ∨ entryDataType entry = 13) then
        if logicalAddress entry > 0 then .visitPrevious else .pass
      else .pass := by
  unfold RecordKind.step
  rw [show fileExtents.examine identifier entry = _ from examineFileExtentKey_ok sized whole]

theorem fileExtents_examines : fileExtents.Examines identifier entry := by
  unfold RecordKind.Examines
  rw [fileExtents_step sized whole]
  exact examineFileExtentKey_ok sized whole

theorem fileExtents_stops : fileExtents.stops identifier entry ↔
    entryIdentifier entry > identifier ∨ (entryIdentifier entry = identifier ∧ entryDataType entry > 13) := by
  unfold RecordKind.stops
  rw [fileExtents_step sized whole, beq_iff_eq]
  split_ifs with after <;> simp [after]

theorem fileExtents_passes : fileExtents.passes identifier entry =
    (dividesExtents identifier entry || beforeExtents identifier entry) := by
  rw [Bool.eq_iff_iff]
  unfold RecordKind.passes RecordKind.stops RecordKind.visits
  rw [fileExtents_step sized whole]
  simp only [dividesExtents, beforeExtents, Bool.or_eq_true, Bool.and_eq_true, decide_eq_true_eq, beq_iff_eq,
    Bool.not_eq_true', beq_eq_false_iff_ne]
  split_ifs with after extent address
  · simp
    omega
  · simp
    omega
  · simp
    omega
  · simp
    omega

end step

theorem fileExtents_isRecord (fits : identifier < 2 ^ 60) (entry : BtreeEntry) :
    fileExtents.isRecord identifier entry = isFileExtent identifier entry := by
  rw [Bool.eq_iff_iff]
  unfold RecordKind.isRecord isFileExtent
  rw [decide_eq_true_eq, Bool.or_eq_true, hasKey_iff, hasKey_iff]
  have key := @eq_lookupIdentifier identifier
  simp only [fileExtents, List.map_cons, List.map_nil, List.mem_cons, List.not_mem_nil, or_false, key fits]
  rfl

namespace Addressed

theorem step_iff (addressed : Addressed rest identifier entries) {entry : BtreeEntry} (member : entry ∈ entries) :
    fileExtents.stops identifier entry ↔
      entryIdentifier entry > identifier ∨ (entryIdentifier entry = identifier ∧ entryDataType entry > 13) :=
  fileExtents_stops (addressed.sized entry member) (addressed.whole entry member)

theorem ranges (addressed : Addressed rest identifier entries) (fits : identifier < 2 ^ 60) :
    Ranges fileExtents identifier entries where
  stopped := by
    refine addressed.increasing.imp_of_mem fun {entry entry'} member member' before goesOn => ?_
    rw [Bool.not_eq_true', ← Bool.not_eq_true, addressed.step_iff member'] at goesOn
    rw [Bool.not_eq_true', ← Bool.not_eq_true, addressed.step_iff member]
    unfold keyBefore at before
    omega
  greater entry member more := (addressed.step_iff member).mpr (Or.inl more)
  unwanted entry member stop := by
    rw [fileExtents_isRecord fits, ← Bool.not_eq_true, isFileExtent_iff]
    rw [addressed.step_iff member] at stop
    omega

theorem beforeExtents_lossless {height : Nat} {tree : SearchTree BtreeEntry height}
    (addressed : Addressed rest identifier tree.items) (headed : tree.Headed sameKey) :
    SearchTree.Lossless (beforeExtents identifier) (isFileExtent identifier) tree := by
  refine SearchTree.lossless_of_pairwise (fun _ _ key => beforeExtents_congr key) headed ?_
  refine addressed.increasing.imp_of_mem fun {entry entry'} member member' before passed => ?_
  rw [← Bool.not_eq_true]
  intro extent
  have parts := isFileExtent_iff.mp extent
  simp only [beforeExtents, Bool.or_eq_true, Bool.and_eq_true, decide_eq_true_eq, beq_iff_eq] at passed
  rcases before with less | ⟨same, less | ⟨same', order⟩⟩
  · omega
  · omega
  · have extent' : isFileExtent identifier entry' := isFileExtent_iff.mpr (by omega)
    have address := addressed.address entry member entry' member' extent extent' same' order
    omega

theorem lossless_iff {height : Nat} {tree : SearchTree BtreeEntry height}
    (addressed : Addressed rest identifier tree.items) (headed : tree.Headed sameKey) :
    SearchTree.Lossless (fileExtents.passes identifier) (isFileExtent identifier) tree ↔
      SearchTree.Lossless (dividesExtents identifier) (isFileExtent identifier) tree := by
  have passesSame : ∀ entry entry', sameKey entry entry' →
      fileExtents.passes identifier entry = fileExtents.passes identifier entry' :=
    fun _ _ key => fileExtents_keyOnly.passes key
  have keysSame : ∀ entry entry', sameKey entry entry' →
      (dividesExtents identifier entry || beforeExtents identifier entry) =
        (dividesExtents identifier entry' || beforeExtents identifier entry') :=
    fun _ _ key => by rw [dividesExtents_congr key, beforeExtents_congr key]
  rw [SearchTree.lossless_congr passesSame keysSame headed fun entry member =>
    fileExtents_passes (addressed.sized entry member) (addressed.whole entry member), SearchTree.lossless_or]
  exact and_iff_left (addressed.beforeExtents_lossless headed)

end Addressed

section stray

variable {nodes : Nat → Result BtreeNode} {btree : FileSystemBtree} {transactionIdentifier : Nat}
  {encoding : BranchChildOidEncoding}

def lastLeaf : ∀ {height : Nat}, SearchTree BtreeEntry height → List BtreeEntry
  | 0, entries => entries
  | _ + 1, (branch : List (BtreeEntry × SearchTree BtreeEntry _)) =>
      match branch.getLast? with
      | none => []
      | some sub => lastLeaf sub.2

/-- A listing that appends nothing and finds nothing, unless an entry of the leaf is taken for a record. -/
def Stray (btree : FileSystemBtree) (encoding : BranchChildOidEncoding) (identifier : Nat)
    (leaf : List BtreeEntry) (s : Listing FileExtent) (call : ListingCall FileExtent Bool) : Prop :=
  call.Ends s
    (fun found s' => found = leaf.any (fileExtents.isRecord identifier) ∧
      (leaf.any (fileExtents.isRecord identifier) = false →
        HandleOf btree encoding s'.btree ∧ s'.records = s.records))
    fun _ => leaf.any (fileExtents.isRecord identifier)

theorem entryIdentifier_lt (entry : BtreeEntry) : entryIdentifier entry < 2 ^ 60 := by
  rw [entryIdentifier, keyIdentifier_eq]
  exact Nat.mod_lt _ (Nat.two_pow_pos 60)

theorem appendLeafRecords_found (entries : List BtreeEntry) (s : Listing FileExtent) :
    (appendLeafRecords fileExtents identifier true entries).Ends s (fun found _ => found = true) fun _ => True := by
  induction entries generalizing s with
  | nil => rfl
  | cons entry entries ih =>
      unfold appendLeafRecords
      refine Call.Ends.bind (Call.ends_lift (fun _ _ => trivial) fun _ _ => trivial) fun key s' (_ : True) => ?_
      split_ifs
      · rfl
      · exact Call.Ends.bind (Call.ends_lift (fun _ _ => trivial) fun _ _ => trivial)
          fun record s' (_ : True) => ih _
      · exact ih _

theorem appendLeafRecords_stray (exceeds : 2 ^ 60 ≤ identifier)
    (sized : ∀ entry ∈ entries, 8 ≤ entry.keyData.length) {s : Listing FileExtent}
    (held : HandleOf btree encoding s.btree) (before : Bool) :
    (appendLeafRecords fileExtents identifier before entries).Ends s
      (fun found s' => found = (before || entries.any (fileExtents.isRecord identifier)) ∧
        (entries.any (fileExtents.isRecord identifier) = false →
          HandleOf btree encoding s'.btree ∧ s'.records = s.records))
      fun _ => entries.any (fileExtents.isRecord identifier) := by
  induction entries generalizing s before with
  | nil => exact ⟨by simp, fun _ => ⟨held, rfl⟩⟩
  | cons entry entries ih =>
      obtain ⟨first, sized⟩ := List.forall_mem_cons.mp sized
      have small := entryIdentifier_lt entry
      have within : ¬keyIdentifier (entryKey entry) > identifier := by
        unfold entryIdentifier at small
        omega
      unfold appendLeafRecords
      rw [readFileSystemIdentifier_ok first, Call.ends_lift_ok_bind, if_neg within]
      by_cases wanted : fileExtents.isRecord identifier entry
      · have taken : (entry :: entries).any (fileExtents.isRecord identifier) = true := by simp [wanted]
        rw [taken, if_pos (by simpa [RecordKind.isRecord] using wanted)]
        refine Call.Ends.bind (Call.ends_lift (fun _ _ => trivial) fun _ _ => rfl) fun record s' (_ : True) => ?_
        rw [Call.ends_update_bind]
        exact (appendLeafRecords_found entries _).mono (fun found _ same => ⟨by simp [same], by simp⟩) fun _ _ => rfl
      · have taken : (entry :: entries).any (fileExtents.isRecord identifier) =
            entries.any (fileExtents.isRecord identifier) := by simp [wanted]
        rw [taken, if_neg (by simpa [RecordKind.isRecord] using wanted)]
        exact ih sized held before

theorem Stray.emptyOnError {leaf : List BtreeEntry} {s : Listing FileExtent} {call : ListingCall FileExtent Bool}
    (stray : Stray btree encoding identifier leaf s call) :
    Stray btree encoding identifier leaf s (emptyOnError call) :=
  ends_emptyOnError stray fun _ failed => failed

theorem getRecordsFromLeafNode_stray (exceeds : 2 ^ 60 ≤ identifier) {node : BtreeNode} (leaf : node.isLeafNode)
    (sized : ∀ entry ∈ node.entries, 8 ≤ entry.keyData.length) {s : Listing FileExtent}
    (held : HandleOf btree encoding s.btree) :
    Stray btree encoding identifier node.entries s (getRecordsFromLeafNode fileExtents identifier node) := by
  refine Stray.emptyOnError ?_
  rw [if_pos leaf]
  exact (appendLeafRecords_stray exceeds sized held false).mono
    (fun found s' gathered => by simpa using gathered) fun _ failed => failed

theorem visitBranchEntries_last {next : Nat → ListingCall FileExtent Bool} {node : BtreeNode}
    (passes : ∀ entry ∈ entries, fileExtents.examine identifier entry = .ok .pass) (previous : Option BtreeEntry)
    (before : Bool) (s : Listing FileExtent) :
    visitBranchEntries nodes fileExtents identifier transactionIdentifier next node previous before entries s =
      (do
        let result ← visitEntry nodes transactionIdentifier next node (entries.getLast?.or previous)
        return before || result : ListingCall FileExtent Bool) s := by
  induction entries generalizing previous with
  | nil => rfl
  | cons entry entries ih =>
      obtain ⟨first, passes⟩ := List.forall_mem_cons.mp passes
      rw [visitBranchEntries, first, Call.bind_of_ok (Call.lift_run _ _)]
      refine (ih passes (some entry)).trans ?_
      rw [List.getLast?_cons]
      cases entries.getLast? <;> rfl

theorem examine_exceeding (exceeds : 2 ^ 60 ≤ identifier) {entry : BtreeEntry} (sized : 8 ≤ entry.keyData.length) :
    fileExtents.examine identifier entry = .ok .pass := by
  have small := entryIdentifier_lt entry
  have other : ¬isFileExtent identifier entry := by
    rw [isFileExtent_iff]
    omega
  rw [show fileExtents.examine identifier entry = _ from examineFileExtentKey_ok sized fun extent =>
    (other extent).elim, if_neg (by omega), if_neg (by omega)]

theorem getRecordsFromBranchNode_stray (exceeds : 2 ^ 60 ≤ identifier) {height : Nat}
    {branch : List (BtreeEntry × SearchTree BtreeEntry height)} {node : BtreeNode}
    (stored : (layout nodes btree transactionIdentifier encoding).Stored (SearchTree.branch branch) node)
    (filled : branch ≠ []) {next : Nat → ListingCall FileExtent Bool}
    (each : ∀ sub ∈ branch, ∀ blockNumber subNode, getSubNode nodes blockNumber = .ok subNode →
      (layout nodes btree transactionIdentifier encoding).Stored sub.2 subNode →
      ∀ s, HandleOf btree encoding s.btree →
        Stray btree encoding identifier (lastLeaf sub.2) s (next blockNumber))
    {s : Listing FileExtent} (held : HandleOf btree encoding s.btree) :
    Stray btree encoding identifier (lastLeaf (SearchTree.branch branch)) s
      (getRecordsFromBranchNode nodes fileExtents identifier transactionIdentifier next node) := by
  obtain ⟨⟨isBranch, same, sized⟩, leads⟩ := stored
  refine Stray.emptyOnError ?_
  rw [if_neg (by simp [isBranch]), same]
  obtain ⟨sub, last⟩ := Option.isSome_iff_exists.mp (List.getLast?_isSome.mpr filled)
  have member : sub ∈ branch := List.mem_of_getLast? last
  have leaf : lastLeaf (SearchTree.branch branch) = lastLeaf sub.2 := by
    change (match branch.getLast? with | none => [] | some sub => lastLeaf sub.2) = _
    rw [last]
  obtain ⟨subNode, refers, stored⟩ := leads sub member
  unfold Stray Call.Ends
  rw [visitBranchEntries_last (fun entry inside => examine_exceeding exceeds (sized entry inside)), List.getLast?_map,
    last, leaf]
  have visit : Stray btree encoding identifier (lastLeaf sub.2) s
      (visitEntry nodes transactionIdentifier next node (some sub.1)) :=
    visitEntry_ends refers held fun blockNumber handle' child held' =>
      each sub member blockNumber subNode child stored { s with btree := handle' } held'
  exact Call.Ends.bind visit fun found s' gathered => ⟨by simpa using gathered.1, gathered.2⟩

theorem getRecordsFromSubNode_stray (exceeds : 2 ^ 60 ≤ identifier) {height depth : Nat} (within : height ≤ depth)
    {tree : SearchTree BtreeEntry height} {node : BtreeNode} {blockNumber : Nat}
    (child : getSubNode nodes blockNumber = .ok node)
    (stored : (layout nodes btree transactionIdentifier encoding).Stored tree node)
    (headed : tree.Headed sameKey) {s : Listing FileExtent} (held : HandleOf btree encoding s.btree) :
    Stray btree encoding identifier (lastLeaf tree) s
      (getRecordsFromSubNode nodes fileExtents identifier transactionIdentifier depth blockNumber) := by
  induction height generalizing depth node blockNumber s with
  | zero =>
      obtain ⟨leaf, rfl, sized⟩ := stored
      have stray := getRecordsFromLeafNode_stray exceeds leaf sized held
      unfold Stray getRecordsFromSubNode
      cases depth with
      | zero =>
          unfold descend
          rw [child, Call.ends_lift_ok_bind, if_pos leaf]
          exact stray
      | succ depth =>
          unfold descend getRecordsFromNode
          rw [child, Call.ends_lift_ok_bind, if_pos leaf]
          exact stray
  | succ height ih =>
      obtain ⟨depth, rfl⟩ := Nat.exists_eq_succ_of_ne_zero (show depth ≠ 0 by omega)
      obtain ⟨filled, _, headed⟩ := headed
      unfold Stray getRecordsFromSubNode descend getRecordsFromNode
      rw [child, Call.ends_lift_ok_bind, if_neg (by simp [stored.1.1])]
      refine getRecordsFromBranchNode_stray exceeds stored filled ?_ held
      intro sub member blockNumber' subNode child' stored' s' held'
      exact ih (by omega) child' stored' (headed sub member) held'

theorem getFileExtents_stray (exceeds : 2 ^ 60 ≤ identifier) {height : Nat}
    (limited : height ≤ maximumBtreeNodeRecursionDepth + 1) {tree : SearchTree BtreeEntry height}
    (stores : Stores nodes btree transactionIdentifier encoding rest tree) {s : Listing FileExtent}
    (held : HandleOf btree encoding s.btree) :
    Stray btree encoding identifier (lastLeaf tree) s (getFileExtents nodes identifier transactionIdentifier) := by
  obtain ⟨⟨root, rooted, stored⟩, headed, _⟩ := stores
  refine Stray.emptyOnError ?_
  unfold Stray
  rw [Call.ends_self_bind, held.rootNodeBlockNumber, rooted, Call.ends_lift_ok_bind]
  unfold getRecordsFromNode
  cases height with
  | zero =>
      obtain ⟨leaf, rfl, sized⟩ := stored
      simp only [leaf, if_true]
      exact getRecordsFromLeafNode_stray exceeds leaf sized held
  | succ height =>
      obtain ⟨filled, _, headed⟩ := headed
      simp only [stored.1.1, Bool.false_eq_true, if_false]
      refine getRecordsFromBranchNode_stray exceeds stored filled ?_ held
      intro sub member blockNumber subNode child stored' s' held'
      exact getRecordsFromSubNode_stray exceeds (by omega) child stored' (headed sub member) held'

end stray

theorem FileExtent.read_sized {entry : BtreeEntry} {fileExtent : FileExtent}
    (reads : FileExtent.read entry = .ok fileExtent) : 16 ≤ entry.keyData.length := by
  obtain ⟨_, _, reads⟩ := bind_eq_ok.mp reads
  obtain ⟨_, readsKey, _⟩ := bind_eq_ok.mp reads
  obtain ⟨_, sized, _⟩ := bind_eq_ok.mp readsKey
  exact (requireData_ok (by simp)).mp sized

def precedesExtents (identifier : Nat) (entry : BtreeEntry) : Prop :=
  entryIdentifier entry < identifier ∨ (entryIdentifier entry = identifier ∧ entryDataType entry < 8)

instance (entry : BtreeEntry) : Decidable (precedesExtents identifier entry) :=
  inferInstanceAs (Decidable (_ ∨ _))

theorem Addressed.starts (addressed : Addressed rest identifier entries)
    (preceded : ∃ entry ∈ entries, precedesExtents identifier entry) :
    ∀ entry ∈ entries.head?, fileExtents.stops identifier entry = false := by
  intro first head
  obtain ⟨entry, member, precedes⟩ := preceded
  obtain ⟨tail, rfl⟩ := List.head?_eq_some_iff.mp head
  rw [← Bool.not_eq_true, addressed.step_iff (by simp)]
  unfold precedesExtents at precedes
  rcases List.mem_cons.mp member with rfl | later
  · omega
  · have before := (List.pairwise_cons.mp addressed.increasing).1 entry later
    unfold keyBefore at before
    omega

section listed

variable {nodes : Nat → Result BtreeNode} {btree handle : FileSystemBtree} {transactionIdentifier height : Nat}
  {encoding : BranchChildOidEncoding} {tree : SearchTree BtreeEntry height} {decode : BtreeEntry → FileExtent}

/-- The file extents of an identifier are appended, each once and in the order of their keys. -/
def ListsExtents (nodes : Nat → Result BtreeNode) (btree : FileSystemBtree) (transactionIdentifier : Nat)
    (encoding : BranchChildOidEncoding) (identifier : Nat) (decode : BtreeEntry → FileExtent)
    (entries : List BtreeEntry) (handle : FileSystemBtree) (records : List FileExtent) : Prop :=
  ∃ handle', HandleOf btree encoding handle' ∧
    getFileExtents nodes identifier transactionIdentifier { btree := handle, records } =
      (.ok (!(entries.filter (isFileExtent identifier)).isEmpty),
        { btree := handle'
          records := records ++ (entries.filter (isFileExtent identifier)).map decode })

theorem addressed_of_stores (stores : Stores nodes btree transactionIdentifier encoding rest tree)
    (address : ∀ entry ∈ tree.items, ∀ entry' ∈ tree.items, isFileExtent identifier entry →
      isFileExtent identifier entry' → entryDataType entry = entryDataType entry' →
      rest entry.keyData entry'.keyData → logicalAddress entry < logicalAddress entry')
    (decodes : ∀ entry ∈ tree.items, isFileExtent identifier entry → FileExtent.read entry = .ok (decode entry)) :
    Addressed rest identifier tree.items where
  sized := stores.sized
  whole entry member extent := FileExtent.read_sized (decodes entry member extent)
  increasing := stores.increasing
  address := address

theorem listsExtents_iff_lossless (fits : identifier < 2 ^ 60)
    (limited : height ≤ maximumBtreeNodeRecursionDepth + 1)
    (stores : Stores nodes btree transactionIdentifier encoding rest tree)
    (addressed : Addressed rest identifier tree.items)
    (decodes : ∀ entry ∈ tree.items, isFileExtent identifier entry → FileExtent.read entry = .ok (decode entry))
    (preceded : ∃ entry ∈ tree.items, precedesExtents identifier entry)
    (held : HandleOf btree encoding handle) (records : List FileExtent) :
    ListsExtents nodes btree transactionIdentifier encoding identifier decode tree.items handle records ↔
      SearchTree.Lossless (dividesExtents identifier) (isFileExtent identifier) tree := by
  have reads : fileExtents.Reads identifier decode tree.items :=
    ⟨fun entry member => fileExtents_examines (addressed.sized entry member) (addressed.whole entry member),
      fun entry member wanted => decodes entry member (by rwa [fileExtents_isRecord fits] at wanted)⟩
  have wanted : fileExtents.isRecord identifier = isFileExtent identifier := funext (fileExtents_isRecord fits)
  have listable := (addressed.ranges fits).listable
  rw [wanted] at listable
  have sameStops : ∀ entry entry', sameKey entry entry' →
      fileExtents.stops identifier entry = fileExtents.stops identifier entry' :=
    fun _ _ key => fileExtents_keyOnly.stops key
  have exact : fileExtents.collected identifier tree = tree.items.filter (isFileExtent identifier) ↔
      SearchTree.Lossless (dividesExtents identifier) (isFileExtent identifier) tree :=
    (SearchTree.collected_eq_iff sameStops stores.headed listable).trans (addressed.lossless_iff stores.headed)
  have fewer : (fileExtents.collected identifier tree).Sublist (tree.items.filter (isFileExtent identifier)) :=
    SearchTree.collected_sublist listable
  have held' : HandleOf btree encoding ({ btree := handle, records } : Listing FileExtent).btree := held
  obtain ⟨found, after, run, gathered⟩ := (getRecords_ends fileExtents_keyOnly limited stores reads
    (addressed.starts preceded) held').value
  rw [← exact]
  constructor
  · rintro ⟨handle', _, run'⟩
    have same := run.symm.trans run'
    have appended : records ++ (fileExtents.collected identifier tree).map decode =
        records ++ (tree.items.filter (isFileExtent identifier)).map decode :=
      gathered.records.symm.trans (congrArg Listing.records (Prod.mk.inj same).2)
    have lengths := congrArg List.length (List.append_cancel_left appended)
    exact fewer.eq_of_length (by simpa using lengths)
  · intro all
    rw [all] at gathered
    refine ⟨after.btree, gathered.handle, run.trans ?_⟩
    rw [gathered.found, Bool.false_or, ← gathered.records]

theorem listsExtents_iff_unmistaken (exceeds : 2 ^ 60 ≤ identifier)
    (limited : height ≤ maximumBtreeNodeRecursionDepth + 1)
    (stores : Stores nodes btree transactionIdentifier encoding rest tree)
    (held : HandleOf btree encoding handle) (records : List FileExtent) :
    ListsExtents nodes btree transactionIdentifier encoding identifier decode tree.items handle records ↔
      (lastLeaf tree).any (fileExtents.isRecord identifier) = false := by
  have none : tree.items.filter (isFileExtent identifier) = [] := by
    rw [List.filter_eq_nil_iff]
    intro entry _ extent
    have small := entryIdentifier_lt entry
    rw [isFileExtent_iff] at extent
    omega
  have held' : HandleOf btree encoding ({ btree := handle, records } : Listing FileExtent).btree := held
  have stray := getFileExtents_stray exceeds limited stores held'
  unfold ListsExtents
  rw [none]
  unfold Stray Call.Ends at stray
  constructor
  · rintro ⟨handle', _, run⟩
    rw [run] at stray
    exact stray.1.symm
  · intro unmistaken
    rw [unmistaken] at stray
    split at stray
    next found after run =>
      obtain ⟨rfl, kept⟩ := stray
      obtain ⟨held'', same⟩ := kept rfl
      refine ⟨after.btree, held'', run.trans ?_⟩
      rw [List.map_nil, List.append_nil]
      exact congrArg (Prod.mk _) (congrArg (Listing.mk after.btree) same)
    next => cases stray

theorem not_listsExtents_beyond (beyond : maximumBtreeNodeRecursionDepth + 1 < height)
    (stores : Stores nodes btree transactionIdentifier encoding rest tree)
    (addressed : Addressed rest identifier tree.items)
    (preceded : ∃ entry ∈ tree.items, precedesExtents identifier entry)
    (held : HandleOf btree encoding handle) (records : List FileExtent) :
    ¬ListsExtents nodes btree transactionIdentifier encoding identifier decode tree.items handle records := by
  have held' : HandleOf btree encoding ({ btree := handle, records } : Listing FileExtent).btree := held
  have fails := getRecords_fails fileExtents_keyOnly beyond stores
    (fun entry member => fileExtents_examines (addressed.sized entry member) (addressed.whole entry member))
    (addressed.starts preceded) held'
  rintro ⟨handle', _, run⟩
  exact fails.of_ok run

/-- Exactly where the file extents are listed: the tree is not higher than the recursion goes, no key divides
them, and none of the records of the last leaf is taken for one of an identifier that exceeds 60 bits. -/
theorem listsExtents_iff (stores : Stores nodes btree transactionIdentifier encoding rest tree)
    (addressed : Addressed rest identifier tree.items)
    (decodes : ∀ entry ∈ tree.items, isFileExtent identifier entry → FileExtent.read entry = .ok (decode entry))
    (preceded : ∃ entry ∈ tree.items, precedesExtents identifier entry)
    (held : HandleOf btree encoding handle) (records : List FileExtent) :
    ListsExtents nodes btree transactionIdentifier encoding identifier decode tree.items handle records ↔
      height ≤ maximumBtreeNodeRecursionDepth + 1 ∧
        SearchTree.Lossless (dividesExtents identifier) (isFileExtent identifier) tree ∧
        (2 ^ 60 ≤ identifier → (lastLeaf tree).any (fileExtents.isRecord identifier) = false) := by
  by_cases limited : height ≤ maximumBtreeNodeRecursionDepth + 1
  · by_cases fits : identifier < 2 ^ 60
    · rw [listsExtents_iff_lossless fits limited stores addressed decodes preceded held records]
      exact ⟨fun lossless => ⟨limited, lossless, fun exceeds => by omega⟩, fun conditions => conditions.2.1⟩
    · have exceeds : 2 ^ 60 ≤ identifier := Nat.le_of_not_lt fits
      have lossless : SearchTree.Lossless (dividesExtents identifier) (isFileExtent identifier) tree := by
        refine SearchTree.lossless_of_nothing fun entry _ => ?_
        have small := entryIdentifier_lt entry
        rw [← Bool.not_eq_true, isFileExtent_iff]
        omega
      rw [listsExtents_iff_unmistaken exceeds limited stores held records]
      exact ⟨fun unmistaken => ⟨limited, lossless, fun _ => unmistaken⟩, fun conditions => conditions.2.2 exceeds⟩
  · have refused : ¬ListsExtents nodes btree transactionIdentifier encoding identifier decode tree.items handle
        records := not_listsExtents_beyond (Nat.lt_of_not_le limited) stores addressed preceded held records
    exact ⟨fun lists => (refused lists).elim, fun conditions => (limited conditions.1).elim⟩

end listed

namespace Sample

def extentEntry (identifier dataType logicalAddress : Nat) : BtreeEntry where
  keyData := littleEndianBytes 8 (lookupIdentifier dataType identifier) ++ littleEndianBytes 8 logicalAddress
  valueData := littleEndianBytes 8 4096 ++ List.replicate 27 0

def extentLeaf : List BtreeEntry := [inodeEntry 2, extentEntry 2 8 0]

def file (second : BtreeEntry) : Nat → Result BtreeNode
  | 1 => .ok (objectMapRoot [(7, 3), (8, 4)])
  | 2 => .ok (rootNode 1 1 [leadingEntry (inodeEntry 2) 7, leadingEntry second 8])
  | 3 => .ok (subNode 2 0 extentLeaf)
  | 4 => .ok (subNode 2 0 [second])
  | _ => fail .readFailed

def fileTree (second : BtreeEntry) : SearchTree BtreeEntry 1 :=
  [(leadingEntry (inodeEntry 2) 7, extentLeaf), (leadingEntry second 8, [second])]

theorem file_stored {second : BtreeEntry}
    (one : second ∈ [extentEntry 2 8 4096, extentEntry 2 13 0, extentEntry 2 9 0]) :
    Stores (file second) (btree 0) 1 .absoluteOid littleEndianLess (fileTree second) := by
  rcases List.mem_cons.mp one with rfl | one
  case' inr => rcases List.mem_cons.mp one with rfl | one
  case' inr.inr => obtain rfl := List.mem_singleton.mp one
  all_goals
    refine ⟨⟨_, rfl, ⟨rfl, rfl, by decide⟩, List.forall_mem_cons.mpr ⟨?_, List.forall_mem_singleton.mpr ?_⟩⟩,
      ⟨by simp [fileTree], List.forall_mem_cons.mpr ⟨⟨_, _, rfl, rfl⟩, List.forall_mem_singleton.mpr ⟨_, _, rfl, rfl⟩⟩,
        fun _ _ => trivial⟩, by decide⟩
    · exact ⟨_, ⟨by decide, rfl, by decide, Or.inl ⟨rfl, _, rfl, rfl⟩⟩, rfl, rfl, by decide⟩
    · exact ⟨_, ⟨by decide, rfl, by decide, Or.inl ⟨rfl, _, rfl, rfl⟩⟩, rfl, rfl, by decide⟩

def noExtent : FileExtent := ⟨.fileExtent, 0, 0, 0, 0, 0⟩

theorem file_decodes {second : BtreeEntry}
    (reads : ∀ entry ∈ (fileTree second).items, isFileExtent 2 entry → (FileExtent.read entry).isOk) :
    ∀ entry ∈ (fileTree second).items, isFileExtent 2 entry →
      FileExtent.read entry = .ok (decoded FileExtent.read noExtent entry) :=
  fun entry member extent => decoded_ok (reads entry member extent)

end Sample

end Fsapfs.FileSystemBtree
