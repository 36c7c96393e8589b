import Fsapfs.Btree.PathLookup

namespace Fsapfs.FileSystemBtree
open Program

section entries

variable {α : Type} (unicode : Unicode α) (name : DirectoryName α)

def recordOrder (useCaseFolding : Bool) (entry : BtreeEntry) : Result Ordering := do
  let key ← DirectoryRecord.readKeyData entry.keyData
  DirectoryRecord.compareName unicode key name.string name.nameHash useCaseFolding

def isRecordOf (entry : BtreeEntry) : Bool := hasKey name.parentIdentifier 9 entry

def comesBefore (entry : BtreeEntry) : Bool :=
  match recordOrder unicode name false entry with
  | .ok .lt => true
  | _ => false

/-- A key that is not after the name, names compared case-sensitively. -/
def goesOn (entry : BtreeEntry) : Bool :=
  atMost name.parentIdentifier 9 entry && !(isRecordOf name entry && comesBefore unicode name entry)

def answers (useCaseFolding : Bool) (entry : BtreeEntry) : Bool :=
  isRecordOf name entry &&
    match recordOrder unicode name useCaseFolding entry with
    | .ok .eq => true
    | _ => false

/-- A record whose name is equal to the one that is looked for, whatever the hashes are. -/
def Matches (useCaseFolding : Bool) (entry : BtreeEntry) : Prop :=
  isRecordOf name entry ∧ ∃ key, DirectoryRecord.readKeyData entry.keyData = .ok key ∧
    compareName unicode useCaseFolding key.1 name.string = .ok .eq

/-- A key that comes after the name: it is beyond the records of the directory, or that of a record that the
case-sensitive comparison, hashes first unless one is zero, puts after the name. -/
def ComesAfter (entry : BtreeEntry) : Prop :=
  atMost name.parentIdentifier 9 entry = false ∨
    (isRecordOf name entry ∧ recordOrder unicode name false entry = .ok .lt)

instance : DecidablePred (ComesAfter unicode name) := fun _ => inferInstanceAs (Decidable (_ ∨ _))

/-- A record whose name is equal to the one that is looked for is found, and nothing where there is none. -/
def FindsName (decode : BtreeEntry → DirectoryRecord) (useCaseFolding : Bool) (entries : List BtreeEntry)
    (found : Result (Option DirectoryRecord)) : Prop :=
  ((∃ entry ∈ entries, Matches unicode name useCaseFolding entry) →
    ∃ entry ∈ entries, Matches unicode name useCaseFolding entry ∧ found = .ok (some (decode entry))) ∧
  ((∀ entry ∈ entries, ¬Matches unicode name useCaseFolding entry) → found = .ok none)

/-- The names of the records and the one that is looked for are strings of characters, and the records of the
directory can be read. -/
structure Named (decode : BtreeEntry → DirectoryRecord) (entries : List BtreeEntry) : Prop where
  spelled : ∃ characters, Spells unicode.encoding (unicode.encoding.trim name.string) characters
  fits : name.string.length ≤ ssizeMax
  names : ∀ entry ∈ entries, isRecordOf name entry → ∀ key, DirectoryRecord.readKeyData entry.keyData = .ok key →
    ∃ characters, Spells unicode.utf8 (unicode.utf8.trim key.1) characters
  decodes : ∀ entry ∈ entries, isRecordOf name entry → DirectoryRecord.read entry = .ok (decode entry)

end entries

variable {α : Type} {unicode : Unicode α} {name : DirectoryName α} {useCaseFolding : Bool}
  {decode : BtreeEntry → DirectoryRecord} {entries : List BtreeEntry}

theorem recordOrder_congr {entry entry' : BtreeEntry} (key : sameKey entry entry') :
    recordOrder unicode name useCaseFolding entry = recordOrder unicode name useCaseFolding entry' := by
  unfold recordOrder
  rw [show entry.keyData = entry'.keyData from key]

theorem goesOn_congr (entry entry' : BtreeEntry) (key : sameKey entry entry') :
    goesOn unicode name entry = goesOn unicode name entry' := by
  unfold goesOn isRecordOf comesBefore hasKey entryIdentifier entryDataType
  rw [atMost_congr key, entryKey_congr key, recordOrder_congr key]

section compare

variable {fuel : Nat}

def compareSpelled (unicode : Unicode α) (useCaseFolding : Bool) : List Nat → List Nat → Ordering
  | [], [] => .eq
  | [], _ :: _ => .gt
  | _ :: _, [] => .lt
  | nameCharacter :: nameCharacters, character :: characters =>
      match compareCharacters unicode useCaseFolding nameCharacter character with
      | .eq => compareSpelled unicode useCaseFolding nameCharacters characters
      | order => order

theorem compareNameFrom_spells {nameString : List UInt8} {text : List α}
    {nameCharacters characters : List Nat} (nameSpells : Spells unicode.utf8 nameString nameCharacters)
    (spells : Spells unicode.encoding text characters) (enough : nameString.length ≤ fuel) :
    compareNameFrom unicode useCaseFolding fuel nameString text =
      .ok (compareSpelled unicode useCaseFolding nameCharacters characters) := by
  induction nameSpells generalizing fuel text characters with
  | nil => cases spells <;> cases fuel <;> rfl
  | cons nameRead _ ih =>
      obtain ⟨fuel, rfl⟩ := Nat.exists_eq_succ_of_ne_zero (show fuel ≠ 0 by simp at enough; omega)
      cases spells with
      | nil => rfl
      | cons read spells =>
          have shorter := unicode.utf8.next_shorter nameRead
          rw [compareNameFrom, nameRead, ok_bind, compareSpelled]
          simp only [read, ok_bind]
          cases compareCharacters unicode useCaseFolding _ _ with
          | lt => rfl
          | gt => rfl
          | eq => exact ih spells (by omega)

theorem compareName_spells {nameString : List UInt8} {string : List α} {nameCharacters characters : List Nat}
    (nameSpells : Spells unicode.utf8 (unicode.utf8.trim nameString) nameCharacters)
    (spells : Spells unicode.encoding (unicode.encoding.trim string) characters) (fits : string.length ≤ ssizeMax) :
    compareName unicode useCaseFolding nameString string =
      .ok (compareSpelled unicode useCaseFolding nameCharacters characters) := by
  unfold compareName
  rw [if_neg (Nat.not_lt.mpr fits)]
  exact compareNameFrom_spells nameSpells spells (unicode.utf8.trim_length nameString)

end compare

namespace Named

theorem sublist {part : List BtreeEntry} (named : Named unicode name decode entries) (sublist : part.Sublist entries) :
    Named unicode name decode part where
  spelled := named.spelled
  fits := named.fits
  names entry member := named.names entry (sublist.subset member)
  decodes entry member := named.decodes entry (sublist.subset member)

variable {entry : BtreeEntry}

theorem key (named : Named unicode name decode entries) (member : entry ∈ entries) (record : isRecordOf name entry) :
    ∃ key, DirectoryRecord.readKeyData entry.keyData = .ok key ∧
      DirectoryRecord.readValueData key entry.valueData = .ok (decode entry) :=
  bind_eq_ok.mp (named.decodes entry member record)

theorem compares (named : Named unicode name decode entries) (member : entry ∈ entries)
    (record : isRecordOf name entry) (useCaseFolding : Bool) {key : List UInt8 × Nat}
    (reads : DirectoryRecord.readKeyData entry.keyData = .ok key) :
    ∃ order, compareName unicode useCaseFolding key.1 name.string = .ok order := by
  obtain ⟨nameCharacters, nameSpells⟩ := named.names entry member record key reads
  obtain ⟨characters, spells⟩ := named.spelled
  exact ⟨_, compareName_spells nameSpells spells named.fits⟩

theorem order (named : Named unicode name decode entries) (member : entry ∈ entries)
    (record : isRecordOf name entry) (useCaseFolding : Bool) :
    ∃ order, recordOrder unicode name useCaseFolding entry = .ok order := by
  obtain ⟨key, reads, _⟩ := named.key member record
  obtain ⟨order, compares⟩ := named.compares member record useCaseFolding reads
  unfold recordOrder DirectoryRecord.compareName
  rw [reads, ok_bind, compares]
  split_ifs
  · exact ⟨_, rfl⟩
  · exact ⟨_, rfl⟩
  · exact ⟨_, rfl⟩

end Named

theorem isRecordOf_iff {entry : BtreeEntry} : isRecordOf name entry ↔
    entryIdentifier entry = name.parentIdentifier ∧ entryDataType entry = 9 := hasKey_iff

theorem findDirectoryRecord_ok (small : name.parentIdentifier < 2 ^ 60)
    (sized : ∀ entry ∈ entries, 8 ≤ entry.keyData.length) (named : Named unicode name decode entries) :
    findDirectoryRecord unicode name useCaseFolding entries =
      .ok ((entries.find? (answers unicode name useCaseFolding)).map decode) := by
  induction entries with
  | nil => rfl
  | cons entry entries ih =>
      obtain ⟨first, sized⟩ := List.forall_mem_cons.mp sized
      have rest := ih sized (named.sublist (List.sublist_cons_self entry entries))
      rw [findDirectoryRecord, readFileSystemIdentifier_ok first, ok_bind]
      by_cases record : isRecordOf name entry
      · obtain ⟨key, reads, value⟩ := named.key (by simp) record
        obtain ⟨order, orders⟩ := named.order (by simp) record useCaseFolding
        have compares : DirectoryRecord.compareName unicode key name.string name.nameHash useCaseFolding = .ok order := by
          simpa [recordOrder, reads] using orders
        rw [if_pos ((eq_lookupIdentifier small).mpr (isRecordOf_iff.mp record)), reads, ok_bind, compares, ok_bind]
        by_cases equal : order = .eq
        · subst equal
          have answer : answers unicode name useCaseFolding entry := by simp [answers, record, orders]
          rw [if_pos rfl, value, List.find?_cons_of_pos answer]
          rfl
        · have other : ¬answers unicode name useCaseFolding entry := by
            cases order <;> simp_all [answers]
          rw [if_neg equal, List.find?_cons_of_neg other, rest]
      · have other : ¬answers unicode name useCaseFolding entry := by simp [answers, record]
        have differs : entryKey entry ≠ lookupIdentifier 9 name.parentIdentifier := fun same =>
          record (isRecordOf_iff.mpr ((eq_lookupIdentifier small).mp same))
        rw [if_neg differs, List.find?_cons_of_neg other, rest]

theorem findDirectoryBranchEntry_ok (sized : ∀ entry ∈ entries, 8 ≤ entry.keyData.length)
    (compares : ∀ entry ∈ entries, isRecordOf name entry → ∃ order, recordOrder unicode name false entry = .ok order)
    (previousEntry : Option BtreeEntry) :
    findDirectoryBranchEntry unicode name previousEntry entries =
      .ok ((lastWhile (goesOn unicode name) entries).or previousEntry) := by
  induction entries generalizing previousEntry with
  | nil => simp [findDirectoryBranchEntry, lastWhile]
  | cons entry entries ih =>
      obtain ⟨first, sized⟩ := List.forall_mem_cons.mp sized
      obtain ⟨ordered, compares⟩ := List.forall_mem_cons.mp compares
      have goOn : goesOn unicode name entry = true →
          (lastWhile (goesOn unicode name) (entry :: entries)).or previousEntry =
            (lastWhile (goesOn unicode name) entries).or (some entry) := by
        intro passes
        rw [lastWhile, if_pos passes]
        cases lastWhile (goesOn unicode name) entries <;> simp
      have stop : goesOn unicode name entry = false →
          (lastWhile (goesOn unicode name) (entry :: entries)).or previousEntry = previousEntry := by
        intro fails
        rw [lastWhile, if_neg (by simp [fails])]
        rfl
      have within : atMost name.parentIdentifier 9 entry ↔
          ¬(entryIdentifier entry > name.parentIdentifier ∨
            (entryIdentifier entry = name.parentIdentifier ∧ entryDataType entry > 9)) := by
        simp only [atMost, Bool.or_eq_true, Bool.and_eq_true, decide_eq_true_eq, beq_iff_eq]
        omega
      rw [findDirectoryBranchEntry, readFileSystemIdentifier_ok first, ok_bind]
      change (if entryIdentifier entry > name.parentIdentifier ∨
          (entryIdentifier entry = name.parentIdentifier ∧ entryDataType entry > 9) then _
        else if entryIdentifier entry = name.parentIdentifier ∧ entryDataType entry = 9 then _ else _) = _
      by_cases after : entryIdentifier entry > name.parentIdentifier ∨
          (entryIdentifier entry = name.parentIdentifier ∧ entryDataType entry > 9)
      · have fails : goesOn unicode name entry = false := by
          have outside : atMost name.parentIdentifier 9 entry = false := by
            rw [← Bool.not_eq_true, within]
            exact not_not.mpr after
          simp [goesOn, outside]
        rw [if_pos after, stop fails]
        rfl
      · have inside := within.mpr after
        rw [if_neg after]
        by_cases record : isRecordOf name entry
        · obtain ⟨order, orders⟩ := ordered record
          obtain ⟨key, reads, compared⟩ := bind_eq_ok.mp orders
          rw [if_pos (isRecordOf_iff.mp record), reads, ok_bind, compared, ok_bind]
          by_cases less : order = .lt
          · have fails : goesOn unicode name entry = false := by
              simp [goesOn, inside, record, comesBefore, orders, less]
            rw [if_pos less, stop fails]
            rfl
          · have passes : goesOn unicode name entry = true := by
              cases order <;> simp_all [goesOn, comesBefore]
            rw [if_neg less, ih sized compares, goOn passes]
        · have passes : goesOn unicode name entry = true := by simp [goesOn, inside, record]
          rw [if_neg fun same => record (isRecordOf_iff.mpr same), ih sized compares, goOn passes]

theorem isRecordOf_congr {entry entry' : BtreeEntry} (key : sameKey entry entry') :
    isRecordOf name entry = isRecordOf name entry' := by
  unfold isRecordOf hasKey entryIdentifier entryDataType
  rw [entryKey_congr key]

theorem Named.heads {height : Nat} {branch : List (BtreeEntry × SearchTree BtreeEntry height)}
    (named : Named unicode name decode (branch.flatMap fun sub => sub.2.items))
    (heads : SearchTree.Heads sameKey branch) :
    ∀ entry ∈ branch.map Prod.fst, isRecordOf name entry → ∃ order, recordOrder unicode name false entry = .ok order := by
  intro entry member record
  obtain ⟨sub, inside, rfl⟩ := List.mem_map.mp member
  obtain ⟨item, member', key⟩ := SearchTree.heads_mem heads inside
  rw [isRecordOf_congr key] at record
  rw [recordOrder_congr key]
  exact named.order member' record false

section search

variable {nodes : Nat → Result BtreeNode} {btree : FileSystemBtree} {transactionIdentifier : Nat}
  {encoding : BranchChildOidEncoding}

def Finds (unicode : Unicode α) (name : DirectoryName α) (decode : BtreeEntry → DirectoryRecord)
    (btree : FileSystemBtree) (encoding : BranchChildOidEncoding) (leaf : List BtreeEntry) (s : FileSystemBtree)
    (call : TreeCall (Option DirectoryRecord)) : Prop :=
  call.Ends s
    (fun found s' => HandleOf btree encoding s' ∧
      found = (leaf.find? (answers unicode name btree.useCaseFolding)).map decode)
    fun _ => False

theorem getDirectoryRecordFromLeafNode_finds (small : name.parentIdentifier < 2 ^ 60) {node : BtreeNode}
    (leaf : node.isLeafNode) (sized : ∀ entry ∈ node.entries, 8 ≤ entry.keyData.length)
    (named : Named unicode name decode node.entries) {s : FileSystemBtree} (held : HandleOf btree encoding s) :
    Finds unicode name decode btree encoding node.entries s (getDirectoryRecordFromLeafNode unicode name node) := by
  unfold Finds getDirectoryRecordFromLeafNode
  rw [if_pos leaf, Call.ends_self_bind, findDirectoryRecord_ok small sized named, held.useCaseFolding]
  exact ⟨held, rfl⟩

theorem getDirectoryRecordFromBranchNode_finds {height : Nat}
    {branch : List (BtreeEntry × SearchTree BtreeEntry height)} {node : BtreeNode}
    (stored : (layout nodes btree transactionIdentifier encoding).Stored (SearchTree.branch branch) node)
    (heads : SearchTree.Heads sameKey branch)
    (named : Named unicode name decode (branch.flatMap fun sub => sub.2.items))
    {sub : BtreeEntry × SearchTree BtreeEntry height}
    (last : lastWhile (fun sub => goesOn unicode name sub.1) branch = some sub)
    {next : Nat → TreeCall (Option DirectoryRecord)} {s : FileSystemBtree} (held : HandleOf btree encoding s)
    {post : Option DirectoryRecord → FileSystemBtree → Prop} {failed : FileSystemBtree → Prop}
    (continues : ∀ blockNumber subNode, getSubNode nodes blockNumber = .ok subNode →
      (layout nodes btree transactionIdentifier encoding).Stored sub.2 subNode →
      ∀ s, HandleOf btree encoding s → (next blockNumber).Ends s post failed) :
    (getDirectoryRecordFromBranchNode unicode name nodes transactionIdentifier next node).Ends s post failed := by
  obtain ⟨⟨isBranch, same, sized⟩, leads⟩ := stored
  obtain ⟨member, _⟩ := lastWhile_mem last
  obtain ⟨subNode, refers, stored⟩ := leads sub member
  obtain ⟨blockNumber, s', child, held', resolved⟩ := requireSubNodeBlockNumber_ok refers held
  have found : findDirectoryBranchEntry unicode name none (branch.map Prod.fst) = .ok (some sub.1) := by
    rw [findDirectoryBranchEntry_ok sized (named.heads heads), lastWhile_map, last]
    rfl
  unfold getDirectoryRecordFromBranchNode
  rw [if_neg (by simp [isBranch]), same, found, Call.ends_lift_ok_bind]
  unfold Call.Ends
  rw [Call.bind_of_ok resolved]
  exact continues blockNumber subNode child stored s' held'

theorem getDirectoryRecordFromSubNode_finds (small : name.parentIdentifier < 2 ^ 60) {height depth : Nat}
    (within : height ≤ depth) {tree : SearchTree BtreeEntry height} {node : BtreeNode} {blockNumber : Nat}
    (child : getSubNode nodes blockNumber = .ok node)
    (stored : (layout nodes btree transactionIdentifier encoding).Stored tree node)
    (headed : tree.Headed sameKey) (named : Named unicode name decode tree.items)
    (starts : ∀ entry ∈ tree.items.head?, goesOn unicode name entry) {s : FileSystemBtree}
    (held : HandleOf btree encoding s) :
    Finds unicode name decode btree encoding (tree.reached (goesOn unicode name)) s
      (getDirectoryRecordFromSubNode unicode name nodes transactionIdentifier depth blockNumber) := by
  induction height generalizing depth node blockNumber s with
  | zero =>
      obtain ⟨leaf, rfl, sized⟩ := stored
      have finds := getDirectoryRecordFromLeafNode_finds small leaf sized named held
      unfold Finds getDirectoryRecordFromSubNode
      cases depth with
      | zero =>
          unfold descend
          rw [child, Call.ends_lift_ok_bind, if_pos leaf]
          exact finds
      | succ depth =>
          unfold descend getDirectoryRecordFromNode
          rw [child, Call.ends_lift_ok_bind, if_pos leaf]
          exact finds
  | succ height ih =>
      obtain ⟨depth, rfl⟩ := Nat.exists_eq_succ_of_ne_zero (show depth ≠ 0 by omega)
      obtain ⟨filled, heads, headed⟩ := headed
      obtain ⟨sub, last⟩ := SearchTree.lastWhile_isSome goesOn_congr filled heads starts
      obtain ⟨member, passes⟩ := lastWhile_mem last
      unfold Finds getDirectoryRecordFromSubNode descend getDirectoryRecordFromNode
      rw [child, Call.ends_lift_ok_bind, if_neg (by simp [stored.1.1]), SearchTree.reached_branch last]
      refine getDirectoryRecordFromBranchNode_finds stored heads named last held ?_
      intro blockNumber' subNode child' stored' s' held'
      exact ih (by omega) child' stored' (headed sub member) (named.sublist (SearchTree.items_sublist member))
        (SearchTree.starts_of_passes goesOn_congr heads member passes) held'

theorem getDirectoryRecordFromRootNode_finds (small : name.parentIdentifier < 2 ^ 60) {height : Nat}
    (limited : height ≤ maximumBtreeNodeRecursionDepth + 1) {tree : SearchTree BtreeEntry height} {root : BtreeNode}
    (stored : (layout nodes btree transactionIdentifier encoding).Stored tree root)
    (headed : tree.Headed sameKey) (named : Named unicode name decode tree.items)
    (starts : ∀ entry ∈ tree.items.head?, goesOn unicode name entry) {s : FileSystemBtree}
    (held : HandleOf btree encoding s) :
    Finds unicode name decode btree encoding (tree.reached (goesOn unicode name)) s
      (getDirectoryRecordFromRootNode unicode name nodes transactionIdentifier root) := by
  unfold getDirectoryRecordFromRootNode getDirectoryRecordFromNode
  cases height with
  | zero =>
      obtain ⟨leaf, rfl, sized⟩ := stored
      rw [if_pos leaf]
      exact getDirectoryRecordFromLeafNode_finds small leaf sized named held
  | succ height =>
      obtain ⟨filled, heads, headed⟩ := headed
      obtain ⟨sub, last⟩ := SearchTree.lastWhile_isSome goesOn_congr filled heads starts
      obtain ⟨member, passes⟩ := lastWhile_mem last
      unfold Finds
      rw [if_neg (by simp [stored.1.1]), show tree.reached (goesOn unicode name) = sub.2.reached (goesOn unicode name)
        from SearchTree.reached_branch last]
      refine getDirectoryRecordFromBranchNode_finds stored heads named last held ?_
      intro blockNumber subNode child stored' s' held'
      exact getDirectoryRecordFromSubNode_finds small (by omega) child stored' (headed sub member)
        (named.sublist (SearchTree.items_sublist member))
        (SearchTree.starts_of_passes goesOn_congr heads member passes) held'

theorem getDirectoryRecordFromSubNode_refused {height depth : Nat} (beyond : depth < height)
    {tree : SearchTree BtreeEntry height} {node : BtreeNode} {blockNumber : Nat}
    (child : getSubNode nodes blockNumber = .ok node)
    (stored : (layout nodes btree transactionIdentifier encoding).Stored tree node)
    (headed : tree.Headed sameKey) (named : Named unicode name decode tree.items)
    (starts : ∀ entry ∈ tree.items.head?, goesOn unicode name entry) {s : FileSystemBtree}
    (held : HandleOf btree encoding s) :
    (getDirectoryRecordFromSubNode unicode name nodes transactionIdentifier depth blockNumber).Ends s
      (fun _ _ => False) fun _ => True := by
  induction depth generalizing height node blockNumber s with
  | zero =>
      obtain ⟨height, rfl⟩ := Nat.exists_eq_succ_of_ne_zero (Nat.ne_of_gt beyond)
      unfold getDirectoryRecordFromSubNode descend
      rw [child, Call.ends_lift_ok_bind, if_neg (by simp [stored.1.1])]
      trivial
  | succ depth ih =>
      obtain ⟨height, rfl⟩ := Nat.exists_eq_succ_of_ne_zero (show height ≠ 0 by omega)
      obtain ⟨filled, heads, headed⟩ := headed
      obtain ⟨sub, last⟩ := SearchTree.lastWhile_isSome goesOn_congr filled heads starts
      obtain ⟨member, passes⟩ := lastWhile_mem last
      unfold getDirectoryRecordFromSubNode descend getDirectoryRecordFromNode
      rw [child, Call.ends_lift_ok_bind, if_neg (by simp [stored.1.1])]
      refine getDirectoryRecordFromBranchNode_finds stored heads named last held ?_
      intro blockNumber' subNode child' stored' s' held'
      exact ih (by omega) child' stored' (headed sub member)
        (named.sublist (SearchTree.items_sublist member))
        (SearchTree.starts_of_passes goesOn_congr heads member passes) held'

theorem getDirectoryRecordFromRootNode_refused {height : Nat} (beyond : maximumBtreeNodeRecursionDepth + 1 < height)
    {tree : SearchTree BtreeEntry height} {root : BtreeNode}
    (stored : (layout nodes btree transactionIdentifier encoding).Stored tree root)
    (headed : tree.Headed sameKey) (named : Named unicode name decode tree.items)
    (starts : ∀ entry ∈ tree.items.head?, goesOn unicode name entry) {s : FileSystemBtree}
    (held : HandleOf btree encoding s) :
    (getDirectoryRecordFromRootNode unicode name nodes transactionIdentifier root).Ends s
      (fun _ _ => False) fun _ => True := by
  obtain ⟨height, rfl⟩ := Nat.exists_eq_succ_of_ne_zero (show height ≠ 0 by omega)
  obtain ⟨filled, heads, headed⟩ := headed
  obtain ⟨sub, last⟩ := SearchTree.lastWhile_isSome goesOn_congr filled heads starts
  obtain ⟨member, passes⟩ := lastWhile_mem last
  unfold getDirectoryRecordFromRootNode getDirectoryRecordFromNode
  rw [if_neg (by simp [stored.1.1])]
  refine getDirectoryRecordFromBranchNode_finds stored heads named last held ?_
  intro blockNumber subNode child stored' s' held'
  exact getDirectoryRecordFromSubNode_refused (by omega) child stored' (headed sub member)
    (named.sublist (SearchTree.items_sublist member))
    (SearchTree.starts_of_passes goesOn_congr heads member passes) held'

end search

section order

/-- The order in which the records of a directory are stored: their hashes, then the characters of their names. -/
def spelledOrder (unicode : Unicode α) (useCaseFolding : Bool) (left right : Nat × List Nat) : Ordering :=
  (compare left.1 right.1).then (compareSpelled unicode useCaseFolding right.2 left.2)

theorem compareDecompositions_eq (characters nameCharacters : List Nat) :
    compareDecompositions characters nameCharacters =
      List.compareLex (fun a b => compare b a) nameCharacters characters := by
  induction characters generalizing nameCharacters with
  | nil => cases nameCharacters <;> rfl
  | cons character characters ih =>
      cases nameCharacters with
      | nil => rfl
      | cons nameCharacter nameCharacters =>
          rw [compareDecompositions, List.compareLex_cons_cons, ih]
          split_ifs with less more
          · rw [Nat.compare_eq_lt.mpr less]
            rfl
          · rw [Nat.compare_eq_gt.mpr more]
            rfl
          · rw [Nat.compare_eq_eq.mpr (by omega)]
            rfl

def decomposed (unicode : Unicode α) (useCaseFolding : Bool) (characters : List Nat) : List (List Nat) :=
  characters.map fun character => unicode.mappings.decomposition (unicode.mappings.foldCase useCaseFolding character)

theorem compareSpelled_eq (nameCharacters characters : List Nat) :
    compareSpelled unicode useCaseFolding nameCharacters characters =
      List.compareLex (fun left right => List.compareLex (fun a b => compare b a) right left)
        (decomposed unicode useCaseFolding characters) (decomposed unicode useCaseFolding nameCharacters) := by
  induction nameCharacters generalizing characters with
  | nil => cases characters <;> rfl
  | cons nameCharacter nameCharacters ih =>
      cases characters with
      | nil => rfl
      | cons character characters =>
          unfold decomposed at ih ⊢
          rw [List.map_cons, List.map_cons, List.compareLex_cons_cons, ← ih, compareSpelled, compareCharacters,
            compareDecompositions_eq]
          cases List.compareLex (fun a b : Nat => compare b a) _ _ <;> rfl

theorem compareSpelled_names (nameCharacters characters : List Nat) :
    compareSpelled unicode.names useCaseFolding nameCharacters characters =
      compareSpelled unicode useCaseFolding nameCharacters characters := by
  rw [compareSpelled_eq, compareSpelled_eq]
  rfl

instance : Std.TransCmp fun left right => compareSpelled unicode useCaseFolding right left where
  eq_swap := by
    intro left right
    rw [compareSpelled_eq, compareSpelled_eq]
    exact Std.OrientedCmp.eq_swap
  isLE_trans := by
    intro left middle right
    rw [compareSpelled_eq, compareSpelled_eq, compareSpelled_eq]
    exact Std.TransCmp.isLE_trans

theorem transCmp_on {β γ : Type} {order : γ → γ → Ordering} (transitive : Std.TransCmp order) (value : β → γ) :
    Std.TransCmp fun left right => order (value left) (value right) where
  eq_swap := transitive.eq_swap
  isLE_trans := transitive.isLE_trans

theorem spelledOrder_trans (unicode : Unicode α) (useCaseFolding : Bool) :
    Std.TransCmp (spelledOrder unicode useCaseFolding) := by
  have names : Std.TransCmp fun left right => compareSpelled unicode useCaseFolding right left := inferInstance
  have second := transCmp_on names (Prod.snd : Nat × List Nat → List Nat)
  exact inferInstanceAs (Std.TransCmp (compareLex (compareOn Prod.fst) fun left right : Nat × List Nat =>
    compareSpelled unicode useCaseFolding right.2 left.2))

end order

section ordered

variable {rest : List UInt8 → List UInt8 → Prop}

/-- The records of the directory are stored in the order of their hashes and names, and no hash is zero. -/
structure Ordered (unicode : Unicode α) (name : DirectoryName α) (rest : List UInt8 → List UInt8 → Prop)
    (entries : List BtreeEntry) : Prop where
  increasing : entries.Pairwise (keyBefore rest)
  hash : name.nameHash ≠ 0
  hashes : ∀ entry ∈ entries, isRecordOf name entry → ∀ key, DirectoryRecord.readKeyData entry.keyData = .ok key →
    key.2 ≠ 0
  names : ∀ entry ∈ entries, ∀ entry' ∈ entries, isRecordOf name entry → isRecordOf name entry' →
    rest entry.keyData entry'.keyData → ∀ key key', DirectoryRecord.readKeyData entry.keyData = .ok key →
    DirectoryRecord.readKeyData entry'.keyData = .ok key' →
    key.2 < key'.2 ∨ (key.2 = key'.2 ∧ compareName unicode.names false key'.1 key.1 = .ok .lt)

def Keyed (unicode : Unicode α) (entry : BtreeEntry) (key : Nat × List Nat) : Prop :=
  ∃ stored, DirectoryRecord.readKeyData entry.keyData = .ok stored ∧ stored.2 = key.1 ∧
    Spells unicode.utf8 (unicode.utf8.trim stored.1) key.2

theorem Named.keyed (named : Named unicode name decode entries) {entry : BtreeEntry} (member : entry ∈ entries)
    (record : isRecordOf name entry) : ∃ key, Keyed unicode entry key := by
  obtain ⟨stored, reads, _⟩ := named.key member record
  obtain ⟨characters, spells⟩ := named.names entry member record stored reads
  exact ⟨(stored.2, characters), stored, reads, rfl, spells⟩

theorem recordOrder_keyed {characters : List Nat} {entry : BtreeEntry} {key : Nat × List Nat}
    (spells : Spells unicode.encoding (unicode.encoding.trim name.string) characters)
    (fits : name.string.length ≤ ssizeMax) (keyed : Keyed unicode entry key) (hash : name.nameHash ≠ 0)
    (stored : key.1 ≠ 0) :
    recordOrder unicode name useCaseFolding entry =
      .ok (spelledOrder unicode useCaseFolding (name.nameHash, characters) key) := by
  obtain ⟨record, reads, same, nameSpells⟩ := keyed
  unfold recordOrder DirectoryRecord.compareName spelledOrder
  rw [reads, ok_bind, compareName_spells nameSpells spells fits, same]
  split_ifs with less more
  · rw [Nat.compare_eq_lt.mpr less.2.2]
    rfl
  · rw [Nat.compare_eq_gt.mpr more.2.2]
    rfl
  · have same : name.nameHash = key.1 := by omega
    rw [Nat.compare_eq_eq.mpr same]
    rfl

theorem Ordered.before (ordered : Ordered unicode name rest entries) {entry entry' : BtreeEntry}
    (member : entry ∈ entries) (member' : entry' ∈ entries) (record : isRecordOf name entry)
    (record' : isRecordOf name entry') (order : rest entry.keyData entry'.keyData) {key key' : Nat × List Nat}
    (keyed : Keyed unicode entry key) (keyed' : Keyed unicode entry' key') :
    spelledOrder unicode false key key' = .lt := by
  obtain ⟨stored, reads, hash, spells⟩ := keyed
  obtain ⟨stored', reads', hash', spells'⟩ := keyed'
  unfold spelledOrder
  rcases ordered.names entry member entry' member' record record' order stored stored' reads reads' with
    less | ⟨same, compares⟩
  · rw [hash, hash'] at less
    rw [Nat.compare_eq_lt.mpr less]
    rfl
  · rw [hash, hash'] at same
    rw [Nat.compare_eq_eq.mpr same]
    have fits : stored.1.length ≤ ssizeMax := by
      by_contra exceeds
      unfold compareName at compares
      rw [if_pos (Nat.lt_of_not_le exceeds)] at compares
      cases compares
    have spelled : compareName unicode.names false stored'.1 stored.1 =
        .ok (compareSpelled unicode.names false key'.2 key.2) := compareName_spells spells' spells fits
    rw [compareSpelled_names] at spelled
    exact Except.ok.inj (spelled.symm.trans compares)

theorem Ordered.keyed (ordered : Ordered unicode name rest entries) {entry : BtreeEntry} (member : entry ∈ entries)
    (record : isRecordOf name entry) {key : Nat × List Nat} (keyed : Keyed unicode entry key) : key.1 ≠ 0 := by
  obtain ⟨stored, reads, same, _⟩ := keyed
  rw [← same]
  exact ordered.hashes entry member record stored reads

theorem record_of_after {entry entry' : BtreeEntry} (before : keyBefore rest entry entry')
    (record : isRecordOf name entry) (within : atMost name.parentIdentifier 9 entry') :
    isRecordOf name entry' ∧ rest entry.keyData entry'.keyData := by
  rw [isRecordOf_iff] at record ⊢
  simp only [atMost, Bool.or_eq_true, Bool.and_eq_true, decide_eq_true_eq, beq_iff_eq] at within
  unfold keyBefore at before
  rcases before with less | ⟨same, less | ⟨same', order⟩⟩
  · omega
  · omega
  · exact ⟨by omega, order⟩

theorem goesOn_iff {entry : BtreeEntry} : goesOn unicode name entry ↔
    atMost name.parentIdentifier 9 entry ∧ (isRecordOf name entry → comesBefore unicode name entry = false) := by
  unfold goesOn
  cases atMost name.parentIdentifier 9 entry <;> cases isRecordOf name entry <;> simp

theorem goesOn_falling (named : Named unicode name decode entries) (ordered : Ordered unicode name rest entries) :
    Falling (goesOn unicode name) entries := by
  obtain ⟨characters, spells⟩ := named.spelled
  have transitive := spelledOrder_trans unicode false
  refine ordered.increasing.imp_of_mem fun {entry entry'} member member' before passes' => ?_
  obtain ⟨within', stays'⟩ := goesOn_iff.mp passes'
  refine goesOn_iff.mpr ⟨atMost_of_before before within', fun record => ?_⟩
  obtain ⟨record', order⟩ := record_of_after before record within'
  obtain ⟨key, keyed⟩ := named.keyed member record
  obtain ⟨key', keyed'⟩ := named.keyed member' record'
  have stored := ordered.keyed member record keyed
  have stored' := ordered.keyed member' record' keyed'
  have less := ordered.before member member' record record' order keyed keyed'
  have notLess : spelledOrder unicode false (name.nameHash, characters) key' ≠ .lt := by
    intro before'
    have comes := stays' record'
    unfold comesBefore at comes
    rw [recordOrder_keyed spells named.fits keyed' ordered.hash stored', before'] at comes
    cases comes
  unfold comesBefore
  rw [recordOrder_keyed spells named.fits keyed ordered.hash stored]
  cases compared : spelledOrder unicode false (name.nameHash, characters) key with
  | lt => exact (notLess (Std.TransCmp.lt_trans compared less)).elim
  | eq => rfl
  | gt => rfl

theorem answers_reached {height : Nat} {tree : SearchTree BtreeEntry height} (headed : tree.Headed sameKey)
    (named : Named unicode name decode tree.items) (ordered : Ordered unicode name rest tree.items)
    (starts : ∀ entry ∈ tree.items.head?, goesOn unicode name entry) {entry : BtreeEntry}
    (member : entry ∈ tree.items) (answer : answers unicode name false entry) :
    entry ∈ tree.reached (goesOn unicode name) := by
  obtain ⟨characters, spells⟩ := named.spelled
  have transitive := spelledOrder_trans unicode false
  obtain ⟨record, equal⟩ : isRecordOf name entry ∧ _ := Bool.and_eq_true _ _ ▸ answer
  obtain ⟨key, keyed⟩ := named.keyed member record
  have stored := ordered.keyed member record keyed
  rw [recordOrder_keyed spells named.fits keyed ordered.hash stored] at equal
  have same : spelledOrder unicode false (name.nameHash, characters) key = .eq := by
    cases compared : spelledOrder unicode false (name.nameHash, characters) key <;> simp_all
  have falling := goesOn_falling named ordered
  have passes : goesOn unicode name entry := by
    refine goesOn_iff.mpr ⟨hasKey_atMost record, fun _ => ?_⟩
    unfold comesBefore
    rw [recordOrder_keyed spells named.fits keyed ordered.hash stored, same]
  have last : lastWhile (goesOn unicode name) tree.items = some entry := by
    obtain ⟨left, right, split⟩ := List.append_of_mem member
    have increasing := ordered.increasing
    rw [split] at falling increasing ⊢
    refine lastWhile_of_split (fun entry' inside => ?_) passes fun entry' inside => ?_
    · exact (List.pairwise_append.mp falling).2.2 entry' inside entry (by simp) passes
    · have before := (List.pairwise_cons.mp (List.pairwise_append.mp increasing).2.1).1 entry' inside
      have member' : entry' ∈ tree.items := by simp [split, inside]
      refine Bool.eq_false_iff.mpr fun passes' => ?_
      obtain ⟨within', stays'⟩ := goesOn_iff.mp passes'
      obtain ⟨record', order⟩ := record_of_after before record within'
      obtain ⟨key', keyed'⟩ := named.keyed member' record'
      have less := ordered.before member member' record record' order keyed keyed'
      have comes := stays' record'
      unfold comesBefore at comes
      rw [recordOrder_keyed spells named.fits keyed' ordered.hash (ordered.keyed member' record' keyed'),
        Std.TransCmp.lt_of_eq_of_lt same less] at comes
      cases comes
  rw [← SearchTree.lastWhile_reached goesOn_congr headed falling starts] at last
  exact (lastWhile_mem last).1

end ordered

section found

variable {rest : List UInt8 → List UInt8 → Prop} {nodes : Nat → Result BtreeNode} {btree handle : FileSystemBtree}
  {transactionIdentifier height : Nat} {encoding : BranchChildOidEncoding} {tree : SearchTree BtreeEntry height}
  {root : BtreeNode}

theorem answers_matches {entry : BtreeEntry} (answer : answers unicode name useCaseFolding entry) :
    Matches unicode name useCaseFolding entry := by
  obtain ⟨record, equal⟩ : isRecordOf name entry ∧ _ := Bool.and_eq_true _ _ ▸ answer
  refine ⟨record, ?_⟩
  cases order : recordOrder unicode name useCaseFolding entry with
  | error failure => simp [order] at equal
  | ok ordering =>
      obtain ⟨key, reads, compares⟩ := bind_eq_ok.mp order
      refine ⟨key, reads, ?_⟩
      have same : ordering = .eq := by cases ordering <;> simp_all
      unfold DirectoryRecord.compareName at compares
      rw [same] at compares
      split_ifs at compares
      · cases Except.ok.inj compares
      · cases Except.ok.inj compares
      · exact compares

theorem goesOn_starts (increasing : entries.Pairwise (keyBefore rest))
    (inode : ∃ entry ∈ entries, hasKey name.parentIdentifier 3 entry) :
    ∀ entry ∈ entries.head?, goesOn unicode name entry := by
  intro first head
  obtain ⟨entry, member, same⟩ := inode
  obtain ⟨tail, rfl⟩ := List.head?_eq_some_iff.mp head
  rw [hasKey_iff] at same
  have early : entryIdentifier first < name.parentIdentifier ∨
      (entryIdentifier first = name.parentIdentifier ∧ entryDataType first ≤ 3) := by
    rcases List.mem_cons.mp member with rfl | later
    · omega
    · have before := (List.pairwise_cons.mp increasing).1 entry later
      unfold keyBefore at before
      omega
  have other : isRecordOf name first = false := by
    rw [← Bool.not_eq_true, isRecordOf_iff]
    omega
  refine goesOn_iff.mpr ⟨?_, fun record => by simp [other] at record⟩
  simp only [atMost, Bool.or_eq_true, Bool.and_eq_true, decide_eq_true_eq, beq_iff_eq]
  omega

theorem comesAfter_iff (unicode : Unicode α) (name : DirectoryName α) (entry : BtreeEntry) :
    ComesAfter unicode name entry ↔ goesOn unicode name entry = false := by
  have before : comesBefore unicode name entry ↔ recordOrder unicode name false entry = .ok .lt := by
    unfold comesBefore
    split
    next less => simp [less]
    next other => simpa using other
  unfold ComesAfter goesOn
  rw [← before]
  cases atMost name.parentIdentifier 9 entry <;> cases isRecordOf name entry <;> simp

theorem FindsName.not_error {found : Result (Option DirectoryRecord)} {failure : Failure}
    (finds : FindsName unicode name decode useCaseFolding entries found) : found ≠ .error failure := by
  intro failed
  by_cases matching : ∃ entry ∈ entries, Matches unicode name useCaseFolding entry
  · obtain ⟨_, _, _, same⟩ := finds.1 matching
    cases failed.symm.trans same
  · have none := finds.2 fun entry member matches' => matching ⟨entry, member, matches'⟩
    cases failed.symm.trans none

theorem getDirectoryRecordByString_run {parentIdentifier nameHash : Nat} {string : List α}
    (limited : height ≤ maximumBtreeNodeRecursionDepth + 1)
    (stores : Stores nodes btree transactionIdentifier encoding rest tree)
    (rooted : getRootNode nodes btree.rootNodeBlockNumber = .ok (some root))
    (inode : ∃ entry ∈ tree.items, hasKey parentIdentifier 3 entry)
    (hashed : calculateNameHash unicode.mappings unicode.encoding btree.useCaseFolding string = .ok nameHash)
    (named : Named unicode { parentIdentifier, string, nameHash } decode tree.items)
    (held : HandleOf btree encoding handle) :
    ∃ handle', HandleOf btree encoding handle' ∧
      getDirectoryRecordByString unicode nodes transactionIdentifier root parentIdentifier string handle =
        (.ok (((tree.reached (goesOn unicode { parentIdentifier, string, nameHash })).find?
          (answers unicode { parentIdentifier, string, nameHash } btree.useCaseFolding)).map decode), handle') := by
  have small : parentIdentifier < 2 ^ 60 := by
    obtain ⟨entry, _, same⟩ := inode
    rw [← (hasKey_iff.mp same).1, entryIdentifier, keyIdentifier_eq]
    exact Nat.mod_lt _ (Nat.two_pow_pos 60)
  obtain ⟨⟨root', rooted', stored⟩, headed, increasing⟩ := stores
  obtain rfl : root' = root := by simpa [rooted] using rooted'.symm
  have finds := getDirectoryRecordFromRootNode_finds small limited stored headed named
    (goesOn_starts increasing inode) held
  obtain ⟨found, handle', run, held', same⟩ := Call.Ends.value finds
  refine ⟨handle', held', ?_⟩
  unfold getDirectoryRecordByString
  rw [Call.self_bind, held.useCaseFolding, hashed, Call.bind_of_ok (Call.lift_run _ _), run, same]

theorem getDirectoryRecordByString_refused {parentIdentifier nameHash : Nat} {string : List α}
    (beyond : maximumBtreeNodeRecursionDepth + 1 < height)
    (stores : Stores nodes btree transactionIdentifier encoding rest tree)
    (rooted : getRootNode nodes btree.rootNodeBlockNumber = .ok (some root))
    (inode : ∃ entry ∈ tree.items, hasKey parentIdentifier 3 entry)
    (hashed : calculateNameHash unicode.mappings unicode.encoding btree.useCaseFolding string = .ok nameHash)
    (named : Named unicode { parentIdentifier, string, nameHash } decode tree.items)
    (held : HandleOf btree encoding handle) :
    ∃ failure, (getDirectoryRecordByString unicode nodes transactionIdentifier root parentIdentifier string handle).1 =
      .error failure := by
  obtain ⟨⟨root', rooted', stored⟩, headed, increasing⟩ := stores
  obtain rfl : root' = root := by simpa [rooted] using rooted'.symm
  have refused := getDirectoryRecordFromRootNode_refused beyond stored headed named
    (goesOn_starts increasing inode) held
  unfold getDirectoryRecordByString
  rw [Call.self_bind, held.useCaseFolding, hashed, Call.bind_of_ok (Call.lift_run _ _)]
  unfold Call.Ends at refused
  split at refused
  next => exact refused.elim
  next failure handle' run => exact ⟨failure, by rw [run]⟩

end found

namespace Sample

def hashedEntry (parentIdentifier : Nat) (storedName : List UInt8) (nameHash identifier : Nat) : BtreeEntry where
  keyData := littleEndianBytes 8 (lookupIdentifier 9 parentIdentifier) ++
    littleEndianBytes 4 (storedName.length ||| nameHash <<< 10) ++ storedName
  valueData := littleEndianBytes 8 identifier ++ List.replicate 10 0

def directoryOf (first : List BtreeEntry) (second : BtreeEntry) : Nat → Result BtreeNode
  | 1 => .ok (objectMapRoot [(7, 3), (8, 4)])
  | 2 => .ok (rootNode 1 1 [leadingEntry (inodeEntry 2) 7, leadingEntry second 8])
  | 3 => .ok (subNode 2 0 (inodeEntry 2 :: first))
  | 4 => .ok (subNode 2 0 [second])
  | _ => fail .readFailed

def directoryTreeOf (first : List BtreeEntry) (second : BtreeEntry) : SearchTree BtreeEntry 1 :=
  [(leadingEntry (inodeEntry 2) 7, inodeEntry 2 :: first), (leadingEntry second 8, [second])]

def hashLess (key key' : List UInt8) : Prop :=
  littleEndian ((key.drop 8).take 4) < littleEndian ((key'.drop 8).take 4)

instance : DecidableRel hashLess := fun _ _ => inferInstanceAs (Decidable (_ < _))

def folding (useCaseFolding : Bool) : FileSystemBtree := { btree 0 with useCaseFolding }

def lowerCase : BtreeEntry := hashedEntry 2 [97, 0] 1988076 5

def nextName : BtreeEntry := hashedEntry 2 [98, 0] 3988693 6

def zeroHash : BtreeEntry := hashedEntry 2 [104, 50, 51, 56, 53, 0] 0 5

theorem lowerCase_stored : Stores (directoryOf [] lowerCase) (folding true) 1 .absoluteOid hashLess
    (directoryTreeOf [] lowerCase) where
  rooted := by
    refine ⟨_, rfl, ⟨rfl, rfl, by decide⟩, List.forall_mem_cons.mpr ⟨?_, List.forall_mem_singleton.mpr ?_⟩⟩
    · exact ⟨_, ⟨by decide, rfl, by decide, Or.inl ⟨rfl, _, rfl, rfl⟩⟩, rfl, rfl, by decide⟩
    · exact ⟨_, ⟨by decide, rfl, by decide, Or.inl ⟨rfl, _, rfl, rfl⟩⟩, rfl, rfl, by decide⟩
  headed := ⟨by simp [directoryTreeOf], List.forall_mem_cons.mpr
    ⟨⟨_, _, rfl, rfl⟩, List.forall_mem_singleton.mpr ⟨_, _, rfl, rfl⟩⟩, fun _ _ => trivial⟩
  increasing := by decide

theorem zeroHash_stored : Stores (directoryOf [zeroHash] lowerCase) (folding false) 1 .absoluteOid hashLess
    (directoryTreeOf [zeroHash] lowerCase) where
  rooted := by
    refine ⟨_, rfl, ⟨rfl, rfl, by decide⟩, List.forall_mem_cons.mpr ⟨?_, List.forall_mem_singleton.mpr ?_⟩⟩
    · exact ⟨_, ⟨by decide, rfl, by decide, Or.inl ⟨rfl, _, rfl, rfl⟩⟩, rfl, rfl, by decide⟩
    · exact ⟨_, ⟨by decide, rfl, by decide, Or.inl ⟨rfl, _, rfl, rfl⟩⟩, rfl, rfl, by decide⟩
  headed := ⟨by simp [directoryTreeOf], List.forall_mem_cons.mpr
    ⟨⟨_, _, rfl, rfl⟩, List.forall_mem_singleton.mpr ⟨_, _, rfl, rfl⟩⟩, fun _ _ => trivial⟩
  increasing := by decide

def noRecordIn (entry : BtreeEntry) : DirectoryRecord := decoded DirectoryRecord.read noRecord entry

theorem lowerCase_before_stored : Stores (directoryOf [lowerCase] nextName) (folding true) 1 .absoluteOid hashLess
    (directoryTreeOf [lowerCase] nextName) where
  rooted := by
    refine ⟨_, rfl, ⟨rfl, rfl, by decide⟩, List.forall_mem_cons.mpr ⟨?_, List.forall_mem_singleton.mpr ?_⟩⟩
    · exact ⟨_, ⟨by decide, rfl, by decide, Or.inl ⟨rfl, _, rfl, rfl⟩⟩, rfl, rfl, by decide⟩
    · exact ⟨_, ⟨by decide, rfl, by decide, Or.inl ⟨rfl, _, rfl, rfl⟩⟩, rfl, rfl, by decide⟩
  headed := ⟨by simp [directoryTreeOf], List.forall_mem_cons.mpr
    ⟨⟨_, _, rfl, rfl⟩, List.forall_mem_singleton.mpr ⟨_, _, rfl, rfl⟩⟩, fun _ _ => trivial⟩
  increasing := by decide

theorem upperCase_named :
    Named Sample.unicode { parentIdentifier := 2, string := [65], nameHash := 1988076 } noRecordIn
      (directoryTreeOf [lowerCase] nextName).items where
  spelled := ⟨[65], .cons rfl .nil⟩
  fits := by decide
  names := by
    refine List.forall_mem_cons.mpr ⟨fun record => absurd record (by decide),
      List.forall_mem_cons.mpr ⟨?_, List.forall_mem_singleton.mpr ?_⟩⟩
    · intro _ key reads
      obtain rfl := Except.ok.inj ((show DirectoryRecord.readKeyData lowerCase.keyData = .ok ([97, 0], 1988076) by
        decide).symm.trans reads)
      exact ⟨[97], .cons rfl .nil⟩
    · intro _ key reads
      obtain rfl := Except.ok.inj ((show DirectoryRecord.readKeyData nextName.keyData = .ok ([98, 0], 3988693) by
        decide).symm.trans reads)
      exact ⟨[98], .cons rfl .nil⟩
  decodes := by
    exact List.forall_mem_cons.mpr ⟨fun record => absurd record (by decide), List.forall_mem_cons.mpr
      ⟨fun _ => decoded_ok (by decide), List.forall_mem_singleton.mpr fun _ => decoded_ok (by decide)⟩⟩

theorem lowerCase_hash (useCaseFolding : Bool) :
    calculateNameHash asciiMappings ascii useCaseFolding [97] = .ok 1988076 := by
  cases useCaseFolding <;> decide +kernel

theorem upperCase_hash : calculateNameHash asciiMappings ascii true [65] = .ok 1988076 := by decide +kernel

theorem zeroHash_hash : calculateNameHash asciiMappings ascii false [104, 50, 51, 56, 53] = .ok 0 := by
  decide +kernel

end Sample

end Fsapfs.FileSystemBtree
