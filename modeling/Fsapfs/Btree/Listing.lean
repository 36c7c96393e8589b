import Fsapfs.Btree.FileSystemTree
import Fsapfs.Program.TreeListing
import Fsapfs.RecordListing

namespace Fsapfs.FileSystemBtree
open Program Listing

variable {κ α : Type}

theorem ends_emptyOnError {call : ListingCall κ α} {s : Listing κ} {post : α → Listing κ → Prop}
    {failed failed' : Listing κ → Prop} (ends : call.Ends s post failed)
    (cleared : ∀ s', failed s' → failed' s'.clear) : (emptyOnError call).Ends s post failed' := by
  unfold Call.Ends emptyOnError at *
  cases run : call s with
  | mk result s' =>
      rw [run] at ends
      cases result with
      | ok a => exact ends
      | error failure => exact cleared s' ends

theorem onBtree_of_ok {call : TreeCall α} {s : Listing κ} {a : α} {btree : FileSystemBtree}
    (run : call s.btree = (.ok a, btree)) : onBtree call s = (.ok a, { s with btree }) := by
  unfold onBtree
  rw [run]

namespace RecordKind

variable (kind : RecordKind κ) (identifier : Nat)

/-- What an entry whose key can be read means for the listing. -/
def step (entry : BtreeEntry) : BranchStep :=
  match kind.examine identifier entry with
  | .ok step => step
  | .error _ => .stop

def stops (entry : BtreeEntry) : Bool := kind.step identifier entry == .stop

def visits (entry : BtreeEntry) : Bool := kind.step identifier entry == .visitPrevious

def passes (entry : BtreeEntry) : Bool := !kind.stops identifier entry && !kind.visits identifier entry

def Examines (entry : BtreeEntry) : Prop := kind.examine identifier entry = .ok (kind.step identifier entry)

def isRecord (entry : BtreeEntry) : Bool :=
  entryKey entry ∈ kind.dataTypes.map fun dataType => lookupIdentifier dataType identifier

def leafRecords (entries : List BtreeEntry) : List BtreeEntry :=
  (entries.takeWhile fun entry => entryIdentifier entry ≤ identifier).filter (kind.isRecord identifier)

theorem leafRecords_cons (entry : BtreeEntry) (entries : List BtreeEntry) :
    kind.leafRecords identifier (entry :: entries) =
      if keyIdentifier (entryKey entry) > identifier then []
      else if kind.isRecord identifier entry then entry :: kind.leafRecords identifier entries
      else kind.leafRecords identifier entries := by
  unfold leafRecords entryIdentifier
  by_cases more : keyIdentifier (entryKey entry) > identifier
  · rw [if_pos more, List.takeWhile_cons, if_neg (by simpa using more), List.filter_nil]
  · rw [if_neg more, List.takeWhile_cons, if_pos (by simpa using more), List.filter_cons]

def collected {height : Nat} (tree : SearchTree BtreeEntry height) : List BtreeEntry :=
  SearchTree.collected (kind.stops identifier) (kind.visits identifier) (kind.leafRecords identifier) tree

/-- What is examined of an entry is its key. -/
def KeyOnly : Prop := ∀ entry entry', sameKey entry entry' → kind.examine identifier entry = kind.examine identifier entry'

/-- The keys of the entries can be examined, and the records decode. -/
structure Reads (decode : BtreeEntry → κ) (entries : List BtreeEntry) : Prop where
  examines : ∀ entry ∈ entries, kind.Examines identifier entry
  decodes : ∀ entry ∈ entries, kind.isRecord identifier entry → kind.read entry = .ok (decode entry)

variable {kind identifier}

theorem Reads.sublist {decode : BtreeEntry → κ} {entries part : List BtreeEntry}
    (reads : kind.Reads identifier decode entries) (sublist : part.Sublist entries) :
    kind.Reads identifier decode part where
  examines entry member := reads.examines entry (sublist.subset member)
  decodes entry member := reads.decodes entry (sublist.subset member)

theorem Reads.leafRecords {decode : BtreeEntry → κ} {entries : List BtreeEntry}
    (reads : kind.Reads identifier decode entries) :
    ∀ entry ∈ kind.leafRecords identifier entries, kind.read entry = .ok (decode entry) := by
  intro entry member
  obtain ⟨inside, wanted⟩ := List.mem_filter.mp member
  exact reads.decodes entry (List.takeWhile_subset _ inside) wanted

theorem KeyOnly.step (keyOnly : kind.KeyOnly identifier) {entry entry' : BtreeEntry} (key : sameKey entry entry') :
    kind.step identifier entry = kind.step identifier entry' := by
  unfold RecordKind.step
  rw [keyOnly entry entry' key]

theorem KeyOnly.stops (keyOnly : kind.KeyOnly identifier) {entry entry' : BtreeEntry} (key : sameKey entry entry') :
    kind.stops identifier entry = kind.stops identifier entry' := by
  unfold RecordKind.stops
  rw [keyOnly.step key]

theorem KeyOnly.visits (keyOnly : kind.KeyOnly identifier) {entry entry' : BtreeEntry} (key : sameKey entry entry') :
    kind.visits identifier entry = kind.visits identifier entry' := by
  unfold RecordKind.visits
  rw [keyOnly.step key]

theorem KeyOnly.passes (keyOnly : kind.KeyOnly identifier) {entry entry' : BtreeEntry} (key : sameKey entry entry') :
    kind.passes identifier entry = kind.passes identifier entry' := by
  unfold RecordKind.passes
  rw [keyOnly.stops key, keyOnly.visits key]

theorem examines_heads (keyOnly : kind.KeyOnly identifier) {height : Nat}
    {branch : List (BtreeEntry × SearchTree BtreeEntry height)} (heads : SearchTree.Heads sameKey branch)
    (examines : ∀ entry ∈ branch.flatMap fun sub => sub.2.items, kind.Examines identifier entry) :
    ∀ sub ∈ branch, kind.Examines identifier sub.1 := by
  intro sub member
  obtain ⟨a, inside, key⟩ := SearchTree.heads_mem heads member
  unfold Examines
  rw [keyOnly _ _ key, keyOnly.step key]
  exact examines a inside

end RecordKind

section gather

variable {nodes : Nat → Result BtreeNode} {btree : FileSystemBtree} {transactionIdentifier : Nat}
  {encoding : BranchChildOidEncoding} {kind : RecordKind κ} {identifier : Nat} {decode : BtreeEntry → κ}

structure Gathered (btree : FileSystemBtree) (encoding : BranchChildOidEncoding) (decode : BtreeEntry → κ)
    (s : Listing κ) (before : Bool) (entries : List BtreeEntry) (found : Bool) (s' : Listing κ) : Prop where
  handle : HandleOf btree encoding s'.btree
  records : s'.records = s.records ++ entries.map decode
  found : found = (before || !entries.isEmpty)

theorem Gathered.append {s s' s'' : Listing κ} {before found found' : Bool} {entries entries' : List BtreeEntry}
    (first : Gathered btree encoding decode s before entries found s')
    (second : Gathered btree encoding decode s' found entries' found' s'') :
    Gathered btree encoding decode s before (entries ++ entries') found' s'' where
  handle := second.handle
  records := by rw [second.records, first.records, List.map_append, List.append_assoc]
  found := by
    rw [second.found, first.found]
    cases entries <;> cases entries' <;> simp

theorem Gathered.or {s s' : Listing κ} {before found : Bool} {entries : List BtreeEntry}
    (gathered : Gathered btree encoding decode s false entries found s') :
    Gathered btree encoding decode s before entries (before || found) s' where
  handle := gathered.handle
  records := gathered.records
  found := by rw [gathered.found, Bool.false_or]

theorem Gathered.none {s : Listing κ} (held : HandleOf btree encoding s.btree) (before : Bool) :
    Gathered btree encoding decode s before [] before s where
  handle := held
  records := (List.append_nil _).symm
  found := by simp

theorem appendLeafRecords_ends {entries : List BtreeEntry} (sized : ∀ entry ∈ entries, 8 ≤ entry.keyData.length)
    (decodes : ∀ entry ∈ kind.leafRecords identifier entries, kind.read entry = .ok (decode entry))
    {s : Listing κ} (held : HandleOf btree encoding s.btree) (before : Bool) :
    (appendLeafRecords kind identifier before entries).Ends s
      (Gathered btree encoding decode s before (kind.leafRecords identifier entries)) fun _ => False := by
  induction entries generalizing s before with
  | nil => exact Gathered.none held before
  | cons entry entries ih =>
      obtain ⟨first, sized⟩ := List.forall_mem_cons.mp sized
      rw [kind.leafRecords_cons] at decodes ⊢
      unfold appendLeafRecords
      rw [readFileSystemIdentifier_ok first, Call.ends_lift_ok_bind]
      by_cases more : keyIdentifier (entryKey entry) > identifier
      · rw [if_pos more, if_pos more]
        exact Gathered.none held before
      · rw [if_neg more] at decodes ⊢
        rw [if_neg more]
        by_cases wanted : kind.isRecord identifier entry
        · rw [if_pos wanted] at decodes ⊢
          obtain ⟨decoded, decodes⟩ := List.forall_mem_cons.mp decodes
          rw [if_pos (by simpa [RecordKind.isRecord] using wanted), decoded, Call.ends_lift_ok_bind,
            Call.ends_update_bind]
          have one : Gathered btree encoding decode s before [entry] true (append (decode entry) s) :=
            ⟨held, rfl, by simp⟩
          have appended : HandleOf btree encoding (append (decode entry) s).btree := held
          exact (ih sized decodes appended true).mono (fun found s' rest => one.append rest) fun _ failed => failed
        · rw [if_neg wanted] at decodes ⊢
          rw [if_neg (by simpa [RecordKind.isRecord] using wanted)]
          exact ih sized decodes held before

theorem getRecordsFromLeafNode_ends {node : BtreeNode} (leaf : node.isLeafNode)
    (sized : ∀ entry ∈ node.entries, 8 ≤ entry.keyData.length)
    (decodes : ∀ entry ∈ kind.leafRecords identifier node.entries, kind.read entry = .ok (decode entry))
    {s : Listing κ} (held : HandleOf btree encoding s.btree) :
    (getRecordsFromLeafNode kind identifier node).Ends s
      (Gathered btree encoding decode s false (kind.leafRecords identifier node.entries)) fun _ => False := by
  unfold getRecordsFromLeafNode
  rw [if_pos leaf]
  exact ends_emptyOnError (appendLeafRecords_ends sized decodes held false) fun _ failed => failed

theorem visitEntry_ends {node subNode : BtreeNode} {entry : BtreeEntry} {next : Nat → ListingCall κ Bool}
    (refers : Refers nodes btree transactionIdentifier encoding node entry subNode) {s : Listing κ}
    (held : HandleOf btree encoding s.btree) {post : Bool → Listing κ → Prop} {failed : Listing κ → Prop}
    (continues : ∀ blockNumber handle', getSubNode nodes blockNumber = .ok subNode →
      HandleOf btree encoding handle' → (next blockNumber).Ends { s with btree := handle' } post failed) :
    (visitEntry nodes transactionIdentifier next node (some entry)).Ends s post failed := by
  obtain ⟨blockNumber, handle', child, held', resolved⟩ := requireSubNodeBlockNumber_ok refers held
  unfold visitEntry
  unfold Call.Ends
  rw [Call.bind_of_ok (onBtree_of_ok resolved)]
  exact continues blockNumber handle' child held'

theorem visitBranchEntries_ends {β : Type} {key : β → BtreeEntry} {collect : β → List BtreeEntry}
    {next : Nat → ListingCall κ Bool} {node : BtreeNode} {subs : List β}
    (examines : ∀ sub ∈ subs, kind.Examines identifier (key sub)) (previous : Option β)
    (started : previous ≠ none ∨ ∃ first ∈ subs.head?, kind.stops identifier (key first) = false)
    (each : ∀ sub, sub ∈ previous ∨ (sub ∈ subs ∧ kind.stops identifier (key sub) = false) →
      ∀ s, HandleOf btree encoding s.btree →
        (visitEntry nodes transactionIdentifier next node (some (key sub))).Ends s
          (Gathered btree encoding decode s false (collect sub)) fun _ => False)
    {s : Listing κ} (held : HandleOf btree encoding s.btree) (before : Bool) :
    (visitBranchEntries nodes kind identifier transactionIdentifier next node (previous.map key) before
      (subs.map key)).Ends s
      (Gathered btree encoding decode s before
        ((visited (fun sub => kind.stops identifier (key sub)) (fun sub => kind.visits identifier (key sub))
          previous subs).flatMap collect)) fun _ => False := by
  have final : ∀ {last : β}, (∀ s, HandleOf btree encoding s.btree →
      (visitEntry nodes transactionIdentifier next node (some (key last))).Ends s
        (Gathered btree encoding decode s false (collect last)) fun _ => False) →
      ∀ {s : Listing κ} (held : HandleOf btree encoding s.btree) (before : Bool),
        (do
          let result ← visitEntry nodes transactionIdentifier next node (some (key last))
          return before || result : ListingCall κ Bool).Ends s
          (Gathered btree encoding decode s before (collect last)) fun _ => False :=
    fun visit s held before => (visit s held).bind fun found s' gathered => gathered.or
  induction subs generalizing previous s before with
  | nil =>
      cases previous with
      | none => simp at started
      | some last =>
          simpa [visited, visitBranchEntries] using final (each last (by simp)) held before
  | cons sub subs ih =>
      obtain ⟨examined, examines⟩ := List.forall_mem_cons.mp examines
      unfold visited
      rw [List.map_cons, visitBranchEntries, show kind.examine identifier (key sub) = _ from examined,
        Call.ends_lift_ok_bind]
      have later : kind.stops identifier (key sub) = false → ∀ sub', sub' ∈ some sub ∨
          (sub' ∈ subs ∧ kind.stops identifier (key sub') = false) → ∀ s, HandleOf btree encoding s.btree →
            (visitEntry nodes transactionIdentifier next node (some (key sub'))).Ends s
              (Gathered btree encoding decode s false (collect sub')) fun _ => False := by
        intro goesOn sub' reached
        refine each sub' (Or.inr ?_)
        rcases reached with here | ⟨member, goesOn'⟩
        · obtain rfl : sub = sub' := Option.some.inj here
          exact ⟨by simp, goesOn⟩
        · exact ⟨List.mem_cons_of_mem _ member, goesOn'⟩
      cases means : kind.step identifier (key sub) with
      | stop =>
          cases previous with
          | none => simp [RecordKind.stops, means] at started
          | some last => simpa [RecordKind.stops, means] using final (each last (by simp)) held before
      | pass =>
          have goesOn : kind.stops identifier (key sub) = false := by simp [RecordKind.stops, means]
          have rest := ih examines (some sub) (Or.inl (by simp)) (later goesOn) held before
          simpa [RecordKind.stops, RecordKind.visits, means] using rest
      | visitPrevious =>
          have goesOn : kind.stops identifier (key sub) = false := by simp [RecordKind.stops, means]
          cases previous with
          | none =>
              have rest := ih examines (some sub) (Or.inl (by simp)) (later goesOn) held before
              simpa [RecordKind.stops, RecordKind.visits, means] using rest
          | some last =>
              simp only [RecordKind.stops, RecordKind.visits, means, beq_self_eq_true, if_true, Option.toList_some,
                List.singleton_append, Option.map_some]
              refine (each last (by simp) s held).bind fun found s' gathered => ?_
              exact (ih examines (some sub) (Or.inl (by simp)) (later goesOn) gathered.handle _).mono
                (fun found' s'' rest => gathered.or.append rest) fun _ failed => failed

theorem branch_starts (keyOnly : kind.KeyOnly identifier) {height : Nat}
    {branch : List (BtreeEntry × SearchTree BtreeEntry height)} (filled : branch ≠ [])
    (heads : SearchTree.Heads sameKey branch)
    (starts : ∀ entry ∈ (branch.flatMap fun sub => sub.2.items).head?, kind.stops identifier entry = false) :
    ∃ sub ∈ branch.head?, kind.stops identifier sub.1 = false := by
  obtain ⟨sub, branch, rfl⟩ := List.exists_cons_of_ne_nil filled
  obtain ⟨first, rest, items, key⟩ := heads sub (by simp)
  refine ⟨sub, rfl, ?_⟩
  rw [keyOnly.stops key]
  exact starts first (by simp [items])

theorem starts_of_goesOn (keyOnly : kind.KeyOnly identifier) {height : Nat}
    {branch : List (BtreeEntry × SearchTree BtreeEntry height)} (heads : SearchTree.Heads sameKey branch)
    {sub : BtreeEntry × SearchTree BtreeEntry height} (member : sub ∈ branch)
    (goesOn : kind.stops identifier sub.1 = false) :
    ∀ entry ∈ sub.2.items.head?, kind.stops identifier entry = false := by
  obtain ⟨first, rest, items, key⟩ := heads sub member
  intro entry head
  have same : first = entry := by simpa [items] using head
  rw [← same, ← keyOnly.stops key]
  exact goesOn

theorem getRecordsFromBranchNode_ends (keyOnly : kind.KeyOnly identifier) {height : Nat}
    {branch : List (BtreeEntry × SearchTree BtreeEntry height)} {node : BtreeNode}
    (stored : (layout nodes btree transactionIdentifier encoding).Stored (SearchTree.branch branch) node)
    (filled : branch ≠ []) (heads : SearchTree.Heads sameKey branch)
    (reads : kind.Reads identifier decode (branch.flatMap fun sub => sub.2.items))
    (starts : ∀ entry ∈ (branch.flatMap fun sub => sub.2.items).head?, kind.stops identifier entry = false)
    {next : Nat → ListingCall κ Bool}
    (each : ∀ sub ∈ branch, kind.stops identifier sub.1 = false → ∀ blockNumber subNode,
      getSubNode nodes blockNumber = .ok subNode →
      (layout nodes btree transactionIdentifier encoding).Stored sub.2 subNode →
      ∀ s, HandleOf btree encoding s.btree → (next blockNumber).Ends s
        (Gathered btree encoding decode s false (kind.collected identifier sub.2)) fun _ => False)
    {s : Listing κ} (held : HandleOf btree encoding s.btree) :
    (getRecordsFromBranchNode nodes kind identifier transactionIdentifier next node).Ends s
      (Gathered btree encoding decode s false (kind.collected identifier (SearchTree.branch branch)))
      fun _ => False := by
  obtain ⟨⟨isBranch, same, _⟩, leads⟩ := stored
  unfold getRecordsFromBranchNode
  rw [if_neg (by simp [isBranch]), same]
  refine ends_emptyOnError ?_ fun _ failed => failed
  refine visitBranchEntries_ends (RecordKind.examines_heads keyOnly heads reads.examines) none
    (Or.inr (branch_starts keyOnly filled heads starts)) (fun sub reached s held => ?_) held false
  obtain ⟨member, goesOn⟩ := reached.resolve_left (by simp)
  obtain ⟨subNode, refers, stored⟩ := leads sub member
  refine visitEntry_ends refers held fun blockNumber handle' child held' => ?_
  exact (each sub member goesOn blockNumber subNode child stored { s with btree := handle' } held').mono
    (fun found s' gathered => ⟨gathered.handle, gathered.records, gathered.found⟩) fun _ failed => failed

theorem getRecordsFromSubNode_ends (keyOnly : kind.KeyOnly identifier) {height depth : Nat}
    (within : height ≤ depth) {tree : SearchTree BtreeEntry height} {node : BtreeNode} {blockNumber : Nat}
    (child : getSubNode nodes blockNumber = .ok node)
    (stored : (layout nodes btree transactionIdentifier encoding).Stored tree node)
    (headed : tree.Headed sameKey) (reads : kind.Reads identifier decode tree.items)
    (starts : ∀ entry ∈ tree.items.head?, kind.stops identifier entry = false) {s : Listing κ}
    (held : HandleOf btree encoding s.btree) :
    (getRecordsFromSubNode nodes kind identifier transactionIdentifier depth blockNumber).Ends s
      (Gathered btree encoding decode s false (kind.collected identifier tree)) fun _ => False := by
  induction height generalizing depth node blockNumber s with
  | zero =>
      obtain ⟨leaf, rfl, sized⟩ := stored
      have gathered := getRecordsFromLeafNode_ends leaf sized reads.leafRecords held
      unfold getRecordsFromSubNode
      cases depth with
      | zero =>
          unfold descend
          rw [child, Call.ends_lift_ok_bind, if_pos leaf]
          exact gathered
      | succ depth =>
          unfold descend getRecordsFromNode
          rw [child, Call.ends_lift_ok_bind, if_pos leaf]
          exact gathered
  | succ height ih =>
      obtain ⟨depth, rfl⟩ := Nat.exists_eq_succ_of_ne_zero (show depth ≠ 0 by omega)
      obtain ⟨filled, heads, headed⟩ := headed
      unfold getRecordsFromSubNode descend getRecordsFromNode
      rw [child, Call.ends_lift_ok_bind, if_neg (by simp [stored.1.1])]
      refine getRecordsFromBranchNode_ends keyOnly stored filled heads reads starts ?_ held
      intro sub member goesOn blockNumber' subNode child' stored' s' held'
      exact ih (by omega) child' stored' (headed sub member) (reads.sublist (SearchTree.items_sublist member))
        (starts_of_goesOn keyOnly heads member goesOn) held'

theorem getRecords_ends (keyOnly : kind.KeyOnly identifier) {rest : List UInt8 → List UInt8 → Prop} {height : Nat}
    (limited : height ≤ maximumBtreeNodeRecursionDepth + 1) {tree : SearchTree BtreeEntry height}
    (stores : Stores nodes btree transactionIdentifier encoding rest tree)
    (reads : kind.Reads identifier decode tree.items)
    (starts : ∀ entry ∈ tree.items.head?, kind.stops identifier entry = false) {s : Listing κ}
    (held : HandleOf btree encoding s.btree) :
    (getRecords nodes kind identifier transactionIdentifier).Ends s
      (Gathered btree encoding decode s false (kind.collected identifier tree)) fun _ => False := by
  obtain ⟨⟨root, rooted, stored⟩, headed, _⟩ := stores
  unfold getRecords getRecordsWithin
  refine ends_emptyOnError ?_ fun _ failed => failed
  rw [Call.ends_self_bind, held.rootNodeBlockNumber, rooted, Call.ends_lift_ok_bind]
  unfold getRecordsFromNode
  cases height with
  | zero =>
      obtain ⟨leaf, rfl, sized⟩ := stored
      simp only [leaf, if_true]
      exact getRecordsFromLeafNode_ends leaf sized reads.leafRecords held
  | succ height =>
      obtain ⟨filled, heads, headed⟩ := headed
      simp only [stored.1.1, Bool.false_eq_true, if_false]
      refine getRecordsFromBranchNode_ends keyOnly stored filled heads reads starts ?_ held
      intro sub member goesOn blockNumber subNode child stored' s' held'
      exact getRecordsFromSubNode_ends keyOnly (by omega) child stored' (headed sub member)
        (reads.sublist (SearchTree.items_sublist member)) (starts_of_goesOn keyOnly heads member goesOn) held'

theorem visitBranchEntries_fails {β : Type} {key : β → BtreeEntry} {next : Nat → ListingCall κ Bool}
    {node : BtreeNode} {subs : List β} (examines : ∀ sub ∈ subs, kind.Examines identifier (key sub))
    (previous : Option β)
    (started : previous ≠ none ∨ ∃ first ∈ subs.head?, kind.stops identifier (key first) = false)
    (each : ∀ sub, sub ∈ previous ∨ (sub ∈ subs ∧ kind.stops identifier (key sub) = false) →
      ∀ s, HandleOf btree encoding s.btree →
        (visitEntry nodes transactionIdentifier next node (some (key sub))).Ends s (fun _ _ => False)
          fun _ => True)
    {s : Listing κ} (held : HandleOf btree encoding s.btree) (before : Bool) :
    (visitBranchEntries nodes kind identifier transactionIdentifier next node (previous.map key) before
      (subs.map key)).Ends s (fun _ _ => False) fun _ => True := by
  induction subs generalizing previous with
  | nil =>
      cases previous with
      | none => simp at started
      | some last => exact (each last (by simp) s held).bind fun _ _ impossible => impossible.elim
  | cons sub subs ih =>
      obtain ⟨examined, examines⟩ := List.forall_mem_cons.mp examines
      rw [List.map_cons, visitBranchEntries, show kind.examine identifier (key sub) = _ from examined,
        Call.ends_lift_ok_bind]
      have later : kind.stops identifier (key sub) = false → ∀ sub', sub' ∈ some sub ∨
          (sub' ∈ subs ∧ kind.stops identifier (key sub') = false) → ∀ s, HandleOf btree encoding s.btree →
            (visitEntry nodes transactionIdentifier next node (some (key sub'))).Ends s (fun _ _ => False)
              fun _ => True := by
        intro goesOn sub' reached
        refine each sub' (Or.inr ?_)
        rcases reached with here | ⟨member, goesOn'⟩
        · obtain rfl : sub = sub' := Option.some.inj here
          exact ⟨by simp, goesOn⟩
        · exact ⟨List.mem_cons_of_mem _ member, goesOn'⟩
      cases means : kind.step identifier (key sub) with
      | stop =>
          cases previous with
          | none => simp [RecordKind.stops, means] at started
          | some last => exact (each last (by simp) s held).bind fun _ _ impossible => impossible.elim
      | pass =>
          exact ih examines (some sub) (Or.inl (by simp)) (later (by simp [RecordKind.stops, means]))
      | visitPrevious =>
          cases previous with
          | none => exact ih examines (some sub) (Or.inl (by simp)) (later (by simp [RecordKind.stops, means]))
          | some last => exact (each last (by simp) s held).bind fun _ _ impossible => impossible.elim

theorem getRecordsFromBranchNode_fails (keyOnly : kind.KeyOnly identifier) {height : Nat}
    {branch : List (BtreeEntry × SearchTree BtreeEntry height)} {node : BtreeNode}
    (stored : (layout nodes btree transactionIdentifier encoding).Stored (SearchTree.branch branch) node)
    (filled : branch ≠ []) (heads : SearchTree.Heads sameKey branch)
    (examines : ∀ entry ∈ branch.flatMap fun sub => sub.2.items, kind.Examines identifier entry)
    (starts : ∀ entry ∈ (branch.flatMap fun sub => sub.2.items).head?, kind.stops identifier entry = false)
    {next : Nat → ListingCall κ Bool}
    (each : ∀ sub ∈ branch, kind.stops identifier sub.1 = false → ∀ blockNumber subNode,
      getSubNode nodes blockNumber = .ok subNode →
      (layout nodes btree transactionIdentifier encoding).Stored sub.2 subNode →
      ∀ s, HandleOf btree encoding s.btree → (next blockNumber).Ends s (fun _ _ => False) fun _ => True)
    {s : Listing κ} (held : HandleOf btree encoding s.btree) :
    (getRecordsFromBranchNode nodes kind identifier transactionIdentifier next node).Ends s
      (fun _ _ => False) fun s' => s'.records = [] := by
  obtain ⟨⟨isBranch, same, _⟩, leads⟩ := stored
  unfold getRecordsFromBranchNode
  rw [if_neg (by simp [isBranch]), same]
  refine ends_emptyOnError ?_ fun _ (_ : True) => rfl
  refine visitBranchEntries_fails (RecordKind.examines_heads keyOnly heads examines) none
    (Or.inr (branch_starts keyOnly filled heads starts)) (fun sub reached s held => ?_) held false
  obtain ⟨member, goesOn⟩ := reached.resolve_left (by simp)
  obtain ⟨subNode, refers, stored⟩ := leads sub member
  exact visitEntry_ends refers held fun blockNumber handle' child held' =>
    each sub member goesOn blockNumber subNode child stored { s with btree := handle' } held'

theorem getRecordsFromSubNode_fails (keyOnly : kind.KeyOnly identifier) {height depth : Nat}
    (beyond : depth < height) {tree : SearchTree BtreeEntry height} {node : BtreeNode} {blockNumber : Nat}
    (child : getSubNode nodes blockNumber = .ok node)
    (stored : (layout nodes btree transactionIdentifier encoding).Stored tree node)
    (headed : tree.Headed sameKey) (examines : ∀ entry ∈ tree.items, kind.Examines identifier entry)
    (starts : ∀ entry ∈ tree.items.head?, kind.stops identifier entry = false) {s : Listing κ}
    (held : HandleOf btree encoding s.btree) :
    (getRecordsFromSubNode nodes kind identifier transactionIdentifier depth blockNumber).Ends s
      (fun _ _ => False) fun _ => True := by
  induction depth generalizing height node blockNumber s with
  | zero =>
      obtain ⟨height, rfl⟩ := Nat.exists_eq_succ_of_ne_zero (Nat.ne_of_gt beyond)
      unfold getRecordsFromSubNode descend
      rw [child, Call.ends_lift_ok_bind, if_neg (by simp [stored.1.1])]
      trivial
  | succ depth ih =>
      obtain ⟨height, rfl⟩ := Nat.exists_eq_succ_of_ne_zero (show height ≠ 0 by omega)
      obtain ⟨filled, heads, headed⟩ := headed
      unfold getRecordsFromSubNode descend getRecordsFromNode
      rw [child, Call.ends_lift_ok_bind, if_neg (by simp [stored.1.1])]
      refine (getRecordsFromBranchNode_fails keyOnly stored filled heads examines starts ?_ held).mono
        (fun _ _ impossible => impossible) fun _ _ => trivial
      intro sub member goesOn blockNumber' subNode child' stored' s' held'
      exact ih (by omega) child' stored' (headed sub member)
        (fun entry inside => examines entry ((SearchTree.items_sublist member).subset inside))
        (starts_of_goesOn keyOnly heads member goesOn) held'

theorem getRecords_fails (keyOnly : kind.KeyOnly identifier) {rest : List UInt8 → List UInt8 → Prop} {height : Nat}
    (beyond : maximumBtreeNodeRecursionDepth + 1 < height) {tree : SearchTree BtreeEntry height}
    (stores : Stores nodes btree transactionIdentifier encoding rest tree)
    (examines : ∀ entry ∈ tree.items, kind.Examines identifier entry)
    (starts : ∀ entry ∈ tree.items.head?, kind.stops identifier entry = false) {s : Listing κ}
    (held : HandleOf btree encoding s.btree) :
    (getRecords nodes kind identifier transactionIdentifier).Ends s (fun _ _ => False) fun s' => s'.records = [] := by
  obtain ⟨⟨root, rooted, stored⟩, headed, _⟩ := stores
  unfold getRecords getRecordsWithin
  refine ends_emptyOnError ?_ fun _ (_ : True) => rfl
  rw [Call.ends_self_bind, held.rootNodeBlockNumber, rooted, Call.ends_lift_ok_bind]
  unfold getRecordsFromNode
  obtain ⟨height, rfl⟩ := Nat.exists_eq_succ_of_ne_zero (show height ≠ 0 by omega)
  obtain ⟨filled, heads, headed⟩ := headed
  simp only [stored.1.1, Bool.false_eq_true, if_false]
  refine (getRecordsFromBranchNode_fails keyOnly stored filled heads examines starts ?_ held).mono
    (fun _ _ impossible => impossible) fun _ _ => trivial
  intro sub member goesOn blockNumber subNode child stored' s' held'
  exact getRecordsFromSubNode_fails keyOnly (by omega) child stored' (headed sub member)
    (fun entry inside => examines entry ((SearchTree.items_sublist member).subset inside))
    (starts_of_goesOn keyOnly heads member goesOn) held'

end gather

section complete

variable {rest : List UInt8 → List UInt8 → Prop} {kind : RecordKind κ} {identifier : Nat} {entries : List BtreeEntry}

/-- An entry that stops the listing is after all records. -/
structure Ranges (kind : RecordKind κ) (identifier : Nat) (entries : List BtreeEntry) : Prop where
  stopped : Falling (fun entry => !kind.stops identifier entry) entries
  greater : ∀ entry ∈ entries, identifier < entryIdentifier entry → kind.stops identifier entry
  unwanted : ∀ entry ∈ entries, kind.stops identifier entry → kind.isRecord identifier entry = false

theorem Ranges.sublist {part : List BtreeEntry} (ranges : Ranges kind identifier entries)
    (sublist : part.Sublist entries) : Ranges kind identifier part where
  stopped := ranges.stopped.sublist sublist
  greater entry member := ranges.greater entry (sublist.subset member)
  unwanted entry member := ranges.unwanted entry (sublist.subset member)

theorem leafRecords_eq (ranges : Ranges kind identifier entries) :
    kind.leafRecords identifier entries = entries.filter (kind.isRecord identifier) := by
  induction entries with
  | nil => rfl
  | cons entry entries ih =>
      rw [kind.leafRecords_cons]
      by_cases more : keyIdentifier (entryKey entry) > identifier
      · have stop := ranges.greater entry (by simp) more
        rw [if_pos more]
        symm
        rw [List.filter_eq_nil_iff]
        intro entry' member
        rcases List.mem_cons.mp member with rfl | later
        · simp [ranges.unwanted _ member stop]
        · have passes := (List.pairwise_cons.mp ranges.stopped).1 entry' later
          have stop' : kind.stops identifier entry' := by simpa [stop] using passes
          simp [ranges.unwanted _ member stop']
      · rw [if_neg more, List.filter_cons, ih (ranges.sublist (List.sublist_cons_self entry entries))]

theorem Ranges.listable (ranges : Ranges kind identifier entries) :
    SearchTree.Listable (kind.stops identifier) (kind.isRecord identifier) (kind.leafRecords identifier) entries where
  stopped := ranges.stopped
  unwanted := ranges.unwanted
  leaf _ sublist := leafRecords_eq (ranges.sublist sublist)

end complete

end Fsapfs.FileSystemBtree
