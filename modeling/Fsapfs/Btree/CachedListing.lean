import Fsapfs.Btree.CachedNodes
import Fsapfs.Btree.FileExtentListing
import Fsapfs.Program.Run

namespace Fsapfs.FileSystemBtree
open Program

/-- The entries of a branch whose sub trees a listing visits. -/
def visited {κ : Type} (kind : RecordKind κ) (identifier : Nat) : Option BtreeEntry → List BtreeEntry → List BtreeEntry
  | previousEntry, [] => previousEntry.toList
  | previousEntry, entry :: entries =>
      match kind.examine identifier entry with
      | .error _ => []
      | .ok .stop => previousEntry.toList
      | .ok .visitPrevious => previousEntry.toList ++ visited kind identifier (some entry) entries
      | .ok .pass => visited kind identifier (some entry) entries

section visited

variable {κ : Type} {kind : RecordKind κ} {identifier : Nat} {entry : BtreeEntry}

theorem visited_stop (stops : kind.examine identifier entry = .ok .stop) (previousEntry : Option BtreeEntry)
    (entries : List BtreeEntry) : visited kind identifier previousEntry (entry :: entries) = previousEntry.toList := by
  simp [visited, stops]

theorem visited_pass (passes : kind.examine identifier entry = .ok .pass) (previousEntry : Option BtreeEntry)
    (entries : List BtreeEntry) :
    visited kind identifier previousEntry (entry :: entries) = visited kind identifier (some entry) entries := by
  simp [visited, passes]

theorem visited_previous (visits : kind.examine identifier entry = .ok .visitPrevious)
    (previousEntry : Option BtreeEntry) (entries : List BtreeEntry) :
    visited kind identifier previousEntry (entry :: entries) =
      previousEntry.toList ++ visited kind identifier (some entry) entries := by
  simp [visited, visits]

end visited

section blocks

variable (nodes : Nat → Result BtreeNode) (btree : FileSystemBtree) (transactionIdentifier : Nat)

def Tries (entry : BtreeEntry) (blockNumber : Nat) : Prop :=
  ∃ objectIdentifier, (objectIdentifier = subNodeObjectIdentifier entry ∨
      objectIdentifier = btree.rootNodeObjectIdentifier + subNodeObjectIdentifier entry) ∧
    ∃ descriptor, ObjectMapBtree.getDescriptorByObjectIdentifier nodes btree.objectMapBtree objectIdentifier
      transactionIdentifier = .ok (some descriptor) ∧ descriptor.physicalAddress = blockNumber

/-- A block below a node that a listing gets from the cache. -/
inductive Touches {κ : Type} (kind : RecordKind κ) (identifier : Nat) : BtreeNode → Nat → Prop
  | tried {node : BtreeNode} {entry : BtreeEntry} {blockNumber : Nat} (branch : node.isLeafNode = false)
      (member : entry ∈ visited kind identifier none node.entries)
      (tries : Tries nodes btree transactionIdentifier entry blockNumber) : Touches kind identifier node blockNumber
  | beneath {node subNode : BtreeNode} {entry : BtreeEntry} {blockNumber subNodeBlockNumber : Nat}
      (branch : node.isLeafNode = false) (member : entry ∈ visited kind identifier none node.entries)
      (tries : Tries nodes btree transactionIdentifier entry subNodeBlockNumber)
      (read : getSubNode nodes subNodeBlockNumber = .ok subNode) (level : subNode.level + 1 = node.level)
      (touches : Touches kind identifier subNode blockNumber) : Touches kind identifier node blockNumber

end blocks

section learned

variable {btree btree' : FileSystemBtree}

theorem Learns.objectMapBtree (learns : Learns btree btree') : btree'.objectMapBtree = btree.objectMapBtree := by
  rcases learns with rfl | ⟨_, _, rfl⟩ <;> rfl

theorem Learns.rootNodeObjectIdentifier (learns : Learns btree btree') :
    btree'.rootNodeObjectIdentifier = btree.rootNodeObjectIdentifier := by
  rcases learns with rfl | ⟨_, _, rfl⟩ <;> rfl

theorem Tries.of_learned {nodes : Nat → Result BtreeNode} {transactionIdentifier : Nat} (learns : Learns btree btree')
    {entry : BtreeEntry} {blockNumber : Nat} (tries : Tries nodes btree' transactionIdentifier entry blockNumber) :
    Tries nodes btree transactionIdentifier entry blockNumber := by
  unfold Tries at tries
  rw [learns.objectMapBtree, learns.rootNodeObjectIdentifier] at tries
  exact tries

theorem mem_candidates {raw : Nat} {found : List (Nat × BranchChildOidEncoding)}
    (ok : candidates btree raw = .ok found) {candidate : Nat × BranchChildOidEncoding} (member : candidate ∈ found) :
    candidate.1 = raw ∨ candidate.1 = btree.rootNodeObjectIdentifier + raw := by
  unfold candidates at ok
  by_cases unset : btree.rootNodeObjectIdentifier = 0
  · rw [if_pos unset] at ok
    simp only [ok_bind, true_or, if_pos] at ok
    cases ok
    simp_all
  · rw [if_neg unset] at ok
    by_cases beyond : raw > 2 ^ 64 - 1 - btree.rootNodeObjectIdentifier
    · rw [if_pos beyond] at ok
      cases ok
    · rw [if_neg beyond] at ok
      simp only [ok_bind] at ok
      split_ifs at ok
      · cases ok
        simp_all
      · cases ok
        rcases List.mem_pair.mp member with rfl | rfl <;> simp
      · cases ok
        rcases List.mem_pair.mp member with rfl | rfl <;> simp

theorem mem_entryCandidates {node : BtreeNode} {entry : BtreeEntry} {found : List (Nat × BranchChildOidEncoding)}
    (ok : CachedBtree.entryCandidates btree node (some entry) = .ok found) {candidate : Nat × BranchChildOidEncoding}
    (member : candidate ∈ found) : candidate.1 = subNodeObjectIdentifier entry ∨
      candidate.1 = btree.rootNodeObjectIdentifier + subNodeObjectIdentifier entry := by
  unfold CachedBtree.entryCandidates at ok
  split_ifs at ok with lowest
  · cases ok
  · obtain ⟨_, sized, ok⟩ := bind_eq_ok.mp ok
    obtain ⟨raw, loaded, ok⟩ := bind_eq_ok.mp ok
    have value : raw = subNodeObjectIdentifier entry := by
      rw [loadLittleEndian64, loadLittleEndian_ok (by simpa using (requireData_ok (by simp)).mp sized)] at loaded
      cases loaded
      rfl
    rw [← value]
    exact mem_candidates ok member

end learned

end Fsapfs.FileSystemBtree

namespace Fsapfs.CachedBtree
open Program NodeCache

variable {nodes : Nat → Result BtreeNode} {blocks : Nat → Prop} {btree : FileSystemBtree} {capacity : Option Nat}
  {transactionIdentifier : Nat} {tree tree' : CachedBtree}

structure Current (nodes : Nat → Result BtreeNode) (btree : FileSystemBtree) (capacity : Option Nat)
    (tree : CachedBtree) : Prop where
  sound : Sound nodes tree
  capacity : tree.nodeCache.capacity = capacity
  learns : FileSystemBtree.Learns btree tree.btree

theorem Current.later (current : Current nodes btree capacity tree) (tame : Tame nodes blocks tree tree') :
    Current nodes btree capacity tree' where
  sound := tame.sound current.sound
  capacity := tame.within.grows.capacity.trans current.capacity
  learns := current.learns.trans tame.learns

theorem attempt_refused {α : Type} {call : CachedCall α} {code : ErrorCode} (run : call tree = (fail code, tree')) :
    attempt call tree = (.ok none, tree') := by
  unfold attempt
  rw [run]
  rfl

theorem attempt_ok {α : Type} {call : CachedCall α} {a : α} (run : call tree = (.ok a, tree')) :
    attempt call tree = (.ok (some a), tree') := by
  unfold attempt
  rw [run]

/-- The root node is got in place of a sub node only if it is in the cache, and is then too high. -/
theorem firstCandidate_follows (parsed : Parsed nodes) {expectedLevel : Nat}
    (candidates : List (Nat × BranchChildOidEncoding)) (sound : Sound nodes tree)
    (lower : FileSystemBtree.Beneath nodes tree.btree.rootNodeBlockNumber (expectedLevel + 1))
    (tried : ∀ candidate ∈ candidates, ∀ descriptor, ObjectMapBtree.getDescriptorByObjectIdentifier nodes
      tree.btree.objectMapBtree candidate.1 transactionIdentifier = .ok (some descriptor) →
      blocks descriptor.physicalAddress) :
    ∃ cache, firstCandidate nodes transactionIdentifier expectedLevel candidates tree =
        (FileSystemBtree.firstCandidate nodes tree.btree transactionIdentifier expectedLevel candidates,
          { tree with nodeCache := cache }) ∧
      Tame nodes blocks tree { tree with nodeCache := cache } := by
  induction candidates generalizing tree with
  | nil => exact ⟨tree.nodeCache, rfl, Tame.refl tree⟩
  | cons candidate candidates ih =>
      obtain ⟨objectIdentifier, encoding⟩ := candidate
      have rest := fun candidate member => tried candidate (List.mem_cons_of_mem _ member)
      rw [firstCandidate, FileSystemBtree.firstCandidate, Call.self_bind]
      cases looked : ObjectMapBtree.getDescriptorByObjectIdentifier nodes tree.btree.objectMapBtree objectIdentifier
          transactionIdentifier with
      | error failure => exact ⟨tree.nodeCache, rfl, Tame.refl tree⟩
      | ok descriptor =>
          rw [Call.lift_bind_of_ok rfl, ok_bind]
          cases descriptor with
          | none => exact ih sound lower rest
          | some descriptor =>
              have inside := tried _ List.mem_cons_self descriptor looked
              have run := getSubNode_run parsed sound descriptor.physicalAddress
              generalize ended : getSubNode nodes descriptor.physicalAddress tree = result at run
              cases run with
              | refused code read =>
                  obtain ⟨cache, same, tame⟩ := ih sound lower rest
                  refine ⟨cache, ?_, tame⟩
                  simp only [read, fail]
                  rw [Call.bind_of_ok (attempt_refused ended)]
                  exact same
              | obtained reference cache checked own tame held =>
                  have tame := @Tame.mono _ _ blocks _ _ tame fun _ same => same ▸ inside
                  simp only []
                  rw [Call.bind_of_ok (attempt_ok ended)]
                  simp only []
                  rcases checked with sub | ⟨here, root⟩
                  · rw [own] at sub
                    simp only [sub]
                    by_cases level : reference.value.node.level = expectedLevel
                    · rw [if_pos level, if_pos level]
                      exact ⟨cache, rfl, tame⟩
                    · rw [if_neg level, if_neg level]
                      obtain ⟨cache', same, tame'⟩ := ih held.sound lower rest
                      exact ⟨cache', same, tame.trans tame'⟩
                  · have higher := lower _ root
                    rw [if_neg (show ¬reference.value.node.level = expectedLevel by omega)]
                    obtain ⟨cache', same, tame'⟩ := ih held.sound lower rest
                    refine ⟨cache', ?_, tame.trans tame'⟩
                    rw [same]
                    rcases outcome_returns (FileSystemBtree.getSubNode_returns parsed descriptor.physicalAddress) with
                      ⟨node, read, _⟩ | ⟨⟨code, read⟩, _⟩
                    · rw [← here, own] at root
                      exact (FileSystemBtree.getSubNode_root read root).elim
                    · simp only [read]

theorem resolveEntry_eq (nodes : Nat → Result BtreeNode) (btree : FileSystemBtree) (node : BtreeNode)
    (entry : Option BtreeEntry) (transactionIdentifier : Nat) :
    FileSystemBtree.resolveEntry nodes btree node entry transactionIdentifier =
      entryCandidates btree node entry >>=
        FileSystemBtree.firstCandidate nodes btree transactionIdentifier (node.level - 1) := by
  unfold FileSystemBtree.resolveEntry entryCandidates
  split_ifs with lowest
  · rfl
  · cases entry with
    | none => rfl
    | some entry => simp only [bind_assoc]

theorem entryCandidates_ok {node : BtreeNode} {entry : Option BtreeEntry}
    {candidates : List (Nat × BranchChildOidEncoding)} (ok : entryCandidates btree node entry = .ok candidates) :
    0 < node.level ∧ ∃ found, entry = some found := by
  unfold entryCandidates at ok
  split_ifs at ok with lowest
  · cases ok
  · cases entry with
    | none => cases ok
    | some entry => exact ⟨Nat.pos_of_ne_zero lowest, entry, rfl⟩

theorem learnEncoding_tame (encoding : BranchChildOidEncoding) (tree : CachedBtree) :
    Tame nodes blocks tree (learnEncoding encoding tree) where
  within := Within.refl tree.nodeCache
  sound sound := by
    refine ⟨sound.valid, fun value member => ?_⟩
    have same := (FileSystemBtree.learnEncoding_learns encoding tree.btree).rootNodeBlockNumber
    unfold learnEncoding
    rw [same]
    exact sound.checked value member
  learns := FileSystemBtree.learnEncoding_learns encoding tree.btree

section require

variable {reference : NodeReference} (parsed : Parsed nodes) (held : Held nodes blocks reference tree)
  (few : Few tree.nodeCache.capacity blocks)
  (lower : FileSystemBtree.Beneath nodes tree.btree.rootNodeBlockNumber reference.value.node.level)
  {entry : Option BtreeEntry}
  (tried : ∀ found, entry = some found → ∀ blockNumber,
    FileSystemBtree.Tries nodes tree.btree transactionIdentifier found blockNumber → blocks blockNumber)

include parsed held few lower tried

theorem getSubNodeBlockNumberFromEntry_follows :
    Call.Follows CachedBtree.btree (Tame nodes blocks)
      (getSubNodeBlockNumberFromEntry nodes transactionIdentifier reference entry)
      (FileSystemBtree.getSubNodeBlockNumberFromEntry nodes reference.value.node entry transactionIdentifier) tree := by
  obtain ⟨used, tame⟩ := @useNode_held _ _ blocks _ _ held few
  have held' := held.later tame
  refine Call.Follows.bind_left Tame.trans used rfl tame (Call.follows_self_bind ?_)
  rw [resolveEntry_eq]
  cases looked : entryCandidates tree.btree reference.value.node entry with
  | error failure => exact Call.follows_lift (Tame.refl _) _
  | ok candidates =>
      obtain ⟨branch, found, rfl⟩ := entryCandidates_ok looked
      have expected : reference.value.node.level - 1 + 1 = reference.value.node.level := Nat.sub_add_cancel branch
      obtain ⟨cache, same, tame'⟩ := @firstCandidate_follows _ blocks transactionIdentifier _ parsed
        (reference.value.node.level - 1) candidates held'.sound (expected.symm ▸ lower)
        fun candidate member descriptor leads =>
          tried found rfl _ ⟨_, FileSystemBtree.mem_entryCandidates looked member, descriptor, leads, rfl⟩
      refine Call.Follows.bind Tame.trans ⟨?_, ?_⟩ fun found later _ _ _ => ?_
      · rw [same]
        rfl
      · rw [same]
        exact tame'
      · rcases found with _ | ⟨blockNumber, encoding⟩
        · exact Call.follows_pure (Tame.refl later) _
        · exact Call.follows_update_bind Tame.trans rfl (learnEncoding_tame encoding later)
            (Call.follows_pure (Tame.refl _) _)

theorem requireSubNodeBlockNumber_follows :
    Call.Follows CachedBtree.btree (Tame nodes blocks)
      (requireSubNodeBlockNumber nodes transactionIdentifier reference entry)
      (FileSystemBtree.requireSubNodeBlockNumber nodes reference.value.node entry transactionIdentifier) tree := by
  refine Call.Follows.bind Tame.trans (getSubNodeBlockNumberFromEntry_follows parsed held few lower tried)
    fun found later _ _ _ => ?_
  cases found with
  | none => exact Call.follows_lift (Tame.refl later) _
  | some blockNumber => exact Call.follows_pure (Tame.refl later) _

end require

theorem firstCandidate_mem {expectedLevel blockNumber : Nat} {encoding : BranchChildOidEncoding}
    {candidates : List (Nat × BranchChildOidEncoding)}
    (run : FileSystemBtree.firstCandidate nodes btree transactionIdentifier expectedLevel candidates =
      .ok (some (blockNumber, encoding))) :
    ∃ candidate ∈ candidates, ∃ descriptor, ObjectMapBtree.getDescriptorByObjectIdentifier nodes btree.objectMapBtree
      candidate.1 transactionIdentifier = .ok (some descriptor) ∧ descriptor.physicalAddress = blockNumber := by
  induction candidates with
  | nil => cases run
  | cons candidate candidates ih =>
      obtain ⟨descriptor, looked, run⟩ := bind_eq_ok.mp run
      cases descriptor with
      | none => exact List.exists_mem_cons_of_exists (ih run)
      | some descriptor =>
          simp only [] at run
          split at run
          next =>
            split_ifs at run
            · cases run
              exact ⟨candidate, List.mem_cons_self, descriptor, looked, rfl⟩
            · exact List.exists_mem_cons_of_exists (ih run)
          next => exact List.exists_mem_cons_of_exists (ih run)
          next => cases run

theorem requireSubNodeBlockNumber_tries {node : BtreeNode} {entry : Option BtreeEntry} {blockNumber : Nat}
    {btree' : FileSystemBtree}
    (run : FileSystemBtree.requireSubNodeBlockNumber nodes node entry transactionIdentifier btree =
      (.ok blockNumber, btree')) :
    ∃ found, entry = some found ∧ FileSystemBtree.Tries nodes btree transactionIdentifier found blockNumber := by
  obtain ⟨number, later, run, next⟩ := Call.bind_ok run
  cases number with
  | none => cases next
  | some number =>
      cases next
      rw [FileSystemBtree.getSubNodeBlockNumberFromEntry, Call.self_bind, resolveEntry_eq] at run
      obtain ⟨resolved, middle, lifted, next⟩ := Call.bind_ok run
      obtain ⟨resolves, rfl⟩ := Call.lift_ok lifted
      obtain ⟨candidates, looked, first⟩ := bind_eq_ok.mp resolves
      obtain ⟨_, found, rfl⟩ := entryCandidates_ok looked
      rcases resolved with _ | ⟨number', encoding⟩
      · cases next
      · cases next
        obtain ⟨candidate, member, leads⟩ := firstCandidate_mem first
        exact ⟨found, rfl, candidate.1, FileSystemBtree.mem_entryCandidates looked member, leads⟩

end Fsapfs.CachedBtree

namespace Fsapfs.CachedListing
open Program NodeCache CachedBtree

variable {nodes : Nat → Result BtreeNode} {blocks : Nat → Prop} {btree : FileSystemBtree} {capacity : Option Nat}
  {transactionIdentifier identifier : Nat} {κ α : Type} {kind : FileSystemBtree.RecordKind κ}
  {listing : CachedListing κ} {reference : NodeReference}

def plain (listing : CachedListing κ) : Listing κ where
  btree := listing.tree.btree
  records := listing.records

/-- A call that has the result, and leaves the records and the handle, of a plain one, and that accesses only these
blocks. -/
def Matches (nodes : Nat → Result BtreeNode) (blocks : Nat → Prop) (call : ListingCall κ α)
    (call' : Listing.ListingCall κ α) (listing : CachedListing κ) : Prop :=
  Call.Follows plain (fun listing listing' => Tame nodes blocks listing.tree listing'.tree) call call' listing

theorem matches_pure (a : α) : Matches nodes blocks (pure a) (pure a) listing := ⟨rfl, Tame.refl listing.tree⟩

theorem matches_lift (result : Result α) : Matches nodes blocks (Call.lift result) (Call.lift result) listing :=
  ⟨rfl, Tame.refl listing.tree⟩

theorem onTree_matches {call : CachedCall α} {call' : FileSystemBtree.TreeCall α}
    (follows : Call.Follows CachedBtree.btree (Tame nodes blocks) call call' listing.tree) :
    Matches nodes blocks (onTree call) (Listing.onBtree call') listing := by
  obtain ⟨same, tame⟩ := follows
  have ended : Listing.onBtree call' (plain listing) =
      ((call' listing.tree.btree).1, { btree := (call' listing.tree.btree).2, records := listing.records }) := rfl
  refine ⟨?_, tame⟩
  rw [ended, same]
  rfl

theorem emptyOnError_of_ok {call : ListingCall κ α} {listing' : CachedListing κ} {a : α}
    (run : call listing = (.ok a, listing')) : emptyOnError call listing = (.ok a, listing') := by
  unfold emptyOnError
  rw [run]

theorem emptyOnError_of_error {call : ListingCall κ α} {listing' : CachedListing κ} {failure : Program.Failure ErrorCode}
    (run : call listing = (.error failure, listing')) : emptyOnError call listing = (.error failure, listing'.clear) := by
  unfold emptyOnError
  rw [run]

theorem plain_of_ok {call : Listing.ListingCall κ α} {listing listing' : Listing κ} {a : α}
    (run : call listing = (.ok a, listing')) : Listing.emptyOnError call listing = (.ok a, listing') := by
  unfold Listing.emptyOnError
  rw [run]

theorem plain_of_error {call : Listing.ListingCall κ α} {listing listing' : Listing κ} {failure : Program.Failure ErrorCode}
    (run : call listing = (.error failure, listing')) :
    Listing.emptyOnError call listing = (.error failure, listing'.clear) := by
  unfold Listing.emptyOnError
  rw [run]

theorem emptyOnError_matches {call : ListingCall κ α} {call' : Listing.ListingCall κ α}
    (matched : Matches nodes blocks call call' listing) :
    Matches nodes blocks (emptyOnError call) (Listing.emptyOnError call') listing := by
  obtain ⟨same, tame⟩ := matched
  unfold Matches Call.Follows
  cases run : call listing with
  | mk result listing' =>
      rw [run] at same tame
      cases result with
      | ok a =>
          rw [emptyOnError_of_ok run, plain_of_ok same]
          exact ⟨rfl, tame⟩
      | error failure =>
          rw [emptyOnError_of_error run, plain_of_error same]
          exact ⟨rfl, tame⟩

theorem useNode_run (held : Held nodes blocks reference listing.tree)
    (few : Few listing.tree.nodeCache.capacity blocks) :
    ∃ listing', useNode reference listing = (.ok (), listing') ∧ plain listing' = plain listing ∧
      Tame nodes blocks listing.tree listing'.tree := by
  obtain ⟨used, tame⟩ := @useNode_held _ _ blocks _ _ held few
  refine ⟨{ listing with tree := { listing.tree with nodeCache := use reference listing.tree.nodeCache } },
    ?_, rfl, tame⟩
  unfold useNode onTree
  rw [used]

theorem appendLeafRecords_matches (found : Bool) (entries : List BtreeEntry) :
    Matches nodes blocks (appendLeafRecords kind identifier found entries)
      (FileSystemBtree.appendLeafRecords kind identifier found entries) listing := by
  induction entries generalizing found listing with
  | nil => exact matches_pure found
  | cons entry entries ih =>
      refine Call.follows_lift_bind (Tame.refl listing.tree) fun fileSystemIdentifier _ => ?_
      split_ifs
      · exact matches_pure found
      · refine Call.follows_lift_bind (Tame.refl listing.tree) fun record _ => ?_
        exact Call.follows_update_bind Tame.trans rfl (Tame.refl listing.tree) (ih true)
      · exact ih found

theorem getRecordsFromLeafNode_matches (held : Held nodes blocks reference listing.tree)
    (few : Few listing.tree.nodeCache.capacity blocks) :
    Matches nodes blocks (getRecordsFromLeafNode kind identifier reference)
      (FileSystemBtree.getRecordsFromLeafNode kind identifier reference.value.node) listing := by
  refine emptyOnError_matches ?_
  split_ifs
  · obtain ⟨listing', used, same, tame⟩ := useNode_run held few
    exact Call.Follows.bind_left Tame.trans used same tame (appendLeafRecords_matches false _)
  · exact matches_lift _

structure At (nodes : Nat → Result BtreeNode) (blocks : Nat → Prop) (btree : FileSystemBtree)
    (capacity : Option Nat) (reference : NodeReference) (listing : CachedListing κ) : Prop where
  current : Current nodes btree capacity listing.tree
  held : Held nodes blocks reference listing.tree

theorem At.later {listing' : CachedListing κ} (here : At nodes blocks btree capacity reference listing)
    (tame : Tame nodes blocks listing.tree listing'.tree) : At nodes blocks btree capacity reference listing' :=
  ⟨here.current.later tame, here.held.later tame⟩

theorem At.few (here : At nodes blocks btree capacity reference listing) (few : Few capacity blocks) :
    Few listing.tree.nodeCache.capacity blocks :=
  here.current.capacity ▸ few

section branch

variable {next : Nat → ListingCall κ Bool} {next' : Nat → Listing.ListingCall κ Bool} (parsed : Parsed nodes)
  (few : Few capacity blocks)
  (lower : FileSystemBtree.Beneath nodes btree.rootNodeBlockNumber reference.value.node.level)
  (tried : ∀ entry ∈ FileSystemBtree.visited kind identifier none reference.value.node.entries, ∀ blockNumber,
    FileSystemBtree.Tries nodes btree transactionIdentifier entry blockNumber → blocks blockNumber)
  (continues : ∀ entry ∈ FileSystemBtree.visited kind identifier none reference.value.node.entries,
    ∀ blockNumber subNode, FileSystemBtree.Tries nodes btree transactionIdentifier entry blockNumber →
      FileSystemBtree.getSubNode nodes blockNumber = .ok subNode → subNode.level + 1 = reference.value.node.level →
      ∀ listing : CachedListing κ, Current nodes btree capacity listing.tree →
        Matches nodes blocks (next blockNumber) (next' blockNumber) listing)

include parsed few lower tried continues

theorem visitEntry_matches {entry : Option BtreeEntry}
    (inside : ∀ found, entry = some found →
      found ∈ FileSystemBtree.visited kind identifier none reference.value.node.entries)
    (here : At nodes blocks btree capacity reference listing) :
    Matches nodes blocks (visitEntry nodes transactionIdentifier next reference entry)
      (FileSystemBtree.visitEntry nodes transactionIdentifier next' reference.value.node entry) listing := by
  have learns := here.current.learns
  have required := @requireSubNodeBlockNumber_follows _ blocks transactionIdentifier listing.tree reference parsed
    here.held (here.few few) (learns.rootNodeBlockNumber ▸ lower) entry fun found same blockNumber tries =>
      tried found (inside found same) blockNumber (tries.of_learned learns)
  refine Call.Follows.bind Tame.trans (onTree_matches required) fun blockNumber listing' _ run tame => ?_
  have resolved : FileSystemBtree.requireSubNodeBlockNumber nodes reference.value.node entry transactionIdentifier
      listing.tree.btree = (.ok blockNumber, listing'.tree.btree) :=
    Prod.ext (Prod.ext_iff.mp run).1 (congrArg Listing.btree (Prod.ext_iff.mp run).2)
  obtain ⟨found, rfl, tries⟩ := requireSubNodeBlockNumber_tries resolved
  obtain ⟨subNode, read, level⟩ := FileSystemBtree.requireSubNodeBlockNumber_level resolved
  exact continues found (inside found rfl) blockNumber subNode (tries.of_learned learns) read level listing'
    (here.current.later tame)

theorem visitBranchEntries_matches {previousEntry : Option BtreeEntry} {found : Bool} {entries : List BtreeEntry}
    (inside : ∀ entry ∈ FileSystemBtree.visited kind identifier previousEntry entries,
      entry ∈ FileSystemBtree.visited kind identifier none reference.value.node.entries)
    (here : At nodes blocks btree capacity reference listing) :
    Matches nodes blocks
      (visitBranchEntries nodes kind identifier transactionIdentifier next reference previousEntry found entries)
      (FileSystemBtree.visitBranchEntries nodes kind identifier transactionIdentifier next' reference.value.node
        previousEntry found entries) listing := by
  induction entries generalizing previousEntry found listing with
  | nil =>
      refine Call.Follows.bind Tame.trans (visitEntry_matches parsed few lower tried continues ?_ here)
        fun result listing' _ _ _ => matches_pure _
      rintro entry rfl
      exact inside entry (by simp [FileSystemBtree.visited])
  | cons entry entries ih =>
      obtain ⟨listing', used, same, tame⟩ := useNode_run here.held (here.few few)
      refine Call.Follows.bind_left Tame.trans used same tame ?_
      refine Call.follows_lift_bind (Tame.refl listing'.tree) fun step examined => ?_
      have here' := here.later tame
      cases step with
      | stop =>
          rw [FileSystemBtree.visited_stop examined] at inside
          refine Call.Follows.bind Tame.trans (visitEntry_matches parsed few lower tried continues ?_ here')
            fun result listing' _ _ _ => matches_pure _
          rintro previous rfl
          exact inside previous (by simp)
      | pass =>
          rw [FileSystemBtree.visited_pass examined] at inside
          cases previousEntry with
          | none => exact ih inside here'
          | some previous => exact ih inside here'
      | visitPrevious =>
          rw [FileSystemBtree.visited_previous examined] at inside
          cases previousEntry with
          | none => exact ih inside here'
          | some previous =>
              refine Call.Follows.bind Tame.trans (visitEntry_matches parsed few lower tried continues ?_ here')
                fun result listing' _ _ tame' => ih ?_ (here'.later tame')
              · rintro _ ⟨⟩
                exact inside previous List.mem_cons_self
              · exact fun entry' member => inside entry' (List.mem_cons_of_mem previous member)

theorem getRecordsFromBranchNode_matches (here : At nodes blocks btree capacity reference listing) :
    Matches nodes blocks (getRecordsFromBranchNode nodes kind identifier transactionIdentifier next reference)
      (FileSystemBtree.getRecordsFromBranchNode nodes kind identifier transactionIdentifier next'
        reference.value.node) listing := by
  refine emptyOnError_matches ?_
  split_ifs
  · exact matches_lift _
  · exact visitBranchEntries_matches parsed few lower tried continues (fun _ => id) here

end branch

theorem getSubNode_matches {β : Type} {call : NodeReference → ListingCall κ β}
    {call' : BtreeNode → Listing.ListingCall κ β} {blockNumber : Nat} {subNode : BtreeNode} (parsed : Parsed nodes)
    (current : Current nodes btree capacity listing.tree)
    (read : FileSystemBtree.getSubNode nodes blockNumber = .ok subNode) (inside : blocks blockNumber)
    (continues : ∀ (reference : NodeReference) (listing : CachedListing κ), reference.value.node = subNode →
      At nodes blocks btree capacity reference listing → Matches nodes blocks (call reference) (call' subNode) listing) :
    Matches nodes blocks (onTree (getSubNode nodes blockNumber) >>= call)
      (Call.lift (FileSystemBtree.getSubNode nodes blockNumber) >>= call') listing := by
  obtain ⟨reference, cache, run, same, tame, held⟩ := getSubNode_ok parsed current.sound read
  have tame' : Tame nodes blocks listing.tree { listing.tree with nodeCache := cache } :=
    tame.mono fun _ same => same ▸ inside
  have ended : onTree (getSubNode nodes blockNumber) listing =
      (.ok reference, { listing with tree := { listing.tree with nodeCache := cache } }) := by
    unfold onTree
    rw [run]
  rw [read]
  refine Call.Follows.bind_left Tame.trans ended rfl tame' ?_
  exact continues reference _ same ⟨current.later tame', held.mono fun _ impossible => impossible.elim⟩

section recursion

variable (parsed : Parsed nodes) (few : Few capacity blocks)

include parsed few

theorem getRecordsFromNode_matches {next : Nat → ListingCall κ Bool} {next' : Nat → Listing.ListingCall κ Bool}
    (lower : FileSystemBtree.Beneath nodes btree.rootNodeBlockNumber reference.value.node.level)
    (covered : ∀ blockNumber, FileSystemBtree.Touches nodes btree transactionIdentifier kind identifier
      reference.value.node blockNumber → blocks blockNumber)
    (continues : ∀ blockNumber subNode, FileSystemBtree.getSubNode nodes blockNumber = .ok subNode →
      blocks blockNumber → subNode.level + 1 = reference.value.node.level →
      (∀ blockNumber, FileSystemBtree.Touches nodes btree transactionIdentifier kind identifier subNode blockNumber →
        blocks blockNumber) → ∀ listing : CachedListing κ, Current nodes btree capacity listing.tree →
        Matches nodes blocks (next blockNumber) (next' blockNumber) listing)
    (here : At nodes blocks btree capacity reference listing) :
    Matches nodes blocks (getRecordsFromNode nodes kind identifier transactionIdentifier next reference)
      (FileSystemBtree.getRecordsFromNode nodes kind identifier transactionIdentifier next' reference.value.node)
      listing := by
  unfold getRecordsFromNode FileSystemBtree.getRecordsFromNode
  by_cases leaf : reference.value.node.isLeafNode
  · rw [if_pos leaf, if_pos leaf]
    exact getRecordsFromLeafNode_matches here.held (here.few few)
  · rw [if_neg leaf, if_neg leaf]
    have branch : reference.value.node.isLeafNode = false := by simpa using leaf
    apply getRecordsFromBranchNode_matches parsed few lower
    · intro entry member blockNumber tries
      exact covered blockNumber (.tried branch member tries)
    · intro entry member blockNumber subNode tries read level listing' current
      refine continues blockNumber subNode read (covered blockNumber (.tried branch member tries)) level ?_ listing'
        current
      intro blockNumber' touches
      exact covered blockNumber' (.beneath branch member tries read level touches)
    · exact here

theorem getRecordsFromSubNode_matches (depth : Nat) {blockNumber : Nat} {subNode : BtreeNode}
    (read : FileSystemBtree.getSubNode nodes blockNumber = .ok subNode) (inside : blocks blockNumber)
    (lower : FileSystemBtree.Beneath nodes btree.rootNodeBlockNumber subNode.level)
    (covered : ∀ blockNumber, FileSystemBtree.Touches nodes btree transactionIdentifier kind identifier subNode
      blockNumber → blocks blockNumber) (current : Current nodes btree capacity listing.tree) :
    Matches nodes blocks (getRecordsFromSubNode nodes kind identifier transactionIdentifier depth blockNumber)
      (FileSystemBtree.getRecordsFromSubNode nodes kind identifier transactionIdentifier depth blockNumber) listing := by
  induction depth generalizing blockNumber subNode listing with
  | zero =>
      refine getSubNode_matches parsed current read inside fun reference listing' same here => ?_
      subst same
      by_cases leaf : reference.value.node.isLeafNode
      · rw [if_pos leaf, if_pos leaf]
        exact getRecordsFromLeafNode_matches here.held (here.few few)
      · rw [if_neg leaf, if_neg leaf]
        exact matches_lift _
  | succ depth ih =>
      refine getSubNode_matches parsed current read inside fun reference listing' same here => ?_
      subst same
      apply getRecordsFromNode_matches parsed few lower covered
      · intro blockNumber' subNode' read' inside' level covered' listing'' current'
        refine ih read' inside' (fun root rooted => ?_) covered' current'
        have higher := lower root rooted
        omega
      · exact here

end recursion

section root

variable {root : BtreeNode} {tree : CachedBtree}

theorem getRootNode_small (rooted : FileSystemBtree.getRootNode nodes btree.rootNodeBlockNumber = .ok (some root)) :
    ¬btree.rootNodeBlockNumber > intMax := by
  intro beyond
  rw [FileSystemBtree.getRootNode, if_pos beyond] at rooted
  cases rooted

theorem getRootNode_run (rooted : FileSystemBtree.getRootNode nodes btree.rootNodeBlockNumber = .ok (some root))
    (current : Current nodes btree capacity tree) :
    ∃ reference cache, getRootNode nodes tree = (.ok (some reference), { tree with nodeCache := cache }) ∧
      reference.value.node = root ∧ Tame nodes (· = btree.rootNodeBlockNumber) tree { tree with nodeCache := cache } ∧
      Held nodes (fun _ => False) reference { tree with nodeCache := cache } := by
  have same := current.learns.rootNodeBlockNumber
  rw [getRootNode, Call.self_bind, if_neg (same ▸ getRootNode_small rooted), same]
  unfold onCache obtainRootNode
  rw [Call.self_bind]
  cases found : tree.nodeCache.getValue btree.rootNodeBlockNumber with
  | some value =>
      have member : value ∈ tree.nodeCache.values := List.mem_of_find?_eq_some found
      have own : value.blockNumber = btree.rootNodeBlockNumber := by simpa using List.find?_some found
      have checked := current.sound.checked value member
      obtain ⟨tame, held⟩ := access_tame current.sound checked (Or.inl member)
      refine ⟨_, _, rfl, ?_, own ▸ tame, held⟩
      rcases checked with sub | ⟨_, root'⟩
      · exact (FileSystemBtree.getSubNode_root (own ▸ sub) rooted).elim
      · rw [same, rooted] at root'
        exact (Option.some.inj (Except.ok.inj root')).symm
  | none =>
      let value : CachedNode :=
        { blockNumber := btree.rootNodeBlockNumber, serial := tree.nodeCache.accesses.length, node := root }
      have checked : Checked nodes tree.btree.rootNodeBlockNumber value := by
        refine Or.inr ⟨same.symm, ?_⟩
        rw [same]
        exact rooted
      obtain ⟨tame, held⟩ := access_tame current.sound checked (Or.inr (getValue_fresh found))
      rw [rooted]
      exact ⟨_, _, rfl, rfl, tame, held⟩

def Accessed (nodes : Nat → Result BtreeNode) (btree : FileSystemBtree) (transactionIdentifier : Nat)
    (kind : FileSystemBtree.RecordKind κ) (identifier : Nat) (blockNumber : Nat) : Prop :=
  blockNumber = btree.rootNodeBlockNumber ∨
    ∃ root, FileSystemBtree.getRootNode nodes btree.rootNodeBlockNumber = .ok (some root) ∧
      FileSystemBtree.Touches nodes btree transactionIdentifier kind identifier root blockNumber

theorem getRecords_matches (parsed : Parsed nodes)
    (rooted : FileSystemBtree.getRootNode nodes btree.rootNodeBlockNumber = .ok (some root))
    (few : Few capacity (Accessed nodes btree transactionIdentifier kind identifier))
    (current : Current nodes btree capacity listing.tree) :
    Matches nodes (Accessed nodes btree transactionIdentifier kind identifier)
      (getRecords nodes kind identifier transactionIdentifier)
      (FileSystemBtree.getRecords nodes kind identifier transactionIdentifier) listing := by
  refine emptyOnError_matches ?_
  obtain ⟨reference, cache, run, rfl, tame, held⟩ := getRootNode_run rooted current
  have tame' : Tame nodes (Accessed nodes btree transactionIdentifier kind identifier) listing.tree
      { listing.tree with nodeCache := cache } := tame.mono fun _ => Or.inl
  have ended : onTree (getRootNode nodes) listing =
      (.ok (some reference), { listing with tree := { listing.tree with nodeCache := cache } }) := by
    unfold onTree
    rw [run]
  refine Call.Follows.bind_left Tame.trans ended rfl tame' ?_
  have read : FileSystemBtree.getRootNode nodes listing.tree.btree.rootNodeBlockNumber =
      .ok (some reference.value.node) := by
    rw [current.learns.rootNodeBlockNumber]
    exact rooted
  refine Call.Follows.bind_right rfl (Call.Follows.bind_right (congrArg (·, _) read) ?_)
  apply getRecordsFromNode_matches parsed few
  · intro root rooted'
    rw [rooted] at rooted'
    cases rooted'
    exact Nat.le_refl _
  · exact fun blockNumber touches => Or.inr ⟨_, rooted, touches⟩
  · intro blockNumber subNode sub inside level covered listing' current'
    refine getRecordsFromSubNode_matches parsed few maximumBtreeNodeRecursionDepth sub inside ?_ covered current'
    intro root rooted'
    rw [rooted] at rooted'
    cases rooted'
    omega
  · exact ⟨current.later tame', held.mono fun _ impossible => impossible.elim⟩

theorem getRootNode_unrooted (unrooted : ∀ root,
    FileSystemBtree.getRootNode nodes tree.btree.rootNodeBlockNumber ≠ .ok (some root))
    (empty : tree.nodeCache.values = []) :
    getRootNode nodes tree =
      ((FileSystemBtree.getRootNode nodes tree.btree.rootNodeBlockNumber).map fun _ => none, tree) := by
  rw [getRootNode, Call.self_bind]
  by_cases beyond : tree.btree.rootNodeBlockNumber > intMax
  · rw [if_pos beyond, FileSystemBtree.getRootNode, if_pos beyond]
    rfl
  · have absent : tree.nodeCache.getValue tree.btree.rootNodeBlockNumber = none := by
      rw [getValue, empty]
      rfl
    rw [if_neg beyond]
    unfold onCache obtainRootNode
    rw [Call.self_bind, absent]
    rcases read : FileSystemBtree.getRootNode nodes tree.btree.rootNodeBlockNumber with failure | (_ | root)
    · rfl
    · rfl
    · exact absurd read (unrooted root)

theorem getRecords_unrooted (unrooted : ∀ root,
    FileSystemBtree.getRootNode nodes listing.tree.btree.rootNodeBlockNumber ≠ .ok (some root))
    (empty : listing.tree.nodeCache.values = []) :
    Matches nodes blocks (getRecords nodes kind identifier transactionIdentifier)
        (FileSystemBtree.getRecords nodes kind identifier transactionIdentifier) listing ∧
      (getRecords nodes kind identifier transactionIdentifier listing).2.tree = listing.tree := by
  have got := getRootNode_unrooted unrooted empty
  have read : (plain listing).btree = listing.tree.btree := rfl
  have ended : onTree (getRootNode nodes) listing =
      ((FileSystemBtree.getRootNode nodes listing.tree.btree.rootNodeBlockNumber).map fun _ => none, listing) := by
    unfold onTree
    rw [got]
  unfold Matches Call.Follows getRecords getRecordsWithin FileSystemBtree.getRecords FileSystemBtree.getRecordsWithin
  rcases looked : FileSystemBtree.getRootNode nodes listing.tree.btree.rootNodeBlockNumber with failure | (_ | root)
  · rw [looked] at ended
    rw [emptyOnError_of_error (Call.bind_of_error ended _),
      plain_of_error ((Call.self_bind _ _).trans (Call.lift_bind_of_error looked _ _))]
    exact ⟨⟨rfl, Tame.refl listing.tree⟩, rfl⟩
  · rw [looked] at ended
    rw [emptyOnError_of_ok (Call.bind_of_ok ended _),
      plain_of_ok ((Call.self_bind _ _).trans (Call.lift_bind_of_ok looked _ _))]
    exact ⟨⟨rfl, Tame.refl listing.tree⟩, rfl⟩
  · exact absurd looked (unrooted root)

end root

end Fsapfs.CachedListing

namespace Fsapfs
open Program

inductive ListingRequest
  | directoryEntries (identifier transactionIdentifier : Nat)
  | attributes (identifier transactionIdentifier : Nat)
  | fileExtents (identifier transactionIdentifier : Nat)

inductive ListedRecords
  | directoryEntries (records : List DirectoryRecord)
  | attributes (records : List ExtendedAttribute)
  | fileExtents (records : List FileExtent)

namespace CachedBtree

def list {κ : Type} (call : CachedListing.ListingCall κ Bool) (tree : CachedBtree) : (Result Bool × List κ) × CachedBtree :=
  let ended := call { tree, records := [] }
  ((ended.1, ended.2.records), ended.2.tree)

def perform (nodes : Nat → Result BtreeNode) :
    ListingRequest → CachedBtree → (Result Bool × ListedRecords) × CachedBtree
  | .directoryEntries identifier transactionIdentifier => fun tree =>
      Prod.map (Prod.map id .directoryEntries) id
        (list (CachedListing.getDirectoryEntries nodes identifier transactionIdentifier) tree)
  | .attributes identifier transactionIdentifier => fun tree =>
      Prod.map (Prod.map id .attributes) id
        (list (CachedListing.getAttributes nodes identifier transactionIdentifier) tree)
  | .fileExtents identifier transactionIdentifier => fun tree =>
      Prod.map (Prod.map id .fileExtents) id
        (list (CachedListing.getFileExtents nodes identifier transactionIdentifier) tree)

end CachedBtree

namespace FileSystemBtree

def list {κ : Type} (call : Listing.ListingCall κ Bool) (btree : FileSystemBtree) :
    (Result Bool × List κ) × FileSystemBtree :=
  let ended := call { btree, records := [] }
  ((ended.1, ended.2.records), ended.2.btree)

def perform (nodes : Nat → Result BtreeNode) :
    ListingRequest → FileSystemBtree → (Result Bool × ListedRecords) × FileSystemBtree
  | .directoryEntries identifier transactionIdentifier => fun btree =>
      Prod.map (Prod.map id .directoryEntries) id
        (list (getDirectoryEntries nodes identifier transactionIdentifier) btree)
  | .attributes identifier transactionIdentifier => fun btree =>
      Prod.map (Prod.map id .attributes) id (list (getAttributes nodes identifier transactionIdentifier) btree)
  | .fileExtents identifier transactionIdentifier => fun btree =>
      Prod.map (Prod.map id .fileExtents) id (list (getFileExtents nodes identifier transactionIdentifier) btree)

end FileSystemBtree

def ListingRequest.Accesses (nodes : Nat → Result BtreeNode) (btree : FileSystemBtree) : ListingRequest → Nat → Prop
  | .directoryEntries identifier transactionIdentifier =>
      CachedListing.Accessed nodes btree transactionIdentifier FileSystemBtree.directoryRecords identifier
  | .attributes identifier transactionIdentifier =>
      CachedListing.Accessed nodes btree transactionIdentifier FileSystemBtree.extendedAttributes identifier
  | .fileExtents identifier transactionIdentifier =>
      CachedListing.Accessed nodes btree transactionIdentifier FileSystemBtree.fileExtents identifier

namespace CachedBtree
open NodeCache

variable {nodes : Nat → Result BtreeNode} {btree : FileSystemBtree} {capacity : Option Nat} {tree : CachedBtree}

structure Usable (nodes : Nat → Result BtreeNode) (btree : FileSystemBtree) (capacity : Option Nat)
    (tree : CachedBtree) : Prop where
  current : Current nodes btree capacity tree
  unrooted : (∀ root, FileSystemBtree.getRootNode nodes btree.rootNodeBlockNumber ≠ .ok (some root)) →
    tree.nodeCache.values = []

theorem create_usable (libfcache : Libfcache) (room : capacity ≠ some 0) :
    Usable nodes btree capacity (create libfcache btree capacity) where
  current :=
    { sound := ⟨create_valid room, fun value member => by cases create_values libfcache capacity ▸ member⟩
      capacity := rfl
      learns := Or.inl rfl }
  unrooted _ := create_values libfcache capacity

theorem list_agrees {κ : Type} {kind : FileSystemBtree.RecordKind κ} {identifier transactionIdentifier : Nat}
    (parsed : Parsed nodes)
    (few : Few capacity (CachedListing.Accessed nodes btree transactionIdentifier kind identifier))
    (usable : Usable nodes btree capacity tree) :
    Prod.map id CachedBtree.btree (list (CachedListing.getRecords nodes kind identifier transactionIdentifier) tree) =
        FileSystemBtree.list (FileSystemBtree.getRecords nodes kind identifier transactionIdentifier) tree.btree ∧
      Usable nodes btree capacity
        (list (CachedListing.getRecords nodes kind identifier transactionIdentifier) tree).2 := by
  have current : Current nodes btree capacity (CachedListing.mk tree ([] : List κ)).tree := usable.current
  by_cases rooted : ∃ root, FileSystemBtree.getRootNode nodes btree.rootNodeBlockNumber = .ok (some root)
  · obtain ⟨root, rooted⟩ := rooted
    obtain ⟨same, tame⟩ := CachedListing.getRecords_matches parsed rooted few current
    refine ⟨?_, ⟨current.later tame, fun unrooted => absurd rooted (unrooted root)⟩⟩
    unfold FileSystemBtree.list
    rw [show Listing.mk tree.btree [] = CachedListing.plain { tree, records := [] } from rfl, same]
    rfl
  · have unrooted := not_exists.mp rooted
    have empty := usable.unrooted unrooted
    rw [← current.learns.rootNodeBlockNumber] at unrooted
    obtain ⟨⟨same, tame⟩, untouched⟩ := @CachedListing.getRecords_unrooted _ (fun _ => True) transactionIdentifier
      identifier _ kind { tree, records := [] } unrooted empty
    refine ⟨?_, ⟨current.later tame, fun _ => ?_⟩⟩
    · unfold FileSystemBtree.list
      rw [show Listing.mk tree.btree [] = CachedListing.plain { tree, records := [] } from rfl, same]
      rfl
    · unfold list
      simp only []
      rw [untouched]
      exact empty

theorem perform_agrees (parsed : Parsed nodes) {request : ListingRequest}
    (few : Few capacity (request.Accesses nodes btree)) (usable : Usable nodes btree capacity tree) :
    Prod.map id CachedBtree.btree (perform nodes request tree) = FileSystemBtree.perform nodes request tree.btree ∧
      Usable nodes btree capacity (perform nodes request tree).2 := by
  cases request with
  | directoryEntries identifier transactionIdentifier =>
      obtain ⟨same, usable'⟩ := list_agrees parsed few usable
      exact ⟨congrArg (Prod.map (Prod.map id ListedRecords.directoryEntries) id) same, usable'⟩
  | attributes identifier transactionIdentifier =>
      obtain ⟨same, usable'⟩ := list_agrees parsed few usable
      exact ⟨congrArg (Prod.map (Prod.map id ListedRecords.attributes) id) same, usable'⟩
  | fileExtents identifier transactionIdentifier =>
      obtain ⟨same, usable'⟩ := list_agrees parsed few usable
      exact ⟨congrArg (Prod.map (Prod.map id ListedRecords.fileExtents) id) same, usable'⟩

end CachedBtree

theorem FileSystemBtree.perform_returns {nodes : Nat → Result BtreeNode} (parsed : Parsed nodes)
    (request : ListingRequest) (btree : FileSystemBtree) : Returns (perform nodes request btree).1.1 := by
  cases request with
  | directoryEntries identifier transactionIdentifier =>
      exact getRecords_answers directoryRecords_returning parsed _
  | attributes identifier transactionIdentifier => exact getRecords_answers extendedAttributes_returning parsed _
  | fileExtents identifier transactionIdentifier => exact getRecords_answers fileExtents_returning parsed _

section runs

variable {nodes : Nat → Result BtreeNode} {btree : FileSystemBtree} {capacity : Option Nat}
  {requests : List ListingRequest}

/-- Whatever was listed before, a listing through the cache is the one without it, and uses no node that was freed. -/
theorem cachedListings_agree (libfcache : Libfcache) (parsed : Parsed nodes) (room : capacity ≠ some 0)
    (few : ∀ request ∈ requests, NodeCache.Few capacity (request.Accesses nodes btree)) :
    (outcomes (CachedBtree.perform nodes) (CachedBtree.create libfcache btree capacity) requests).map
        (Prod.map id CachedBtree.btree) = outcomes (FileSystemBtree.perform nodes) btree requests ∧
      ∀ outcome ∈ outcomes (CachedBtree.perform nodes) (CachedBtree.create libfcache btree capacity) requests,
        Returns outcome.1.1 := by
  have advance : ∀ request tree, NodeCache.Few capacity (request.Accesses nodes btree) →
      CachedBtree.Usable nodes btree capacity tree →
      Prod.map id CachedBtree.btree (CachedBtree.perform nodes request tree) =
          FileSystemBtree.perform nodes request tree.btree ∧
        CachedBtree.Usable nodes btree capacity (CachedBtree.perform nodes request tree).2 :=
    fun request tree few usable => CachedBtree.perform_agrees parsed few usable
  have same := outcomes_view CachedBtree.btree _ advance (CachedBtree.create_usable libfcache room) few
  refine ⟨same, fun outcome member => ?_⟩
  have listed : Prod.map id CachedBtree.btree outcome ∈ outcomes (FileSystemBtree.perform nodes) btree requests := by
    rw [← show _ = outcomes (FileSystemBtree.perform nodes) btree requests from same]
    exact List.mem_map_of_mem member
  have returns := @outcomes_forall _ _ _ (FileSystemBtree.perform nodes) (fun result => Returns result.1)
    (FileSystemBtree.perform_returns parsed) btree requests
  exact returns _ listed

end runs

namespace FileSystemBtree.Sample

theorem visited_subset {κ : Type} {kind : RecordKind κ} {identifier : Nat} (previousEntry : Option BtreeEntry)
    (entries : List BtreeEntry) :
    ∀ entry ∈ visited kind identifier previousEntry entries, entry ∈ previousEntry.toList ++ entries := by
  induction entries generalizing previousEntry with
  | nil => simp [visited]
  | cons first entries ih =>
      intro entry member
      rw [visited] at member
      split at member
      · cases member
      · exact List.mem_append_left _ member
      · rcases List.mem_append.mp member with member | member
        · exact List.mem_append_left _ member
        · exact List.mem_append_right _ (by simpa using ih (some first) entry member)
      · exact List.mem_append_right _ (by simpa using ih (some first) entry member)

theorem directory_tries {entry : BtreeEntry} {blockNumber : Nat}
    (member : entry ∈ [leadingEntry (inodeEntry 2) 7, leadingEntry (directoryEntry 2 [98, 0] 6) 8])
    (tries : Tries directory (btree 0) 1 entry blockNumber) : blockNumber = 3 ∨ blockNumber = 4 := by
  obtain ⟨objectIdentifier, which, descriptor, leads, rfl⟩ := tries
  have raw : objectIdentifier = subNodeObjectIdentifier entry := by
    rcases which with same | same
    · exact same
    · exact same.trans (Nat.zero_add _)
  subst raw
  rcases List.mem_pair.mp member with rfl | rfl
  · cases leads
    exact Or.inl rfl
  · cases leads
    exact Or.inr rfl

theorem directory_accessed {κ : Type} {kind : RecordKind κ} {identifier blockNumber : Nat}
    (accessed : CachedListing.Accessed directory (btree 0) 1 kind identifier blockNumber) : blockNumber ∈ [2, 3, 4] := by
  rcases accessed with rfl | ⟨root, rooted, touches⟩
  · exact List.mem_cons_self
  · cases rooted
    have leaf : ∀ {subNode : BtreeNode} {blockNumber : Nat}, subNode.isLeafNode →
        ¬Touches directory (btree 0) 1 kind identifier subNode blockNumber := by
      intro subNode blockNumber leaf touches
      cases touches with
      | tried branch => rw [leaf] at branch; cases branch
      | beneath branch => rw [leaf] at branch; cases branch
    cases touches with
    | tried branch member tries =>
        rcases directory_tries (visited_subset none _ _ member) tries with rfl | rfl <;> simp
    | beneath branch member tries read level touches =>
        rcases directory_tries (visited_subset none _ _ member) tries with rfl | rfl
        · cases read
          exact absurd touches (leaf rfl)
        · cases read
          exact absurd touches (leaf rfl)

theorem directory_parsed : Parsed directory := by
  intro blockNumber
  unfold directory
  split
  · exact fun _ => by simp [objectMapRoot]
  · exact fun _ => by simp [rootNode]
  · exact fun root => by cases root
  · exact fun root => by cases root
  · trivial

def listings : List ListingRequest :=
  [.directoryEntries 2 1, .attributes 2 1, .directoryEntries 5 1, .fileExtents 2 1, .directoryEntries 2 1]

theorem listings_few : ∀ request ∈ listings, NodeCache.Few (some 4) (request.Accesses directory (btree 0)) := by
  have few : ∀ {blocks : Nat → Prop}, (∀ blockNumber, blocks blockNumber → blockNumber ∈ [2, 3, 4]) →
      NodeCache.Few (some 4) blocks := by
    rintro blocks inside _ ⟨⟩
    exact ⟨[2, 3, 4], by simp, inside⟩
  simp only [listings, List.forall_mem_cons]
  exact ⟨few fun _ => directory_accessed, few fun _ => directory_accessed, few fun _ => directory_accessed,
    few fun _ => directory_accessed, few fun _ => directory_accessed, by simp⟩

end FileSystemBtree.Sample

theorem cachedListings_agree_sample :
    (outcomes (CachedBtree.perform FileSystemBtree.Sample.directory)
        (CachedBtree.create .lastAccess (FileSystemBtree.Sample.btree 0) (some 4)) FileSystemBtree.Sample.listings).map
        (Prod.map id CachedBtree.btree) =
      outcomes (FileSystemBtree.perform FileSystemBtree.Sample.directory) (FileSystemBtree.Sample.btree 0)
        FileSystemBtree.Sample.listings ∧
    ∀ outcome ∈ outcomes (CachedBtree.perform FileSystemBtree.Sample.directory)
        (CachedBtree.create .lastAccess (FileSystemBtree.Sample.btree 0) (some 4)) FileSystemBtree.Sample.listings,
      Returns outcome.1.1 :=
  cachedListings_agree .lastAccess FileSystemBtree.Sample.directory_parsed (by simp) FileSystemBtree.Sample.listings_few

end Fsapfs
