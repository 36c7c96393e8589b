import Fsapfs.Btree.PathLookup

namespace Fsapfs.FileSystemBtree
open Program

structure EntryCall where
  node : BtreeNode
  entry : Option BtreeEntry
  transactionIdentifier : Nat

section history

variable (nodes : Nat → Result BtreeNode)

/-- A sequence of calls from one handle to another, each of which finds a sub node. -/
inductive History : FileSystemBtree → List EntryCall → FileSystemBtree → Prop
  | nil (btree : FileSystemBtree) : History btree [] btree
  | cons {btree btree' handle : FileSystemBtree} {call : EntryCall} {calls : List EntryCall} {blockNumber : Nat}
      (found : getSubNodeBlockNumberFromEntry nodes call.node call.entry call.transactionIdentifier btree =
        (.ok (some blockNumber), btree'))
      (rest : History btree' calls handle) : History btree (call :: calls) handle

/-- The block that an object identifier leads to, if it holds a sub node of the level. -/
def candidateBlockNumber (btree : FileSystemBtree) (transactionIdentifier level objectIdentifier : Nat) :
    Result (Option Nat) := do
  let descriptor ← ObjectMapBtree.getDescriptorByObjectIdentifier nodes btree.objectMapBtree objectIdentifier
    transactionIdentifier
  match descriptor with
  | none => return none
  | some descriptor =>
      match getSubNode nodes descriptor.physicalAddress with
      | .ok subNode => if subNode.level = level then return some descriptor.physicalAddress else return none
      | .error (.error _) => return none
      | .error failure => .error failure

/-- At most one of the two object identifiers that a branch value can stand for leads anywhere, or they lead to
the same block, or both cannot be looked up. -/
def Unambiguous (btree : FileSystemBtree) (node : BtreeNode) (entry : BtreeEntry) (transactionIdentifier : Nat) :
    Prop :=
  let absolute := candidateBlockNumber nodes btree transactionIdentifier (node.level - 1)
    (subNodeObjectIdentifier entry)
  let relative := candidateBlockNumber nodes btree transactionIdentifier (node.level - 1)
    (btree.rootNodeObjectIdentifier + subNodeObjectIdentifier entry)
  absolute = .ok none ∨ relative = .ok none ∨ SameResult absolute relative

/-- The two object identifiers are tried: the entry belongs to a branch, holds a number, and the tree has an object
identifier that can be added to it. -/
structure HasCandidates (btree : FileSystemBtree) (node : BtreeNode) (entry : BtreeEntry) : Prop where
  branch : node.level ≠ 0
  sized : 8 ≤ entry.valueData.length
  rooted : btree.rootNodeObjectIdentifier ≠ 0
  fits : subNodeObjectIdentifier entry ≤ 2 ^ 64 - 1 - btree.rootNodeObjectIdentifier

end history

section resolution

variable {nodes : Nat → Result BtreeNode} {btree handle handle' : FileSystemBtree}

theorem firstCandidate_cons (transactionIdentifier level objectIdentifier : Nat) (encoding : BranchChildOidEncoding)
    (candidates : List (Nat × BranchChildOidEncoding)) :
    firstCandidate nodes btree transactionIdentifier level ((objectIdentifier, encoding) :: candidates) =
      (do
        let blockNumber ← candidateBlockNumber nodes btree transactionIdentifier level objectIdentifier
        match blockNumber with
        | some blockNumber => return some (blockNumber, encoding)
        | none => firstCandidate nodes btree transactionIdentifier level candidates) := by
  rw [firstCandidate, candidateBlockNumber]
  cases ObjectMapBtree.getDescriptorByObjectIdentifier nodes btree.objectMapBtree objectIdentifier
      transactionIdentifier with
  | error failure => rfl
  | ok descriptor =>
      cases descriptor with
      | none => rfl
      | some descriptor =>
          rw [ok_bind, ok_bind]
          dsimp only
          rcases getSubNode nodes descriptor.physicalAddress with (code | _ | _) | subNode
          · rfl
          · rfl
          · rfl
          · dsimp only
            by_cases expected : subNode.level = level
            · rw [if_pos expected, if_pos expected]
              rfl
            · rw [if_neg expected, if_neg expected]
              rfl

theorem firstCandidate_encoding (encoding : BranchChildOidEncoding) (transactionIdentifier level : Nat)
    (candidates : List (Nat × BranchChildOidEncoding)) :
    firstCandidate nodes { btree with branchChildOidEncoding := encoding } transactionIdentifier level candidates =
      firstCandidate nodes btree transactionIdentifier level candidates := by
  induction candidates with
  | nil => rfl
  | cons candidate candidates ih =>
      rw [firstCandidate_cons, firstCandidate_cons, ih]
      rfl

def either (first second : Result (Option Nat)) : Result (Option Nat) :=
  match first with
  | .ok none => second
  | result => result

theorem sameResult_either (first second : Result (Option Nat)) :
    SameResult (either first second) (either second first) ↔
      first = .ok none ∨ second = .ok none ∨ SameResult first second := by
  rcases first with failure | _ | blockNumber
  · rcases second with failure' | _ | blockNumber'
    · simp [either, SameResult]
    · simp [either, SameResult]
    · simp [either, SameResult]
  · rcases second with failure' | _ | blockNumber'
    · simp [either, SameResult]
    · simp [either, SameResult]
    · simp [either, SameResult]
  · rcases second with failure' | _ | blockNumber'
    · simp [either, SameResult]
    · simp [either, SameResult]
    · simp [either, SameResult]

theorem History.encoded {calls : List EntryCall} (history : History nodes btree calls handle) :
    handle = { btree with branchChildOidEncoding := handle.branchChildOidEncoding } := by
  induction history with
  | nil btree => rfl
  | @cons btree btree' handle call calls blockNumber found rest ih =>
      have learned : ∃ encoding, btree' = learnEncoding encoding btree := by
        unfold getSubNodeBlockNumberFromEntry at found
        rw [Call.self_bind] at found
        cases resolved : resolveEntry nodes btree call.node call.entry call.transactionIdentifier with
        | error failure => rw [resolved] at found; cases found
        | ok resolution =>
            rw [resolved] at found
            rcases resolution with _ | ⟨blockNumber, encoding⟩
            · cases found
            · cases found
              exact ⟨encoding, rfl⟩
      obtain ⟨encoding, rfl⟩ := learned
      rw [ih]
      unfold learnEncoding
      split <;> rfl

def resolvedBy (nodes : Nat → Result BtreeNode) (handle : FileSystemBtree) (node : BtreeNode)
    (entry : Option BtreeEntry) (transactionIdentifier : Nat) : Result (Option Nat) :=
  (resolveEntry nodes handle node entry transactionIdentifier).map (Option.map Prod.fst)

theorem getSubNodeBlockNumberFromEntry_value (node : BtreeNode) (entry : Option BtreeEntry)
    (transactionIdentifier : Nat) (handle : FileSystemBtree) :
    (getSubNodeBlockNumberFromEntry nodes node entry transactionIdentifier handle).1 =
      resolvedBy nodes handle node entry transactionIdentifier := by
  unfold getSubNodeBlockNumberFromEntry resolvedBy
  rw [Call.self_bind]
  rcases resolveEntry nodes handle node entry transactionIdentifier with failure | _ | ⟨blockNumber, encoding⟩
  · rfl
  · rfl
  · rfl

section encodings

variable {node : BtreeNode} {entry : BtreeEntry} {transactionIdentifier : Nat}

theorem firstCandidate_pair (level first second : Nat) (encoding encoding' : BranchChildOidEncoding) :
    (firstCandidate nodes btree transactionIdentifier level [(first, encoding), (second, encoding')]).map
        (Option.map Prod.fst) =
      either (candidateBlockNumber nodes btree transactionIdentifier level first)
        (candidateBlockNumber nodes btree transactionIdentifier level second) := by
  rw [firstCandidate_cons, firstCandidate_cons]
  rcases candidateBlockNumber nodes btree transactionIdentifier level first with failure | _ | blockNumber
  · rfl
  · rcases candidateBlockNumber nodes btree transactionIdentifier level second with failure | _ | blockNumber
    · rfl
    · rfl
    · rfl
  · rfl

theorem candidates_two {raw : Nat} (rooted : btree.rootNodeObjectIdentifier ≠ 0)
    (fits : raw ≤ 2 ^ 64 - 1 - btree.rootNodeObjectIdentifier) (encoding : BranchChildOidEncoding) :
    candidates { btree with branchChildOidEncoding := encoding } raw = .ok
      (if encoding = .relativeToRootOid then
        [(btree.rootNodeObjectIdentifier + raw, .relativeToRootOid), (raw, .absoluteOid)]
      else [(raw, .absoluteOid), (btree.rootNodeObjectIdentifier + raw, .relativeToRootOid)]) := by
  have inside : ¬raw > 2 ^ 64 - 1 - btree.rootNodeObjectIdentifier := Nat.not_lt.mpr fits
  have distinct : ¬(btree.rootNodeObjectIdentifier + raw = 0 ∨ btree.rootNodeObjectIdentifier + raw = raw) := by
    omega
  unfold candidates
  rw [if_neg rooted, if_neg inside, ok_bind]
  beta_reduce
  rw [if_neg distinct]
  split
  · rfl
  · rfl

theorem resolvedBy_candidates (candidates : HasCandidates btree node entry) (encoding : BranchChildOidEncoding) :
    resolvedBy nodes { btree with branchChildOidEncoding := encoding } node (some entry) transactionIdentifier =
      let absolute := candidateBlockNumber nodes btree transactionIdentifier (node.level - 1)
        (subNodeObjectIdentifier entry)
      let relative := candidateBlockNumber nodes btree transactionIdentifier (node.level - 1)
        (btree.rootNodeObjectIdentifier + subNodeObjectIdentifier entry)
      if encoding = .relativeToRootOid then either relative absolute else either absolute relative := by
  unfold resolvedBy resolveEntry
  rw [if_neg candidates.branch]
  simp only []
  rw [(requireData_ok (by simp)).mpr candidates.sized, ok_bind, loadLittleEndian64,
    loadLittleEndian_ok (by simpa using candidates.sized), ok_bind, List.drop_zero,
    show littleEndian (entry.valueData.take 8) = subNodeObjectIdentifier entry from rfl]
  rw [candidates_two candidates.rooted candidates.fits, ok_bind, firstCandidate_encoding]
  by_cases learned : encoding = .relativeToRootOid
  · rw [if_pos learned, if_pos learned]
    exact firstCandidate_pair _ _ _ _ _
  · rw [if_neg learned, if_neg learned]
    exact firstCandidate_pair _ _ _ _ _

theorem resolvedBy_settled {entry : Option BtreeEntry}
    (settled : ∀ found, entry = some found → ¬HasCandidates btree node found) (encoding encoding' : BranchChildOidEncoding) :
    resolvedBy nodes { btree with branchChildOidEncoding := encoding } node entry transactionIdentifier =
      resolvedBy nodes { btree with branchChildOidEncoding := encoding' } node entry transactionIdentifier := by
  unfold resolvedBy resolveEntry
  by_cases branch : node.level = 0
  · rw [if_pos branch, if_pos branch]
  · rw [if_neg branch, if_neg branch]
    cases entry with
    | none => rfl
    | some entry =>
        simp only []
        by_cases sized : 8 ≤ entry.valueData.length
        · rw [(requireData_ok (by simp)).mpr sized, ok_bind, ok_bind, loadLittleEndian64,
            loadLittleEndian_ok (by simpa using sized), ok_bind, ok_bind, List.drop_zero,
            show littleEndian (entry.valueData.take 8) = subNodeObjectIdentifier entry from rfl]
          simp only [firstCandidate_encoding]
          have same : candidates { btree with branchChildOidEncoding := encoding } (subNodeObjectIdentifier entry) =
              candidates { btree with branchChildOidEncoding := encoding' } (subNodeObjectIdentifier entry) := by
            unfold candidates
            by_cases unset : btree.rootNodeObjectIdentifier = 0
            · rw [if_pos unset, if_pos unset]
              rfl
            · have beyond : subNodeObjectIdentifier entry > 2 ^ 64 - 1 - btree.rootNodeObjectIdentifier := by
                by_contra inside
                exact settled entry rfl ⟨branch, sized, unset, Nat.not_lt.mp inside⟩
              rw [if_neg unset, if_neg unset, if_pos beyond, if_pos beyond]
              rfl
          rw [same]
        · cases required : requireData entry.valueData 8 with
          | ok _ => exact absurd ((requireData_ok (by simp)).mp required) sized
          | error failure => rfl

end encodings

end resolution

theorem sameResult_comm {β : Type} (result result' : Result β) : SameResult result result' ↔ SameResult result' result := by
  rcases result with failure | a
  · rcases result' with failure' | b
    · exact Iff.rfl
    · exact Iff.rfl
  · rcases result' with failure' | b
    · exact Iff.rfl
    · exact eq_comm

/-- After any two histories of a handle, an entry resolves to the same unless one of them has taught the handle
the relative encoding, the other has not, and both object identifiers it can stand for lead somewhere. -/
theorem resolution_agrees {nodes : Nat → Result BtreeNode} {btree handle handle' : FileSystemBtree}
    {calls calls' : List EntryCall} (history : History nodes btree calls handle)
    (history' : History nodes btree calls' handle') (node : BtreeNode) (entry : Option BtreeEntry)
    (transactionIdentifier : Nat) :
    SameResult (getSubNodeBlockNumberFromEntry nodes node entry transactionIdentifier handle).1
        (getSubNodeBlockNumberFromEntry nodes node entry transactionIdentifier handle').1 ↔
      (handle.branchChildOidEncoding = .relativeToRootOid ↔ handle'.branchChildOidEncoding = .relativeToRootOid) ∨
        ∀ found, entry = some found → HasCandidates btree node found →
          Unambiguous nodes btree node found transactionIdentifier := by
  rw [getSubNodeBlockNumberFromEntry_value, getSubNodeBlockNumberFromEntry_value, history.encoded, history'.encoded]
  by_cases tried : ∃ found, entry = some found ∧ HasCandidates btree node found
  · obtain ⟨found, rfl, candidates⟩ := tried
    have own : (∀ found', some found = some found' → HasCandidates btree node found' →
        Unambiguous nodes btree node found' transactionIdentifier) ↔
          Unambiguous nodes btree node found transactionIdentifier :=
      ⟨fun all => all found rfl candidates, fun one found' same _ => Option.some_inj.mp same ▸ one⟩
    rw [own, resolvedBy_candidates candidates, resolvedBy_candidates candidates]
    have swapped := sameResult_either
      (candidateBlockNumber nodes btree transactionIdentifier (node.level - 1) (subNodeObjectIdentifier found))
      (candidateBlockNumber nodes btree transactionIdentifier (node.level - 1)
        (btree.rootNodeObjectIdentifier + subNodeObjectIdentifier found))
    by_cases learned : handle.branchChildOidEncoding = .relativeToRootOid
    · by_cases learned' : handle'.branchChildOidEncoding = .relativeToRootOid
      · simp [learned, learned', sameResult_rfl]
      · simp only [learned, learned', if_true, if_false, iff_false, not_true_eq_false, false_or]
        rw [sameResult_comm]
        exact swapped
    · by_cases learned' : handle'.branchChildOidEncoding = .relativeToRootOid
      · simp only [learned, learned', if_true, if_false, iff_true, false_or]
        exact swapped
      · simp [learned, learned', sameResult_rfl]
  · have settled : ∀ found, entry = some found → ¬HasCandidates btree node found :=
      fun found same candidates => tried ⟨found, same, candidates⟩
    rw [resolvedBy_settled settled _ handle'.branchChildOidEncoding]
    constructor
    · exact fun _ => Or.inr fun found same candidates => absurd candidates (settled found same)
    · exact fun _ => sameResult_rfl _

namespace Sample

/-- Branch values of a tree with the root node's identifier 10: 18 stands for 28, 7 for itself or for 17. -/
def ambiguous : Nat → Result BtreeNode
  | 1 => .ok (objectMapRoot [(7, 3), (17, 4), (28, 5)])
  | 2 => .ok (rootNode 1 1 [branchEntry 2 3 18, branchEntry 5 3 7])
  | 3 => .ok (subNode 2 0 [inodeEntry 5])
  | 4 => .ok (subNode 2 0 [inodeEntry 6])
  | 5 => .ok (subNode 2 0 [inodeEntry 2])
  | _ => fail .readFailed

def branch : BtreeNode := rootNode 1 1 [branchEntry 2 3 18, branchEntry 5 3 7]

def relativeCall : EntryCall where
  node := branch
  entry := some (branchEntry 2 3 18)
  transactionIdentifier := 1

def learned (rootNodeObjectIdentifier : Nat) : FileSystemBtree :=
  { btree rootNodeObjectIdentifier with branchChildOidEncoding := .relativeToRootOid }

theorem relative_history : History ambiguous (btree 10) [relativeCall] (learned 10) :=
  .cons (show getSubNodeBlockNumberFromEntry ambiguous branch (some (branchEntry 2 3 18)) 1 (btree 10) =
    (.ok (some 5), learned 10) from rfl) (.nil _)

end Sample

theorem resolution_sample : History Sample.ambiguous (Sample.btree 10) [] (Sample.btree 10) ∧
    History Sample.ambiguous (Sample.btree 10) [Sample.relativeCall] (Sample.learned 10) ∧
    (SameResult
        (getSubNodeBlockNumberFromEntry Sample.ambiguous Sample.branch (some (Sample.branchEntry 2 3 18)) 1
          (Sample.btree 10)).1
        (getSubNodeBlockNumberFromEntry Sample.ambiguous Sample.branch (some (Sample.branchEntry 2 3 18)) 1
          (Sample.learned 10)).1 ↔
      ((Sample.btree 10).branchChildOidEncoding = .relativeToRootOid ↔
          (Sample.learned 10).branchChildOidEncoding = .relativeToRootOid) ∨
        ∀ found, some (Sample.branchEntry 2 3 18) = some found →
          HasCandidates (Sample.btree 10) Sample.branch found →
          Unambiguous Sample.ambiguous (Sample.btree 10) Sample.branch found 1) :=
  ⟨.nil _, Sample.relative_history, resolution_agrees (.nil _) Sample.relative_history Sample.branch _ 1⟩

/-- With no call before it the entry leads to block 3, after one successful call to block 4. -/
theorem resolution_depends : History Sample.ambiguous (Sample.btree 10) [] (Sample.btree 10) ∧
    History Sample.ambiguous (Sample.btree 10) [Sample.relativeCall] (Sample.learned 10) ∧
    (getSubNodeBlockNumberFromEntry Sample.ambiguous Sample.branch (some (Sample.branchEntry 5 3 7)) 1
      (Sample.btree 10)).1 = .ok (some 3) ∧
    (getSubNodeBlockNumberFromEntry Sample.ambiguous Sample.branch (some (Sample.branchEntry 5 3 7)) 1
      (Sample.learned 10)).1 = .ok (some 4) :=
  ⟨.nil _, Sample.relative_history, rfl, rfl⟩

end Fsapfs.FileSystemBtree
