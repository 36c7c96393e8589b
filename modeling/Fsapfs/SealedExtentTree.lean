import Fsapfs.BtreeNode
import Fsapfs.Program.BinarySearch
import Fsapfs.Program.Call

namespace Fsapfs
open Program

structure SealedExtent where
  identifier : Nat
  logicalOffset : Nat
  dataSize : Nat
  physicalBlockNumber : Nat
  deriving Repr, DecidableEq

structure SealedExtentTree where
  blockSize : Nat
  rootNodeBlockNumber : Nat
  entries : List SealedExtent
  isBuilt : Bool
  deriving Repr, DecidableEq

namespace SealedExtentTree

abbrev TreeCall := Call ErrorCode SealedExtentTree

def create (blockSize rootNodeBlockNumber : Nat) : SealedExtentTree where
  blockSize := blockSize
  rootNodeBlockNumber := rootNodeBlockNumber
  entries := []
  isBuilt := false

/-- The order of the keys: the identifier, then the logical offset. -/
def atMost (identifier logicalOffset : Nat) (entry : SealedExtent) : Bool :=
  entry.identifier < identifier ||
    (entry.identifier == identifier && entry.logicalOffset ≤ logicalOffset)

def entryCompare (entry entry' : SealedExtent) : Bool :=
  atMost entry'.identifier entry'.logicalOffset entry

def appendEntry (entry : SealedExtent) (tree : SealedExtentTree) : SealedExtentTree :=
  { tree with entries := tree.entries ++ [entry] }

def readLeafEntry (entry : BtreeEntry) : Result SealedExtent := do
  requireData entry.keyData 16
  let identifier ← loadLittleEndian64 entry.keyData 0
  let logicalOffset ← loadLittleEndian64 entry.keyData 8
  requireData entry.valueData 16
  let dataSize ← loadLittleEndian32 entry.valueData 0
  let physicalBlockNumber ← loadLittleEndian64 entry.valueData 8
  return { identifier, logicalOffset, dataSize, physicalBlockNumber }

def readBranchEntry (entry : BtreeEntry) : Result Nat := do
  requireData entry.keyData 16
  requireData entry.valueData 8
  loadLittleEndian64 entry.valueData 0

/-- Appends the entries below a node, given the nodes of the storage and the depth left. -/
def readNode (nodes : Nat → Result BtreeNode) : Nat → Nat → TreeCall Unit
  | 0, _ => Call.lift (fail .valueOutOfBounds)
  | depth + 1, nodeBlockNumber => do
      let tree ← Call.self
      if tree.blockSize = 0 then Call.lift (fail .valueOutOfBounds)
      else do
        let node ← Call.lift (nodes nodeBlockNumber)
        node.entries.forM fun entry => do
          if node.isLeafNode then do
            let extent ← Call.lift (readLeafEntry entry)
            Call.update (appendEntry extent)
          else do
            let childBlockNumber ← Call.lift (readBranchEntry entry)
            readNode nodes depth childBlockNumber

def sortEntries (tree : SealedExtentTree) : SealedExtentTree :=
  { tree with
    entries := tree.entries.mergeSort entryCompare
    isBuilt := true }

def build (nodes : Nat → Result BtreeNode) : TreeCall Unit := do
  let tree ← Call.self
  if tree.isBuilt then return ()
  else if tree.rootNodeBlockNumber = 0 then Call.lift (fail .valueMissing)
  else do
    readNode nodes (maximumBtreeNodeRecursionDepth + 1) tree.rootNodeBlockNumber
    Call.update sortEntries

/-- The physical block number and the size left of the extent at a logical offset, if there is one. -/
def lookup (tree : SealedExtentTree) (identifier logicalOffset : Nat) : Result (Option (Nat × Nat)) := do
  if tree.isBuilt = false then fail .valueMissing
  else do
    let lower ← searchLoop tree.entries (atMost identifier logicalOffset) tree.entries.length 0
      tree.entries.length
    if lower = 0 then return none
    else do
      let entry ← load tree.entries (lower - 1)
      if entry.identifier ≠ identifier then return none
      else if logicalOffset < entry.logicalOffset ∨
          logicalOffset - entry.logicalOffset ≥ entry.dataSize then
        return none
      else if tree.blockSize = 0 then fail .valueOutOfBounds
      else if (logicalOffset - entry.logicalOffset) % tree.blockSize ≠ 0 then fail .valueOutOfBounds
      else do
        let extentOffset := logicalOffset - entry.logicalOffset
        let physicalBlockNumber := (entry.physicalBlockNumber + extentOffset / tree.blockSize) % 2 ^ 64
        return some (physicalBlockNumber, entry.dataSize - extentOffset)

/-- A tree whose entries are in the order the lookup relies on. -/
structure Built (tree : SealedExtentTree) : Prop where
  isBuilt : tree.isBuilt = true
  sorted : tree.entries.Pairwise fun entry entry' => entryCompare entry entry'

theorem entryCompare_trans (entry entry' entry'' : SealedExtent) (first : entryCompare entry entry')
    (second : entryCompare entry' entry'') : entryCompare entry entry'' := by
  simp only [entryCompare, atMost, Bool.or_eq_true, Bool.and_eq_true, decide_eq_true_eq,
    beq_iff_eq] at *
  omega

theorem entryCompare_total (entry entry' : SealedExtent) :
    entryCompare entry entry' || entryCompare entry' entry := by
  simp only [entryCompare, atMost, Bool.or_eq_true, Bool.and_eq_true, decide_eq_true_eq, beq_iff_eq]
  omega

theorem sortEntries_built (tree : SealedExtentTree) : Built (sortEntries tree) where
  isBuilt := rfl
  sorted := List.pairwise_mergeSort entryCompare_trans entryCompare_total tree.entries

/-- The extents of an identifier: whole blocks, apart from each other, without gaps up to a size. -/
structure Maps (tree : SealedExtentTree) (identifier size : Nat) : Prop where
  whole : ∀ extent ∈ tree.entries, extent.identifier = identifier →
    0 < extent.dataSize ∧ tree.blockSize ∣ extent.dataSize
  apart : tree.entries.Pairwise fun extent extent' =>
    extent.identifier = identifier → extent'.identifier = identifier →
      extent.logicalOffset + extent.dataSize ≤ extent'.logicalOffset ∨
        extent'.logicalOffset + extent'.dataSize ≤ extent.logicalOffset
  covers : ∀ offset, offset < size → ∃ extent ∈ tree.entries, extent.identifier = identifier ∧
    extent.logicalOffset ≤ offset ∧ offset < extent.logicalOffset + extent.dataSize

variable {tree : SealedExtentTree} {identifier size : Nat}

theorem atMost_partitioned (built : Built tree) (logicalOffset : Nat) :
    Partitioned tree.entries (atMost identifier logicalOffset) := by
  intro i j before within last
  rcases Nat.lt_or_eq_of_le before with less | rfl
  · have ordered := List.pairwise_iff_getElem.mp built.sorted i j (Nat.lt_trans less within) within less
    simp only [entryCompare, atMost, Bool.or_eq_true, Bool.and_eq_true, decide_eq_true_eq,
      beq_iff_eq] at *
    omega
  · exact last

theorem Maps.unique (maps : Maps tree identifier size) {i j : Nat} (hi : i < tree.entries.length)
    (hj : j < tree.entries.length) (same : tree.entries[i].identifier = identifier)
    (same' : tree.entries[j].identifier = identifier) {offset : Nat}
    (inside : tree.entries[i].logicalOffset ≤ offset ∧
      offset < tree.entries[i].logicalOffset + tree.entries[i].dataSize)
    (between : tree.entries[i].logicalOffset ≤ tree.entries[j].logicalOffset ∧
      tree.entries[j].logicalOffset ≤ offset) (order : i ≤ j) : i = j := by
  rcases Nat.lt_or_eq_of_le order with less | eq
  · have apart := List.pairwise_iff_getElem.mp maps.apart i j hi hj less same same'
    have positive := (maps.whole tree.entries[j] (List.getElem_mem hj) same').1
    omega
  · exact eq

theorem Maps.separate (maps : Maps tree identifier size) {extent extent' : SealedExtent}
    (member : extent ∈ tree.entries) (member' : extent' ∈ tree.entries) (same : extent.identifier = identifier)
    (same' : extent'.identifier = identifier) :
    extent = extent' ∨ extent.logicalOffset + extent.dataSize ≤ extent'.logicalOffset ∨
      extent'.logicalOffset + extent'.dataSize ≤ extent.logicalOffset := by
  obtain ⟨i, hi, rfl⟩ := List.getElem_of_mem member
  obtain ⟨j, hj, rfl⟩ := List.getElem_of_mem member'
  rcases Nat.lt_trichotomy i j with less | eq | more
  · exact Or.inr (List.pairwise_iff_getElem.mp maps.apart i j hi hj less same same')
  · exact Or.inl (by simp [eq])
  · exact Or.inr (List.pairwise_iff_getElem.mp maps.apart j i hj hi more same' same).symm

theorem Maps.aligned (maps : Maps tree identifier size) {extent : SealedExtent} (member : extent ∈ tree.entries)
    (same : extent.identifier = identifier) (inside : extent.logicalOffset < size) :
    tree.blockSize ∣ extent.logicalOffset := by
  induction place : extent.logicalOffset using Nat.strongRecOn generalizing extent with
  | ind start ih =>
      by_cases zero : start = 0
      · rw [zero]
        exact Nat.dvd_zero _
      · obtain ⟨extent', member', same', first, last⟩ := maps.covers (start - 1) (by omega)
        have positive := (maps.whole extent member same).1
        have adjacent : extent'.logicalOffset + extent'.dataSize = start := by
          rcases maps.separate member' member same' same with eq | before | after
          · rw [eq] at first
            omega
          · omega
          · omega
        rw [← adjacent]
        exact Nat.dvd_add (ih extent'.logicalOffset (by omega) member' same' (by omega) rfl)
          (maps.whole extent' member' same').2

theorem lookup_ok (built : Built tree) (maps : Maps tree identifier size) (blocks : 0 < tree.blockSize)
    {extent : SealedExtent} (member : extent ∈ tree.entries) (same : extent.identifier = identifier)
    {logicalOffset : Nat} (inside : extent.logicalOffset ≤ logicalOffset ∧
      logicalOffset < extent.logicalOffset + extent.dataSize)
    (aligned : (logicalOffset - extent.logicalOffset) % tree.blockSize = 0) :
    tree.lookup identifier logicalOffset = .ok (some
      ((extent.physicalBlockNumber + (logicalOffset - extent.logicalOffset) / tree.blockSize) % 2 ^ 64,
        extent.dataSize - (logicalOffset - extent.logicalOffset))) := by
  have partitioned : Partitioned tree.entries (atMost identifier logicalOffset) :=
    atMost_partitioned built logicalOffset
  obtain ⟨found, search, _, before⟩ := search_ok (ε := ErrorCode) partitioned
  obtain ⟨k, within, rfl⟩ := List.getElem_of_mem member
  have first : k < found := (before k within).mp (by simp [atMost, same, inside.1])
  have last : found - 1 < tree.entries.length := by omega
  have reached := (before (found - 1) last).mpr (by omega)
  have eq : k = found - 1 := by
    rcases Nat.lt_or_eq_of_le (show k ≤ found - 1 by omega) with less | eq
    · have ordered := List.pairwise_iff_getElem.mp built.sorted k (found - 1) within last less
      simp only [entryCompare, atMost, Bool.or_eq_true, Bool.and_eq_true, decide_eq_true_eq,
        beq_iff_eq] at ordered reached
      exact maps.unique within last same (by omega) inside (by omega) (Nat.le_of_lt less)
    · exact eq
  unfold lookup
  rw [if_neg (by simp [built.isBuilt]), search, ok_bind, if_neg (by omega), load_of_lt last, ok_bind]
  simp only [← eq]
  rw [if_neg (by simpa using same), if_neg (by omega), if_neg (by omega), if_neg (by simpa using aligned)]
  rfl

end SealedExtentTree

end Fsapfs
