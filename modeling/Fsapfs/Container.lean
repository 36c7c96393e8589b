import Fsapfs.ContainerSuperblock
import Fsapfs.Btree.ObjectMapLookup
import Mathlib.Data.List.Basic
import Mathlib.Tactic.ByContra

namespace Fsapfs
open Program

structure Container where
  superblock : ContainerSuperblock
  objectMapBtree : ObjectMapBtree
  blockSize : Nat

namespace Container
open ContainerSuperblock.Sample (superblockData)

section volumes

variable {β : Type} (nodes : Nat → Result BtreeNode) (openRead : Nat → Result β) (container : Container)

def volumeObjectIdentifier (volumeIndex : Int) : Result Nat :=
  if volumeIndex < 0 ∨ volumeIndex ≥ container.superblock.numberOfVolumes then fail .valueOutOfBounds
  else load container.superblock.volumeObjectIdentifiers volumeIndex.toNat

def openVolume (volumeObjectIdentifier : Nat) : Result β := do
  let descriptor ← ObjectMapBtree.getDescriptorByObjectIdentifier nodes container.objectMapBtree
    volumeObjectIdentifier container.superblock.objectTransactionIdentifier
  match descriptor with
  | none => fail .getFailed
  | some descriptor => openRead ((descriptor.physicalAddress * container.blockSize) % 2 ^ 64)

def getVolumeByIndex (volumeIndex : Int) : Result β := do
  let identifier ← volumeObjectIdentifier container volumeIndex
  openVolume nodes openRead container identifier

end volumes

section packed

/-- No slot of the array that is not zero comes after one that is zero. -/
def Packed (identifiers : List Nat) : Prop :=
  identifiers.Pairwise fun identifier later => later ≠ 0 → identifier ≠ 0

theorem countP_of_counts {front identifiers : List Nat}
    (same : ∀ identifier, identifier ≠ 0 → front.count identifier = identifiers.count identifier) :
    front.countP (· ≠ 0) = identifiers.countP (· ≠ 0) := by
  rw [List.countP_eq_length_filter, List.countP_eq_length_filter]
  apply List.Perm.length_eq
  rw [List.perm_iff_count]
  intro identifier
  by_cases zero : identifier = 0
  · rw [zero, List.count_eq_zero_of_not_mem (by simp), List.count_eq_zero_of_not_mem (by simp)]
  · rw [List.count_filter (by simpa using zero), List.count_filter (by simpa using zero), same identifier zero]

theorem packed_append {front back : List Nat} (nonzero : ∀ identifier ∈ front, identifier ≠ 0)
    (zeros : ∀ identifier ∈ back, identifier = 0) : Packed (front ++ back) := by
  refine List.pairwise_append.mpr ⟨?_, ?_, fun identifier member _ _ _ => nonzero identifier member⟩
  · exact List.pairwise_of_forall_mem_list fun identifier member _ _ _ => nonzero identifier member
  · exact List.pairwise_of_forall_mem_list fun _ _ later member nonzero => absurd (zeros later member) nonzero

section counts

variable {identifiers : List Nat} {n : Nat} (number : identifiers.countP (· ≠ 0) = n)
  (same : ∀ identifier, identifier ≠ 0 → (identifiers.take n).count identifier = identifiers.count identifier)

include number same

theorem front_of_counts : (∀ identifier ∈ identifiers.take n, identifier ≠ 0) ∧
    ∀ identifier ∈ identifiers.drop n, identifier = 0 := by
  have counted := countP_of_counts same
  have whole : (identifiers.take n).countP (· ≠ 0) + (identifiers.drop n).countP (· ≠ 0) =
      identifiers.countP (· ≠ 0) := by rw [← List.countP_append, List.take_append_drop]
  have short : (identifiers.take n).length ≤ n := List.length_take_le n identifiers
  have full : (identifiers.take n).countP (· ≠ 0) ≤ (identifiers.take n).length := List.countP_le_length
  have front : (identifiers.take n).countP (· ≠ 0) = (identifiers.take n).length := by omega
  have back : (identifiers.drop n).countP (· ≠ 0) = 0 := by omega
  constructor
  · simpa using List.countP_eq_length.mp front
  · simpa using List.countP_eq_zero.mp back

theorem packed_of_counts : Packed identifiers := by
  obtain ⟨front, back⟩ := front_of_counts number same
  rw [← List.take_append_drop n identifiers]
  exact packed_append front back

end counts

/-- As many first slots as there are numbers that are not zero hold these numbers just if the slots are packed. -/
theorem take_counts_iff (identifiers : List Nat) :
    (∀ identifier, identifier ≠ 0 →
      (identifiers.take (identifiers.countP (· ≠ 0))).count identifier = identifiers.count identifier) ↔
        Packed identifiers := by
  constructor
  · exact packed_of_counts rfl
  · intro packed identifier nonzero
    induction identifiers with
    | nil => rfl
    | cons first identifiers ih =>
        obtain ⟨before, packed⟩ := List.pairwise_cons.mp packed
        by_cases zero : first = 0
        · have zeros : ∀ later ∈ first :: identifiers, later = 0 := by
            refine List.forall_mem_cons.mpr ⟨zero, fun later member => ?_⟩
            by_contra other
            exact before later member other zero
          have absent : identifier ∉ first :: identifiers := fun member => nonzero (zeros identifier member)
          rw [List.count_eq_zero_of_not_mem absent,
            List.count_eq_zero_of_not_mem fun member => absent (List.mem_of_mem_take member)]
        · rw [List.countP_cons_of_pos (by simpa using zero), List.take_succ_cons, List.count_cons, List.count_cons,
            ih packed]

end packed

section reachable

variable {β : Type} {nodes : Nat → Result BtreeNode} {openRead : Nat → Result β} {container : Container}

def openedIdentifiers (container : Container) : List Nat :=
  (List.range container.superblock.numberOfVolumes).filterMap fun (volumeIndex : Nat) =>
    (volumeObjectIdentifier container (volumeIndex : Int)).toOption

theorem volumeObjectIdentifier_ok {volumeIndex : Nat} (inside : volumeIndex < container.superblock.numberOfVolumes)
    (slots : container.superblock.numberOfVolumes ≤ container.superblock.volumeObjectIdentifiers.length) :
    volumeObjectIdentifier container volumeIndex =
      .ok (container.superblock.volumeObjectIdentifiers.get ⟨volumeIndex, Nat.lt_of_lt_of_le inside slots⟩) := by
  unfold volumeObjectIdentifier
  rw [if_neg (by omega), Int.toNat_natCast, load_of_lt (Nat.lt_of_lt_of_le inside slots)]
  rfl

theorem filterMap_range_take {β : Type} {items : List β} {item : Nat → Option β} {n : Nat}
    (found : ∀ i < n, item i = items[i]?) : (List.range n).filterMap item = items.take n := by
  induction n with
  | zero => simp
  | succ n ih =>
      rw [List.range_succ, List.filterMap_append, ih fun i less => found i (by omega), List.take_add_one,
        ← found n (Nat.lt_succ_self n)]
      cases last : item n <;> simp [last]

theorem openedIdentifiers_eq
    (slots : container.superblock.numberOfVolumes ≤ container.superblock.volumeObjectIdentifiers.length) :
    openedIdentifiers container =
      container.superblock.volumeObjectIdentifiers.take container.superblock.numberOfVolumes := by
  unfold openedIdentifiers
  refine filterMap_range_take fun volumeIndex inside => ?_
  rw [volumeObjectIdentifier_ok inside slots]
  simp [Except.toOption, Nat.lt_of_lt_of_le inside slots]

/-- Every index opens a volume, and each identifier that is not zero is opened as often as it occurs, just if the
array has no slot that is zero before one that is not. -/
theorem volumes_reachable {data : List UInt8} (read : ContainerSuperblock.readData data = .ok container.superblock)
    (resolves : ∀ identifier ∈ container.superblock.volumeObjectIdentifiers, identifier ≠ 0 →
      ∃ volume, openVolume nodes openRead container identifier = .ok volume) :
    ((∀ volumeIndex < container.superblock.numberOfVolumes, ∃ volume,
        getVolumeByIndex nodes openRead container volumeIndex = .ok volume) ∧
      ∀ identifier, identifier ≠ 0 → (openedIdentifiers container).count identifier =
        container.superblock.volumeObjectIdentifiers.count identifier) ↔
      Packed container.superblock.volumeObjectIdentifiers := by
  have counted := (ContainerSuperblock.readData_ok read).1.counted
  have slots : container.superblock.numberOfVolumes ≤ container.superblock.volumeObjectIdentifiers.length := by
    rw [counted]
    exact List.countP_le_length
  rw [openedIdentifiers_eq slots]
  constructor
  · intro reachable
    exact packed_of_counts counted.symm reachable.2
  · intro packed
    have same := (take_counts_iff container.superblock.volumeObjectIdentifiers).mpr packed
    rw [← counted] at same
    refine ⟨fun volumeIndex inside => ?_, same⟩
    have within := Nat.lt_of_lt_of_le inside slots
    have member : container.superblock.volumeObjectIdentifiers[volumeIndex] ∈
        container.superblock.volumeObjectIdentifiers.take container.superblock.numberOfVolumes :=
      List.mem_take_iff_getElem.mpr ⟨volumeIndex, by omega, rfl⟩
    obtain ⟨volume, opened⟩ := resolves _ (List.getElem_mem within) ((front_of_counts counted.symm same).1 _ member)
    refine ⟨volume, ?_⟩
    unfold getVolumeByIndex
    rw [volumeObjectIdentifier_ok inside slots]
    exact opened

end reachable

namespace Sample

def container (identifiers : List Nat) : Container where
  superblock := ContainerSuperblock.Sample.superblock 5 8 1 identifiers
  objectMapBtree := { rootNodeBlockNumber := 1 }
  blockSize := 4096

def opens (_fileOffset : Nat) : Result Unit := .ok ()

theorem packed_read : ContainerSuperblock.readData (superblockData 5 8 1 [4, 1]) = .ok (container [4, 1]).superblock := by
  decide +kernel

theorem packed : Packed (container [4, 1]).superblock.volumeObjectIdentifiers := by
  unfold Packed
  decide +kernel

theorem single_read : ContainerSuperblock.readData (superblockData 5 8 1 [1]) = .ok (container [1]).superblock := by
  decide +kernel

theorem unpacked_read :
    ContainerSuperblock.readData (superblockData 5 8 1 [0, 1]) = .ok (container [0, 1]).superblock := by
  decide +kernel

theorem container_resolves {identifiers : List Nat}
    (few : ∀ identifier ∈ identifiers, identifier = 0 ∨ identifier = 1 ∨ identifier = 4) :
    ∀ identifier ∈ (container identifiers).superblock.volumeObjectIdentifiers, identifier ≠ 0 →
      ∃ volume, openVolume ObjectMapBtree.Sample.store opens (container identifiers) identifier = .ok volume := by
  intro identifier member nonzero
  have stored : identifier = 1 ∨ identifier = 4 := by
    rcases List.mem_append.mp member with own | padding
    · exact (few identifier own).resolve_left nonzero
    · exact absurd (List.eq_of_mem_replicate padding) nonzero
  rcases stored with rfl | rfl
  · exact ⟨(), rfl⟩
  · exact ⟨(), rfl⟩

end Sample

theorem volumes_reachable_sample :
    ContainerSuperblock.readData (superblockData 5 8 1 [4, 1]) = .ok (Sample.container [4, 1]).superblock ∧
    (∀ volumeIndex : Nat, volumeIndex < 2 → ∃ volume,
      getVolumeByIndex ObjectMapBtree.Sample.store Sample.opens (Sample.container [4, 1]) volumeIndex = .ok volume) ∧
    (openedIdentifiers (Sample.container [4, 1])).count 4 = 1 ∧
    (openedIdentifiers (Sample.container [4, 1])).count 1 = 1 := by
  obtain ⟨opened, counts⟩ :=
    (volumes_reachable Sample.packed_read (Sample.container_resolves (by simp))).mpr Sample.packed
  exact ⟨Sample.packed_read, opened, (counts 4 (by decide)).trans (by decide), (counts 1 (by decide)).trans (by decide)⟩

/-- The only volume is in the second slot: its index leads to the first one. -/
theorem volume_unreachable :
    ContainerSuperblock.readData (superblockData 5 8 1 [0, 1]) = .ok (Sample.container [0, 1]).superblock ∧
    (∀ identifier ∈ (Sample.container [0, 1]).superblock.volumeObjectIdentifiers, identifier ≠ 0 → ∃ volume,
      openVolume ObjectMapBtree.Sample.store Sample.opens (Sample.container [0, 1]) identifier = .ok volume) ∧
    (Sample.container [0, 1]).superblock.numberOfVolumes = 1 ∧
    getVolumeByIndex ObjectMapBtree.Sample.store Sample.opens (Sample.container [0, 1]) 0 = fail .valueMissing ∧
    1 ∉ openedIdentifiers (Sample.container [0, 1]) :=
  ⟨Sample.unpacked_read, Sample.container_resolves (by simp), rfl, rfl, by decide⟩

end Container

end Fsapfs
