import Fsapfs.FileData.FileExtents

namespace Fsapfs
open Program

def SealedExtent.Contains (identifier offset : Nat) (extent : SealedExtent) : Prop :=
  extent.identifier = identifier ∧ extent.logicalOffset ≤ offset ∧
    offset < extent.logicalOffset + extent.dataSize

instance (identifier offset : Nat) (extent : SealedExtent) : Decidable (extent.Contains identifier offset) :=
  inferInstanceAs (Decidable (_ ∧ _ ∧ _))

def sealedByte (content : Nat → UInt8) (tree : SealedExtentTree) (identifier offset : Nat) : UInt8 :=
  match tree.entries.find? (fun extent => extent.Contains identifier offset) with
  | some extent => content (extent.physicalBlockNumber * tree.blockSize + (offset - extent.logicalOffset))
  | none => 0

/-- A built tree that maps the data of an identifier to bytes of the storage. -/
structure SealedStorage (tree : SealedExtentTree) (blockSize storageSize identifier size : Nat) : Prop where
  built : SealedExtentTree.Built tree
  maps : SealedExtentTree.Maps tree identifier size
  blocks : tree.blockSize = blockSize
  stored : ∀ extent ∈ tree.entries, extent.identifier = identifier →
    extent.physicalBlockNumber * blockSize + extent.dataSize ≤ storageSize

/-- The records start one after the other, and below the end of the data. -/
def Increasing (size : Nat) : List FileExtent → Prop
  | [] => True
  | record :: records => record.logicalOffset < followingOffset size records ∧ Increasing size records

instance increasingDecidable (size : Nat) : ∀ records, Decidable (Increasing size records)
  | [] => isTrue trivial
  | _ :: records =>
      have := increasingDecidable size records
      inferInstanceAs (Decidable (_ ∧ _))

/-- The FILE_EXTENT2 records of an identifier, at whole blocks. -/
structure SealedRecords (blockSize identifier size : Nat) (records : List FileExtent) : Prop where
  isSealed : ∀ record ∈ records, record.fileSystemDataType = .fileExtent2
  identifier : ∀ record ∈ records, record.identifier = identifier
  aligned : ∀ record ∈ records, blockSize ∣ record.logicalOffset
  increasing : Increasing size records

theorem SealedRecords.tail {blockSize identifier size : Nat} {record : FileExtent} {records : List FileExtent}
    (sealedRecords : SealedRecords blockSize identifier size (record :: records)) :
    SealedRecords blockSize identifier size records where
  isSealed record' member := sealedRecords.isSealed record' (List.mem_cons_of_mem _ member)
  identifier record' member := sealedRecords.identifier record' (List.mem_cons_of_mem _ member)
  aligned record' member := sealedRecords.aligned record' (List.mem_cons_of_mem _ member)
  increasing := sealedRecords.increasing.2

theorem Increasing.following_le {size : Nat} {records : List FileExtent} (increasing : Increasing size records) :
    followingOffset size records ≤ size := by
  induction records with
  | nil => exact Nat.le_refl _
  | cons record records ih => exact Nat.le_trans (Nat.le_of_lt increasing.1) (ih increasing.2)

/-- The sealed extent at the start of a record reaches the next record or the end of the data. -/
def Reaching (tree : SealedExtentTree) (identifier size : Nat) : List FileExtent → Prop
  | [] => True
  | record :: records =>
      (∃ extent ∈ tree.entries, extent.Contains identifier record.logicalOffset ∧
        min (followingOffset size records) (addressable size) ≤ extent.logicalOffset + extent.dataSize) ∧
      Reaching tree identifier size records

instance reachingDecidable (tree : SealedExtentTree) (identifier size : Nat) :
    ∀ records, Decidable (Reaching tree identifier size records)
  | [] => isTrue trivial
  | _ :: records =>
      have := reachingDecidable tree identifier size records
      inferInstanceAs (Decidable ((∃ extent ∈ tree.entries, _) ∧ _))

/-- No record starts at a sealed extent that is stored in the first block of the container. -/
def Placed (tree : SealedExtentTree) (identifier size : Nat) (records : List FileExtent) : Prop :=
  ∀ record ∈ records, record.logicalOffset < addressable size → ∀ extent ∈ tree.entries,
    extent.Contains identifier record.logicalOffset →
    ¬(extent.physicalBlockNumber = 0 ∧ extent.logicalOffset = record.logicalOffset)

instance (tree : SealedExtentTree) (identifier size : Nat) (records : List FileExtent) :
    Decidable (Placed tree identifier size records) :=
  inferInstanceAs (Decidable (∀ record ∈ records, _ → ∀ extent ∈ tree.entries, _))

variable {tree : SealedExtentTree} {blockSize storageSize identifier size : Nat}

section storage

variable (storage : SealedStorage tree blockSize storageSize identifier size)
include storage

theorem SealedStorage.unique {extent extent' : SealedExtent} {offset : Nat} (member : extent ∈ tree.entries)
    (member' : extent' ∈ tree.entries) (contains : extent.Contains identifier offset)
    (contains' : extent'.Contains identifier offset) : extent = extent' := by
  rcases storage.maps.separate member member' contains.1 contains'.1 with eq | before | after
  · exact eq
  · exact absurd (Nat.lt_of_lt_of_le contains.2.2 before) (Nat.not_lt_of_le contains'.2.1)
  · exact absurd (Nat.lt_of_lt_of_le contains'.2.2 after) (Nat.not_lt_of_le contains.2.1)

theorem SealedStorage.byte (content : Nat → UInt8) {extent : SealedExtent} {offset : Nat}
    (member : extent ∈ tree.entries) (contains : extent.Contains identifier offset) :
    sealedByte content tree identifier offset =
      content (extent.physicalBlockNumber * blockSize + (offset - extent.logicalOffset)) := by
  unfold sealedByte
  cases search : tree.entries.find? (fun extent => extent.Contains identifier offset) with
  | none =>
      have missing := List.find?_eq_none.mp search extent member
      exact absurd contains (by simpa using missing)
  | some found =>
      have contains' : found.Contains identifier offset := by simpa using List.find?_some search
      rw [storage.unique (List.mem_of_find?_eq_some search) member contains' contains, storage.blocks]

theorem SealedStorage.aligned {extent : SealedExtent} {offset : Nat} (member : extent ∈ tree.entries)
    (contains : extent.Contains identifier offset) (inside : offset < size) (whole : blockSize ∣ offset) :
    blockSize ∣ offset - extent.logicalOffset := by
  have aligned := storage.maps.aligned member contains.1 (Nat.lt_of_le_of_lt contains.2.1 inside)
  rw [storage.blocks] at aligned
  exact Nat.dvd_sub whole aligned

end storage

/-- What a record becomes: the part of the sealed extent at its start that ends before the next record. -/
def Resolves (tree : SealedExtentTree) (blockSize identifier following : Nat) (record extent : FileExtent) : Prop :=
  ∃ sealedExtent ∈ tree.entries, sealedExtent.Contains identifier record.logicalOffset ∧
    blockSize ∣ record.logicalOffset - sealedExtent.logicalOffset ∧
    extent.logicalOffset = record.logicalOffset ∧
    extent.physicalBlockNumber = sealedExtent.physicalBlockNumber +
      (record.logicalOffset - sealedExtent.logicalOffset) / blockSize ∧
    extent.dataSize = min (sealedExtent.dataSize - (record.logicalOffset - sealedExtent.logicalOffset))
      (following - record.logicalOffset)

def Resolved (tree : SealedExtentTree) (blockSize identifier size : Nat) :
    List FileExtent → List FileExtent → Prop
  | [], [] => True
  | record :: records, extent :: extents =>
      Resolves tree blockSize identifier (followingOffset size records) record extent ∧
        Resolved tree blockSize identifier size records extents
  | _, _ => False

theorem Follow.mono {position position' : Nat} {extents : List FileExtent} (follow : Follow position extents)
    (before : position' ≤ position) : Follow position' extents := by
  cases extents with
  | nil => trivial
  | cons extent extents => exact ⟨Nat.le_trans before follow.1, follow.2⟩

section resolved

variable {records extents : List FileExtent}

theorem Resolved.follow (resolved : Resolved tree blockSize identifier size records extents)
    (increasing : Increasing size records) {position : Nat} (start : position ≤ followingOffset size records)
    (fits : position ≤ size) : Follow position extents ∧ extentsEnd position extents ≤ size := by
  induction records generalizing position extents with
  | nil =>
      cases extents with
      | nil => exact ⟨trivial, fits⟩
      | cons => exact resolved.elim
  | cons record records ih =>
      cases extents with
      | nil => exact resolved.elim
      | cons extent extents =>
          obtain ⟨⟨_, _, _, _, place, _, dataSize⟩, resolved⟩ := resolved
          have ordered := increasing.1
          have ends : extent.logicalOffset + extent.dataSize ≤ followingOffset size records := by omega
          obtain ⟨follow, last⟩ := ih resolved increasing.2 ends
            (Nat.le_trans ends increasing.2.following_le)
          exact ⟨⟨Nat.le_trans start (Nat.le_of_eq place.symm), follow⟩, last⟩

variable (storage : SealedStorage tree blockSize storageSize identifier size)
include storage

omit storage in
theorem start_eq_zero {sealedExtent : SealedExtent} {record extent : FileExtent}
    (contains : sealedExtent.Contains identifier record.logicalOffset)
    (whole : blockSize ∣ record.logicalOffset - sealedExtent.logicalOffset)
    (physical : extent.physicalBlockNumber = sealedExtent.physicalBlockNumber +
      (record.logicalOffset - sealedExtent.logicalOffset) / blockSize) :
    extent.physicalBlockNumber = 0 ↔
      sealedExtent.physicalBlockNumber = 0 ∧ sealedExtent.logicalOffset = record.logicalOffset := by
  have first := contains.2.1
  have blocks := Nat.div_mul_cancel whole
  constructor
  · intro zero
    obtain ⟨none, none'⟩ := Nat.add_eq_zero_iff.mp (physical.symm.trans zero)
    rw [none', Nat.zero_mul] at blocks
    exact ⟨none, by omega⟩
  · rintro ⟨none, same⟩
    rw [physical, none, same, Nat.sub_self, Nat.zero_div]

theorem Resolves.byte {content : Nat → UInt8} {isSparse : Bool} {following offset : Nat}
    {record extent : FileExtent} (resolves : Resolves tree blockSize identifier following record extent)
    (plain : ¬extent.IsHole isSparse) (covers : extent.Covers offset) :
    extent.byte blockSize isSparse content offset = sealedByte content tree identifier offset := by
  obtain ⟨sealedExtent, member, ⟨same, first, last⟩, whole, place, physical, dataSize⟩ := resolves
  obtain ⟨start, inside⟩ := covers
  have contains : sealedExtent.Contains identifier offset := ⟨same, by omega, by omega⟩
  rw [storage.byte content member contains]
  unfold FileExtent.byte
  rw [if_neg plain, physical, Nat.add_mul, Nat.div_mul_cancel whole]
  congr 1
  omega

theorem Resolves.stored {following : Nat} {record extent : FileExtent}
    (resolves : Resolves tree blockSize identifier following record extent) :
    extent.physicalBlockNumber * blockSize + extent.dataSize ≤ storageSize := by
  obtain ⟨sealedExtent, member, ⟨same, first, last⟩, whole, place, physical, dataSize⟩ := resolves
  have stored := storage.stored sealedExtent member same
  rw [physical, Nat.add_mul, Nat.div_mul_cancel whole]
  omega

omit storage in
theorem Resolved.member (resolved : Resolved tree blockSize identifier size records extents)
    {extent : FileExtent} (member : extent ∈ extents) :
    ∃ following, ∃ record ∈ records, Resolves tree blockSize identifier following record extent := by
  induction records generalizing extents with
  | nil =>
      cases extents with
      | nil => cases member
      | cons => exact resolved.elim
  | cons record records ih =>
      cases extents with
      | nil => cases member
      | cons first extents =>
          cases member with
          | head => exact ⟨_, record, List.mem_cons_self .., resolved.1⟩
          | tail _ member =>
              obtain ⟨following, record', found, resolves⟩ := ih resolved.2 member
              exact ⟨following, record', List.mem_cons_of_mem _ found, resolves⟩

theorem Resolved.bytes (resolved : Resolved tree blockSize identifier size records extents)
    (increasing : Increasing size records) (reaching : Reaching tree identifier size records)
    {isSparse : Bool} (placed : isSparse = true → Placed tree identifier size records)
    {content : Nat → UInt8} {offset : Nat} (start : followingOffset size records ≤ offset)
    (inside : offset < addressable size) :
    extentByte blockSize isSparse content extents offset = sealedByte content tree identifier offset := by
  induction records generalizing extents with
  | nil => exact absurd (lt_of_addressable inside) (Nat.not_lt_of_le start)
  | cons record records ih =>
      cases extents with
      | nil => exact resolved.elim
      | cons extent extents =>
          obtain ⟨resolves, resolved⟩ := resolved
          obtain ⟨sealedExtent, member, contains, whole, place, physical, dataSize⟩ := id resolves
          obtain ⟨⟨reached, member', contains', reaches⟩, reaching⟩ := reaching
          cases storage.unique member member' contains contains'
          change record.logicalOffset ≤ offset at start
          unfold extentByte
          by_cases within : offset < followingOffset size records
          · have covers : extent.Covers offset := by
              have bound : offset < sealedExtent.logicalOffset + sealedExtent.dataSize :=
                Nat.lt_of_lt_of_le (Nat.lt_min.mpr ⟨within, inside⟩) reaches
              have first := contains.2.1
              exact ⟨by omega, by omega⟩
            have plain : ¬extent.IsHole isSparse := by
              rintro ⟨sparse, zero⟩
              exact placed sparse record (List.mem_cons_self ..) (Nat.lt_of_le_of_lt start inside)
                sealedExtent member contains ((start_eq_zero contains whole physical).mp zero)
            rw [if_pos covers]
            exact resolves.byte storage plain covers
          · rw [if_neg (fun covers => within (by have upper := covers.2; omega))]
            exact ih resolved increasing.2 reaching (fun sparse record' found =>
              placed sparse record' (List.mem_cons_of_mem _ found)) (Nat.le_of_not_lt within)

theorem Resolved.reaching (resolved : Resolved tree blockSize identifier size records extents)
    (increasing : Increasing size records) {isSparse : Bool}
    (same : ∀ offset < addressable size, followingOffset size records ≤ offset →
      extentByte blockSize isSparse (fun _ => 1) extents offset = 1) :
    Reaching tree identifier size records ∧ (isSparse = true → Placed tree identifier size records) := by
  induction records generalizing extents with
  | nil => exact ⟨trivial, fun _ _ member => absurd member (List.not_mem_nil)⟩
  | cons record records ih =>
      cases extents with
      | nil => exact resolved.elim
      | cons extent extents =>
          obtain ⟨⟨sealedExtent, member, contains, whole, place, physical, dataSize⟩, resolved⟩ := resolved
          have first := contains.2.1
          have last := contains.2.2
          have ordered := increasing.1
          have ends : extent.logicalOffset + extent.dataSize ≤ followingOffset size records := by omega
          have follow := (resolved.follow increasing.2 (Nat.le_refl _) increasing.2.following_le).1
          obtain ⟨reaching, placed⟩ := ih resolved increasing.2 (by
            intro offset inside start
            have byte := same offset inside (Nat.le_trans (Nat.le_of_lt ordered) start)
            unfold extentByte at byte
            rwa [if_neg (fun covers => Nat.not_lt_of_le (Nat.le_trans ends start) covers.2)] at byte)
          refine ⟨⟨⟨sealedExtent, member, contains, Nat.le_of_not_lt ?_⟩, reaching⟩, ?_⟩
          · intro short
            obtain ⟨before, inside⟩ := Nat.lt_min.mp short
            have byte := same _ inside (Nat.le_of_lt last)
            have uncovered : ¬extent.Covers (sealedExtent.logicalOffset + sealedExtent.dataSize) := by
              intro covers
              have upper := covers.2
              omega
            unfold extentByte at byte
            rw [if_neg uncovered, extentByte_before follow before] at byte
            exact absurd byte (by decide)
          · intro sparse record' found inside extent' member' contains' zero
            cases found with
            | head =>
                cases storage.unique member member' contains contains'
                have hole : extent.IsHole isSparse := ⟨sparse, (start_eq_zero contains whole physical).mpr zero⟩
                have byte := same _ inside (Nat.le_refl _)
                have covers : extent.Covers record.logicalOffset := ⟨by omega, by omega⟩
                unfold extentByte FileExtent.byte at byte
                rw [if_pos covers, if_pos hole] at byte
                exact absurd byte (by decide)
            | tail _ found => exact placed sparse record' found inside extent' member' contains' zero

theorem Resolved.reaches (resolved : Resolved tree blockSize identifier size records extents)
    (reaching : Reaching tree identifier size records) (some : records ≠ []) {position : Nat} :
    addressable size ≤ extentsEnd position extents := by
  induction records generalizing extents position with
  | nil => exact absurd rfl some
  | cons record records ih =>
      cases extents with
      | nil => exact resolved.elim
      | cons extent extents =>
          obtain ⟨⟨sealedExtent, member, contains, whole, place, physical, dataSize⟩, resolved⟩ := resolved
          obtain ⟨⟨reached, member', contains', reaches⟩, reaching⟩ := reaching
          cases records with
          | cons next records => exact ih resolved reaching (List.cons_ne_nil _ _)
          | nil =>
              cases extents with
              | cons => exact resolved.elim
              | nil =>
                  cases storage.unique member member' contains contains'
                  have limit : addressable size ≤ size := Nat.min_le_left ..
                  have first := contains.2.1
                  have last := contains.2.2
                  change min size (addressable size) ≤ _ at reaches
                  change extent.dataSize = min _ (size - record.logicalOffset) at dataSize
                  change addressable size ≤ extent.logicalOffset + extent.dataSize
                  omega

end resolved

end Fsapfs
