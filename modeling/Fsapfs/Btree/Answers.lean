import Fsapfs.Btree.NodeData
import Fsapfs.DirectoryLookup
import Fsapfs.RecordListing

namespace Fsapfs
open Program

section reading

variable {β : Type} {data : List UInt8}

theorem requireData_returns {minimumSize : Nat} (positive : 0 < minimumSize) :
    Outcome (requireData data minimumSize) (fun _ => minimumSize ≤ data.length) True := by
  cases required : requireData data minimumSize with
  | ok value => exact (requireData_ok positive).mp required
  | error failure =>
      unfold requireData at required
      split_ifs at required
      · cases required
        trivial
      · cases required
        trivial

theorem loadLittleEndian_bind_returns {size offset : Nat} {next : Nat → Result β}
    (inside : offset + size ≤ data.length) (continues : ∀ value, Returns (next value)) :
    Returns (loadLittleEndian size data offset >>= next) := by
  rw [loadLittleEndian_ok inside]
  exact continues _

theorem slice_bind_returns {offset size : Nat} {next : List UInt8 → Result β}
    (inside : offset + size ≤ data.length) (continues : ∀ part, Returns (next part)) :
    Returns (slice data offset size >>= next) := by
  rw [slice_of_le inside]
  exact continues _

theorem loadLittleEndian_returns {size offset : Nat} (inside : offset + size ≤ data.length) :
    Returns (loadLittleEndian size data offset) := by
  rw [loadLittleEndian_ok inside]
  trivial

theorem slice_returns {offset size : Nat} (inside : offset + size ≤ data.length) :
    Returns (slice data offset size : Result (List UInt8)) := by
  rw [slice_of_le inside]
  trivial

theorem readFileSystemIdentifier_returns (entry : BtreeEntry) : Returns (readFileSystemIdentifier entry) :=
  (requireData_returns (by simp)).bind fun _ sized => loadLittleEndian_returns sized

end reading

section fields

variable {α : Type} {field : α → Nat → List UInt8 → Result α} {data : List UInt8} {minimumSize : Nat}

theorem readExtendedFields_returns
    (fields : ∀ record extendedFieldType valueData, Returns (field record extendedFieldType valueData))
    (sized : 4 ≤ data.length) (number dataOffset valueDataOffset : Nat) (record : α) :
    Returns (readExtendedFields data minimumSize field number dataOffset valueDataOffset record) := by
  induction number generalizing dataOffset valueDataOffset record with
  | zero => trivial
  | succ number ih =>
      unfold readExtendedFields
      by_cases beyond : dataOffset > data.length - 4
      · rw [if_pos beyond]
        trivial
      · rw [if_neg beyond, load_of_lt (by omega), ok_bind]
        apply loadLittleEndian_bind_returns (by omega)
        intro valueDataSize
        split_ifs with outside unfit
        · trivial
        · trivial
        · apply slice_bind_returns (by omega)
          intro valueData
          exact (fields _ _ _).bind fun _ _ => ih _ _ _

theorem readTrailingFields_returns
    (fields : ∀ record extendedFieldType valueData, Returns (field record extendedFieldType valueData))
    {dataOffset : Nat} (sized : 4 ≤ data.length) (record : α) :
    Returns (readTrailingFields data dataOffset minimumSize field record) := by
  unfold readTrailingFields
  split_ifs with none beyond
  · trivial
  · trivial
  · apply loadLittleEndian_bind_returns (by omega)
    exact fun _ => readExtendedFields_returns fields sized _ _ _ _

end fields

theorem Inode.readExtendedField_returns (inode : Inode) (extendedFieldType : Nat) (valueData : List UInt8) :
    Returns (Inode.readExtendedField inode extendedFieldType valueData) := by
  unfold Inode.readExtendedField
  split_ifs with _ _ _ _ short _ unequal
  · trivial
  · trivial
  · trivial
  · trivial
  · exact loadLittleEndian_bind_returns (by omega) fun _ => trivial
  · trivial
  · exact loadLittleEndian_bind_returns (by omega) fun _ => trivial
  · trivial

theorem Inode.readKeyData_returns (data : List UInt8) : Returns (Inode.readKeyData data) :=
  (requireData_returns (by simp)).bind fun _ sized => loadLittleEndian_bind_returns sized fun _ => trivial

theorem Inode.readValueData_returns (identifier : Nat) (data : List UInt8) :
    Returns (Inode.readValueData identifier data) := by
  refine (requireData_returns (by simp)).bind fun _ sized => ?_
  iterate 11
    apply loadLittleEndian_bind_returns (by omega)
    intro
  exact readTrailingFields_returns Inode.readExtendedField_returns (by omega) _

theorem Inode.read_returns (entry : BtreeEntry) : Returns (Inode.read entry) :=
  (Inode.readKeyData_returns _).bind fun _ _ => Inode.readValueData_returns _ _

theorem DirectoryRecord.readKeyData_returns (data : List UInt8) : Returns (DirectoryRecord.readKeyData data) := by
  refine (requireData_returns (by simp)).bind fun _ sized => ?_
  apply loadLittleEndian_bind_returns (by omega)
  intro nameSizeField
  by_cases hashed : nameSizeField &&& 0x3ff < data.length - 10
  · rw [if_pos hashed]
    by_cases short : data.length < 12
    · rw [if_pos short]
      trivial
    · rw [if_neg short]
      apply loadLittleEndian_bind_returns (by omega)
      intro nameSizeAndHash
      simp only []
      split
      · trivial
      · exact slice_bind_returns (by omega) fun _ => trivial
  · rw [if_neg hashed]
    simp only []
    split
    · trivial
    · exact slice_bind_returns (by omega) fun _ => trivial

theorem DirectoryRecord.readExtendedField_returns (directoryRecord : DirectoryRecord) (extendedFieldType : Nat)
    (valueData : List UInt8) : Returns (DirectoryRecord.readExtendedField directoryRecord extendedFieldType valueData) := by
  unfold DirectoryRecord.readExtendedField
  split
  · trivial
  · trivial

theorem DirectoryRecord.readValueData_returns (key : List UInt8 × Nat) (data : List UInt8) :
    Returns (DirectoryRecord.readValueData key data) := by
  refine (requireData_returns (by simp)).bind fun _ sized => ?_
  iterate 2
    apply loadLittleEndian_bind_returns (by omega)
    intro
  exact readTrailingFields_returns DirectoryRecord.readExtendedField_returns (by omega) _

theorem DirectoryRecord.read_returns (entry : BtreeEntry) : Returns (DirectoryRecord.read entry) :=
  (DirectoryRecord.readKeyData_returns _).bind fun _ _ => DirectoryRecord.readValueData_returns _ _

theorem ExtendedAttribute.readKeyData_returns (data : List UInt8) : Returns (ExtendedAttribute.readKeyData data) := by
  refine (requireData_returns (by simp)).bind fun _ sized => ?_
  apply loadLittleEndian_bind_returns (by omega)
  intro nameSize
  split
  · trivial
  · exact slice_returns (by omega)

theorem ExtendedAttribute.readValueData_returns (data : List UInt8) :
    Returns (ExtendedAttribute.readValueData data) := by
  refine (requireData_returns (by simp)).bind fun _ sized => ?_
  apply loadLittleEndian_bind_returns (by omega)
  intro flags
  apply loadLittleEndian_bind_returns (by omega)
  intro dataSize
  simp only []
  split_ifs with outside stream unsupported embedded
  · trivial
  · trivial
  · apply loadLittleEndian_bind_returns (by omega)
    intro
    exact loadLittleEndian_bind_returns (by omega) fun _ => trivial
  · exact slice_bind_returns (by omega) fun _ => trivial
  · trivial

theorem ExtendedAttribute.read_returns (entry : BtreeEntry) : Returns (ExtendedAttribute.read entry) :=
  (ExtendedAttribute.readKeyData_returns _).bind fun _ _ =>
    (ExtendedAttribute.readValueData_returns _).bind fun _ _ => trivial

theorem FileExtent.readKeyData_returns (fileSystemDataType : FileExtentType) (data : List UInt8) :
    Returns (FileExtent.readKeyData fileSystemDataType data) := by
  refine (requireData_returns (by simp)).bind fun _ sized => ?_
  apply loadLittleEndian_bind_returns (by omega)
  intro
  exact loadLittleEndian_bind_returns (by omega) fun _ => trivial

theorem FileExtent.readValueData_returns (fileExtent : FileExtent) (data : List UInt8) :
    Returns (FileExtent.readValueData fileExtent data) := by
  unfold FileExtent.readValueData
  split
  · exact (requireData_returns (by simp)).bind fun _ _ => trivial
  · refine (requireData_returns (by simp)).bind fun _ sized => ?_
    iterate 3
      apply loadLittleEndian_bind_returns (by omega)
      intro
    trivial

theorem FileExtent.read_returns (entry : BtreeEntry) : Returns (FileExtent.read entry) :=
  (readFileSystemIdentifier_returns entry).bind fun _ _ =>
    (FileExtent.readKeyData_returns _ _).bind fun _ _ => FileExtent.readValueData_returns _ _

theorem ObjectMapDescriptor.read_returns (entry : BtreeEntry) : Returns (ObjectMapDescriptor.read entry) := by
  have key : Returns (ObjectMapDescriptor.readKeyData entry.keyData) := by
    refine (requireData_returns (by simp)).bind fun _ sized => ?_
    apply loadLittleEndian_bind_returns (by omega)
    intro
    exact loadLittleEndian_bind_returns (by omega) fun _ => trivial
  have value : Returns (ObjectMapDescriptor.readValueData entry.valueData) := by
    refine (requireData_returns (by simp)).bind fun _ sized => ?_
    iterate 3
      apply loadLittleEndian_bind_returns (by omega)
      intro
    trivial
  exact key.bind fun _ _ => value.bind fun _ _ => trivial

/-- Reading a node ends, and the footer of a root node is read with it. -/
def Parsed (nodes : Nat → Result BtreeNode) : Prop :=
  ∀ blockNumber, Outcome (nodes blockNumber) (fun node => node.isRootNode → node.footer ≠ none) True

namespace BtreeNode

section reading

variable {header : BtreeNodeHeader} {data : List UInt8} {objectSubtype footerOffset entriesDataOffset : Nat}

theorem readTableEntry_returns {dataOffset : Nat} (inside : dataOffset + header.btreeEntryDataSize ≤ data.length) :
    Returns (TableEntry.readData header objectSubtype data dataOffset) := by
  unfold BtreeNodeHeader.btreeEntryDataSize at inside
  unfold TableEntry.readData
  split
  next fixed =>
    rw [if_pos fixed] at inside
    iterate 2
      apply loadLittleEndian_bind_returns (by omega)
      intro
    have sizes : Returns (fixedEntrySizes objectSubtype) := by
      unfold fixedEntrySizes
      split
      · trivial
      · trivial
      · trivial
    exact sizes.bind fun _ _ => trivial
  next varying =>
    rw [if_neg varying] at inside
    iterate 4
      apply loadLittleEndian_bind_returns (by omega)
      intro
    trivial

theorem setEntryData_returns {offset size : Nat} (inside : offset + size ≤ data.length) :
    Returns (setEntryData data offset size) := by
  unfold setEntryData
  split
  · trivial
  · exact slice_returns inside

theorem readEntry_returns (entry : TableEntry) :
    Returns (readEntry header data footerOffset entriesDataOffset entry) := by
  unfold readEntry
  dsimp only
  split_ifs with outsideKey outsideValue
  · trivial
  · trivial
  · refine (setEntryData_returns (by omega)).bind fun _ _ => ?_
    exact (setEntryData_returns (by omega)).bind fun _ _ => trivial

theorem readEntries_returns {numberOfKeys dataOffset : Nat}
    (inside : dataOffset + numberOfKeys * header.btreeEntryDataSize ≤ data.length) :
    Returns (readEntries header objectSubtype data footerOffset entriesDataOffset numberOfKeys dataOffset) := by
  induction numberOfKeys generalizing dataOffset with
  | zero => trivial
  | succ numberOfKeys ih =>
      rw [Nat.succ_mul] at inside
      refine (readTableEntry_returns (by omega)).bind fun entry _ => ?_
      refine (readEntry_returns entry).bind fun _ _ => ?_
      exact (ih (by omega)).bind fun _ _ => trivial

theorem readObjectData_returns (data : List UInt8) : Returns (readObjectData data) := by
  unfold readObjectData
  split_ifs with short
  · trivial
  · apply loadLittleEndian_bind_returns (by omega)
    intro
    dsimp only
    split_ifs
    · trivial
    · apply loadLittleEndian_bind_returns (by omega)
      intro
      trivial

theorem readHeader_returns (data : List UInt8) : Returns (BtreeNodeHeader.readData data) := by
  unfold BtreeNodeHeader.readData
  split_ifs with short
  · trivial
  · iterate 7
      apply loadLittleEndian_bind_returns (by omega)
      intro
    trivial

theorem readFooter_outcome (sized : 40 ≤ data.length) :
    Outcome (readFooter header data) (fun footer => header.isRootNode → footer.1 ≠ none) True := by
  have footed : Returns (BtreeFooter.readData ((data.drop (data.length - 40)).take 40)) := by
    unfold BtreeFooter.readData
    split_ifs with short
    · trivial
    · iterate 3
        apply loadLittleEndian_bind_returns (by omega)
        intro
      trivial
  unfold readFooter
  split_ifs with root
  · rw [slice_of_le (by omega)]
    exact footed.bind fun footer _ _ => Option.some_ne_none footer
  · exact fun root' => absurd root' root

theorem checkDataOffsets_outcome (remainingDataSize : Nat) :
    Outcome (header.checkDataOffsets remainingDataSize)
      (fun _ => header.entriesDataOffset + header.entriesDataSize < remainingDataSize) True := by
  cases checked : header.checkDataOffsets remainingDataSize with
  | ok => exact checkDataOffsets_ok checked
  | error failure =>
      unfold BtreeNodeHeader.checkDataOffsets at checked
      split_ifs at checked
      all_goals
        cases checked
        trivial

theorem readData_outcome (data : List UInt8) :
    Outcome (readData data) (fun node => node.isRootNode → node.footer ≠ none) True := by
  unfold readData
  split_ifs with short
  · trivial
  · refine (readObjectData_returns data).bind fun object _ => ?_
    rw [slice_of_le (by omega)]
    refine (readHeader_returns _).bind fun header _ => ?_
    refine (checkDataOffsets_outcome _).bind fun _ range => ?_
    refine (readFooter_outcome (by omega)).bind fun footer footed => ?_
    dsimp only
    split_ifs with many
    · trivial
    · have table := Nat.div_mul_le_self header.entriesDataSize header.btreeEntryDataSize
      have keys := Nat.mul_le_mul_right header.btreeEntryDataSize (Nat.le_of_not_lt many)
      exact (readEntries_returns (by omega)).bind fun _ _ => footed

end reading

theorem parsed_of_reads {blocks : Nat → Result (List UInt8)} (returns : ∀ blockNumber, Returns (blocks blockNumber)) :
    Parsed fun blockNumber => blocks blockNumber >>= readData := fun blockNumber =>
  (returns blockNumber).bind fun data _ => readData_outcome data

end BtreeNode

theorem BtreeNode.requireFooter_returns {node : BtreeNode} (footed : node.footer ≠ none)
    (nodeSize keySize valueSize : Nat) : Returns (node.requireFooter nodeSize keySize valueSize) := by
  unfold BtreeNode.requireFooter
  split
  · contradiction
  · split
    · trivial
    · trivial

namespace ObjectMapBtree

variable {nodes : Nat → Result BtreeNode}

theorem getRootNode_returns (parsed : Parsed nodes) (rootNodeBlockNumber : Nat) :
    Returns (getRootNode nodes rootNodeBlockNumber) := by
  unfold getRootNode
  split
  · trivial
  · refine (parsed rootNodeBlockNumber).bind fun node footed => ?_
    split_ifs with object flags
    · trivial
    · trivial
    · have root : node.isRootNode := by simpa using (not_or.mp flags).1
      exact (node.requireFooter_returns (footed root) _ _ _).bind fun _ _ => trivial

theorem getSubNode_returns (parsed : Parsed nodes) (subNodeBlockNumber : Nat) :
    Returns (getSubNode nodes subNodeBlockNumber) := by
  unfold getSubNode
  split
  · trivial
  · refine (parsed subNodeBlockNumber).bind fun node _ => ?_
    split_ifs
    · trivial
    · trivial
    · trivial

theorem scanEntries_returns (objectIdentifier transactionIdentifier : Nat) (scan : Scan) (entries : List BtreeEntry) :
    Returns (scanEntries objectIdentifier transactionIdentifier scan entries) := by
  induction entries generalizing scan with
  | nil => trivial
  | cons entry entries ih =>
      refine (requireData_returns (by simp)).bind fun _ sized => ?_
      iterate 2
        apply loadLittleEndian_bind_returns (by omega)
        intro
      simp only []
      split_ifs
      · trivial
      · trivial
      · exact ih _

theorem getEntryFromNodeByIdentifier_returns (node : BtreeNode) (objectIdentifier transactionIdentifier : Nat) :
    Returns (getEntryFromNodeByIdentifier node objectIdentifier transactionIdentifier) := by
  refine (scanEntries_returns _ _ _ _).bind fun scan _ => ?_
  split_ifs
  · trivial
  · trivial
  · trivial
  · trivial

theorem readSubNodeBlockNumber_returns (entry : Option BtreeEntry) : Returns (readSubNodeBlockNumber entry) := by
  cases entry with
  | none => trivial
  | some entry => exact (requireData_returns (by simp)).bind fun _ sized => loadLittleEndian_returns sized

theorem getEntryUnderNode_returns (parsed : Parsed nodes) (objectIdentifier transactionIdentifier depth : Nat)
    (node : BtreeNode) : Returns (getEntryUnderNode nodes objectIdentifier transactionIdentifier depth node) := by
  induction depth generalizing node with
  | zero => trivial
  | succ depth ih =>
      refine (getEntryFromNodeByIdentifier_returns _ _ _).bind fun found _ => ?_
      cases found with
      | none => trivial
      | some entry =>
          simp only []
          split
          · trivial
          · exact (readSubNodeBlockNumber_returns entry).bind fun _ _ =>
              (getSubNode_returns parsed _).bind fun subNode _ => ih subNode

theorem getDescriptorByObjectIdentifier_returns (parsed : Parsed nodes) (btree : ObjectMapBtree)
    (objectIdentifier transactionIdentifier : Nat) :
    Returns (getDescriptorByObjectIdentifier nodes btree objectIdentifier transactionIdentifier) := by
  have found : Returns (getEntryByIdentifier nodes btree objectIdentifier transactionIdentifier) :=
    (getRootNode_returns parsed _).bind fun node _ => getEntryUnderNode_returns parsed _ _ _ node
  refine found.bind fun found _ => ?_
  rcases found with _ | _ | entry
  · trivial
  · trivial
  · exact (ObjectMapDescriptor.read_returns entry).bind fun _ _ => trivial

end ObjectMapBtree

namespace FileSystemBtree
open Listing

section nodes

variable {nodes : Nat → Result BtreeNode}

theorem getRootNode_returns (parsed : Parsed nodes) (rootNodeBlockNumber : Nat) :
    Returns (getRootNode nodes rootNodeBlockNumber) := by
  unfold getRootNode
  split
  · trivial
  · refine (parsed rootNodeBlockNumber).bind fun node footed => ?_
    split_ifs with unused object flags
    · trivial
    · trivial
    · trivial
    · have root : node.isRootNode := by simpa using (not_or.mp flags).1
      exact (node.requireFooter_returns (footed root) _ _ _).bind fun _ _ => trivial

theorem getSubNode_returns (parsed : Parsed nodes) (subNodeBlockNumber : Nat) :
    Returns (getSubNode nodes subNodeBlockNumber) := by
  unfold getSubNode
  split
  · trivial
  · refine (parsed subNodeBlockNumber).bind fun node _ => ?_
    split_ifs
    · trivial
    · trivial
    · trivial

theorem candidates_returns (btree : FileSystemBtree) (raw : Nat) : Returns (candidates btree raw) := by
  unfold candidates
  by_cases unset : btree.rootNodeObjectIdentifier = 0
  · rw [if_pos unset]
    trivial
  · rw [if_neg unset]
    by_cases beyond : raw > 2 ^ 64 - 1 - btree.rootNodeObjectIdentifier
    · rw [if_pos beyond]
      trivial
    · rw [if_neg beyond, ok_bind]
      beta_reduce
      split_ifs
      · trivial
      · trivial
      · trivial

theorem firstCandidate_returns (parsed : Parsed nodes) (btree : FileSystemBtree)
    (transactionIdentifier expectedLevel : Nat) (candidates : List (Nat × BranchChildOidEncoding)) :
    Returns (firstCandidate nodes btree transactionIdentifier expectedLevel candidates) := by
  induction candidates with
  | nil => trivial
  | cons candidate candidates ih =>
      refine (ObjectMapBtree.getDescriptorByObjectIdentifier_returns parsed _ _ _).bind fun descriptor _ => ?_
      cases descriptor with
      | none => exact ih
      | some descriptor =>
          have returns := getSubNode_returns parsed descriptor.physicalAddress
          simp only []
          split
          · split
            · trivial
            · exact ih
          · exact ih
          · rename_i failure unreported read
            rw [read] at returns
            cases failure with
            | error code => exact absurd rfl (unreported code)
            | undefined => exact returns
            | unfinished => exact returns

theorem resolveEntry_returns (parsed : Parsed nodes) (btree : FileSystemBtree) (node : BtreeNode)
    (entry : Option BtreeEntry) (transactionIdentifier : Nat) :
    Returns (resolveEntry nodes btree node entry transactionIdentifier) := by
  unfold resolveEntry
  split
  · trivial
  · cases entry with
    | none => trivial
    | some entry =>
        refine (requireData_returns (by simp)).bind fun _ sized => ?_
        apply loadLittleEndian_bind_returns sized
        intro raw
        exact (candidates_returns btree raw).bind fun _ _ => firstCandidate_returns parsed _ _ _ _

theorem requireSubNodeBlockNumber_answers (parsed : Parsed nodes) (node : BtreeNode) (entry : Option BtreeEntry)
    (transactionIdentifier : Nat) : (requireSubNodeBlockNumber nodes node entry transactionIdentifier).Answers := by
  have answers : (getSubNodeBlockNumberFromEntry nodes node entry transactionIdentifier).Answers := by
    refine Call.answers_self.bind fun btree => ?_
    refine (Call.answers_lift (resolveEntry_returns parsed btree node entry transactionIdentifier)).bind fun found => ?_
    cases found with
    | none => exact Call.answers_pure none
    | some found => exact (Call.answers_update _).bind fun _ => Call.answers_pure _
  refine answers.bind fun blockNumber => ?_
  cases blockNumber with
  | none => exact Call.answers_lift trivial
  | some blockNumber => exact Call.answers_pure blockNumber

theorem findLeafEntry_returns (lookupIdentifier : Nat) (entries : List BtreeEntry) :
    Returns (findLeafEntry lookupIdentifier entries) := by
  induction entries with
  | nil => trivial
  | cons entry entries ih =>
      refine (readFileSystemIdentifier_returns entry).bind fun _ _ => ?_
      split
      · trivial
      · exact ih

theorem findBranchEntry_returns (identifier dataType : Nat) (previousEntry : Option BtreeEntry)
    (entries : List BtreeEntry) : Returns (findBranchEntry identifier dataType previousEntry entries) := by
  induction entries generalizing previousEntry with
  | nil => trivial
  | cons entry entries ih =>
      refine (readFileSystemIdentifier_returns entry).bind fun _ _ => ?_
      split_ifs
      · trivial
      · trivial
      · exact ih _

theorem getEntryFromNodeByIdentifier_returns (node : BtreeNode) (identifier dataType : Nat) :
    Returns (getEntryFromNodeByIdentifier node identifier dataType) := by
  unfold getEntryFromNodeByIdentifier
  split
  · exact (findLeafEntry_returns _ _).bind fun _ _ => trivial
  · exact (findBranchEntry_returns _ _ _ _).bind fun _ _ => trivial

end nodes

section lookup

variable {nodes : Nat → Result BtreeNode} (parsed : Parsed nodes) (identifier dataType transactionIdentifier : Nat)

include parsed

theorem getEntryFromSubTree_answers {next : Nat → TreeCall (Option BtreeEntry)}
    (answers : ∀ blockNumber, (next blockNumber).Answers) (node : BtreeNode) :
    (getEntryFromSubTree nodes identifier dataType transactionIdentifier next node).Answers := by
  refine (Call.answers_lift (getEntryFromNodeByIdentifier_returns node identifier dataType)).bind fun found => ?_
  cases found with
  | none => exact Call.answers_pure none
  | some entry =>
      simp only []
      split
      · exact Call.answers_pure entry
      · exact (requireSubNodeBlockNumber_answers parsed node entry transactionIdentifier).bind answers

theorem getEntryFromSubNode_answers (depth blockNumber : Nat) :
    (getEntryFromSubNode nodes identifier dataType transactionIdentifier depth blockNumber).Answers := by
  refine answers_descend (fun blockNumber => ?_) (fun next answers blockNumber => ?_) depth blockNumber
  · exact (Call.answers_lift (getSubNode_returns parsed blockNumber)).bind fun _ => Call.answers_lift trivial
  · exact (Call.answers_lift (getSubNode_returns parsed blockNumber)).bind fun subNode =>
      getEntryFromSubTree_answers parsed identifier dataType transactionIdentifier answers subNode

theorem getEntryByIdentifier_answers :
    (getEntryByIdentifier nodes identifier dataType transactionIdentifier).Answers := by
  refine Call.answers_self.bind fun btree => ?_
  refine (Call.answers_lift (getRootNode_returns parsed btree.rootNodeBlockNumber)).bind fun rootNode => ?_
  cases rootNode with
  | none => exact Call.answers_pure none
  | some node =>
      exact getEntryFromSubTree_answers parsed identifier dataType transactionIdentifier
        (getEntryFromSubNode_answers parsed identifier dataType transactionIdentifier _) node

theorem getInodeByIdentifier_answers : (getInodeByIdentifier nodes identifier transactionIdentifier).Answers := by
  refine (getEntryByIdentifier_answers parsed identifier 3 transactionIdentifier).bind fun entry => ?_
  cases entry with
  | none => exact Call.answers_pure none
  | some entry => exact (Call.answers_lift (Inode.read_returns entry)).bind fun _ => Call.answers_pure _

end lookup

section listing

variable {κ : Type} {nodes : Nat → Result BtreeNode} {kind : RecordKind κ} {identifier transactionIdentifier : Nat}

theorem emptyOnError_answers {α : Type} {call : ListingCall κ α} (answers : call.Answers) :
    (emptyOnError call).Answers := by
  intro listing
  have ended := answers listing
  unfold emptyOnError
  split
  next run =>
    trivial
  next run =>
    rw [run] at ended
    exact ended

theorem onBtree_answers {α : Type} {call : TreeCall α} (answers : call.Answers) :
    (onBtree call : ListingCall κ α).Answers := fun listing => answers listing.btree

/-- The entries of branches and leaves are read to the end, or up to an error. -/
structure RecordKind.Returning (kind : RecordKind κ) : Prop where
  examine : ∀ identifier entry, Returns (kind.examine identifier entry)
  read : ∀ entry, Returns (kind.read entry)

variable (returning : kind.Returning)

include returning

theorem getRecordsFromLeafNode_answers (node : BtreeNode) : (getRecordsFromLeafNode kind identifier node).Answers := by
  have appended : ∀ (entries : List BtreeEntry) (found : Bool),
      (appendLeafRecords kind identifier found entries).Answers := by
    intro entries
    induction entries with
    | nil => exact Call.answers_pure
    | cons entry entries ih =>
        intro found
        refine (Call.answers_lift (readFileSystemIdentifier_returns entry)).bind fun _ => ?_
        split_ifs
        · exact Call.answers_pure found
        · exact (Call.answers_lift (returning.read entry)).bind fun _ => (Call.answers_update _).bind fun _ => ih true
        · exact ih found
  apply emptyOnError_answers
  split
  · exact appended node.entries false
  · exact Call.answers_lift trivial

variable (parsed : Parsed nodes)

include parsed

theorem getRecordsFromNode_answers {next : Nat → ListingCall κ Bool}
    (answers : ∀ blockNumber, (next blockNumber).Answers) (node : BtreeNode) :
    (getRecordsFromNode nodes kind identifier transactionIdentifier next node).Answers := by
  have visits : ∀ entry, (visitEntry nodes transactionIdentifier next node entry).Answers := fun entry =>
    (onBtree_answers (requireSubNodeBlockNumber_answers parsed node entry transactionIdentifier)).bind answers
  have branches : ∀ (entries : List BtreeEntry) (previousEntry : Option BtreeEntry) (found : Bool),
      (visitBranchEntries nodes kind identifier transactionIdentifier next node previousEntry found entries).Answers := by
    intro entries
    induction entries with
    | nil => exact fun previousEntry _ => (visits previousEntry).bind fun _ => Call.answers_pure _
    | cons entry entries ih =>
        intro previousEntry found
        refine (Call.answers_lift (returning.examine identifier entry)).bind fun step => ?_
        cases step with
        | stop => exact (visits previousEntry).bind fun _ => Call.answers_pure _
        | pass => exact ih _ _
        | visitPrevious =>
            cases previousEntry with
            | none => exact ih _ _
            | some previousEntry => exact (visits (some previousEntry)).bind fun _ => ih _ _
  unfold getRecordsFromNode
  split
  · exact getRecordsFromLeafNode_answers returning node
  · apply emptyOnError_answers
    split
    · exact Call.answers_lift trivial
    · exact branches node.entries none false

theorem getRecordsFromSubNode_answers (depth blockNumber : Nat) :
    (getRecordsFromSubNode nodes kind identifier transactionIdentifier depth blockNumber).Answers := by
  refine answers_descend (fun blockNumber => ?_) (fun next answers blockNumber => ?_) depth blockNumber
  · refine (Call.answers_lift (getSubNode_returns parsed blockNumber)).bind fun subNode => ?_
    split
    · exact getRecordsFromLeafNode_answers returning subNode
    · exact Call.answers_lift trivial
  · exact (Call.answers_lift (getSubNode_returns parsed blockNumber)).bind fun subNode =>
      getRecordsFromNode_answers returning parsed answers subNode

theorem getRecords_answers : (getRecords nodes kind identifier transactionIdentifier).Answers := by
  apply emptyOnError_answers
  refine Call.answers_self.bind fun listing => ?_
  refine (Call.answers_lift (getRootNode_returns parsed listing.btree.rootNodeBlockNumber)).bind fun rootNode => ?_
  cases rootNode with
  | none => exact Call.answers_pure false
  | some node => exact getRecordsFromNode_answers returning parsed (getRecordsFromSubNode_answers returning parsed _) node

end listing

theorem examineKey_returns (dataType identifier : Nat) (entry : BtreeEntry) :
    Returns (examineKey dataType identifier entry) := by
  refine (readFileSystemIdentifier_returns entry).bind fun _ _ => ?_
  split_ifs
  · trivial
  · trivial
  · trivial

theorem directoryRecords_returning : directoryRecords.Returning where
  examine := examineKey_returns 9
  read := DirectoryRecord.read_returns

theorem extendedAttributes_returning : extendedAttributes.Returning where
  examine := examineKey_returns 4
  read := ExtendedAttribute.read_returns

theorem fileExtents_returning : fileExtents.Returning where
  examine identifier entry := by
    refine (readFileSystemIdentifier_returns entry).bind fun _ _ => ?_
    split_ifs with stop extent short
    · trivial
    · trivial
    · apply loadLittleEndian_bind_returns (by omega)
      intro logicalAddress
      split
      · trivial
      · trivial
    · trivial
  read := FileExtent.read_returns

section search

variable {α : Type} {unicode : Unicode α} {name : DirectoryName α} {nodes : Nat → Result BtreeNode}
  {transactionIdentifier : Nat}

theorem findDirectoryRecord_returns (useCaseFolding : Bool) (entries : List BtreeEntry) :
    Returns (findDirectoryRecord unicode name useCaseFolding entries) := by
  induction entries with
  | nil => trivial
  | cons entry entries ih =>
      refine (readFileSystemIdentifier_returns entry).bind fun _ _ => ?_
      split
      · refine (DirectoryRecord.readKeyData_returns _).bind fun key _ => ?_
        refine (DirectoryRecord.compareName_returns _ _ _).bind fun order _ => ?_
        split
        · exact (DirectoryRecord.readValueData_returns _ _).bind fun _ _ => trivial
        · exact ih
      · exact ih

theorem findDirectoryBranchEntry_returns (previousEntry : Option BtreeEntry) (entries : List BtreeEntry) :
    Returns (findDirectoryBranchEntry unicode name previousEntry entries) := by
  induction entries generalizing previousEntry with
  | nil => trivial
  | cons entry entries ih =>
      refine (readFileSystemIdentifier_returns entry).bind fun _ _ => ?_
      split_ifs
      · trivial
      · refine (DirectoryRecord.readKeyData_returns _).bind fun key _ => ?_
        refine (DirectoryRecord.compareName_returns _ _ _).bind fun order _ => ?_
        split
        · trivial
        · exact ih _
      · exact ih _

theorem getDirectoryRecordFromLeafNode_answers (node : BtreeNode) :
    (getDirectoryRecordFromLeafNode unicode name node).Answers := by
  unfold getDirectoryRecordFromLeafNode
  split
  · exact Call.answers_self.bind fun btree => Call.answers_lift (findDirectoryRecord_returns _ _)
  · exact Call.answers_lift trivial

variable (parsed : Parsed nodes)

include parsed

theorem getDirectoryRecordFromNode_answers {next : Nat → TreeCall (Option DirectoryRecord)}
    (answers : ∀ blockNumber, (next blockNumber).Answers) (node : BtreeNode) :
    (getDirectoryRecordFromNode unicode name nodes transactionIdentifier next node).Answers := by
  unfold getDirectoryRecordFromNode
  split
  · exact getDirectoryRecordFromLeafNode_answers node
  · unfold getDirectoryRecordFromBranchNode
    split
    · exact Call.answers_lift trivial
    · exact (Call.answers_lift (findDirectoryBranchEntry_returns none node.entries)).bind fun entry =>
        (requireSubNodeBlockNumber_answers parsed node entry transactionIdentifier).bind answers

theorem getDirectoryRecordFromRootNode_answers (rootNode : BtreeNode) :
    (getDirectoryRecordFromRootNode unicode name nodes transactionIdentifier rootNode).Answers := by
  apply getDirectoryRecordFromNode_answers parsed
  apply answers_descend (fun blockNumber => ?_) (fun next answers blockNumber => ?_)
  · refine (Call.answers_lift (getSubNode_returns parsed blockNumber)).bind fun subNode => ?_
    split
    · exact getDirectoryRecordFromLeafNode_answers subNode
    · exact Call.answers_lift trivial
  · exact (Call.answers_lift (getSubNode_returns parsed blockNumber)).bind fun subNode =>
      getDirectoryRecordFromNode_answers parsed answers subNode

end search

section inode

variable {α : Type} {unicode : Unicode α} {nodes : Nat → Result BtreeNode} {transactionIdentifier : Nat}

theorem nextSegment_returns (fuel : Nat) (segment string : List α) (enough : string.length ≤ fuel) :
    Outcome (nextSegment unicode fuel segment string) (fun read => read.2.length ≤ string.length - 1) True := by
  induction fuel generalizing segment string with
  | zero =>
      obtain rfl : string = [] := List.length_eq_zero_iff.mp (by omega)
      exact Nat.le_refl 0
  | succ fuel ih =>
      cases string with
      | nil => exact Nat.le_refl 0
      | cons unit string =>
          refine (unicode.encoding.next_returns _).bind fun read shorter => ?_
          simp only []
          split
          · exact Nat.le_pred_of_lt shorter
          · exact (ih _ read.2 (by omega)).mono (fun rest smaller => by omega) id

variable (parsed : Parsed nodes)

include parsed

theorem getDirectoryRecordByString_answers (rootNode : BtreeNode) (parentIdentifier : Nat) (string : List α) :
    (getDirectoryRecordByString unicode nodes transactionIdentifier rootNode parentIdentifier string).Answers :=
  Call.answers_self.bind fun btree =>
    (Call.answers_lift (calculateNameHash_returns unicode.mappings unicode.encoding btree.useCaseFolding string)).bind
      fun _ => getDirectoryRecordFromRootNode_answers parsed rootNode

theorem getInodeByName_answers (parentIdentifier : Nat) (string : List α) :
    (getInodeByName unicode nodes transactionIdentifier parentIdentifier string).Answers := by
  unfold getInodeByName
  split
  · exact Call.answers_lift trivial
  · refine Call.answers_self.bind fun btree => ?_
    refine (Call.answers_lift (getRootNode_returns parsed btree.rootNodeBlockNumber)).bind fun rootNode => ?_
    cases rootNode with
    | none => exact Call.answers_pure none
    | some rootNode =>
        refine (getDirectoryRecordByString_answers parsed rootNode parentIdentifier string).bind fun record => ?_
        cases record with
        | none => exact Call.answers_pure none
        | some record =>
            refine (getEntryByIdentifier_answers parsed record.identifier 3 transactionIdentifier).bind fun entry => ?_
            cases entry with
            | none => exact Call.answers_lift trivial
            | some entry => exact Call.answers_lift trivial

theorem getDirectoryRecordBySegments_answers (rootNode : BtreeNode) (fuel lookupIdentifier : Nat)
    (directoryRecord : Option DirectoryRecord) (string : List α) (enough : string.length ≤ fuel) :
    (getDirectoryRecordBySegments unicode nodes transactionIdentifier rootNode fuel lookupIdentifier directoryRecord
      string).Answers := by
  induction fuel generalizing lookupIdentifier directoryRecord string with
  | zero =>
      obtain rfl : string = [] := List.length_eq_zero_iff.mp (by omega)
      exact Call.answers_pure _
  | succ fuel ih =>
      cases string with
      | nil => exact Call.answers_pure _
      | cons unit string =>
          unfold getDirectoryRecordBySegments
          refine Call.Answers.bind_of (fun _ => nextSegment_returns _ [] (unit :: string) (Nat.le_refl _))
            fun read shorter => ?_
          simp only [List.length_cons] at shorter enough
          simp only []
          split
          · exact Call.answers_pure none
          · refine (getDirectoryRecordByString_answers parsed rootNode _ _).bind fun found => ?_
            cases found with
            | none => exact Call.answers_pure none
            | some record => exact ih _ _ _ (by omega)

omit parsed in
theorem dropSeparator_length (string : List α) : (dropSeparator unicode string).length ≤ string.length := by
  unfold dropSeparator
  split
  · exact Nat.le_refl _
  · split
    · simp
    · exact Nat.le_refl _

theorem getInodeWithRecord_answers (lookupIdentifier : Nat) (directoryRecord : Option DirectoryRecord) :
    (getInodeWithRecord nodes transactionIdentifier lookupIdentifier directoryRecord).Answers := by
  refine (getEntryByIdentifier_answers parsed lookupIdentifier 3 transactionIdentifier).bind fun entry => ?_
  cases entry with
  | none => exact Call.answers_lift trivial
  | some entry => exact (Call.answers_lift (Inode.read_returns entry)).bind fun _ => Call.answers_pure _

theorem getInodeByPath_answers (parentIdentifier : Nat) (string : List α) :
    (getInodeByPath unicode nodes transactionIdentifier parentIdentifier string).Answers := by
  unfold getInodeByPath
  split
  · exact Call.answers_lift trivial
  · refine Call.answers_self.bind fun btree => ?_
    refine (Call.answers_lift (getRootNode_returns parsed btree.rootNodeBlockNumber)).bind fun rootNode => ?_
    cases rootNode with
    | none => exact Call.answers_pure none
    | some rootNode =>
        simp only []
        split
        · exact (Call.answers_pure _).bind fun found => by
            cases found with
            | none => exact Call.answers_pure none
            | some found => exact getInodeWithRecord_answers parsed found.1 found.2
        · refine (getDirectoryRecordBySegments_answers parsed rootNode _ _ _ _ (dropSeparator_length string)).bind
            fun found => ?_
          cases found with
          | none => exact Call.answers_pure none
          | some found => exact getInodeWithRecord_answers parsed found.1 found.2

end inode

end FileSystemBtree

end Fsapfs
