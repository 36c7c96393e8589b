import Fsapfs.Btree.RecordsOfType
import Fsapfs.FileEntries
import Fsapfs.Program.Run

namespace Fsapfs
open Program

/-- A file system as the inodes and the records of directories that it holds. -/
structure Hierarchy where
  inode : Nat → Option Inode
  records : Nat → List DirectoryRecord

inductive NavigationRequest
  | fileEntryByIdentifier (identifier : Nat)
  | parentFileEntry (number : Nat)
  | numberOfSubFileEntries (number : Nat)
  | subFileEntryByIndex (number : Nat) (index : Int)
  deriving DecidableEq

inductive NavigationReply
  | fileEntry (number : Option Nat)
  | count (number : Nat)
  deriving DecidableEq

def NavigationRequest.Fits : NavigationRequest → Prop
  | fileEntryByIdentifier identifier => identifier < 2 ^ 60
  | _ => True

namespace Hierarchy

abbrev Entry := Inode × Option DirectoryRecord

abbrev HierarchyCall := Call ErrorCode (List Entry)

def entryAt (number : Nat) : HierarchyCall Entry := fun entries =>
  match entries[number]? with
  | some entry => (.ok entry, entries)
  | none => (fail .invalidValue, entries)

def addEntry (inode : Inode) (directoryRecord : Option DirectoryRecord) : HierarchyCall Nat := fun entries =>
  (.ok entries.length, entries ++ [(inode, directoryRecord)])

variable (hierarchy : Hierarchy)

def fileEntry (identifier : Nat) : HierarchyCall (Option Nat) :=
  match hierarchy.inode identifier with
  | none => return none
  | some inode => do
      let number ← addEntry inode none
      return some number

def require (identifier : Nat) : HierarchyCall Inode :=
  match hierarchy.inode identifier with
  | none => Call.lift (fail .getFailed)
  | some inode => return inode

def parent (number : Nat) : HierarchyCall (Option Nat) := do
  let entry ← entryAt number
  if entry.1.identifier > 2 then do
    let inode ← hierarchy.require entry.1.parentIdentifier
    let number ← addEntry inode none
    return some number
  else return none

def directory (number : Nat) : HierarchyCall (List DirectoryRecord) := do
  let entry ← entryAt number
  return hierarchy.records entry.1.identifier

def numberOfSubFileEntries (number : Nat) : HierarchyCall Nat := do
  let directoryEntries ← hierarchy.directory number
  return directoryEntries.length

def subFileEntry (number : Nat) (index : Int) : HierarchyCall Nat := do
  let directoryEntries ← hierarchy.directory number
  let directoryRecord ← Call.lift (OpenFileSystem.entryByIndex directoryEntries index)
  let inode ← hierarchy.require directoryRecord.identifier
  addEntry inode (some directoryRecord)

def navigate : NavigationRequest → HierarchyCall NavigationReply
  | .fileEntryByIdentifier identifier => do
      let number ← hierarchy.fileEntry identifier
      return .fileEntry number
  | .parentFileEntry number => do
      let number ← hierarchy.parent number
      return .fileEntry number
  | .numberOfSubFileEntries number => do
      let count ← hierarchy.numberOfSubFileEntries number
      return .count count
  | .subFileEntryByIndex number index => do
      let number ← hierarchy.subFileEntry number index
      return .fileEntry (some number)

end Hierarchy

namespace OpenFileSystem
open FileSystemBtree

variable (nodes : Nat → Result BtreeNode) (transactionIdentifier : Nat)

def navigate : NavigationRequest → FileSystemCall NavigationReply
  | .fileEntryByIdentifier identifier => do
      let number ← getFileEntryByIdentifier nodes transactionIdentifier identifier
      return .fileEntry number
  | .parentFileEntry number => do
      let number ← getParentFileEntry nodes transactionIdentifier number
      return .fileEntry number
  | .numberOfSubFileEntries number => do
      let count ← getNumberOfSubFileEntries nodes transactionIdentifier number
      return .count count
  | .subFileEntryByIndex number index => do
      let number ← getSubFileEntryByIndex nodes transactionIdentifier number index
      return .fileEntry (some number)

def view (fileSystem : OpenFileSystem) : List Hierarchy.Entry :=
  fileSystem.fileEntries.map fun fileEntry => (fileEntry.inode, fileEntry.directoryRecord)

end OpenFileSystem

def hierarchyOf (entries : List BtreeEntry) : Hierarchy where
  inode identifier := (entries.find? (FileSystemBtree.hasKey identifier 3)).bind fun entry => (Inode.read entry).toOption
  records identifier := (entries.filter (FileSystemBtree.hasKey identifier 9)).filterMap fun entry =>
    (DirectoryRecord.read entry).toOption

section records

variable {α : Type} {data : List UInt8} {field : α → Nat → List UInt8 → Result α}

theorem readExtendedFields_keeps {invariant : α → Prop}
    (keeps : ∀ record type value record', invariant record → field record type value = .ok record' → invariant record')
    {minimumSize number dataOffset valueDataOffset : Nat} {record record' : α} (initial : invariant record)
    (read : readExtendedFields data minimumSize field number dataOffset valueDataOffset record = .ok record') :
    invariant record' := by
  induction number generalizing dataOffset valueDataOffset record with
  | zero =>
      cases read
      exact initial
  | succ number ih =>
      unfold readExtendedFields at read
      split at read
      · cases read
      · obtain ⟨extendedFieldType, _, read⟩ := bind_eq_ok.mp read
        obtain ⟨valueDataSize, _, read⟩ := bind_eq_ok.mp read
        split at read
        · cases read
        split at read
        · cases read
        obtain ⟨valueData, _, read⟩ := bind_eq_ok.mp read
        obtain ⟨next, applied, read⟩ := bind_eq_ok.mp read
        exact ih (keeps _ _ _ _ initial applied) read

theorem readTrailingFields_keeps (invariant : α → Prop)
    (keeps : ∀ record type value record', invariant record → field record type value = .ok record' → invariant record')
    {dataOffset minimumSize : Nat} {record record' : α} (initial : invariant record)
    (read : readTrailingFields data dataOffset minimumSize field record = .ok record') : invariant record' := by
  unfold readTrailingFields at read
  split at read
  · cases read
    exact initial
  split at read
  · cases read
  obtain ⟨numberOfExtendedFields, _, read⟩ := bind_eq_ok.mp read
  exact readExtendedFields_keeps keeps initial read

theorem Inode.readExtendedField_identifier {inode inode' : Inode} {type : Nat} {value : List UInt8}
    (read : Inode.readExtendedField inode type value = .ok inode') : inode'.identifier = inode.identifier := by
  unfold Inode.readExtendedField at read
  split_ifs at read
  · cases read
    rfl
  · cases read
  · cases read
    rfl
  · cases read
  · obtain ⟨_, _, read⟩ := bind_eq_ok.mp read
    cases read
    rfl
  · cases read
  · obtain ⟨_, _, read⟩ := bind_eq_ok.mp read
    cases read
    rfl
  · cases read

theorem Inode.readValueData_identifier {identifier : Nat} {inode : Inode}
    (read : Inode.readValueData identifier data = .ok inode) : inode.identifier = identifier := by
  unfold Inode.readValueData at read
  iterate 12 obtain ⟨_, _, read⟩ := bind_eq_ok.mp read
  exact readTrailingFields_keeps (fun inode => inode.identifier = identifier)
    (fun _ _ _ _ same applied => (Inode.readExtendedField_identifier applied).trans same) rfl read

theorem Inode.read_identifier {entry : BtreeEntry} {inode : Inode} (read : Inode.read entry = .ok inode) :
    inode.identifier = FileSystemBtree.entryIdentifier entry := by
  obtain ⟨identifier, key, value⟩ := bind_eq_ok.mp read
  rw [Inode.readValueData_identifier value]
  obtain ⟨_, sized, key⟩ := bind_eq_ok.mp key
  rw [loadLittleEndian64, loadLittleEndian_ok ((requireData_ok (by simp)).mp sized)] at key
  cases key
  rfl

end records

namespace OpenFileSystem
open FileSystemBtree

/-- The tree of a file system whose inodes and directory records can be read and refer to object identifiers. -/
structure StoresHierarchy (nodes : Nat → Result BtreeNode) (btree : FileSystemBtree) (transactionIdentifier : Nat)
    (encoding : BranchChildOidEncoding) (rest : List UInt8 → List UInt8 → Prop) {height : Nat}
    (tree : SearchTree BtreeEntry height) : Prop where
  stores : Stores nodes btree transactionIdentifier encoding rest tree
  smallest : Smallest rest 3 tree.items
  limited : height ≤ maximumBtreeNodeRecursionDepth
  inodes : ∀ entry ∈ tree.items, entryDataType entry = 3 →
    ∃ inode, Inode.read entry = .ok inode ∧ inode.parentIdentifier < 2 ^ 60
  records : ∀ entry ∈ tree.items, entryDataType entry = 9 →
    ∃ directoryRecord, DirectoryRecord.read entry = .ok directoryRecord ∧ directoryRecord.identifier < 2 ^ 60

variable {nodes : Nat → Result BtreeNode} {btree handle : FileSystemBtree} {transactionIdentifier height : Nat}
  {encoding : BranchChildOidEncoding} {rest : List UInt8 → List UInt8 → Prop} {tree : SearchTree BtreeEntry height}
  {identifier : Nat} {inode : Inode} {fileSystem : OpenFileSystem}

theorem hierarchy_inode {entries : List BtreeEntry} (found : (hierarchyOf entries).inode identifier = some inode) :
    inode.identifier = identifier ∧
      ∃ entry ∈ entries, hasKey identifier 3 entry ∧ Inode.read entry = .ok inode := by
  obtain ⟨entry, search, read⟩ := Option.bind_eq_some_iff.mp found
  have same := List.find?_some search
  cases decoded : Inode.read entry with
  | error failure => simp [decoded, Except.toOption] at read
  | ok inode' =>
      obtain rfl : inode' = inode := by simpa [decoded, Except.toOption] using read
      exact ⟨(Inode.read_identifier decoded).trans (hasKey_iff.mp same).1, entry,
        List.mem_of_find?_eq_some search, same, decoded⟩

namespace StoresHierarchy

variable (holds : StoresHierarchy nodes btree transactionIdentifier encoding rest tree)

include holds

theorem getInodeByIdentifier_run (held : HandleOf btree encoding handle) (fits : identifier < 2 ^ 60) :
    ∃ handle', HandleOf btree encoding handle' ∧ getInodeByIdentifier nodes identifier transactionIdentifier handle =
      (.ok ((hierarchyOf tree.items).inode identifier), handle') := by
  obtain ⟨handle', held', found⟩ := getEntryByIdentifier_ok fits holds.limited holds.stores holds.smallest held
  refine ⟨handle', held', ?_⟩
  unfold getInodeByIdentifier
  rw [Call.bind_of_ok found]
  cases search : tree.items.find? (hasKey identifier 3) with
  | none => simp [hierarchyOf, search]
  | some entry =>
      have same := List.find?_some search
      obtain ⟨inode, read, _⟩ := holds.inodes entry (List.mem_of_find?_eq_some search) (hasKey_iff.mp same).2
      simp only [hierarchyOf, search, read, Option.bind_some]
      rfl

theorem getDirectoryEntries_run (held : HandleOf btree encoding handle)
    (found : (hierarchyOf tree.items).inode identifier = some inode) :
    ∃ handle' some', HandleOf btree encoding handle' ∧
      FileSystemBtree.getDirectoryEntries nodes identifier transactionIdentifier { btree := handle, records := [] } =
        (.ok some', { btree := handle', records := (hierarchyOf tree.items).records identifier }) := by
  obtain ⟨_, entry, member, same, _⟩ := hierarchy_inode found
  let decode : BtreeEntry → DirectoryRecord := fun entry => ((DirectoryRecord.read entry).toOption).getD ⟨[], 0, 0, 0⟩
  have decodes : ∀ entry ∈ tree.items, hasKey identifier 9 entry → DirectoryRecord.read entry = .ok (decode entry) := by
    intro entry member same
    obtain ⟨directoryRecord, read, _⟩ := holds.records entry member (hasKey_iff.mp same).2
    simp [decode, read, Except.toOption]
  obtain ⟨handle', held', run⟩ := directoryRecords_ofType.listing (by simp) (Nat.le_succ_of_le holds.limited)
    holds.stores ⟨entry, member, same⟩ decodes held []
  have records : (hierarchyOf tree.items).records identifier =
      (tree.items.filter (hasKey identifier 9)).map decode := by
    rw [← List.filterMap_eq_map]
    apply List.filterMap_congr
    intro entry listed
    obtain ⟨member, same⟩ := List.mem_filter.mp listed
    simp [decodes entry member same, Except.toOption]
  rw [records]
  exact ⟨handle', _, held', run⟩

end StoresHierarchy

@[simp] theorem view_append (inode : Inode) (directoryRecord : Option DirectoryRecord) (fileSystem : OpenFileSystem) :
    (append inode directoryRecord fileSystem).view = fileSystem.view ++ [(inode, directoryRecord)] := by
  simp [view, append]

@[simp] theorem view_setDirectoryEntries (number : Nat) (directoryEntries : List DirectoryRecord)
    (fileSystem : OpenFileSystem) : (setDirectoryEntries number directoryEntries fileSystem).view = fileSystem.view := by
  apply List.ext_getElem?
  intro index
  simp only [view, setDirectoryEntries, List.getElem?_map, List.getElem?_modify]
  cases fileSystem.fileEntries[index]? with
  | none => rfl
  | some fileEntry => by_cases same : number = index <;> simp [same]

theorem view_length (fileSystem : OpenFileSystem) : fileSystem.view.length = fileSystem.fileEntries.length := by
  simp [view]

/-- What holds of a file system after calls: its file entries have inodes of the hierarchy, and the directory entries
that were read are those of the hierarchy. -/
structure Opened (btree : FileSystemBtree) (encoding : BranchChildOidEncoding) (hierarchy : Hierarchy)
    (fileSystem : OpenFileSystem) : Prop where
  handle : HandleOf btree encoding fileSystem.btree
  inodes : ∀ fileEntry ∈ fileSystem.fileEntries,
    hierarchy.inode fileEntry.inode.identifier = some fileEntry.inode
  directories : ∀ fileEntry ∈ fileSystem.fileEntries, ∀ directoryEntries,
    fileEntry.directoryEntries = some directoryEntries →
      directoryEntries = hierarchy.records fileEntry.inode.identifier

namespace Opened

variable {hierarchy : Hierarchy}

theorem withBtree (opened : Opened btree encoding hierarchy fileSystem) (held : HandleOf btree encoding handle) :
    Opened btree encoding hierarchy { fileSystem with btree := handle } where
  handle := held
  inodes := opened.inodes
  directories := opened.directories

theorem append (opened : Opened btree encoding hierarchy fileSystem)
    (found : hierarchy.inode inode.identifier = some inode) (directoryRecord : Option DirectoryRecord) :
    Opened btree encoding hierarchy (append inode directoryRecord fileSystem) where
  handle := opened.handle
  inodes fileEntry member := by
    rcases List.mem_append.mp member with earlier | last
    · exact opened.inodes fileEntry earlier
    · simp [List.mem_singleton.mp last, found]
  directories fileEntry member directoryEntries listed := by
    rcases List.mem_append.mp member with earlier | last
    · exact opened.directories fileEntry earlier directoryEntries listed
    · simp [List.mem_singleton.mp last] at listed

theorem setDirectoryEntries (opened : Opened btree encoding hierarchy fileSystem) {number : Nat}
    {fileEntry : OpenFileEntry} (there : fileSystem.fileEntries[number]? = some fileEntry) :
    Opened btree encoding hierarchy
      (setDirectoryEntries number (hierarchy.records fileEntry.inode.identifier) fileSystem) := by
  have cases : ∀ other ∈ (OpenFileSystem.setDirectoryEntries number
      (hierarchy.records fileEntry.inode.identifier) fileSystem).fileEntries,
      other ∈ fileSystem.fileEntries ∨
        other = { fileEntry with directoryEntries := some (hierarchy.records fileEntry.inode.identifier) } := by
    intro other member
    obtain ⟨index, got⟩ := List.mem_iff_getElem?.mp member
    simp only [OpenFileSystem.setDirectoryEntries, List.getElem?_modify] at got
    by_cases same : number = index
    · subst same
      simp [there] at got
      exact Or.inr got.symm
    · simp [same] at got
      exact Or.inl (List.mem_iff_getElem?.mpr ⟨index, got⟩)
  have member := List.mem_of_getElem? there
  refine ⟨opened.handle, fun other listed => ?_, fun other listed directoryEntries same => ?_⟩
  · rcases cases other listed with earlier | rfl
    · exact opened.inodes other earlier
    · exact opened.inodes fileEntry member
  · rcases cases other listed with earlier | rfl
    · exact opened.directories other earlier directoryEntries same
    · exact (Option.some.inj same).symm

end Opened

theorem fileEntryAt_cases (number : Nat) (fileSystem : OpenFileSystem) :
    (∃ fileEntry, fileSystem.fileEntries[number]? = some fileEntry ∧
        fileEntryAt number fileSystem = (.ok fileEntry, fileSystem) ∧
        Hierarchy.entryAt number fileSystem.view = (.ok (fileEntry.inode, fileEntry.directoryRecord), fileSystem.view)) ∨
      (fileEntryAt number fileSystem = (fail .invalidValue, fileSystem) ∧
        Hierarchy.entryAt number fileSystem.view = (fail .invalidValue, fileSystem.view)) := by
  unfold fileEntryAt Hierarchy.entryAt
  cases there : fileSystem.fileEntries[number]? with
  | none => exact Or.inr (by simp [view, there])
  | some fileEntry => exact Or.inl ⟨fileEntry, rfl, by simp [view, there]⟩

theorem require_identified {entries : List BtreeEntry} {before after : List Hierarchy.Entry}
    (required : (hierarchyOf entries).require identifier before = (.ok inode, after)) :
    (hierarchyOf entries).inode inode.identifier = some inode := by
  unfold Hierarchy.require at required
  cases found : (hierarchyOf entries).inode identifier with
  | none =>
      rw [found] at required
      cases required
  | some inode' =>
      rw [found] at required
      cases required
      rw [(hierarchy_inode found).1, found]

def Navigates (btree : FileSystemBtree) (encoding : BranchChildOidEncoding) (hierarchy : Hierarchy) {α : Type}
    (call : FileSystemCall α) (plain : Hierarchy.HierarchyCall α) (fileSystem : OpenFileSystem) : Prop :=
  Prod.map id view (call fileSystem) = plain fileSystem.view ∧ Opened btree encoding hierarchy (call fileSystem).2

namespace Navigates

variable {hierarchy : Hierarchy} {α β : Type} {call : FileSystemCall α} {plain : Hierarchy.HierarchyCall α}

theorem bind {next : α → FileSystemCall β} {next' : α → Hierarchy.HierarchyCall β}
    (first : Navigates btree encoding hierarchy call plain fileSystem)
    (second : ∀ a after, plain fileSystem.view = (.ok a, after.view) → Opened btree encoding hierarchy after →
      Navigates btree encoding hierarchy (next a) (next' a) after) :
    Navigates btree encoding hierarchy (call >>= next) (plain >>= next') fileSystem := by
  obtain ⟨same, opened⟩ := first
  cases run : call fileSystem with
  | mk result after =>
      rw [run] at same opened
      cases result with
      | ok a =>
          obtain ⟨same', opened'⟩ := second a after same.symm opened
          unfold Navigates
          rw [Call.bind_of_ok run, Call.bind_of_ok same.symm]
          exact ⟨same', opened'⟩
      | error failure =>
          unfold Navigates
          rw [Call.bind_of_error run, Call.bind_of_error same.symm]
          exact ⟨rfl, opened⟩

theorem pure (opened : Opened btree encoding hierarchy fileSystem) (a : α) :
    Navigates btree encoding hierarchy (Pure.pure a) (Pure.pure a) fileSystem := ⟨rfl, opened⟩

theorem lift (opened : Opened btree encoding hierarchy fileSystem) (result : Result α) :
    Navigates btree encoding hierarchy (Call.lift result) (Call.lift result) fileSystem := ⟨rfl, opened⟩

end Navigates

namespace StoresHierarchy

variable (holds : StoresHierarchy nodes btree transactionIdentifier encoding rest tree)
  (opened : Opened btree encoding (hierarchyOf tree.items) fileSystem)

include holds opened

omit holds in
theorem initializeFileEntry_navigates (found : (hierarchyOf tree.items).inode inode.identifier = some inode)
    (directoryRecord : Option DirectoryRecord) :
    Navigates btree encoding (hierarchyOf tree.items) (initializeFileEntry inode directoryRecord)
      (Hierarchy.addEntry inode directoryRecord) fileSystem := by
  refine ⟨?_, opened.append found directoryRecord⟩
  simp [initializeFileEntry, Hierarchy.addEntry, view_length]

theorem getInodeByIdentifier_navigates {α : Type} (fits : identifier < 2 ^ 60)
    {next : Option Inode → FileSystemCall α} {plain : Hierarchy.HierarchyCall α}
    (continues : ∀ after, after.view = fileSystem.view → Opened btree encoding (hierarchyOf tree.items) after →
      Navigates btree encoding (hierarchyOf tree.items) (next ((hierarchyOf tree.items).inode identifier)) plain after) :
    Navigates btree encoding (hierarchyOf tree.items)
      (onBtree (getInodeByIdentifier nodes identifier transactionIdentifier) >>= next) plain fileSystem := by
  obtain ⟨handle', held', run⟩ := holds.getInodeByIdentifier_run opened.handle fits
  have found : onBtree (getInodeByIdentifier nodes identifier transactionIdentifier) fileSystem =
      (.ok ((hierarchyOf tree.items).inode identifier), { fileSystem with btree := handle' }) := by
    simp [onBtree, run]
  unfold Navigates
  rw [Call.bind_of_ok found]
  exact continues { fileSystem with btree := handle' } rfl (opened.withBtree held')

theorem requireInode_navigates (fits : identifier < 2 ^ 60) :
    Navigates btree encoding (hierarchyOf tree.items) (requireInode nodes transactionIdentifier identifier)
      ((hierarchyOf tree.items).require identifier) fileSystem := by
  apply holds.getInodeByIdentifier_navigates opened fits
  intro after _ opened'
  unfold Hierarchy.require
  cases (hierarchyOf tree.items).inode identifier with
  | none => exact .lift opened' _
  | some inode => exact .pure opened' inode

theorem getFileEntryByIdentifier_navigates (fits : identifier < 2 ^ 60) :
    Navigates btree encoding (hierarchyOf tree.items)
      (getFileEntryByIdentifier nodes transactionIdentifier identifier)
      ((hierarchyOf tree.items).fileEntry identifier) fileSystem := by
  apply holds.getInodeByIdentifier_navigates opened fits
  intro after _ opened'
  unfold Hierarchy.fileEntry
  cases found : (hierarchyOf tree.items).inode identifier with
  | none => exact .pure opened' none
  | some inode =>
      obtain ⟨rfl, _⟩ := hierarchy_inode found
      exact (initializeFileEntry_navigates opened' found none).bind fun number _ _ added => .pure added _

theorem requireDirectoryEntries_navigates (number : Nat) :
    Navigates btree encoding (hierarchyOf tree.items) (requireDirectoryEntries nodes transactionIdentifier number)
      ((hierarchyOf tree.items).directory number) fileSystem := by
  unfold requireDirectoryEntries Hierarchy.directory
  rcases fileEntryAt_cases number fileSystem with ⟨fileEntry, there, got, got'⟩ | ⟨missing, missing'⟩
  · unfold Navigates
    rw [Call.bind_of_ok got, Call.bind_of_ok got']
    have member := List.mem_of_getElem? there
    cases listed : fileEntry.directoryEntries with
    | some directoryEntries =>
        rw [opened.directories fileEntry member directoryEntries listed]
        exact Navigates.pure opened _
    | none =>
        obtain ⟨handle', some', held', run⟩ := holds.getDirectoryEntries_run opened.handle
          (opened.inodes fileEntry member)
        have array : onArray (FileSystemBtree.getDirectoryEntries nodes fileEntry.inode.identifier transactionIdentifier)
            fileSystem = (.ok ((hierarchyOf tree.items).records fileEntry.inode.identifier),
              { fileSystem with btree := handle' }) := by
          simp [onArray, run, Except.map]
        simp only [getDirectoryEntries]
        rw [Call.bind_of_ok array, Call.update_bind]
        refine ⟨?_, (opened.withBtree held').setDirectoryEntries there⟩
        simp only [Call.pure_run, Prod.map_apply, id_eq, view_setDirectoryEntries]
        rfl
  · unfold Navigates
    rw [Call.bind_of_error missing, Call.bind_of_error missing']
    exact ⟨rfl, opened⟩

omit opened in
theorem inode_parent_fits (found : (hierarchyOf tree.items).inode identifier = some inode) :
    inode.parentIdentifier < 2 ^ 60 := by
  obtain ⟨_, entry, member, same, read⟩ := hierarchy_inode found
  obtain ⟨inode', read', fits⟩ := holds.inodes entry member (hasKey_iff.mp same).2
  rw [read] at read'
  cases read'
  exact fits

omit opened in
theorem record_fits {directoryRecord : DirectoryRecord}
    (listed : directoryRecord ∈ (hierarchyOf tree.items).records identifier) : directoryRecord.identifier < 2 ^ 60 := by
  obtain ⟨entry, listed, read⟩ := List.mem_filterMap.mp listed
  obtain ⟨member, same⟩ := List.mem_filter.mp listed
  obtain ⟨directoryRecord', read', fits⟩ := holds.records entry member (hasKey_iff.mp same).2
  simp only [read', Except.toOption, Option.some.injEq] at read
  exact read ▸ fits

theorem getParentFileEntry_navigates (number : Nat) :
    Navigates btree encoding (hierarchyOf tree.items) (getParentFileEntry nodes transactionIdentifier number)
      ((hierarchyOf tree.items).parent number) fileSystem := by
  unfold getParentFileEntry Hierarchy.parent
  rcases fileEntryAt_cases number fileSystem with ⟨fileEntry, there, got, got'⟩ | ⟨missing, missing'⟩
  · unfold Navigates
    rw [Call.bind_of_ok got, Call.bind_of_ok got']
    have found := opened.inodes fileEntry (List.mem_of_getElem? there)
    split_ifs
    · refine (holds.requireInode_navigates opened (holds.inode_parent_fits found)).bind fun inode after same opened' => ?_
      exact (initializeFileEntry_navigates opened' (require_identified same) none).bind
        fun number _ _ added => .pure added _
    · exact Navigates.pure opened none
  · unfold Navigates
    rw [Call.bind_of_error missing, Call.bind_of_error missing']
    exact ⟨rfl, opened⟩

omit opened in
theorem directory_fits {number : Nat} {before after : List Hierarchy.Entry} {directoryEntries : List DirectoryRecord}
    (directory : (hierarchyOf tree.items).directory number before = (.ok directoryEntries, after)) :
    ∀ directoryRecord ∈ directoryEntries, directoryRecord.identifier < 2 ^ 60 := by
  obtain ⟨entry, _, _, same⟩ := Call.bind_ok directory
  cases same
  exact fun directoryRecord listed => holds.record_fits listed

omit holds opened in
theorem entryByIndex_mem {directoryEntries : List DirectoryRecord} {index : Int} {directoryRecord : DirectoryRecord}
    (got : entryByIndex directoryEntries index = .ok directoryRecord) : directoryRecord ∈ directoryEntries := by
  unfold entryByIndex at got
  split_ifs at got
  · cases got
  · cases there : directoryEntries[index.toNat]? with
    | none =>
        rw [there] at got
        cases got
    | some directoryRecord' =>
        rw [there] at got
        cases got
        exact List.mem_of_getElem? there

theorem getSubFileEntryByIndex_navigates (number : Nat) (index : Int) :
    Navigates btree encoding (hierarchyOf tree.items)
      (getSubFileEntryByIndex nodes transactionIdentifier number index)
      ((hierarchyOf tree.items).subFileEntry number index) fileSystem := by
  refine (holds.requireDirectoryEntries_navigates opened number).bind fun directoryEntries after listed opened' => ?_
  unfold Navigates
  cases got : entryByIndex directoryEntries index with
  | error failure => exact ⟨rfl, opened'⟩
  | ok directoryRecord =>
      rw [Call.lift_bind_of_ok rfl, Call.lift_bind_of_ok rfl]
      refine (holds.requireInode_navigates opened'
        (holds.directory_fits listed directoryRecord (entryByIndex_mem got))).bind fun inode after' required opened'' => ?_
      exact initializeFileEntry_navigates opened'' (require_identified required) (some directoryRecord)

theorem navigate_navigates {request : NavigationRequest} (fits : request.Fits) :
    Navigates btree encoding (hierarchyOf tree.items) (navigate nodes transactionIdentifier request)
      ((hierarchyOf tree.items).navigate request) fileSystem := by
  cases request with
  | fileEntryByIdentifier identifier =>
      exact (holds.getFileEntryByIdentifier_navigates opened fits).bind fun _ _ _ opened' => .pure opened' _
  | parentFileEntry number =>
      exact (holds.getParentFileEntry_navigates opened number).bind fun _ _ _ opened' => .pure opened' _
  | numberOfSubFileEntries number =>
      have counts : Navigates btree encoding (hierarchyOf tree.items)
          (getNumberOfSubFileEntries nodes transactionIdentifier number)
          ((hierarchyOf tree.items).numberOfSubFileEntries number) fileSystem :=
        (holds.requireDirectoryEntries_navigates opened number).bind fun _ _ _ opened' => .pure opened' _
      exact counts.bind fun _ _ _ opened' => .pure opened' _
  | subFileEntryByIndex number index =>
      exact (holds.getSubFileEntryByIndex_navigates opened number index).bind fun _ _ _ opened' => .pure opened' _

end StoresHierarchy

end OpenFileSystem

namespace OpenFileSystem.Sample
open FileSystemBtree FileSystemBtree.Sample

def longerLess (key key' : List UInt8) : Prop := 8 < key.length ∧ littleEndianLess key key'

instance : DecidableRel longerLess := fun _ _ => inferInstanceAs (Decidable (_ ∧ _))

theorem exists_ok {κ : Type} {result : Result κ} {test : κ → Bool} (passes : result.toOption.any test) :
    ∃ record, result = .ok record ∧ test record := by
  cases result with
  | ok record => exact ⟨record, rfl, passes⟩
  | error failure => cases passes

theorem directory_holds : StoresHierarchy directory (FileSystemBtree.Sample.btree 0) 1 .absoluteOid longerLess directoryTree where
  stores := { directory_stored with increasing := by decide }
  smallest := ⟨by decide, by decide, by decide⟩
  limited := by decide
  inodes := by
    have reads : ∀ entry ∈ directoryTree.items, entryDataType entry = 3 →
        (Inode.read entry).toOption.any fun inode => inode.parentIdentifier < 2 ^ 60 := by decide +kernel
    intro entry member type
    obtain ⟨inode, read, fits⟩ := exists_ok (reads entry member type)
    exact ⟨inode, read, of_decide_eq_true fits⟩
  records := by
    have reads : ∀ entry ∈ directoryTree.items, entryDataType entry = 9 →
        (DirectoryRecord.read entry).toOption.any fun record => record.identifier < 2 ^ 60 := by decide +kernel
    intro entry member type
    obtain ⟨record, read, fits⟩ := exists_ok (reads entry member type)
    exact ⟨record, read, of_decide_eq_true fits⟩

def requests : List NavigationRequest :=
  [.fileEntryByIdentifier 2, .numberOfSubFileEntries 0, .subFileEntryByIndex 0 0, .subFileEntryByIndex 0 1,
    .fileEntryByIdentifier 9, .parentFileEntry 1, .numberOfSubFileEntries 3]

end OpenFileSystem.Sample

end Fsapfs
