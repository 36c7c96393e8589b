import Fsapfs.Btree.Answers
import Fsapfs.KeyEncryptedKey
import Fsapfs.Program.Call

namespace Fsapfs
open Program

/-- An inode as the object that a value is read into; a name of no bytes is a name that is not set. -/
structure InodeObject extends Inode where
  nameSize : Nat

namespace InodeObject

abbrev InodeCall := Call ErrorCode InodeObject

def ofInode (inode : Inode) : InodeObject := { inode with nameSize := inode.name.length }

def create (identifier : Nat) : InodeObject where
  identifier := identifier
  parentIdentifier := 0
  dataStreamIdentifier := 0
  modificationTime := 0
  creationTime := 0
  inodeChangeTime := 0
  accessTime := 0
  flags := 0
  numberOfLinks := 0
  ownerIdentifier := 0
  groupIdentifier := 0
  fileMode := 0
  name := []
  dataStreamSize := 0
  deviceIdentifier := 0
  nameSize := 0

def setName (name : List UInt8) (object : InodeObject) : InodeObject :=
  { object with name, nameSize := name.length }

def clearName (object : InodeObject) : InodeObject := { object with name := [], nameSize := 0 }

structure Unnamed (object : InodeObject) : Prop where
  name : object.name = []
  nameSize : object.nameSize = 0

/-- The name is freed if the call fails. -/
def onError (call : InodeCall Unit) : InodeCall Unit := fun object =>
  match call object with
  | (.ok value, object') => (.ok value, object')
  | (.error failure, object') => (.error failure, object'.clearName)

def readExtendedField (extendedFieldType : Nat) (valueData : List UInt8) : InodeCall Unit :=
  if extendedFieldType ∈ [1, 2, 3, 5, 7, 10, 11, 13, 15] then pure ()
  else if extendedFieldType = 4 then do
    let object ← Call.self
    if object.name ≠ [] then Call.lift (fail .valueAlreadySet)
    else Call.update (setName valueData)
  else if extendedFieldType = 8 then
    if valueData.length < 40 then Call.lift (fail .valueOutOfBounds)
    else do
      let dataStreamSize ← Call.lift (loadLittleEndian64 valueData 0)
      Call.update fun object => { object with dataStreamSize }
  else if extendedFieldType = 14 then
    if valueData.length ≠ 4 then Call.lift (fail .valueOutOfBounds)
    else do
      let deviceIdentifier ← Call.lift (loadLittleEndian32 valueData 0)
      Call.update fun object => { object with deviceIdentifier }
  else Call.lift (fail .unsupportedValue)

def readExtendedFields (data : List UInt8) : Nat → Nat → Nat → InodeCall Unit
  | 0, _, _ => pure ()
  | number + 1, dataOffset, valueDataOffset =>
      if dataOffset > data.length - 4 then Call.lift (fail .valueOutOfBounds)
      else do
        let extendedFieldType ← Call.lift (load data dataOffset)
        let valueDataSize ← Call.lift (loadLittleEndian16 data (dataOffset + 2))
        if valueDataOffset > data.length then Call.lift (fail .valueOutOfBounds)
        else if valueDataSize < 1 ∨ valueDataSize > data.length - valueDataOffset then
          Call.lift (fail .valueOutOfBounds)
        else do
          let valueData ← Call.lift (slice data valueDataOffset valueDataSize)
          readExtendedField extendedFieldType.toNat valueData
          readExtendedFields data number (dataOffset + 4) (nextValueOffset data.length valueDataOffset valueDataSize)

def readTrailingFields (data : List UInt8) (dataOffset : Nat) : InodeCall Unit :=
  if data.length ≤ dataOffset then pure ()
  else if dataOffset > data.length - 4 then Call.lift (fail .valueOutOfBounds)
  else do
    let numberOfExtendedFields ← Call.lift (loadLittleEndian16 data dataOffset)
    readExtendedFields data numberOfExtendedFields (dataOffset + 4) (dataOffset + 4 + numberOfExtendedFields * 4)

def readValueData (data : List UInt8) : InodeCall Unit := do
  let object ← Call.self
  if object.name ≠ [] then Call.lift (fail .valueAlreadySet)
  else do
    Call.lift (requireData data 92)
    let parentIdentifier ← Call.lift (loadLittleEndian64 data 0)
    let dataStreamIdentifier ← Call.lift (loadLittleEndian64 data 8)
    let modificationTime ← Call.lift (loadLittleEndian64 data 16)
    let creationTime ← Call.lift (loadLittleEndian64 data 24)
    let inodeChangeTime ← Call.lift (loadLittleEndian64 data 32)
    let accessTime ← Call.lift (loadLittleEndian64 data 40)
    let flags ← Call.lift (loadLittleEndian64 data 48)
    let numberOfLinks ← Call.lift (loadLittleEndian32 data 56)
    let ownerIdentifier ← Call.lift (loadLittleEndian32 data 72)
    let groupIdentifier ← Call.lift (loadLittleEndian32 data 76)
    let fileMode ← Call.lift (loadLittleEndian16 data 80)
    Call.update fun object => { object with
      parentIdentifier, dataStreamIdentifier, modificationTime, creationTime, inodeChangeTime, accessTime, flags,
      numberOfLinks, ownerIdentifier, groupIdentifier, fileMode }
    onError (readTrailingFields data 92)

section performs

def Leaves (ended : Result Unit × InodeObject) : Result Inode → Prop
  | .ok inode => ended = (.ok (), ofInode inode)
  | .error failure => ended.1 = .error failure

/-- A call on the object that does what a pure reading of the inode gives. -/
def Performs (call : InodeCall Unit) (read : Inode → Result Inode) : Prop :=
  ∀ inode, Leaves (call (ofInode inode)) (read inode)

variable {data : List UInt8}

theorem performs_fail (code : ErrorCode) : Performs (Call.lift (fail code)) fun _ => fail code := fun _ => rfl

theorem performs_pure : Performs (pure ()) .ok := fun _ => rfl

theorem performs_update {change : InodeObject → InodeObject} {change' : Inode → Inode}
    (same : ∀ inode, change (ofInode inode) = ofInode (change' inode)) :
    Performs (Call.update change) fun inode => .ok (change' inode) := by
  intro inode
  exact congrArg (Prod.mk (Except.ok ())) (same inode)

theorem Performs.bind {call next : InodeCall Unit} {read read' : Inode → Result Inode} (first : Performs call read)
    (second : Performs next read') : Performs (call >>= fun _ => next) fun inode => read inode >>= read' := by
  intro inode
  have ended := first inode
  change Leaves ((call >>= fun _ => next) (ofInode inode)) (read inode >>= read')
  cases result : read inode with
  | ok inode' =>
      rw [result] at ended
      rw [ok_bind, Call.bind_of_ok ended]
      exact second inode'
  | error failure =>
      rw [result] at ended
      exact congrArg Prod.fst (Call.bind_of_error (Prod.ext ended rfl) _)

theorem leaves_lift_bind {α : Type} (result : Result α) {next : α → InodeCall Unit} {read : α → Result Inode}
    {object : InodeObject} (continues : ∀ a, result = .ok a → Leaves (next a object) (read a)) :
    Leaves ((Call.lift result >>= next) object) (result >>= read) := by
  cases result with
  | ok a => exact continues a rfl
  | error failure => rfl

theorem performs_lift_bind {α : Type} (result : Result α) {next : α → InodeCall Unit} {read : α → Inode → Result Inode}
    (continues : ∀ a, result = .ok a → Performs (next a) (read a)) :
    Performs (Call.lift result >>= next) fun inode => result >>= fun a => read a inode :=
  fun inode => leaves_lift_bind result fun a read => continues a read inode

theorem readExtendedField_performs (extendedFieldType : Nat) (valueData : List UInt8) :
    Performs (readExtendedField extendedFieldType valueData)
      fun inode => Inode.readExtendedField inode extendedFieldType valueData := by
  unfold readExtendedField Inode.readExtendedField
  by_cases other : extendedFieldType ∈ [1, 2, 3, 5, 7, 10, 11, 13, 15]
  · simp only [if_pos other]
    exact performs_pure
  simp only [if_neg other]
  by_cases named : extendedFieldType = 4
  · simp only [if_pos named]
    intro inode
    rw [Call.self_bind]
    by_cases set : inode.name ≠ []
    · simp only [if_pos set]
      rw [if_pos (show (ofInode inode).name ≠ [] from set)]
      rfl
    · simp only [if_neg set]
      rw [if_neg (show ¬(ofInode inode).name ≠ [] from set)]
      rfl
  simp only [if_neg named]
  by_cases dataStream : extendedFieldType = 8
  · simp only [if_pos dataStream]
    split_ifs
    · exact performs_fail _
    · exact performs_lift_bind _ fun _ _ => performs_update fun _ => rfl
  simp only [if_neg dataStream]
  split_ifs
  · exact performs_fail _
  · exact performs_lift_bind _ fun _ _ => performs_update fun _ => rfl
  · exact performs_fail _

theorem readExtendedFields_performs (number dataOffset valueDataOffset : Nat) :
    Performs (readExtendedFields data number dataOffset valueDataOffset)
      (Fsapfs.readExtendedFields data 1 Inode.readExtendedField number dataOffset valueDataOffset) := by
  induction number generalizing dataOffset valueDataOffset with
  | zero => exact performs_pure
  | succ number ih =>
      unfold readExtendedFields
      rw [show Fsapfs.readExtendedFields data 1 Inode.readExtendedField (number + 1) dataOffset valueDataOffset =
        fun inode => Fsapfs.readExtendedFields data 1 Inode.readExtendedField (number + 1) dataOffset valueDataOffset inode
        from rfl]
      simp only [Fsapfs.readExtendedFields]
      by_cases beyond : dataOffset > data.length - 4
      · simp only [if_pos beyond]
        exact performs_fail _
      simp only [if_neg beyond]
      apply performs_lift_bind
      intro extendedFieldType _
      apply performs_lift_bind
      intro valueDataSize _
      split_ifs
      · exact performs_fail _
      · exact performs_fail _
      · apply performs_lift_bind
        intro valueData _
        exact (readExtendedField_performs _ _).bind (ih _ _)

theorem readTrailingFields_performs (dataOffset : Nat) :
    Performs (readTrailingFields data dataOffset)
      (Fsapfs.readTrailingFields data dataOffset 1 Inode.readExtendedField) := by
  change Performs _ fun inode => Fsapfs.readTrailingFields data dataOffset 1 Inode.readExtendedField inode
  unfold readTrailingFields Fsapfs.readTrailingFields
  split_ifs
  · exact performs_pure
  · exact performs_fail _
  · apply performs_lift_bind
    intro numberOfExtendedFields _
    exact readExtendedFields_performs _ _ _

theorem Leaves.onError {call : InodeCall Unit} {object : InodeObject} {result : Result Inode}
    (leaves : Leaves (call object) result) : Leaves (onError call object) result := by
  unfold InodeObject.onError
  cases result with
  | ok inode =>
      rw [show call object = (.ok (), ofInode inode) from leaves]
      rfl
  | error failure =>
      cases ended : call object with
      | mk result object' =>
          rw [ended] at leaves
          cases leaves
          rfl

theorem onError_fails (call : InodeCall Unit) (object : InodeObject) :
    (onError call).Ends object (fun _ _ => True) Unnamed := by
  unfold Call.Ends InodeObject.onError
  rcases call object with ⟨value | failure, object'⟩
  · exact ⟨rfl, rfl⟩
  · trivial

theorem readValueData_leaves (identifier : Nat) (data : List UInt8) :
    Leaves (readValueData data (create identifier)) (Inode.readValueData identifier data) := by
  unfold readValueData Inode.readValueData
  rw [Call.self_bind, if_neg (by simp [create])]
  apply leaves_lift_bind
  intro _ _
  iterate 11
    apply leaves_lift_bind
    intro _ _
  rw [Call.update_bind]
  exact Leaves.onError (readTrailingFields_performs 92 _)

theorem readValueData_fails (identifier : Nat) (data : List UInt8) :
    (readValueData data).Ends (create identifier) (fun _ _ => True) Unnamed := by
  have fresh : Unnamed (create identifier) := ⟨rfl, rfl⟩
  unfold readValueData
  rw [Call.ends_self_bind, if_neg (by simp [create])]
  apply Call.ends_lift_bind fresh
  intro _ _
  iterate 11
    apply Call.ends_lift_bind fresh
    intro _ _
  rw [Call.ends_update_bind]
  exact onError_fails _ _

end performs

end InodeObject

end Fsapfs
