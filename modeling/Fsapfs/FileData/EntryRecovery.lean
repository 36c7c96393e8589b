import Fsapfs.FileData.AttributeReruns
import Mathlib.Data.List.Forall2

namespace Fsapfs
open Program

/-- Every step gives what it gives where nothing fails, or an error. -/
structure Steps.Agree (fails : Prop) (steps truth : Steps) : Prop where
  getAttributes : Agrees fails steps.getAttributes truth.getAttributes
  compareName : ∀ index name string,
    Agrees fails (steps.compareName index name string) (truth.compareName index name string)
  extents : steps.extents.Agree fails truth.extents
  readStream : ∀ dataStream size, Agrees fails (steps.readStream dataStream size) (truth.readStream dataStream size)

theorem Steps.agree_refl (fails : Prop) (truth : Steps) : truth.Agree fails truth where
  getAttributes := Agrees.refl _ _
  compareName _ _ _ := Agrees.refl _ _
  extents := ⟨fun _ => Agrees.refl _ _, Agrees.refl _ _⟩
  readStream _ _ := Agrees.refl _ _

namespace InternalFileEntry

abbrev Attributes := List AttributeRecord × (AttributeKind → Option Nat)

section values

variable (steps : Steps) (entry : InternalFileEntry)

def matched : Nat → List (List UInt8) → (AttributeKind → Option Nat) → Result (AttributeKind → Option Nat)
  | _, [], found => .ok found
  | index, name :: names, found => do
      match ← kindOf steps index name with
      | some kind => matched (index + 1) names fun kind' => if kind' = kind then some index else found kind'
      | none => matched (index + 1) names found

def attributes : Result Attributes := do
  let records ← steps.getAttributes
  let found ← matched steps 0 (records.map AttributeRecord.name) fun _ => none
  return (records, found)

def streamOf (attributes : Attributes) (kind : AttributeKind) : Result (Option ValueDataStream) :=
  match attributes.2 kind with
  | none => fail .invalidValue
  | some index =>
      match attributes.1[index]? with
      | none => .error .undefined
      | some record => AttributeValues.valueDataStream steps.extents entry.ioHandle entry.encryptionContext record

def headerIn (data : List UInt8) (dataStreamSize : Nat) : Result (Option CompressedDataHeader × Nat) := do
  match ← CompressedDataHeader.readData data with
  | some header => return (some header, header.uncompressedDataSize)
  | none => return (none, dataStreamSize)

def sizeOf (attributes : Attributes) : Result (Option CompressedDataHeader × Nat) :=
  match attributes.2 .compressedData with
  | none => .ok (none, entry.dataStreamSize)
  | some _ => do
      let dataStream ← streamOf steps entry attributes .compressedData
      let data ← readValueData steps dataStream 16
      headerIn data entry.dataStreamSize

def sizes : Result (Attributes × Option CompressedDataHeader × Nat) := do
  let attributes ← attributes steps
  let sizes ← sizeOf steps entry attributes
  return (attributes, sizes)

def extentsOf : Result (List FileExtent) := entry.uncompressed.determineFileExtents steps.extents

def compressedStreamOf (attributes : Attributes) (header : CompressedDataHeader) (dataSize : Nat) :
    Result EntryDataStream := do
  let method ← compressionMethod header.compressionMethod
  let compressedDataStream ← streamOf steps entry attributes
    (if usesResourceFork header.compressionMethod then .resourceFork else .compressedData)
  createFromCompressedDataStream compressedDataStream dataSize method

def fileStreamOf : Result EntryDataStream := do
  let fileExtents ← extentsOf steps entry
  let dataStream ← FileDataStream.createFromFileExtents entry.ioHandle entry.encryptionContext fileExtents
    entry.dataStreamSize entry.isSparse
  return .fileExtents dataStream

def streamOfSizes (sizes : Attributes × Option CompressedDataHeader × Nat) : Result EntryDataStream :=
  match sizes.2.1 with
  | some header => compressedStreamOf steps entry sizes.1 header sizes.2.2
  | none => fileStreamOf steps entry

def dataStreamOf : Result EntryDataStream := do
  let sizes ← sizes steps entry
  streamOfSizes steps entry sizes

def linkOf (attributes : Attributes) : Result (Option (List UInt8)) :=
  match attributes.2 .symbolicLink with
  | none => .ok none
  | some index =>
      match attributes.1[index]? with
      | none => .error .undefined
      | some record =>
          if record.valueDataSize = 0 ∨ record.valueDataSize > memoryMaximumAllocationSize then fail .valueOutOfBounds
          else do
            let dataStream ← streamOf steps entry attributes .symbolicLink
            let data ← readValueData steps dataStream record.valueDataSize
            return some data

def symbolicLinkOf : Result (Option (List UInt8)) := do
  let attributes ← attributes steps
  linkOf steps entry attributes

def answerOf (request : Request) : Result Answer := do
  match request with
  | .attributes => do
      let attributes ← attributes steps
      return .attributes attributes.1
  | .dataSize => do
      let sizes ← sizes steps entry
      return .dataSize sizes.2.2
  | .fileExtents => do
      let fileExtents ← extentsOf steps entry
      return .fileExtents fileExtents
  | .dataStream => do
      let dataStream ← dataStreamOf steps entry
      return .dataStream dataStream
  | .symbolicLink => do
      let data ← symbolicLinkOf steps entry
      return .symbolicLink data

end values

section comparisons

variable {fails : Prop} {steps truth : Steps}

theorem compareNames_agrees (agree : steps.Agree fails truth) (index : Nat) (name : List UInt8)
    (kinds : List AttributeKind) :
    Agrees fails (compareNames steps index name kinds) (compareNames truth index name kinds) := by
  induction kinds with
  | nil => exact Agrees.refl _ _
  | cons kind kinds ih =>
      refine (agree.compareName index name kind.name).bind fun same _ => ?_
      cases same with
      | true => exact Agrees.refl _ _
      | false => exact ih

theorem kindOf_agrees (agree : steps.Agree fails truth) (index : Nat) (name : List UInt8) :
    Agrees fails (kindOf steps index name) (kindOf truth index name) := compareNames_agrees agree index name _

def Compares (steps : Steps) : Nat → List (List UInt8) → Prop
  | _, [] => True
  | index, name :: names => (∃ kind, kindOf steps index name = .ok kind) ∧ Compares steps (index + 1) names

/-- No comparison fails after the name of an attribute matched. -/
def FailsBeforeMatch (steps : Steps) : Nat → List (List UInt8) → Prop
  | _, [] => True
  | index, name :: names =>
      match kindOf steps index name with
      | .error _ => True
      | .ok none => FailsBeforeMatch steps (index + 1) names
      | .ok (some _) => Compares steps (index + 1) names

def pointTo (address : Nat) (found : AttributeKind → Option Nat) (entry : InternalFileEntry) : InternalFileEntry :=
  { entry with attributeValues := fun kind => (found kind).map (Pointer.mk address) }

theorem setAttributeValues_pointTo (kind : AttributeKind) (address index : Nat) (found : AttributeKind → Option Nat)
    (entry : InternalFileEntry) :
    setAttributeValues kind { address, index } (pointTo address found entry) =
      pointTo address (fun kind' => if kind' = kind then some index else found kind') entry := by
  unfold setAttributeValues pointTo
  congr 1
  funext kind'
  dsimp only
  split <;> rfl

theorem matchAttributes_conforms (agree : steps.Agree fails truth) (address index : Nat) (names : List (List UInt8))
    (found : AttributeKind → Option Nat) (entry : InternalFileEntry) :
    (matchAttributes steps address index names).Conforms fails (pointTo address found entry)
      (matched truth index names found)
      (fun _ found' entry' => entry' = pointTo address found' entry)
      (fun entry' => ¬Compares steps index names ∧ ∃ found', entry' = pointTo address found' entry ∧
        (FailsBeforeMatch steps index names → found' = found)) := by
  induction names generalizing index found with
  | nil => exact Call.conforms_pure rfl
  | cons name names ih =>
      rw [matchAttributes, matched]
      refine Call.conforms_lift_bind (kindOf_agrees agree index name) (fun kind compared _ => ?_) fun failure compared => ?_
      · have rest : ∀ found', (matchAttributes steps address (index + 1) names).Conforms fails
            (pointTo address found' entry) (matched truth (index + 1) names found')
            (fun _ found'' entry' => entry' = pointTo address found'' entry)
            (fun entry' => ¬Compares steps (index + 1) names ∧ ∃ found'', entry' = pointTo address found'' entry ∧
              (FailsBeforeMatch steps (index + 1) names → found'' = found')) := fun found' => ih (index + 1) found'
        cases kind with
        | none =>
            refine (rest found).mono (fun _ _ _ _ held => held) fun entry' failed => ?_
            obtain ⟨compares, found', same, kept⟩ := failed
            refine ⟨fun all => compares all.2, found', same, fun clean => kept ?_⟩
            rwa [FailsBeforeMatch, compared] at clean
        | some kind =>
            apply Call.conforms_update_bind
            rw [setAttributeValues_pointTo]
            refine (rest _).mono (fun _ _ _ _ held => held) fun entry' failed => ?_
            obtain ⟨compares, found', same, -⟩ := failed
            refine ⟨fun all => compares all.2, found', same, fun clean => absurd ?_ compares⟩
            rwa [FailsBeforeMatch, compared] at clean
      · refine ⟨fun all => ?_, found, rfl, fun _ => rfl⟩
        obtain ⟨kind, ok⟩ := all.1
        cases compared.symm.trans ok

end comparisons

section invariant

def reset (entry : InternalFileEntry) : InternalFileEntry :=
  create entry.ioHandle entry.encryptionContext entry.dataStreamIdentifier entry.dataStreamSize entry.inodeFlags

/-- An attribute of the array, after calls on its values. -/
structure Holds (truth : Steps) (record : AttributeRecord) (extendedAttribute : ExtendedAttribute) : Prop where
  name : extendedAttribute.name = record.name
  reached : AttributeValues.Reached truth.extents record extendedAttribute.values

/-- The array has all of the attributes, and the attribute values point to those that matched. -/
structure Loaded (truth : Steps) (attributes : Attributes) (entry : InternalFileEntry) : Prop where
  there : InternalFileEntry.attributes truth = .ok attributes
  entries : ∃ array, entry.extendedAttributesArray = some array ∧
    List.Forall₂ (Holds truth) attributes.1 array.entries ∧
    ∀ kind, entry.attributeValues kind = (attributes.2 kind).map (Pointer.mk array.address)

structure Sound (truth : Steps) (fresh entry : InternalFileEntry) : Prop where
  same : entry.reset = fresh
  attributes : (entry.extendedAttributesArray = none ∧ ∀ kind, entry.attributeValues kind = none) ∨
    ∃ attributes, Loaded truth attributes entry
  sizes : (entry.compressedDataHeader = none ∧ entry.dataSize = unsetDataSize) ∨
    ∃ attributes, Loaded truth attributes entry ∧
      InternalFileEntry.sizes truth fresh = .ok (attributes, entry.compressedDataHeader, entry.dataSize)
  fileExtents : ∀ fileExtents, entry.fileExtents = some fileExtents → extentsOf truth fresh = .ok fileExtents
  dataStream : ∀ dataStream, entry.dataStream = some dataStream → dataStreamOf truth fresh = .ok dataStream
  symbolicLinkData : ∀ data, entry.symbolicLinkData = some data → symbolicLinkOf truth fresh = .ok (some data)

/-- The inputs that the calls recover on: no compressed data header has the size that stands for no size, and there is a
sealed extent tree where an attribute has sealed extents. -/
structure Regular (truth : Steps) (fresh : InternalFileEntry) : Prop where
  size : ∀ attributes header dataSize, sizes truth fresh = .ok (attributes, some header, dataSize) →
    dataSize ≠ unsetDataSize
  mapped : ∀ records, truth.getAttributes = .ok records → ∀ record ∈ records, ∀ extents,
    truth.extents.getFileExtents record.valueDataStreamIdentifier = .ok extents →
    extents.any FileExtent.isSealed → ∃ tree, truth.extents.getSealedExtentTree = .ok (some tree)

variable {fails : Prop} {steps truth : Steps} {fresh entry : InternalFileEntry} {attributes : Attributes}

theorem attributes_records (there : InternalFileEntry.attributes truth = .ok attributes) :
    truth.getAttributes = .ok attributes.1 := by
  obtain ⟨records, read, there⟩ := bind_eq_ok.mp there
  obtain ⟨found, -, there⟩ := bind_eq_ok.mp there
  rw [read, ← Except.ok.inj there]

theorem holds_extendedAttribute (truth : Steps) (record : AttributeRecord) :
    Holds truth record record.extendedAttribute where
  name := rfl
  reached := AttributeValues.reached_values truth.extents record

theorem loaded_setAttributes (there : InternalFileEntry.attributes truth = .ok attributes)
    {array : AttributesArray} (allocated : entry.extendedAttributesArray = some array) :
    Loaded truth attributes (pointTo array.address attributes.2
      (setAttributes (attributes.1.map AttributeRecord.extendedAttribute) entry)) where
  there := there
  entries := by
    refine ⟨{ array with entries := attributes.1.map AttributeRecord.extendedAttribute }, ?_, ?_, fun kind => rfl⟩
    · unfold pointTo setAttributes
      rw [allocated]
      rfl
    · rw [List.forall₂_map_right_iff]
      exact List.forall₂_same.mpr fun record _ => holds_extendedAttribute truth record

theorem Holds.record {record : AttributeRecord} {extendedAttribute : ExtendedAttribute}
    (holds : Holds truth record extendedAttribute) : extendedAttribute.record = record := by
  unfold ExtendedAttribute.record
  rw [holds.name, holds.reached.same]
  rfl

theorem matched_lt {index bound : Nat} {names : List (List UInt8)} {found found' : AttributeKind → Option Nat}
    (within : ∀ kind i, found kind = some i → i < bound) (length : index + names.length ≤ bound)
    (run : matched truth index names found = .ok found') : ∀ kind i, found' kind = some i → i < bound := by
  induction names generalizing index found with
  | nil =>
      rw [← Except.ok.inj run]
      exact within
  | cons name names ih =>
      rw [List.length_cons] at length
      obtain ⟨kind, -, run⟩ := bind_eq_ok.mp run
      cases kind with
      | none => exact ih within (by omega) run
      | some kind =>
          refine ih ?_ (by omega) run
          intro kind' i there
          split at there
          · rw [← Option.some.inj there]
            omega
          · exact within kind' i there

theorem attributes_lt (there : InternalFileEntry.attributes truth = .ok attributes) {kind : AttributeKind} {index : Nat}
    (found : attributes.2 kind = some index) : index < attributes.1.length := by
  obtain ⟨records, -, there⟩ := bind_eq_ok.mp there
  obtain ⟨found', run, there⟩ := bind_eq_ok.mp there
  cases Except.ok.inj there
  exact matched_lt (by simp) (by rw [List.length_map, Nat.zero_add]) run kind index found

theorem Loaded.array_ne_none (loaded : Loaded truth attributes entry) : entry.extendedAttributesArray ≠ none := by
  obtain ⟨array, there, -⟩ := loaded.entries
  rw [there]
  exact Option.some_ne_none array

theorem Sound.unloaded (sound : Sound truth fresh entry) (unset : entry.extendedAttributesArray = none) :
    (∀ kind, entry.attributeValues kind = none) ∧ entry.compressedDataHeader = none ∧ entry.dataSize = unsetDataSize := by
  constructor
  · rcases sound.attributes with none | ⟨_, loaded⟩
    · exact none.2
    · exact absurd unset loaded.array_ne_none
  · rcases sound.sizes with none | ⟨_, loaded, _⟩
    · exact none
    · exact absurd unset loaded.array_ne_none

/-- No comparison of the attributes fails after a name matched. -/
def Clean (steps : Steps) : Prop :=
  ∀ records, steps.getAttributes = .ok records → FailsBeforeMatch steps 0 (records.map AttributeRecord.name)

theorem Sound.freed (sound : Sound truth fresh entry) (unset : entry.extendedAttributesArray = none)
    (address : Nat) (entry' : InternalFileEntry) (others : entry' = { entry with
      extendedAttributesArray := entry'.extendedAttributesArray, nextAddress := entry'.nextAddress }) :
    Sound truth fresh (freeAttributes (pointTo address (fun _ => none) entry')) := by
  rw [others]
  exact {
    same := sound.same
    attributes := Or.inl ⟨rfl, fun _ => rfl⟩
    sizes := Or.inl (sound.unloaded unset).2
    fileExtents := sound.fileExtents
    dataStream := sound.dataStream
    symbolicLinkData := sound.symbolicLinkData }

theorem array_allocated (entry : InternalFileEntry) :
    entry.allocateAttributes.extendedAttributesArray = some { address := entry.nextAddress, entries := [] } := rfl

theorem getExtendedAttributes_conforms {clean : Prop} (agree : steps.Agree fails truth)
    (sound : Sound truth fresh entry) (unset : entry.extendedAttributesArray = none) (isClean : clean → Clean steps) :
    (getExtendedAttributes steps).Conforms fails entry (InternalFileEntry.attributes truth)
      (fun _ attributes entry' => Sound truth fresh entry' ∧ Loaded truth attributes entry' ∧
        entry'.dataSize = entry.dataSize)
      (fun entry' => clean → Sound truth fresh entry') := by
  have pointers : entry.attributeValues = fun _ => none := funext (sound.unloaded unset).1
  have unpointed : ∀ address entry', entry'.attributeValues = entry.attributeValues →
      entry' = pointTo address (fun _ => none) entry' := by
    intro address entry' same
    unfold pointTo
    rw [pointers] at same
    simp only [Option.map_none, ← same]
  apply Call.conforms_self_bind
  rw [if_neg (by rw [unset]; decide)]
  apply Call.conforms_update_bind
  apply Call.Conforms.onError
  refine Call.conforms_lift_bind agree.getAttributes (fun records read there => ?_) fun _ _ _ => ?_
  · apply Call.conforms_update_bind
    rw [unpointed entry.nextAddress
      (setAttributes (records.map AttributeRecord.extendedAttribute) entry.allocateAttributes) rfl]
    apply Call.Conforms.map
    refine (matchAttributes_conforms agree _ _ _ _ _).mono (fun _ found entry' all same => ?_) fun entry' failed => ?_
    · have loaded : Loaded truth (records, found) (pointTo entry.nextAddress found
          (setAttributes (records.map AttributeRecord.extendedAttribute) entry.allocateAttributes)) := by
        have known : InternalFileEntry.attributes truth = .ok (records, found) := by
          unfold InternalFileEntry.attributes
          rw [there, ok_bind, all]
          rfl
        exact loaded_setAttributes known (array_allocated entry)
      rw [same]
      exact ⟨{
        same := sound.same
        attributes := Or.inr ⟨_, loaded⟩
        sizes := Or.inl (sound.unloaded unset).2
        fileExtents := sound.fileExtents
        dataStream := sound.dataStream
        symbolicLinkData := sound.symbolicLinkData }, loaded, rfl⟩
    · obtain ⟨-, found, rfl, kept⟩ := failed
      intro clean
      rw [kept (isClean clean records read)]
      exact sound.freed unset _ _ rfl
  · rw [unpointed entry.nextAddress (allocateAttributes entry) rfl]
    exact sound.freed unset _ (allocateAttributes entry) rfl

theorem requireExtendedAttributes_conforms {clean : Prop} (agree : steps.Agree fails truth)
    (sound : Sound truth fresh entry) (isClean : clean → entry.extendedAttributesArray = none → Clean steps) :
    (requireExtendedAttributes steps).Conforms fails entry (InternalFileEntry.attributes truth)
      (fun _ attributes entry' => Sound truth fresh entry' ∧ Loaded truth attributes entry' ∧
        entry'.dataSize = entry.dataSize)
      (fun entry' => clean → Sound truth fresh entry') := by
  apply Call.conforms_self_bind
  cases loaded : entry.extendedAttributesArray with
  | none =>
      rw [if_pos Option.isNone_none]
      exact getExtendedAttributes_conforms agree sound loaded fun clean => isClean clean loaded
  | some array =>
      rw [if_neg (by simp)]
      rcases sound.attributes with ⟨none, _⟩ | ⟨attributes, there⟩
      · cases loaded.symm.trans none
      · rw [there.there]
        exact Call.conforms_pure ⟨sound, there, rfl⟩

/-- Only the array is changed, and only in the extents of its attributes. -/
def Reloaded (truth : Steps) (attributes : Attributes) (entry entry' : InternalFileEntry) : Prop :=
  Loaded truth attributes entry' ∧ entry' = { entry with extendedAttributesArray := entry'.extendedAttributesArray }

theorem Reloaded.refl (loaded : Loaded truth attributes entry) : Reloaded truth attributes entry entry := ⟨loaded, rfl⟩

theorem forall₂_getElem? {α β : Type} {holds : α → β → Prop} {xs : List α} {ys : List β} (all : List.Forall₂ holds xs ys)
    {i : Nat} {x : α} (there : xs[i]? = some x) : ∃ y, ys[i]? = some y ∧ holds x y := by
  induction all generalizing i with
  | nil => cases there
  | cons first rest ih =>
      cases i with
      | zero =>
          cases there
          exact ⟨_, rfl, first⟩
      | succ i => exact ih there

theorem forall₂_set {α β : Type} {holds : α → β → Prop} {xs : List α} {ys : List β} (all : List.Forall₂ holds xs ys)
    {i : Nat} {x : α} {y : β} (there : xs[i]? = some x) (held : holds x y) : List.Forall₂ holds xs (ys.set i y) := by
  induction all generalizing i with
  | nil => cases there
  | cons first rest ih =>
      cases i with
      | zero =>
          cases there
          exact .cons held rest
      | succ i => exact .cons first (ih there)

theorem Loaded.attributeAt {array : AttributesArray} {index : Nat} {record : AttributeRecord}
    (loaded : Loaded truth attributes entry) (allocated : entry.extendedAttributesArray = some array)
    (listed : attributes.1[index]? = some record) :
    ∃ extendedAttribute, entry.attributeAt { address := array.address, index } = some extendedAttribute ∧
      Holds truth record extendedAttribute := by
  obtain ⟨array', allocated', entries, -⟩ := loaded.entries
  cases allocated.symm.trans allocated'
  obtain ⟨extendedAttribute, there, holds⟩ := forall₂_getElem? entries listed
  refine ⟨extendedAttribute, ?_, holds⟩
  unfold InternalFileEntry.attributeAt
  rw [allocated]
  exact (if_pos rfl).trans there

theorem onAttribute_conforms {α α' : Type} {call : AttributeValues.ValuesCall α} {value : Result α'}
    {post : α → α' → Prop} {array : AttributesArray} {index : Nat} {record : AttributeRecord}
    (loaded : Loaded truth attributes entry) (allocated : entry.extendedAttributesArray = some array)
    (listed : attributes.1[index]? = some record)
    (conforms : ∀ values, AttributeValues.Reached truth.extents record values →
      call.Conforms fails values value (fun a a' values' => post a a' ∧ AttributeValues.Reached truth.extents record values')
        (AttributeValues.Reached truth.extents record)) :
    (onAttribute { address := array.address, index } call).Conforms fails entry value
      (fun a a' entry' => post a a' ∧ Reloaded truth attributes entry entry') (Reloaded truth attributes entry) := by
  obtain ⟨array', allocated', entries, pointers⟩ := loaded.entries
  cases allocated.symm.trans allocated'
  obtain ⟨extendedAttribute, found, holds⟩ := loaded.attributeAt allocated listed
  have stored : ∀ values, AttributeValues.Reached truth.extents record values →
      Reloaded truth attributes entry
        (entry.storeAttribute { address := array.address, index } { extendedAttribute with values }) := by
    intro values reached
    refine ⟨⟨loaded.there, { array with entries := array.entries.set index { extendedAttribute with values } }, ?_, ?_,
      pointers⟩, rfl⟩
    · unfold storeAttribute
      rw [allocated]
      rfl
    · exact forall₂_set entries listed ⟨holds.name, reached⟩
  have run := conforms extendedAttribute.values holds.reached
  unfold Call.Conforms at run ⊢
  unfold onAttribute
  rw [found]
  dsimp only
  split at run
  next a values' ended =>
    rw [ended]
    obtain ⟨a', ok, held, reached⟩ := run
    exact ⟨a', ok, held, stored values' reached⟩
  next failure values' ended =>
    rw [ended]
    exact ⟨run.1, stored values' run.2⟩

theorem attributeDataStream_conforms (agree : steps.Agree fails truth) (regular : Regular truth fresh)
    (loaded : Loaded truth attributes entry) (kind : AttributeKind) :
    (attributeDataStream steps kind).Conforms fails entry (streamOf truth entry attributes kind)
      (fun dataStream dataStream' entry' => dataStream = dataStream' ∧ Reloaded truth attributes entry entry')
      (Reloaded truth attributes entry) := by
  obtain ⟨array, allocated, entries, pointers⟩ := loaded.entries
  apply Call.conforms_self_bind
  rw [pointers kind, streamOf]
  cases found : attributes.2 kind with
  | none => exact Call.conforms_fail (Reloaded.refl loaded)
  | some index =>
      have listed := List.getElem?_eq_getElem (attributes_lt loaded.there found)
      dsimp only [Option.map_some]
      rw [listed]
      apply onAttribute_conforms loaded allocated listed
      intro values reached
      apply AttributeValues.getDataStream_conforms reached agree.extents
      exact regular.mapped _ (attributes_records loaded.there) _ (List.getElem_mem _)

theorem Loaded.unique {attributes' : Attributes} (loaded : Loaded truth attributes entry)
    (loaded' : Loaded truth attributes' entry) : attributes = attributes' :=
  Except.ok.inj (loaded.there.symm.trans loaded'.there)

theorem Sound.reloaded {entry' : InternalFileEntry} (sound : Sound truth fresh entry) (loaded : Loaded truth attributes entry)
    (reloaded : Reloaded truth attributes entry entry') : Sound truth fresh entry' := by
  obtain ⟨loaded', others⟩ := reloaded
  rw [others] at loaded' ⊢
  refine ⟨sound.same, Or.inr ⟨attributes, loaded'⟩, ?_, sound.fileExtents, sound.dataStream, sound.symbolicLinkData⟩
  rcases sound.sizes with none | ⟨attributes', there, known⟩
  · exact Or.inl none
  · cases loaded.unique there
    exact Or.inr ⟨attributes, loaded', known⟩

theorem Sound.header_none (sound : Sound truth fresh entry) (regular : Regular truth fresh)
    (unset : entry.dataSize = unsetDataSize) : entry.compressedDataHeader = none := by
  rcases sound.sizes with none | ⟨attributes, _, known⟩
  · exact none.1
  · cases header : entry.compressedDataHeader with
    | none => rfl
    | some header' =>
        rw [header] at known
        exact absurd unset (regular.size attributes header' _ known)

theorem readValueData_agrees (agree : steps.Agree fails truth) (dataStream : Option ValueDataStream) (size : Nat) :
    Agrees fails (readValueData steps dataStream size) (readValueData truth dataStream size) := by
  cases dataStream with
  | none => exact Agrees.refl _ _
  | some dataStream => exact (agree.readStream dataStream size).bind fun _ _ => Agrees.refl _ _

theorem readCompressedDataHeader_conforms (data : List UInt8) (dataStreamSize : Nat) :
    (readCompressedDataHeader data dataStreamSize).Conforms fails entry (headerIn data dataStreamSize)
      (fun dataSize sizes entry' => dataSize = sizes.2 ∧ entry' = setCompressedDataHeader sizes.1 entry) (· = entry) := by
  refine Call.conforms_lift_bind (Agrees.refl _ _) (fun header _ _ => ?_) fun _ _ => rfl
  cases header with
  | none => exact Call.conforms_update_bind (Call.conforms_pure ⟨rfl, rfl⟩)
  | some header => exact Call.conforms_update_bind (Call.conforms_pure ⟨rfl, rfl⟩)

theorem setCompressedDataHeader_none (header : entry.compressedDataHeader = none) :
    setCompressedDataHeader none entry = entry := by
  unfold setCompressedDataHeader
  rw [← header]

theorem determineDataSize_conforms (agree : steps.Agree fails truth) (regular : Regular truth fresh)
    (same : entry.reset = fresh) (loaded : Loaded truth attributes entry) (header : entry.compressedDataHeader = none) :
    (determineDataSize steps).Conforms fails entry (sizeOf truth fresh attributes)
      (fun dataSize sizes entry' => dataSize = sizes.2 ∧
        ∃ entry'', Reloaded truth attributes entry entry'' ∧ entry' = setCompressedDataHeader sizes.1 entry'')
      (Reloaded truth attributes entry) := by
  obtain ⟨array, allocated, entries, pointers⟩ := loaded.entries
  obtain rfl := same
  apply Call.conforms_self_bind
  rw [pointers, sizeOf]
  cases found : attributes.2 .compressedData with
  | none => exact Call.conforms_pure ⟨rfl, entry, Reloaded.refl loaded, (setCompressedDataHeader_none header).symm⟩
  | some index =>
      refine (attributeDataStream_conforms agree regular loaded .compressedData).bind
        fun dataStream _ entry' _ reloaded => ?_
      obtain ⟨rfl, reloaded⟩ := reloaded
      refine Call.conforms_lift_bind (readValueData_agrees agree dataStream 16) (fun data _ _ => ?_) fun _ _ => reloaded
      apply Call.conforms_update_bind
      have header' : entry'.compressedDataHeader = none := by
        rw [reloaded.2]
        exact header
      apply Call.Conforms.onError
      refine (readCompressedDataHeader_conforms data _).mono (fun dataSize sizes entry'' _ held => ?_) fun entry'' same => ?_
      · obtain ⟨rfl, rfl⟩ := held
        exact ⟨rfl, entry', reloaded, rfl⟩
      · rw [same]
        change Reloaded truth attributes entry (setCompressedDataHeader none entry')
        rwa [setCompressedDataHeader_none header']

/-- What is known once the size is determined. -/
def Sized (truth : Steps) (fresh : InternalFileEntry) (sizes : Attributes × Option CompressedDataHeader × Nat)
    (entry : InternalFileEntry) : Prop :=
  Sound truth fresh entry ∧ Loaded truth sizes.1 entry ∧ entry.compressedDataHeader = sizes.2.1 ∧
    entry.dataSize = sizes.2.2

theorem getDataSize_conforms {clean : Prop} (agree : steps.Agree fails truth) (regular : Regular truth fresh)
    (sound : Sound truth fresh entry) (isClean : clean → entry.extendedAttributesArray = none → Clean steps)
    (unset : entry.dataSize = unsetDataSize) :
    (getDataSize steps).Conforms fails entry (sizes truth fresh) (fun _ => Sized truth fresh)
      (fun entry' => clean → Sound truth fresh entry') := by
  apply Call.conforms_self_bind
  rw [if_neg (by rw [sound.header_none regular unset]; decide), if_neg (not_not_intro unset)]
  refine (requireExtendedAttributes_conforms agree sound isClean).bind fun _ attributes entry' there loading => ?_
  obtain ⟨sound', loaded, size⟩ := loading
  rw [unset] at size
  refine ((determineDataSize_conforms agree regular sound'.same loaded (sound'.header_none regular size)).mono
    (fun _ _ _ _ held => held) fun entry'' reloaded _ => sound'.reloaded loaded reloaded).bind
      fun dataSize sizes entry'' known sized => ?_
  obtain ⟨rfl, entry', ⟨loaded', others⟩, rfl⟩ := sized
  have determined : InternalFileEntry.sizes truth fresh = .ok (attributes, sizes) := by
    unfold InternalFileEntry.sizes
    rw [there, ok_bind, known]
    rfl
  apply Call.conforms_update
  refine ⟨?_, ⟨there, loaded'.entries⟩, rfl, rfl⟩
  rw [others] at loaded' ⊢
  exact {
    same := sound'.same
    attributes := Or.inr ⟨attributes, there, loaded'.entries⟩
    sizes := Or.inr ⟨attributes, ⟨there, loaded'.entries⟩, determined⟩
    fileExtents := sound'.fileExtents
    dataStream := sound'.dataStream
    symbolicLinkData := sound'.symbolicLinkData }

theorem requireDataSize_conforms {clean : Prop} (agree : steps.Agree fails truth) (regular : Regular truth fresh)
    (sound : Sound truth fresh entry) (isClean : clean → entry.extendedAttributesArray = none → Clean steps) :
    (requireDataSize steps).Conforms fails entry (sizes truth fresh)
      (fun dataSize sizes entry' => dataSize = sizes.2.2 ∧ Sized truth fresh sizes entry')
      (fun entry' => clean → Sound truth fresh entry') := by
  apply Call.conforms_self_bind
  by_cases unset : entry.dataSize = unsetDataSize
  · rw [if_pos unset]
    refine (getDataSize_conforms agree regular sound isClean unset).seq fun _ sizes entry' _ sized => ?_
    exact Call.conforms_self_bind (Call.conforms_pure ⟨sized.2.2.2, sized⟩)
  · rw [if_neg unset]
    rcases sound.sizes with none | ⟨attributes, loaded, known⟩
    · exact absurd none.2 unset
    · rw [known]
      exact Call.conforms_pure ⟨rfl, sound, loaded, rfl, rfl⟩

theorem Sound.determined {entry' : InternalFileEntry} (sound : Sound truth fresh entry)
    (others : entry' = { entry with
      fileExtents := entry'.fileExtents, dataStream := entry'.dataStream, symbolicLinkData := entry'.symbolicLinkData })
    (fileExtents : ∀ fileExtents, entry'.fileExtents = some fileExtents → extentsOf truth fresh = .ok fileExtents)
    (dataStream : ∀ dataStream, entry'.dataStream = some dataStream → dataStreamOf truth fresh = .ok dataStream)
    (symbolicLinkData : ∀ data, entry'.symbolicLinkData = some data → symbolicLinkOf truth fresh = .ok (some data)) :
    Sound truth fresh entry' := by
  rw [others]
  exact {
    same := sound.same
    attributes := sound.attributes.imp id fun ⟨attributes, loaded⟩ => ⟨attributes, loaded.there, loaded.entries⟩
    sizes := sound.sizes.imp id fun ⟨attributes, loaded, known⟩ => ⟨attributes, ⟨loaded.there, loaded.entries⟩, known⟩
    fileExtents := fileExtents
    dataStream := dataStream
    symbolicLinkData := symbolicLinkData }

theorem extentsOf_agrees (agree : steps.Agree fails truth) (same : entry.reset = fresh) :
    Agrees fails (entry.uncompressed.determineFileExtents steps.extents) (extentsOf truth fresh) := by
  obtain rfl := same
  refine (agree.extents.getFileExtents entry.dataStreamIdentifier).bind fun records _ =>
    (Agrees.refl fails (resizeExtents entry.dataStreamSize records)).bind fun extents _ => ?_
  by_cases isSealed : extents.any FileExtent.isSealed
  · rw [if_pos isSealed, if_pos isSealed]
    refine agree.extents.getSealedExtentTree.bind fun tree _ => Agrees.refl _ _
  · rw [if_neg isSealed, if_neg isSealed]
    exact Agrees.refl _ _

theorem getFileExtents_conforms (agree : steps.Agree fails truth) (sound : Sound truth fresh entry)
    (unset : entry.fileExtents = none) :
    (getFileExtents steps).Conforms fails entry (extentsOf truth fresh)
      (fun _ fileExtents entry' => entry' = setFileExtents (some fileExtents) entry) (Sound truth fresh) := by
  apply Call.conforms_self_bind
  rw [if_neg (by rw [unset]; decide)]
  apply Call.conforms_update_bind
  apply Call.Conforms.onError
  refine Call.conforms_lift_seq (extentsOf_agrees agree sound.same) (fun fileExtents _ _ => Call.conforms_update rfl)
    fun _ _ => ?_
  exact sound.determined rfl (fun _ absent => nomatch absent) sound.dataStream sound.symbolicLinkData

theorem requireFileExtents_conforms (agree : steps.Agree fails truth) (sound : Sound truth fresh entry) :
    (requireFileExtents steps).Conforms fails entry (extentsOf truth fresh)
      (fun fileExtents fileExtents' entry' => fileExtents = fileExtents' ∧ Sound truth fresh entry')
      (Sound truth fresh) := by
  have given : ∀ {entry' fileExtents}, entry'.fileExtents = some fileExtents → Sound truth fresh entry' →
      theFileExtents.Conforms fails entry' (.ok fileExtents : Result (List FileExtent))
        (fun fileExtents fileExtents' entry' => fileExtents = fileExtents' ∧ Sound truth fresh entry')
        (Sound truth fresh) := by
    intro entry' fileExtents there sound
    apply Call.conforms_self_bind
    rw [there]
    exact Call.conforms_pure ⟨rfl, sound⟩
  apply Call.conforms_self_bind
  cases there : entry.fileExtents with
  | none =>
      rw [if_pos Option.isNone_none]
      refine (getFileExtents_conforms agree sound there).seq fun _ fileExtents entry' known same => ?_
      rw [same]
      apply given rfl
      refine sound.determined rfl (fun fileExtents' same => ?_) sound.dataStream sound.symbolicLinkData
      rw [known, ← Option.some.inj same]
  | some fileExtents =>
      rw [if_neg (by simp), sound.fileExtents fileExtents there]
      exact given there sound

theorem compressedEntryDataStream_conforms (agree : steps.Agree fails truth) (regular : Regular truth fresh)
    (sound : Sound truth fresh entry) (loaded : Loaded truth attributes entry) (header : CompressedDataHeader)
    (dataSize : Nat) :
    (compressedEntryDataStream steps header dataSize).Conforms fails entry
      (compressedStreamOf truth fresh attributes header dataSize)
      (fun dataStream dataStream' entry' => dataStream = dataStream' ∧ Sound truth fresh entry') (Sound truth fresh) := by
  obtain rfl := sound.same
  refine Call.conforms_lift_bind (Agrees.refl _ _) (fun method _ _ => ?_) fun _ _ => sound
  refine ((attributeDataStream_conforms agree regular loaded _).mono (fun _ _ _ _ held => held) fun entry' reloaded =>
    sound.reloaded loaded reloaded).bind fun dataStream _ entry' _ held => ?_
  obtain ⟨rfl, reloaded⟩ := held
  have sound' := sound.reloaded loaded reloaded
  exact Call.conforms_lift (Agrees.refl _ _) (fun _ _ => ⟨rfl, sound'⟩) sound'

theorem fileEntryDataStream_conforms (agree : steps.Agree fails truth) (sound : Sound truth fresh entry) :
    (fileEntryDataStream steps).Conforms fails entry (fileStreamOf truth fresh)
      (fun dataStream dataStream' entry' => dataStream = dataStream' ∧ Sound truth fresh entry') (Sound truth fresh) := by
  refine (requireFileExtents_conforms agree sound).bind fun fileExtents _ entry' _ held => ?_
  obtain ⟨rfl, sound'⟩ := held
  obtain rfl := sound'.same
  apply Call.conforms_self_bind
  exact Call.conforms_lift_bind (Agrees.refl _ _) (fun _ _ _ => Call.conforms_pure ⟨rfl, sound'⟩) fun _ _ => sound'

theorem determineDataStream_conforms (agree : steps.Agree fails truth) (regular : Regular truth fresh)
    {sizes : Attributes × Option CompressedDataHeader × Nat} (sized : Sized truth fresh sizes entry) :
    (determineDataStream steps sizes.2.2).Conforms fails entry (streamOfSizes truth fresh sizes)
      (fun dataStream dataStream' entry' => dataStream = dataStream' ∧ Sound truth fresh entry') (Sound truth fresh) := by
  obtain ⟨sound, loaded, header, -⟩ := sized
  apply Call.conforms_self_bind
  rw [header, streamOfSizes]
  cases sizes.2.1 with
  | some header => exact compressedEntryDataStream_conforms agree regular sound loaded header sizes.2.2
  | none => exact fileEntryDataStream_conforms agree sound

theorem getDataStream_conforms {clean : Prop} (agree : steps.Agree fails truth) (regular : Regular truth fresh)
    (sound : Sound truth fresh entry) (isClean : clean → entry.extendedAttributesArray = none → Clean steps)
    (unset : entry.dataStream = none) :
    (getDataStream steps).Conforms fails entry (dataStreamOf truth fresh)
      (fun _ dataStream entry' => entry'.dataStream = some dataStream ∧ Sound truth fresh entry')
      (fun entry' => clean → Sound truth fresh entry') := by
  apply Call.conforms_self_bind
  rw [if_neg (by rw [unset]; decide)]
  refine (requireDataSize_conforms agree regular sound isClean).bind fun dataSize sizes entry' known held => ?_
  obtain ⟨rfl, sized⟩ := held
  refine ((determineDataStream_conforms agree regular sized).mono (fun _ _ _ _ held => held)
    fun _ sound _ => sound).seq fun dataStream _ entry'' built held => ?_
  obtain ⟨rfl, sound''⟩ := held
  apply Call.conforms_update
  refine ⟨rfl, sound''.determined rfl sound''.fileExtents (fun dataStream' same => ?_) sound''.symbolicLinkData⟩
  rw [dataStreamOf, known, ok_bind, built, ← Option.some.inj same]

theorem requireDataStream_conforms {clean : Prop} (agree : steps.Agree fails truth) (regular : Regular truth fresh)
    (sound : Sound truth fresh entry) (isClean : clean → entry.extendedAttributesArray = none → Clean steps) :
    (requireDataStream steps).Conforms fails entry (dataStreamOf truth fresh)
      (fun _ dataStream entry' => entry'.dataStream = some dataStream ∧ Sound truth fresh entry')
      (fun entry' => clean → Sound truth fresh entry') := by
  apply Call.conforms_self_bind
  cases there : entry.dataStream with
  | none =>
      rw [if_pos Option.isNone_none]
      exact getDataStream_conforms agree regular sound isClean there
  | some dataStream =>
      rw [if_neg (by simp), sound.dataStream dataStream there]
      exact Call.conforms_pure ⟨there, sound⟩

theorem Sound.clearSymbolicLinkData (sound : Sound truth fresh entry) :
    Sound truth fresh (setSymbolicLinkData none entry) :=
  sound.determined rfl sound.fileExtents sound.dataStream fun _ absent => nomatch absent

theorem Reloaded.clearSymbolicLinkData {entry' : InternalFileEntry} {data : Option (List UInt8)}
    (reloaded : Reloaded truth attributes (setSymbolicLinkData data entry) entry') :
    Reloaded truth attributes (setSymbolicLinkData none entry) (setSymbolicLinkData none entry') := by
  refine ⟨⟨reloaded.1.there, reloaded.1.entries⟩, ?_⟩
  rw [reloaded.2]
  rfl

theorem readSymbolicLink_conforms (agree : steps.Agree fails truth) (regular : Regular truth fresh)
    (sound : Sound truth fresh entry) (loaded : Loaded truth attributes entry) {array : AttributesArray} {index : Nat}
    (allocated : entry.extendedAttributesArray = some array) (found : attributes.2 .symbolicLink = some index) :
    (readSymbolicLink steps { address := array.address, index }).Conforms fails entry (linkOf truth fresh attributes)
      (fun _ data entry' => entry'.symbolicLinkData = data ∧ Sound truth fresh (setSymbolicLinkData none entry'))
      (fun entry' => Sound truth fresh (setSymbolicLinkData none entry')) := by
  obtain ⟨record, listed⟩ : ∃ record, attributes.1[index]? = some record :=
    ⟨_, List.getElem?_eq_getElem (attributes_lt loaded.there found)⟩
  obtain ⟨extendedAttribute, there, holds⟩ := loaded.attributeAt allocated listed
  have size : extendedAttribute.values.valueDataSize = record.valueDataSize :=
    congrArg AttributeValues.valueDataSize holds.reached.same
  obtain rfl := sound.same
  apply Call.conforms_self_bind
  rw [there, linkOf, found]
  dsimp only
  rw [listed, size]
  dsimp only
  by_cases unreadable : record.valueDataSize = 0 ∨ record.valueDataSize > memoryMaximumAllocationSize
  · rw [if_pos unreadable, if_pos unreadable]
    exact Call.conforms_fail sound.clearSymbolicLinkData
  · rw [if_neg unreadable, if_neg unreadable]
    apply Call.conforms_update_bind
    have loaded' : Loaded truth attributes (setSymbolicLinkData (some []) entry) := ⟨loaded.there, loaded.entries⟩
    have cleared : ∀ entry', Reloaded truth attributes (setSymbolicLinkData (some []) entry) entry' →
        Sound truth entry.reset (setSymbolicLinkData none entry') := fun entry' reloaded =>
      sound.clearSymbolicLinkData.reloaded ⟨loaded.there, loaded.entries⟩ reloaded.clearSymbolicLinkData
    refine ((attributeDataStream_conforms agree regular loaded' .symbolicLink).mono (fun _ _ _ _ held => held)
      cleared).bind fun dataStream _ entry' _ held => ?_
    obtain ⟨rfl, reloaded⟩ := held
    refine Call.conforms_lift_bind (readValueData_agrees agree _ _) (fun data _ _ => ?_) fun _ _ => cleared _ reloaded
    exact Call.conforms_update ⟨rfl, cleared entry' reloaded⟩

theorem getSymbolicLinkData_conforms {clean : Prop} (agree : steps.Agree fails truth) (regular : Regular truth fresh)
    (sound : Sound truth fresh entry) (isClean : clean → entry.extendedAttributesArray = none → Clean steps)
    (unset : entry.symbolicLinkData = none) :
    (getSymbolicLinkData steps).Conforms fails entry (symbolicLinkOf truth fresh)
      (fun _ data entry' => entry'.symbolicLinkData = data ∧ Sound truth fresh entry')
      (fun entry' => clean → Sound truth fresh entry') := by
  apply Call.conforms_self_bind
  rw [if_neg (by rw [unset]; decide)]
  apply Call.Conforms.onError
  refine ((requireExtendedAttributes_conforms agree sound isClean).mono (fun _ _ _ _ held => held)
    fun _ sound clean => (sound clean).clearSymbolicLinkData).bind fun _ attributes entry' there loading => ?_
  obtain ⟨sound', loaded, -⟩ := loading
  obtain ⟨array, allocated, entries, pointers⟩ := loaded.entries
  apply Call.conforms_self_bind
  rw [pointers]
  cases found : attributes.2 .symbolicLink with
  | none =>
      have known : symbolicLinkOf truth fresh = .ok none := by
        rw [symbolicLinkOf, there, ok_bind, linkOf, found]
      have unset' : entry'.symbolicLinkData = none := by
        cases data : entry'.symbolicLinkData with
        | none => rfl
        | some data' => cases known.symm.trans (sound'.symbolicLinkData data' data)
      rw [linkOf, found]
      exact Call.conforms_pure ⟨unset', sound'⟩
  | some index =>
      refine (readSymbolicLink_conforms agree regular sound' loaded allocated found).mono
        (fun _ data entry'' known held => ?_) fun _ sound _ => sound
      obtain ⟨rfl, cleared⟩ := held
      refine ⟨rfl, cleared.determined rfl cleared.fileExtents cleared.dataStream fun data same => ?_⟩
      rw [symbolicLinkOf, there, ok_bind, known, same]

theorem requireSymbolicLinkData_conforms {clean : Prop} (agree : steps.Agree fails truth) (regular : Regular truth fresh)
    (sound : Sound truth fresh entry) (isClean : clean → entry.extendedAttributesArray = none → Clean steps) :
    (requireSymbolicLinkData steps).Conforms fails entry (symbolicLinkOf truth fresh)
      (fun _ data entry' => entry'.symbolicLinkData = data ∧ Sound truth fresh entry')
      (fun entry' => clean → Sound truth fresh entry') := by
  apply Call.conforms_self_bind
  cases there : entry.symbolicLinkData with
  | none =>
      rw [if_pos Option.isNone_none]
      exact getSymbolicLinkData_conforms agree regular sound isClean there
  | some data =>
      rw [if_neg (by simp), sound.symbolicLinkData data there]
      exact Call.conforms_pure ⟨there, sound⟩

theorem records_of_holds {records : List AttributeRecord} {extendedAttributes : List ExtendedAttribute}
    (holds : List.Forall₂ (Holds truth) records extendedAttributes) :
    extendedAttributes.map ExtendedAttribute.record = records := by
  induction holds with
  | nil => rfl
  | cons first rest ih => rw [List.map_cons, first.record, ih]

theorem answer_conforms {clean : Prop} (agree : steps.Agree fails truth) (regular : Regular truth fresh)
    (sound : Sound truth fresh entry) (isClean : clean → entry.extendedAttributesArray = none → Clean steps)
    (request : Request) :
    (answer steps request).Conforms fails entry (answerOf truth fresh request)
      (fun answer answer' entry' => answer = answer' ∧ Sound truth fresh entry')
      (fun entry' => clean → Sound truth fresh entry') := by
  cases request with
  | attributes =>
      refine (requireExtendedAttributes_conforms agree sound isClean).bind fun _ attributes entry' _ loading => ?_
      obtain ⟨sound', loaded, -⟩ := loading
      obtain ⟨array, allocated, entries, -⟩ := loaded.entries
      have records : theAttributes entry' = (.ok attributes.1, entry') := by
        rw [theAttributes, Call.self_bind, allocated, ← records_of_holds entries]
        rfl
      exact Call.conforms_bind_of_ok records (Call.conforms_pure ⟨rfl, sound'⟩)
  | dataSize =>
      refine (requireDataSize_conforms agree regular sound isClean).bind fun dataSize sizes entry' _ held => ?_
      obtain ⟨rfl, sound', -⟩ := held
      exact Call.conforms_pure ⟨rfl, sound'⟩
  | fileExtents =>
      refine ((requireFileExtents_conforms agree sound).mono (fun _ _ _ _ held => held) fun _ sound _ => sound).bind
        fun fileExtents _ entry' _ held => ?_
      obtain ⟨rfl, sound'⟩ := held
      exact Call.conforms_pure ⟨rfl, sound'⟩
  | dataStream =>
      refine (requireDataStream_conforms agree regular sound isClean).bind fun _ dataStream entry' _ held => ?_
      have stream : theDataStream entry' = (.ok dataStream, entry') := by
        rw [theDataStream, Call.self_bind, held.1]
        rfl
      exact Call.conforms_bind_of_ok stream (Call.conforms_pure ⟨rfl, held.2⟩)
  | symbolicLink =>
      refine (requireSymbolicLinkData_conforms agree regular sound isClean).bind fun _ data entry' _ held => ?_
      obtain ⟨rfl, sound'⟩ := held
      exact Call.conforms_self_bind (Call.conforms_pure ⟨rfl, sound'⟩)

theorem fresh_sound (truth : Steps) (isFresh : fresh.reset = fresh) : Sound truth fresh fresh := by
  rw [← isFresh]
  exact {
    same := rfl
    attributes := Or.inl ⟨rfl, fun _ => rfl⟩
    sizes := Or.inl ⟨rfl, rfl⟩
    fileExtents := fun _ absent => nomatch absent
    dataStream := fun _ absent => nomatch absent
    symbolicLinkData := fun _ absent => nomatch absent }

theorem Sound.answer (sound : Sound truth fresh entry) (regular : Regular truth fresh) (request : Request) :
    (InternalFileEntry.answer truth request entry).1 = answerOf truth fresh request := by
  have conforms := answer_conforms (Steps.agree_refl False truth) regular sound (fun none : False => none.elim) request
  exact (conforms.agrees fun _ _ _ held => held.1).resolve_right fun failed => failed.1

theorem Loaded.attributeValues_there {kind : AttributeKind} {pointer : Pointer} (loaded : Loaded truth attributes entry)
    (pointed : entry.attributeValues kind = some pointer) : (entry.attributeAt pointer).isSome := by
  obtain ⟨array, allocated, entries, pointers⟩ := loaded.entries
  obtain ⟨index, found, rfl⟩ := Option.map_eq_some_iff.mp ((pointers kind).symm.trans pointed)
  obtain ⟨extendedAttribute, there, -⟩ := loaded.attributeAt allocated
    (List.getElem?_eq_getElem (attributes_lt loaded.there found))
  rw [there]
  rfl

/-- What a file entry is like that calls left usable: the attribute values are in the array, what is determined is
complete, and the next call is answered as on a fresh file entry. -/
structure Usable (truth : Steps) (fresh entry : InternalFileEntry) : Prop where
  attributeValues : ∀ kind pointer, entry.attributeValues kind = some pointer → (entry.attributeAt pointer).isSome
  extendedAttributes : ∀ array, entry.extendedAttributesArray = some array →
    (answer truth .attributes fresh).1 = .ok (.attributes (array.entries.map ExtendedAttribute.record))
  compressedDataHeader : ∀ header, entry.compressedDataHeader = some header → entry.dataSize = header.uncompressedDataSize
  fileExtents : ∀ fileExtents, entry.fileExtents = some fileExtents →
    (answer truth .fileExtents fresh).1 = .ok (.fileExtents fileExtents)
  dataStream : ∀ dataStream, entry.dataStream = some dataStream →
    (answer truth .dataStream fresh).1 = .ok (.dataStream dataStream)
  symbolicLinkData : ∀ data, entry.symbolicLinkData = some data →
    (answer truth .symbolicLink fresh).1 = .ok (.symbolicLink (some data))
  answers : ∀ request, (answer truth request entry).1 = (answer truth request fresh).1

theorem headerIn_size {data : List UInt8} {dataStreamSize dataSize : Nat} {header : CompressedDataHeader}
    (read : headerIn data dataStreamSize = .ok (some header, dataSize)) : dataSize = header.uncompressedDataSize := by
  obtain ⟨found, -, read⟩ := bind_eq_ok.mp read
  cases found with
  | none => cases read
  | some found =>
      cases read
      rfl

theorem sizes_header {header : CompressedDataHeader} {dataSize : Nat}
    (known : sizes truth fresh = .ok (attributes, some header, dataSize)) : dataSize = header.uncompressedDataSize := by
  obtain ⟨attributes', -, known⟩ := bind_eq_ok.mp known
  obtain ⟨sizes, size, known⟩ := bind_eq_ok.mp known
  cases Except.ok.inj known
  unfold sizeOf at size
  split at size
  · cases size
  · obtain ⟨dataStream, -, size⟩ := bind_eq_ok.mp size
    obtain ⟨data, -, read⟩ := bind_eq_ok.mp size
    exact headerIn_size read

theorem Sound.usable (sound : Sound truth fresh entry) (regular : Regular truth fresh) : Usable truth fresh entry := by
  have isFresh : fresh.reset = fresh := by
    rw [← sound.same]
    rfl
  have answer := fun request => (fresh_sound truth isFresh).answer regular request
  refine ⟨fun kind pointer pointed => ?_, fun array allocated => ?_, fun header there => ?_, fun fileExtents there => ?_,
    fun dataStream there => ?_, fun data there => ?_, fun request => ?_⟩
  · rcases sound.attributes with none | ⟨attributes, loaded⟩
    · cases (none.2 kind).symm.trans pointed
    · exact loaded.attributeValues_there pointed
  · rcases sound.attributes with none | ⟨attributes, loaded⟩
    · cases none.1.symm.trans allocated
    · obtain ⟨array', allocated', entries, -⟩ := loaded.entries
      cases allocated.symm.trans allocated'
      rw [answer, answerOf, loaded.there, records_of_holds entries]
      rfl
  · rcases sound.sizes with none | ⟨attributes, loaded, known⟩
    · cases none.1.symm.trans there
    · rw [there] at known
      exact sizes_header known
  · rw [answer, answerOf, sound.fileExtents fileExtents there]
    rfl
  · rw [answer, answerOf, sound.dataStream dataStream there]
    rfl
  · rw [answer, answerOf, sound.symbolicLinkData data there]
    rfl
  · rw [answer, sound.answer regular]

/-- In a run of calls whose steps may fail, but no comparison of a name after another name matched, every file entry is
usable. -/
theorem usable_after_failures {operations : List (Steps × Request)} (isFresh : fresh.reset = fresh)
    (regular : Regular truth fresh) (agree : ∀ operation ∈ operations, operation.1.Agree True truth)
    (along : Along step (fun entry operation => entry.extendedAttributesArray = none → Clean operation.1) fresh
      operations) :
    Usable truth fresh (run step fresh operations) := by
  apply Sound.usable _ regular
  refine run_invariant (Sound truth fresh) (fun entry operation sound allowed => ?_) (fresh_sound truth isFresh)
    (along.and_mem agree)
  have conforms := answer_conforms allowed.1 regular sound (fun _ : True => allowed.2) operation.2
  exact conforms.after (fun _ _ _ held => held.2) fun _ sound => sound trivial

end invariant

namespace Sample

def bytesOf (string : String) : List UInt8 := string.toUTF8.data.toList

def compressedData (header : List UInt8) : AttributeRecord where
  name := bytesOf "com.apple.decmpfs"
  flags := 2
  valueData := header
  valueDataSize := 16
  valueDataStreamIdentifier := 0

def misnamed : AttributeRecord where
  name := [0xff]
  flags := 2
  valueData := [0]
  valueDataSize := 1
  valueDataStreamIdentifier := 0

def header (size : List UInt8) : List UInt8 := [0x66, 0x70, 0x6d, 0x63, 3, 0, 0, 0] ++ size

def steps (records : List AttributeRecord) : Steps where
  getAttributes := .ok records
  compareName _ name string := if name = [0xff] then fail .unsupportedValue else .ok (name == bytesOf string)
  extents := { getFileExtents := fun _ => .ok [], getSealedExtentTree := .ok none }
  readStream dataStream size :=
    match dataStream with
    | .data valueData _ => .ok (valueData.take size)
    | .fileExtents _ => fail .readFailed

def unreadable (records : List AttributeRecord) : Steps := { steps records with readStream := fun _ _ => fail .readFailed }

def fresh : InternalFileEntry := create { bytesPerSector := 512, blockSize := 4096 } none 2 7 0

def five : List AttributeRecord := [compressedData (header [5, 0, 0, 0, 0, 0, 0, 0])]

def unsized : List AttributeRecord := [compressedData (header [255, 255, 255, 255, 255, 255, 255, 255])]

theorem regular {records : List AttributeRecord}
    (size : ((sizes (steps records) fresh).map (·.2.2)) ≠ .ok unsetDataSize) : Regular (steps records) fresh where
  size attributes header dataSize known := by
    rintro rfl
    exact size (by rw [known]; rfl)
  mapped _ _ _ _ extents read isSealed := by
    cases read
    cases isSealed

end Sample

theorem usable_after_failures_sample :
    Usable (Sample.steps Sample.five) Sample.fresh
        (run step Sample.fresh [(Sample.unreadable Sample.five, .dataSize), (Sample.steps Sample.five, .dataSize)]) ∧
      (run step Sample.fresh [(Sample.unreadable Sample.five, .dataSize), (Sample.steps Sample.five, .dataSize)]).dataSize =
        5 := by
  refine ⟨usable_after_failures rfl (Sample.regular (by decide +kernel)) ?_ ⟨fun _ records read => ?_, ?_, trivial⟩,
    by decide +kernel⟩
  · intro operation member
    rcases List.mem_pair.mp member with rfl | rfl
    · exact ⟨Agrees.refl _ _, fun _ _ _ => Agrees.refl _ _, ⟨fun _ => Agrees.refl _ _, Agrees.refl _ _⟩,
        fun _ _ => Or.inr ⟨trivial, _, rfl⟩⟩
    · exact Steps.agree_refl _ _
  · have found : kindOf (Sample.unreadable Sample.five) 0 (Sample.bytesOf "com.apple.decmpfs") =
        .ok (some .compressedData) := by decide +kernel
    rw [← Except.ok.inj read]
    change FailsBeforeMatch _ 0 [Sample.bytesOf "com.apple.decmpfs"]
    rw [FailsBeforeMatch, found]
    trivial
  · intro absent
    have there : (step Sample.fresh (Sample.unreadable Sample.five, .dataSize)).extendedAttributesArray.isSome = true := by
      decide +kernel
    rw [absent] at there
    cases there

/-- A name that cannot be compared leaves a pointer into an array that is freed; and after a header with the size that
stands for no size, the next call fails. -/
theorem unusable_after_failures :
    Regular (Sample.steps (Sample.five ++ [Sample.misnamed])) Sample.fresh ∧
      ¬Usable (Sample.steps (Sample.five ++ [Sample.misnamed])) Sample.fresh
        (run step Sample.fresh [(Sample.steps (Sample.five ++ [Sample.misnamed]), .attributes)]) ∧
      ¬Usable (Sample.steps Sample.unsized) Sample.fresh
        (run step Sample.fresh [(Sample.steps Sample.unsized, .dataSize)]) := by
  refine ⟨Sample.regular (by decide +kernel), fun usable => ?_, fun usable => ?_⟩
  · have dangles := usable.attributeValues .compressedData ⟨0, 0⟩ (by decide +kernel)
    revert dangles
    decide +kernel
  · have again := congrArg Except.isOk (usable.answers .dataSize)
    revert again
    decide +kernel

end InternalFileEntry

end Fsapfs
