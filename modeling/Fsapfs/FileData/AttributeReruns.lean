import Fsapfs.InternalFileEntry

namespace Fsapfs
open Program

namespace FileExtent

def core (extent : FileExtent) : FileExtent :=
  if extent.isSealed then { extent with dataSize := 0, physicalBlockNumber := 0 } else { extent with dataSize := 0 }

def unresolved (extent : FileExtent) : FileExtent :=
  if extent.isSealed then { extent with physicalBlockNumber := 0 } else extent

theorem core_isSealed (extent : FileExtent) : extent.core.isSealed = extent.isSealed := by
  unfold core
  split <;> rfl

theorem core_logicalOffset (extent : FileExtent) : extent.core.logicalOffset = extent.logicalOffset := by
  unfold core
  split <;> rfl

theorem unresolved_isSealed (extent : FileExtent) : extent.unresolved.isSealed = extent.isSealed := by
  unfold unresolved
  split <;> rfl

theorem unresolved_dataSize (extent : FileExtent) : extent.unresolved.dataSize = extent.dataSize := by
  unfold unresolved
  split <;> rfl

theorem unresolved_of_not_sealed {extent : FileExtent} (plain : extent.isSealed = false) : extent.unresolved = extent := by
  rw [unresolved, plain]
  rfl

theorem core_resize (extent : FileExtent) (dataSize : Nat) : (extent.resize dataSize).core = extent.core := rfl

theorem core_unresolved (extent : FileExtent) : extent.unresolved.core = extent.core := by
  unfold unresolved
  split
  next isSealed =>
    unfold core
    rw [if_pos isSealed]
    exact if_pos isSealed
  next => rfl

theorem unresolved_resize {extent extent' : FileExtent} (same : extent.core = extent'.core) (dataSize : Nat) :
    (extent.resize dataSize).unresolved = (extent'.resize dataSize).unresolved := by
  have isSealed : extent.isSealed = extent'.isSealed := by
    rw [← core_isSealed extent, same, core_isSealed]
  have sized := congrArg (fun core => core.resize dataSize) same
  unfold core at sized
  change (if extent.isSealed then _ else _) = (if extent'.isSealed then _ else _)
  rw [← isSealed] at sized ⊢
  cases sealed : extent.isSealed with
  | true =>
      rw [sealed] at sized
      exact sized
  | false =>
      rw [sealed] at sized
      exact sized

end FileExtent

/-- The steps of a source give what the source gives, or fail. -/
structure ExtentSource.Agree (fails : Prop) (source truth : ExtentSource) : Prop where
  getFileExtents : ∀ identifier, Agrees fails (source.getFileExtents identifier) (truth.getFileExtents identifier)
  getSealedExtentTree : Agrees fails source.getSealedExtentTree truth.getSealedExtentTree

namespace AttributeValues

/-- The extents of a list go on from each other; a last one beyond the used size is one to resolve. -/
def Ordered (dataStreamSize : Nat) (extent : FileExtent) : List FileExtent → Prop
  | next :: _ => extent.logicalOffset ≤ next.logicalOffset
  | [] => extent.logicalOffset ≤ dataStreamSize ∨ extent.isSealed

def usedSize (dataStreamSize : Nat) (extent : FileExtent) (extents : List FileExtent) : Nat :=
  min (followingOffset dataStreamSize extents) dataStreamSize - extent.logicalOffset

theorem sizeExtent_ordered {dataStreamSize : Nat} {extent : FileExtent} {extents : List FileExtent}
    (ordered : Ordered dataStreamSize extent extents) :
    sizeExtent dataStreamSize extent extents = .ok (extent.resize (usedSize dataStreamSize extent extents)) := by
  unfold sizeExtent usedSize
  cases extents with
  | nil =>
      change extent.logicalOffset ≤ dataStreamSize ∨ extent.isSealed at ordered
      dsimp only [followingOffset]
      by_cases past : extent.logicalOffset > dataStreamSize
      · rw [if_pos past, if_pos (ordered.resolve_left (Nat.not_le_of_lt past)), ok_bind, if_pos (Nat.le_of_lt past),
          Nat.sub_eq_zero_of_le (by omega)]
        rfl
      · rw [if_neg past, ok_bind, Nat.min_self, Nat.min_self]
        split
        next reached => rw [Nat.sub_eq_zero_of_le reached]; rfl
        next => rfl
  | cons next extents =>
      dsimp only [followingOffset]
      rw [if_neg (Nat.not_lt_of_le ordered), ok_bind, Nat.sub_min_sub_right]
      split
      next reached => rw [Nat.sub_eq_zero_of_le (Nat.le_trans (Nat.min_le_right _ _) reached)]; rfl
      next => rfl

theorem sizeExtent_unordered {dataStreamSize : Nat} {extent : FileExtent} {extents : List FileExtent}
    (unordered : ¬Ordered dataStreamSize extent extents) :
    sizeExtent dataStreamSize extent extents = fail .valueOutOfBounds := by
  unfold sizeExtent
  cases extents with
  | nil =>
      obtain ⟨past, plain⟩ := not_or.mp unordered
      dsimp only
      rw [if_pos (Nat.lt_of_not_le past), if_neg plain]
      rfl
  | cons next extents =>
      dsimp only
      rw [if_pos (Nat.lt_of_not_le unordered)]
      rfl

section sizes

variable {dataStreamSize : Nat}

/-- The extents of a list after they are sized, as far as that goes. -/
def sized (dataStreamSize : Nat) (extents : List FileExtent) : Result Unit × List FileExtent :=
  updateEach (sizeExtent dataStreamSize) extents

def used (dataStreamSize : Nat) (extents : List FileExtent) : List FileExtent :=
  (sized dataStreamSize extents).2.filter (·.dataSize ≠ 0)

theorem sized_cons_of_ordered {extent : FileExtent} {extents : List FileExtent}
    (ordered : Ordered dataStreamSize extent extents) :
    sized dataStreamSize (extent :: extents) =
      ((sized dataStreamSize extents).1,
        extent.resize (usedSize dataStreamSize extent extents) :: (sized dataStreamSize extents).2) := by
  rw [sized, updateEach, sizeExtent_ordered ordered]
  rfl

theorem sized_cons_of_not_ordered {extent : FileExtent} {extents : List FileExtent}
    (unordered : ¬Ordered dataStreamSize extent extents) :
    sized dataStreamSize (extent :: extents) = (fail .valueOutOfBounds, extent :: extents) := by
  rw [sized, updateEach, sizeExtent_unordered unordered]
  rfl

theorem sized_cons_ok {extent : FileExtent} {extents : List FileExtent}
    (ok : (sized dataStreamSize (extent :: extents)).1 = .ok ()) :
    Ordered dataStreamSize extent extents ∧ (sized dataStreamSize extents).1 = .ok () := by
  by_cases ordered : Ordered dataStreamSize extent extents
  · rw [sized_cons_of_ordered ordered] at ok
    exact ⟨ordered, ok⟩
  · rw [sized_cons_of_not_ordered ordered] at ok
    cases ok

variable (dataStreamSize) in
theorem followingOffset_congr {extents extents' : List FileExtent}
    (same : extents.map FileExtent.core = extents'.map FileExtent.core) :
    followingOffset dataStreamSize extents = followingOffset dataStreamSize extents' := by
  cases extents with
  | nil =>
      rw [List.map_nil, eq_comm, List.map_eq_nil_iff] at same
      rw [same]
  | cons next extents =>
      cases extents' with
      | nil => cases same
      | cons next' extents' =>
          have first := (List.cons.inj same).1
          rw [followingOffset, followingOffset, ← next.core_logicalOffset, first, next'.core_logicalOffset]

theorem ordered_congr {extent extent' : FileExtent} {extents extents' : List FileExtent}
    (first : extent.core = extent'.core) (rest : extents.map FileExtent.core = extents'.map FileExtent.core) :
    Ordered dataStreamSize extent extents ↔ Ordered dataStreamSize extent' extents' := by
  have offset : extent.logicalOffset = extent'.logicalOffset := by
    rw [← extent.core_logicalOffset, first, extent'.core_logicalOffset]
  have isSealed : extent.isSealed = extent'.isSealed := by
    rw [← extent.core_isSealed, first, extent'.core_isSealed]
  have following := followingOffset_congr dataStreamSize rest
  cases extents with
  | nil =>
      rw [List.map_nil, eq_comm, List.map_eq_nil_iff] at rest
      rw [rest, Ordered, Ordered, offset, isSealed]
  | cons next extents =>
      cases extents' with
      | nil => cases rest
      | cons next' extents' =>
          change next.logicalOffset = next'.logicalOffset at following
          rw [Ordered, Ordered, offset, following]

variable (dataStreamSize) in
theorem sized_congr {extents extents' : List FileExtent}
    (same : extents.map FileExtent.core = extents'.map FileExtent.core) :
    (sized dataStreamSize extents).1 = (sized dataStreamSize extents').1 ∧
      (sized dataStreamSize extents).2.map FileExtent.core = extents'.map FileExtent.core ∧
      ((sized dataStreamSize extents').1 = .ok () →
        (sized dataStreamSize extents).2.map FileExtent.unresolved =
          (sized dataStreamSize extents').2.map FileExtent.unresolved) := by
  induction extents generalizing extents' with
  | nil =>
      rw [List.map_nil, eq_comm, List.map_eq_nil_iff] at same
      rw [same]
      exact ⟨rfl, rfl, fun _ => rfl⟩
  | cons extent extents ih =>
      cases extents' with
      | nil => cases same
      | cons extent' extents' =>
          obtain ⟨first, rest⟩ := List.cons.inj same
          have offset : extent.logicalOffset = extent'.logicalOffset := by
            rw [← extent.core_logicalOffset, first, extent'.core_logicalOffset]
          have size : usedSize dataStreamSize extent extents = usedSize dataStreamSize extent' extents' := by
            rw [usedSize, usedSize, followingOffset_congr dataStreamSize rest, offset]
          obtain ⟨result, cores, resolved⟩ := ih rest
          by_cases ordered : Ordered dataStreamSize extent extents
          · rw [sized_cons_of_ordered ordered, sized_cons_of_ordered ((ordered_congr first rest).mp ordered), size]
            refine ⟨result, ?_, fun ok => ?_⟩
            · rw [List.map_cons, List.map_cons, cores, FileExtent.core_resize, first]
            · rw [List.map_cons, List.map_cons, resolved ok, FileExtent.unresolved_resize first]
          · rw [sized_cons_of_not_ordered ordered,
              sized_cons_of_not_ordered (mt (ordered_congr first rest).mpr ordered)]
            exact ⟨rfl, same, fun ok => nomatch ok⟩

theorem used_cons {extent : FileExtent} {extents : List FileExtent} (ordered : Ordered dataStreamSize extent extents) :
    used dataStreamSize (extent :: extents) =
      if usedSize dataStreamSize extent extents = 0 then used dataStreamSize extents
      else extent.resize (usedSize dataStreamSize extent extents) :: used dataStreamSize extents := by
  rw [used, sized_cons_of_ordered ordered]
  by_cases unused : usedSize dataStreamSize extent extents = 0
  · rw [if_pos unused, List.filter_cons_of_neg (by simp [unused])]
    rfl
  · rw [if_neg unused, List.filter_cons_of_pos (by simp [unused])]
    rfl

theorem used_followingOffset {extents : List FileExtent} (ok : (sized dataStreamSize extents).1 = .ok ()) :
    min (followingOffset dataStreamSize (used dataStreamSize extents)) dataStreamSize =
      min (followingOffset dataStreamSize extents) dataStreamSize := by
  induction extents with
  | nil => rfl
  | cons extent extents ih =>
      obtain ⟨ordered, rest⟩ := sized_cons_ok ok
      rw [used_cons ordered]
      split
      next unused =>
        rw [ih rest]
        change _ = min extent.logicalOffset dataStreamSize
        unfold usedSize at unused
        cases extents with
        | nil =>
            change min dataStreamSize dataStreamSize = _
            change min dataStreamSize dataStreamSize - _ = _ at unused
            omega
        | cons next extents =>
            change extent.logicalOffset ≤ next.logicalOffset at ordered
            change min next.logicalOffset dataStreamSize = _
            change min next.logicalOffset dataStreamSize - _ = _ at unused
            omega
      next => rfl

theorem sized_used {extents : List FileExtent} (ok : (sized dataStreamSize extents).1 = .ok ()) :
    sized dataStreamSize (used dataStreamSize extents) = (.ok (), used dataStreamSize extents) := by
  induction extents with
  | nil => rfl
  | cons extent extents ih =>
      obtain ⟨ordered, rest⟩ := sized_cons_ok ok
      have following := used_followingOffset rest
      rw [used_cons ordered]
      split
      next => exact ih rest
      next inUse =>
        have size : usedSize dataStreamSize (extent.resize (usedSize dataStreamSize extent extents))
            (used dataStreamSize extents) = usedSize dataStreamSize extent extents := by
          rw [usedSize, following]
          rfl
        have ordered' : Ordered dataStreamSize (extent.resize (usedSize dataStreamSize extent extents))
            (used dataStreamSize extents) := by
          unfold usedSize at inUse
          rw [← following] at inUse
          cases left : used dataStreamSize extents with
          | nil =>
              rw [left] at inUse
              change min dataStreamSize dataStreamSize - _ ≠ _ at inUse
              exact Or.inl (show extent.logicalOffset ≤ dataStreamSize by omega)
          | cons next others =>
              rw [left] at inUse
              change min next.logicalOffset dataStreamSize - _ ≠ _ at inUse
              show extent.logicalOffset ≤ next.logicalOffset
              omega
        rw [sized_cons_of_ordered ordered', ih rest, size]
        rfl

end sizes

section resolving

variable {tree : SealedExtentTree}

variable (tree) in
theorem resolveUsedExtent_congr {extent extent' : FileExtent} (same : extent.unresolved = extent'.unresolved)
    (inUse : extent.dataSize ≠ 0) : resolveUsedExtent tree extent = resolveUsedExtent tree extent' := by
  have isSealed : extent.isSealed = extent'.isSealed := by
    rw [← extent.unresolved_isSealed, same, extent'.unresolved_isSealed]
  cases plain : extent.isSealed with
  | false =>
      rw [FileExtent.unresolved_of_not_sealed plain, FileExtent.unresolved_of_not_sealed (isSealed.symm.trans plain)] at same
      rw [same]
  | true =>
      have unplaced : { extent with physicalBlockNumber := 0 } = { extent' with physicalBlockNumber := 0 } := by
        unfold FileExtent.unresolved at same
        rwa [if_pos plain, if_pos (isSealed.symm.trans plain)] at same
      have plain' : extent'.isSealed = true := isSealed.symm.trans plain
      obtain ⟨type, identifier, logicalOffset, physicalBlockNumber, size, encryptionIdentifier⟩ := extent
      obtain ⟨type', identifier', logicalOffset', physicalBlockNumber', size', encryptionIdentifier'⟩ := extent'
      simp only [FileExtent.mk.injEq] at unplaced
      obtain ⟨rfl, rfl, rfl, -, rfl, rfl⟩ := unplaced
      unfold resolveUsedExtent resolveExtent
      rw [if_neg inUse, if_neg inUse, if_pos plain, if_pos plain']

theorem resolveUsedExtent_core {extent extent' : FileExtent} (resolved : resolveUsedExtent tree extent = .ok extent') :
    extent'.core = extent.core := by
  unfold resolveUsedExtent resolveExtent at resolved
  split at resolved
  · rw [← Except.ok.inj resolved]
  · split at resolved
    next isSealed =>
      obtain ⟨found, -, resolved⟩ := bind_eq_ok.mp resolved
      cases found with
      | none => cases resolved
      | some found =>
          rw [← Except.ok.inj resolved, FileExtent.core, FileExtent.core, if_pos isSealed]
          exact if_pos isSealed
    next => rw [← Except.ok.inj resolved]

def resolved (tree : SealedExtentTree) (extents : List FileExtent) : Result Unit × List FileExtent :=
  updateEach (fun extent _ => resolveUsedExtent tree extent) extents

theorem resolved_core (extents : List FileExtent) :
    (resolved tree extents).2.map FileExtent.core = extents.map FileExtent.core := by
  induction extents with
  | nil => rfl
  | cons extent extents ih =>
      rw [resolved, updateEach]
      cases first : resolveUsedExtent tree extent with
      | error failure => rfl
      | ok extent' => rw [List.map_cons, List.map_cons, resolveUsedExtent_core first]; exact congrArg _ ih

variable (tree) in
theorem resolved_congr {extents extents' : List FileExtent}
    (same : extents.map FileExtent.unresolved = extents'.map FileExtent.unresolved)
    (inUse : ∀ extent ∈ extents, extent.dataSize ≠ 0) :
    (resolved tree extents).1 = (resolved tree extents').1 ∧
      ((resolved tree extents').1 = .ok () → (resolved tree extents).2 = (resolved tree extents').2) := by
  induction extents generalizing extents' with
  | nil =>
      rw [List.map_nil, eq_comm, List.map_eq_nil_iff] at same
      rw [same]
      exact ⟨rfl, fun _ => rfl⟩
  | cons extent extents ih =>
      cases extents' with
      | nil => cases same
      | cons extent' extents' =>
          obtain ⟨first, rest⟩ := List.cons.inj same
          have resolve := resolveUsedExtent_congr tree first (inUse extent List.mem_cons_self)
          obtain ⟨result, left⟩ := ih rest fun extent member => inUse extent (List.mem_cons_of_mem _ member)
          rw [resolved, resolved, updateEach, updateEach, resolve]
          cases resolveUsedExtent tree extent' with
          | error failure => exact ⟨rfl, fun ok => nomatch ok⟩
          | ok extent'' => exact ⟨result, fun ok => congrArg (List.cons extent'') (left ok)⟩

theorem resolved_plain {extents : List FileExtent} (plain : extents.any FileExtent.isSealed = false) :
    resolved tree extents = (.ok (), extents) := by
  induction extents with
  | nil => rfl
  | cons extent extents ih =>
      obtain ⟨first, rest⟩ := Bool.or_eq_false_iff.mp plain
      have resolve : resolveUsedExtent tree extent = .ok extent := by
        unfold resolveUsedExtent resolveExtent
        rw [first]
        split <;> rfl
      have others := ih rest
      unfold resolved at others ⊢
      rw [updateEach, resolve, others]

end resolving

section determining

variable {source : ExtentSource} {dataStreamSize : Nat}

/-- The extents that values are left with, and the result of determining them. -/
def determined (source : ExtentSource) (dataStreamSize : Nat) (extents : List FileExtent) :
    Result Unit × List FileExtent :=
  match (sized dataStreamSize extents).1 with
  | .error failure => (.error failure, (sized dataStreamSize extents).2)
  | .ok () =>
      if extents.any FileExtent.isSealed then
        match source.getSealedExtentTree with
        | .error failure => (.error failure, used dataStreamSize extents)
        | .ok none => (fail .valueMissing, used dataStreamSize extents)
        | .ok (some tree) => resolved tree (used dataStreamSize extents)
      else (.ok (), used dataStreamSize extents)

theorem fileExtents_of_some {values : AttributeValues} {extents : List FileExtent}
    (given : values.valueDataFileExtents = some extents) : fileExtents values = (.ok extents, values) := by
  rw [fileExtents, Call.self_bind, given]
  rfl

theorem determineFileExtents_eq {values : AttributeValues} {extents : List FileExtent}
    (given : values.valueDataFileExtents = some extents) :
    determineFileExtents source values =
      ((determined source values.valueDataSize extents).1,
        values.setFileExtents (determined source values.valueDataSize extents).2) := by
  rw [determineFileExtents, Call.self_bind, Call.bind_of_ok (fileExtents_of_some given), determined]
  change (replaceFileExtents (sized values.valueDataSize extents) >>= _) values = _
  cases size : (sized values.valueDataSize extents).1 with
  | error failure =>
      have failed : replaceFileExtents (sized values.valueDataSize extents) values =
          (.error failure, values.setFileExtents (sized values.valueDataSize extents).2) := by
        rw [replaceFileExtents, Call.update_bind, size]
        rfl
      rw [Call.bind_of_error failed]
  | ok =>
      have replaced : replaceFileExtents (sized values.valueDataSize extents) values =
          (.ok (), values.setFileExtents (sized values.valueDataSize extents).2) := by
        rw [replaceFileExtents, Call.update_bind, size]
        rfl
      rw [Call.bind_of_ok replaced, Call.bind_of_ok (fileExtents_of_some rfl), Call.update_bind]
      by_cases isSealed : extents.any FileExtent.isSealed
      · rw [if_pos isSealed]
        dsimp only
        rw [if_pos isSealed]
        cases mapped : source.getSealedExtentTree with
        | error failure => rfl
        | ok found => cases found <;> rfl
      · rw [if_neg isSealed]
        dsimp only
        rw [if_neg isSealed]
        rfl

/-- Extents that the records of an attribute became, in a call that went as far as sizing them or further. -/
def Became (dataStreamSize : Nat) (records extents : List FileExtent) : Prop :=
  extents.map FileExtent.core = records.map FileExtent.core ∨
    (sized dataStreamSize records).1 = .ok () ∧
      extents.map FileExtent.core = (used dataStreamSize records).map FileExtent.core

theorem map_filter_unresolved (extents : List FileExtent) :
    (extents.filter (·.dataSize ≠ 0)).map FileExtent.unresolved =
      (extents.map FileExtent.unresolved).filter (·.dataSize ≠ 0) := by
  rw [List.filter_map]
  congr 2
  funext extent
  rw [Function.comp_apply, extent.unresolved_dataSize]

theorem core_of_unresolved {extents extents' : List FileExtent}
    (same : extents.map FileExtent.unresolved = extents'.map FileExtent.unresolved) :
    extents.map FileExtent.core = extents'.map FileExtent.core := by
  have cores := congrArg (List.map FileExtent.core) same
  rw [List.map_map, List.map_map] at cores
  have unfolded : FileExtent.core ∘ FileExtent.unresolved = FileExtent.core := funext FileExtent.core_unresolved
  rwa [unfolded] at cores

theorem Became.sized {records extents : List FileExtent} (became : Became dataStreamSize records extents) :
    (AttributeValues.sized dataStreamSize extents).1 = (AttributeValues.sized dataStreamSize records).1 ∧
      Became dataStreamSize records (AttributeValues.sized dataStreamSize extents).2 ∧
      ((AttributeValues.sized dataStreamSize records).1 = .ok () →
        (used dataStreamSize extents).map FileExtent.unresolved =
          (used dataStreamSize records).map FileExtent.unresolved) := by
  rcases became with same | ⟨ok, same⟩
  · obtain ⟨result, cores, left⟩ := sized_congr dataStreamSize same
    refine ⟨result, Or.inl cores, fun ok => ?_⟩
    rw [used, used, map_filter_unresolved, map_filter_unresolved, left ok]
  · obtain ⟨result, cores, left⟩ := sized_congr dataStreamSize same
    have again := sized_used ok
    rw [again] at result left
    refine ⟨result.trans ok.symm, Or.inr ⟨ok, cores⟩, fun _ => ?_⟩
    have kept : (used dataStreamSize records).filter (·.dataSize ≠ 0) = used dataStreamSize records := by
      rw [used, List.filter_filter]
      simp
    rw [used, map_filter_unresolved, left rfl, ← map_filter_unresolved, kept]

theorem any_isSealed_of_core {extents extents' : List FileExtent}
    (same : extents.map FileExtent.core = extents'.map FileExtent.core) :
    extents.any FileExtent.isSealed = extents'.any FileExtent.isSealed := by
  have mapped := congrArg (List.any · FileExtent.isSealed) same
  have unchanged : FileExtent.isSealed ∘ FileExtent.core = FileExtent.isSealed := funext FileExtent.core_isSealed
  simpa only [List.any_map, unchanged] using mapped

variable (dataStreamSize) in
theorem any_isSealed_of_used {extents : List FileExtent}
    (isSealed : (used dataStreamSize extents).any FileExtent.isSealed) : extents.any FileExtent.isSealed := by
  obtain ⟨extent, member, isSealed⟩ := List.any_eq_true.mp isSealed
  rw [← any_isSealed_of_core (sized_congr dataStreamSize rfl).2.1]
  exact List.any_eq_true.mpr ⟨extent, (List.mem_filter.mp member).1, isSealed⟩

theorem map_unresolved_plain {extents : List FileExtent} (plain : extents.any FileExtent.isSealed = false) :
    extents.map FileExtent.unresolved = extents := by
  rw [List.map_congr_left (g := id), List.map_id]
  intro extent member
  exact FileExtent.unresolved_of_not_sealed (Bool.eq_false_iff.mpr (List.any_eq_false.mp plain extent member))

theorem Became.determined {fails : Prop} {truth : ExtentSource} {records extents : List FileExtent}
    (became : Became dataStreamSize records extents)
    (agrees : Agrees fails source.getSealedExtentTree truth.getSealedExtentTree)
    (mapped : records.any FileExtent.isSealed → ∃ tree, truth.getSealedExtentTree = .ok (some tree)) :
    Agrees fails (AttributeValues.determined source dataStreamSize extents).1
        (AttributeValues.determined truth dataStreamSize records).1 ∧
      ((AttributeValues.determined source dataStreamSize extents).1 = .ok () →
        (AttributeValues.determined source dataStreamSize extents).2 =
          (AttributeValues.determined truth dataStreamSize records).2) ∧
      Became dataStreamSize records (AttributeValues.determined source dataStreamSize extents).2 := by
  obtain ⟨result, still, left⟩ := became.sized
  rw [AttributeValues.determined, AttributeValues.determined, result]
  cases size : (AttributeValues.sized dataStreamSize records).1 with
  | error failure => exact ⟨Agrees.refl _ _, fun ok => (nomatch ok), still⟩
  | ok =>
      have unresolved := left size
      have cores := core_of_unresolved unresolved
      have became' : Became dataStreamSize records (used dataStreamSize extents) := Or.inr ⟨size, cores⟩
      have plainly : (used dataStreamSize extents).any FileExtent.isSealed = false →
          used dataStreamSize extents = used dataStreamSize records := by
        intro plain
        rw [← map_unresolved_plain plain, unresolved, map_unresolved_plain]
        rw [← any_isSealed_of_core cores, plain]
      dsimp only
      cases isSealed : extents.any FileExtent.isSealed with
      | true =>
          have isSealed' : records.any FileExtent.isSealed = true := by
            rcases became with same | ⟨_, same⟩
            · rw [← any_isSealed_of_core same, isSealed]
            · apply any_isSealed_of_used dataStreamSize
              rw [← any_isSealed_of_core same, isSealed]
          obtain ⟨tree, found⟩ := mapped isSealed'
          rw [if_pos rfl, if_pos isSealed', found]
          rcases agrees with same | ⟨fails, code, failed⟩
          · rw [same, found]
            have inUse : ∀ extent ∈ used dataStreamSize extents, extent.dataSize ≠ 0 := by
              intro extent member
              exact of_decide_eq_true (List.mem_filter.mp member).2
            obtain ⟨result', left'⟩ := resolved_congr tree unresolved inUse
            refine ⟨Or.inl result', fun ok => left' (result'.symm.trans ok), Or.inr ⟨size, ?_⟩⟩
            dsimp only
            rw [resolved_core, cores]
          · rw [failed]
            exact ⟨Or.inr ⟨fails, code, rfl⟩, fun ok => (nomatch ok), became'⟩
      | false =>
          have plain : (used dataStreamSize extents).any FileExtent.isSealed = false := by
            rw [Bool.eq_false_iff] at isSealed ⊢
            exact mt (any_isSealed_of_used dataStreamSize) isSealed
          rw [if_neg (by decide)]
          cases isSealed' : records.any FileExtent.isSealed with
          | false =>
              rw [if_neg (by decide)]
              exact ⟨Agrees.refl _ _, fun _ => plainly plain, became'⟩
          | true =>
              obtain ⟨tree, found⟩ := mapped isSealed'
              have plain' : (used dataStreamSize records).any FileExtent.isSealed = false := by rwa [← plainly plain]
              rw [if_pos rfl, found]
              dsimp only
              rw [resolved_plain plain']
              exact ⟨Agrees.refl _ _, fun _ => plainly plain, became'⟩

end determining

section streams

/-- The values of an attribute after calls on it: only their extents change. -/
structure Reached (truth : ExtentSource) (record : AttributeRecord) (values : AttributeValues) : Prop where
  same : values = { record.values with valueDataFileExtents := values.valueDataFileExtents }
  became : ∀ extents, values.valueDataFileExtents = some extents →
    ∃ records, truth.getFileExtents record.valueDataStreamIdentifier = .ok records ∧
      Became record.valueDataSize records extents

theorem reached_values (truth : ExtentSource) (record : AttributeRecord) : Reached truth record record.values where
  same := rfl
  became _ absent := nomatch absent

theorem Reached.setFileExtents {truth : ExtentSource} {record : AttributeRecord} {values : AttributeValues}
    {records extents : List FileExtent} (reached : Reached truth record values)
    (given : truth.getFileExtents record.valueDataStreamIdentifier = .ok records)
    (became : Became record.valueDataSize records extents) : Reached truth record (values.setFileExtents extents) where
  same := by
    rw [reached.same]
    rfl
  became extents' same := by
    cases same
    exact ⟨records, given, became⟩

variable {fails : Prop} {source truth : ExtentSource} {record : AttributeRecord} {values : AttributeValues}
  {ioHandle : IoHandle} {encryptionContext : Option EncryptionContext}

/-- The stream of an attribute as the steps give it. -/
def valueDataStream (truth : ExtentSource) (ioHandle : IoHandle) (encryptionContext : Option EncryptionContext)
    (record : AttributeRecord) : Result (Option ValueDataStream) := do
  if record.flags &&& 0x0001 ≠ 0 then do
    let records ← truth.getFileExtents record.valueDataStreamIdentifier
    (determined truth record.valueDataSize records).1
    let dataStream ← FileDataStream.createFromFileExtents ioHandle encryptionContext
      (determined truth record.valueDataSize records).2 record.valueDataSize false
    return some (.fileExtents dataStream)
  else if record.flags &&& 0x0002 ≠ 0 then do
    let dataStream ← createFromData record.valueData record.valueDataSize
    return some dataStream
  else return none

theorem requireFileExtents_conforms (reached : Reached truth record values) (agree : source.Agree fails truth) :
    (requireFileExtents source).Conforms fails values (truth.getFileExtents record.valueDataStreamIdentifier)
      (fun _ records values' => ∃ extents, values' = values.setFileExtents extents ∧
        Became record.valueDataSize records extents)
      (Reached truth record) := by
  have identifier : values.valueDataStreamIdentifier = record.valueDataStreamIdentifier := by
    rw [reached.same]
    rfl
  cases given : values.valueDataFileExtents with
  | some extents =>
      obtain ⟨records, read, became⟩ := reached.became extents given
      have run : requireFileExtents source values = (.ok (), values) := by
        rw [requireFileExtents, Call.self_bind, given]
        rfl
      unfold Call.Conforms
      rw [run]
      refine ⟨records, read, extents, ?_, became⟩
      rw [setFileExtents, ← given]
  | none =>
      have agrees := agree.getFileExtents record.valueDataStreamIdentifier
      have run : requireFileExtents source values =
          (Call.lift (source.getFileExtents record.valueDataStreamIdentifier) >>= fun extents =>
            Call.update (setFileExtents extents)) values := by
        rw [requireFileExtents, Call.self_bind, given, getFileExtents]
        change (Call.self >>= _) values = _
        rw [Call.self_bind, given, identifier]
        rfl
      unfold Call.Conforms
      rw [run]
      cases read : source.getFileExtents record.valueDataStreamIdentifier with
      | ok records =>
          rw [read] at agrees
          exact ⟨records, agrees.ok, records, rfl, Or.inl rfl⟩
      | error failure =>
          rw [read] at agrees
          refine ⟨?_, reached⟩
          rcases agrees with same | ⟨fails, code, same⟩
          · exact Or.inl same.symm
          · exact Or.inr ⟨fails, code, Except.error.inj same⟩

theorem determineFileExtents_conforms {records extents : List FileExtent} (reached : Reached truth record values)
    (agree : source.Agree fails truth) (given : truth.getFileExtents record.valueDataStreamIdentifier = .ok records)
    (became : Became record.valueDataSize records extents)
    (mapped : records.any FileExtent.isSealed → ∃ tree, truth.getSealedExtentTree = .ok (some tree)) :
    (determineFileExtents source).Conforms fails (values.setFileExtents extents)
      (determined truth record.valueDataSize records).1
      (fun _ _ values' => values' = values.setFileExtents (determined truth record.valueDataSize records).2 ∧
        Reached truth record values')
      (Reached truth record) := by
  have size : (values.setFileExtents extents).valueDataSize = record.valueDataSize := by
    rw [reached.same]
    rfl
  obtain ⟨agrees, same, became'⟩ := became.determined agree.getSealedExtentTree mapped
  have reached' := reached.setFileExtents given became'
  unfold Call.Conforms
  rw [determineFileExtents_eq rfl, size]
  cases result : (determined source record.valueDataSize extents).1 with
  | ok =>
      rw [result] at agrees
      rw [same result] at reached' ⊢
      exact ⟨(), agrees.ok, rfl, reached'⟩
  | error failure =>
      rw [result] at agrees
      refine ⟨?_, reached'⟩
      rcases agrees with same | ⟨fails, code, same⟩
      · exact Or.inl same.symm
      · exact Or.inr ⟨fails, code, Except.error.inj same⟩

theorem getDataStream_conforms (reached : Reached truth record values) (agree : source.Agree fails truth)
    (mapped : ∀ records, truth.getFileExtents record.valueDataStreamIdentifier = .ok records →
      records.any FileExtent.isSealed → ∃ tree, truth.getSealedExtentTree = .ok (some tree)) :
    (getDataStream source ioHandle encryptionContext).Conforms fails values
      (valueDataStream truth ioHandle encryptionContext record)
      (fun dataStream dataStream' values' => dataStream = dataStream' ∧ Reached truth record values')
      (Reached truth record) := by
  have flags : values.flags = record.flags := congrArg AttributeValues.flags reached.same
  have size : values.valueDataSize = record.valueDataSize := congrArg AttributeValues.valueDataSize reached.same
  have data : values.valueData = record.valueData := congrArg AttributeValues.valueData reached.same
  apply Call.conforms_self_bind
  unfold valueDataStream
  rw [flags]
  by_cases extended : record.flags &&& 0x0001 ≠ 0
  · rw [if_pos extended, if_pos extended]
    refine (requireFileExtents_conforms reached agree).bind fun _ records values' given required => ?_
    obtain ⟨extents, rfl, became⟩ := required
    refine (determineFileExtents_conforms reached agree given became (mapped records given)).bind
      fun _ _ values' _ determined => ?_
    obtain ⟨rfl, reached'⟩ := determined
    apply Call.conforms_bind_of_ok (fileExtents_of_some rfl)
    rw [size]
    exact Call.conforms_lift_bind (Agrees.refl _ _) (fun _ _ _ => Call.conforms_pure ⟨rfl, reached'⟩)
      fun _ _ => reached'
  · rw [if_neg extended, if_neg extended]
    by_cases stored : record.flags &&& 0x0002 ≠ 0
    · rw [if_pos stored, if_pos stored, data, size]
      exact Call.conforms_lift_bind (Agrees.refl _ _) (fun _ _ _ => Call.conforms_pure ⟨rfl, reached⟩)
        fun _ _ => reached
    · rw [if_neg stored, if_neg stored]
      exact Call.conforms_pure ⟨rfl, reached⟩

end streams

end AttributeValues

end Fsapfs
