import Fsapfs.Program.HasAt

namespace Fsapfs.Program

variable {α : Type} {data part part' : List α} {offset offset' start stop : Nat} {fields : List (Nat × List α)}

def overwrite (data : List α) (offset : Nat) (part : List α) : List α :=
  data.take offset ++ part ++ data.drop (offset + part.length)

def overwriteAll (data : List α) (fields : List (Nat × List α)) : List α :=
  fields.foldl (fun data field => overwrite data field.1 field.2) data

def HasAll (data : List α) (fields : List (Nat × List α)) : Prop := ∀ field ∈ fields, HasAt data field.1 field.2

/-- Parts that follow on each other between two offsets. -/
def Spaced : Nat → List (Nat × List α) → Nat → Prop
  | start, [], stop => start ≤ stop
  | start, field :: fields, stop => start ≤ field.1 ∧ Spaced (field.1 + field.2.length) fields stop

def Apart (offset : Nat) (part : List α) (field : Nat × List α) : Prop :=
  offset + part.length ≤ field.1 ∨ field.1 + field.2.length ≤ offset

theorem overwrite_length (inside : offset + part.length ≤ data.length) :
    (overwrite data offset part).length = data.length := by
  simp only [overwrite, List.length_append, List.length_take, List.length_drop]
  omega

theorem hasAt_overwrite (inside : offset ≤ data.length) : HasAt (overwrite data offset part) offset part :=
  ⟨data.take offset, data.drop (offset + part.length), rfl, List.length_take_of_le inside⟩

theorem HasAt.take (has : HasAt data offset part) {count : Nat} (inside : offset + part.length ≤ count) :
    HasAt (data.take count) offset part := by
  obtain ⟨before, after, rfl, rfl⟩ := has
  refine ⟨before, after.take (count - (before ++ part).length), ?_, rfl⟩
  rw [List.take_append, List.take_of_length_le (by rw [List.length_append]; exact inside)]

theorem HasAt.overwrite_eq (has : HasAt data offset part) : overwrite data offset part = data := by
  obtain ⟨before, after, rfl, rfl⟩ := has
  simp [overwrite]

theorem drop_overwrite (inside : offset ≤ data.length) :
    (overwrite data offset part).drop (offset + part.length) = data.drop (offset + part.length) := by
  have front : (data.take offset ++ part).length = offset + part.length := by simp [inside]
  rw [overwrite, ← front, List.drop_left, front]

theorem HasAt.overwrite (has : HasAt data offset part) (inside : offset' + part'.length ≤ data.length)
    (apart : Apart offset part (offset', part')) : HasAt (overwrite data offset' part') offset part := by
  obtain ⟨before, after, rfl, rfl⟩ := has
  simp only [List.length_append] at inside
  unfold Program.overwrite
  rcases apart with ahead | behind
  · refine ⟨before, (after.take (offset' - (before ++ part).length) ++ part') ++ (before ++ part ++ after).drop
      (offset' + part'.length), ?_, rfl⟩
    rw [List.take_append, List.take_of_length_le (by simpa using ahead)]
    simp only [List.append_assoc]
  · have behind : offset' + part'.length ≤ before.length := behind
    refine ⟨((before ++ part ++ after).take offset' ++ part') ++ before.drop (offset' + part'.length), after, ?_, ?_⟩
    · rw [List.append_assoc before, List.drop_append_of_le_length behind]
      simp only [List.append_assoc]
    · simp only [List.length_append, List.length_take, List.length_drop]
      omega

theorem Spaced.start_le (spaced : Spaced start fields stop) : start ≤ stop := by
  induction fields generalizing start with
  | nil => exact spaced
  | cons field fields ih => exact Nat.le_trans spaced.1 (Nat.le_trans (Nat.le_add_right _ _) (ih spaced.2))

theorem Spaced.mono (spaced : Spaced start fields stop) (lower : offset ≤ start) : Spaced offset fields stop := by
  cases fields with
  | nil => exact Nat.le_trans lower spaced
  | cons field fields => exact ⟨Nat.le_trans lower spaced.1, spaced.2⟩

theorem Spaced.append {fields' : List (Nat × List α)} (spaced : Spaced start fields offset)
    (spaced' : Spaced offset fields' stop) : Spaced start (fields ++ fields') stop := by
  induction fields generalizing start with
  | nil => exact spaced'.mono spaced
  | cons field fields ih => exact ⟨spaced.1, ih spaced.2⟩

theorem Spaced.apart (spaced : Spaced start fields stop) (before : offset + part.length ≤ start) :
    ∀ field ∈ fields, Apart offset part field := by
  induction fields generalizing start with
  | nil => simp
  | cons field fields ih =>
      refine List.forall_mem_cons.mpr ⟨Or.inl (Nat.le_trans before spaced.1), ih spaced.2 ?_⟩
      exact Nat.le_trans before (Nat.le_trans spaced.1 (Nat.le_add_right _ _))

theorem Spaced.le_of_mem (spaced : Spaced start fields stop) {field : Nat × List α} (member : field ∈ fields) :
    start ≤ field.1 := by
  induction fields generalizing start with
  | nil => cases member
  | cons first fields ih =>
      rcases List.mem_cons.mp member with rfl | member
      · exact spaced.1
      · exact Nat.le_trans spaced.1 (Nat.le_trans (Nat.le_add_right _ _) (ih spaced.2 member))

theorem overwriteAll_length (spaced : Spaced start fields data.length) :
    (overwriteAll data fields).length = data.length := by
  induction fields generalizing data start with
  | nil => rfl
  | cons field fields ih =>
      have length := overwrite_length spaced.2.start_le
      exact (ih (length.symm ▸ spaced.2)).trans length

theorem HasAt.overwriteAll (has : HasAt data offset part) (spaced : Spaced start fields data.length)
    (apart : ∀ field ∈ fields, Apart offset part field) : HasAt (overwriteAll data fields) offset part := by
  induction fields generalizing data start with
  | nil => exact has
  | cons field fields ih =>
      obtain ⟨here, rest⟩ := List.forall_mem_cons.mp apart
      exact ih (has.overwrite spaced.2.start_le here) ((overwrite_length spaced.2.start_le).symm ▸ spaced.2) rest

theorem hasAll_overwriteAll (spaced : Spaced start fields data.length) : HasAll (overwriteAll data fields) fields := by
  induction fields generalizing data start with
  | nil => simp [HasAll]
  | cons field fields ih =>
      have spaced' : Spaced (field.1 + field.2.length) fields (overwrite data field.1 field.2).length :=
        (overwrite_length spaced.2.start_le).symm ▸ spaced.2
      refine List.forall_mem_cons.mpr ⟨?_, ih spaced'⟩
      have inside : field.1 ≤ data.length := Nat.le_trans (Nat.le_add_right _ _) spaced.2.start_le
      exact (hasAt_overwrite inside).overwriteAll spaced' (spaced.2.apart (Nat.le_refl _))

theorem HasAll.overwriteAll_eq (has : HasAll data fields) : overwriteAll data fields = data := by
  induction fields generalizing data with
  | nil => rfl
  | cons field fields ih =>
      obtain ⟨here, rest⟩ := List.forall_mem_cons.mp has
      rw [overwriteAll, List.foldl_cons, here.overwrite_eq]
      exact ih rest

theorem hasAll_append {fields' : List (Nat × List α)} :
    HasAll data (fields ++ fields') ↔ HasAll data fields ∧ HasAll data fields' :=
  List.forall_mem_append

end Fsapfs.Program
