import Fsapfs.Program.Outcome

namespace Fsapfs.Program

variable {α ε : Type} {data part front back : List α} {offset : Nat} {x : α}

def HasAt (data : List α) (offset : Nat) (part : List α) : Prop :=
  ∃ before after, data = before ++ part ++ after ∧ before.length = offset

theorem hasAt_self (data : List α) : HasAt data 0 data := ⟨[], [], by simp, rfl⟩

theorem hasAt_append : HasAt data offset (front ++ back) ↔
    HasAt data offset front ∧ HasAt data (offset + front.length) back := by
  constructor
  · rintro ⟨before, after, rfl, rfl⟩
    exact ⟨⟨before, back ++ after, by simp, rfl⟩, ⟨before ++ front, after, by simp, by simp⟩⟩
  · rintro ⟨⟨before, after, rfl, rfl⟩, ⟨before', after', same, length⟩⟩
    have first : before' = before ++ front := by
      have taken := congrArg (List.take before'.length) same
      rw [List.append_assoc before', List.take_left] at taken
      rw [← taken, length, ← List.length_append, List.take_left]
    subst first
    refine ⟨before, after', ?_, rfl⟩
    rw [same, ← List.append_assoc]

theorem HasAt.left (has : HasAt data offset (front ++ back)) : HasAt data offset front :=
  (hasAt_append.mp has).1

theorem HasAt.right (has : HasAt data offset (front ++ back)) {next : Nat} (at_next : next = offset + front.length) :
    HasAt data next back := by
  rw [at_next]
  exact (hasAt_append.mp has).2

theorem HasAt.tail (has : HasAt data offset (x :: part)) : HasAt data (offset + 1) part :=
  HasAt.right (show HasAt data offset ([x] ++ part) from has) rfl

theorem HasAt.inside (has : HasAt data offset part) : offset + part.length ≤ data.length := by
  obtain ⟨before, after, rfl, rfl⟩ := has
  simp

theorem HasAt.load (has : HasAt data offset (x :: part)) : (load data offset : Except (Failure ε) α) = .ok x := by
  obtain ⟨before, after, rfl, rfl⟩ := has
  apply load_of_getElem?
  simp

theorem HasAt.take_drop (has : HasAt data offset part) : (data.drop offset).take part.length = part := by
  obtain ⟨before, after, rfl, rfl⟩ := has
  rw [List.append_assoc, List.drop_left, List.take_left]

theorem HasAt.slice (has : HasAt data offset part) {count : Nat} (length : count = part.length) :
    (slice data offset count : Except (Failure ε) (List α)) = .ok part := by
  subst length
  rw [slice_of_le has.inside, has.take_drop]

theorem hasAt_of_drop (inside : offset ≤ data.length) (same : data.drop offset = part ++ back) :
    HasAt data offset part := by
  refine ⟨data.take offset, back, ?_, List.length_take_of_le inside⟩
  rw [List.append_assoc, ← same, List.take_append_drop]

end Fsapfs.Program
