import Mathlib.Data.List.Nodup
import Mathlib.Data.List.TakeWhile
import Mathlib.Tactic.SplitIfs

namespace Fsapfs.Program

variable {κ : Type} [DecidableEq κ]

/-- The keys of a history of accesses, the latest access first, each at its latest access. -/
def recent : List κ → List κ
  | [] => []
  | key :: history => key :: (recent history).filter (· ≠ key)

/-- Moves a key to the front; the least recently used keys beyond the capacity are dropped. -/
def refresh (capacity : Nat) (key : κ) (keys : List κ) : List κ := (key :: keys.filter (· ≠ key)).take capacity

theorem mem_recent {history : List κ} {key : κ} : key ∈ recent history ↔ key ∈ history := by
  induction history with
  | nil => simp [recent]
  | cons key' history ih =>
      by_cases same : key = key'
      · simp [recent, same]
      · simp [recent, same, ih]

theorem recent_nodup (history : List κ) : (recent history).Nodup := by
  induction history with
  | nil => exact List.nodup_nil
  | cons key history ih =>
      refine List.nodup_cons.mpr ⟨by simp, ih.filter _⟩

theorem filter_take {keys : List κ} (nodup : keys.Nodup) (key : κ) (n : Nat) :
    ((keys.take (n + 1)).filter (· ≠ key)).take n = (keys.filter (· ≠ key)).take n := by
  induction keys generalizing n with
  | nil => simp
  | cons key' keys ih =>
      obtain ⟨absent, nodup⟩ := List.nodup_cons.mp nodup
      by_cases same : key' = key
      · subst same
        have untouched : ∀ keys' ⊆ keys, keys'.filter (· ≠ key') = keys' := fun keys' sub =>
          List.filter_eq_self.mpr fun x member => by
            simpa using fun eq : x = key' => absent (eq ▸ sub member)
        rw [List.take_succ_cons, List.filter_cons_of_neg (by simp), List.filter_cons_of_neg (by simp),
          untouched _ (List.take_subset n keys), untouched _ (List.Subset.refl keys), List.take_take, Nat.min_self]
      · rw [List.take_succ_cons, List.filter_cons_of_pos (by simpa using same),
          List.filter_cons_of_pos (by simpa using same)]
        cases n with
        | zero => simp
        | succ n => rw [List.take_succ_cons, List.take_succ_cons, ih nodup n]

theorem refresh_take {keys : List κ} (nodup : keys.Nodup) (key : κ) (capacity : Nat) :
    refresh capacity key (keys.take capacity) = refresh capacity key keys := by
  cases capacity with
  | zero => rfl
  | succ n =>
      unfold refresh
      rw [List.take_succ_cons, List.take_succ_cons, filter_take nodup]

theorem recent_split {history : List κ} {key : κ} (accessed : key ∈ history) :
    ∃ rest, recent history = recent (history.takeWhile (· ≠ key)) ++ key :: rest := by
  induction history with
  | nil => cases accessed
  | cons key' history ih =>
      by_cases same : key' = key
      · subst same
        exact ⟨(recent history).filter (· ≠ key'), by simp [recent]⟩
      · have before : key ∈ history := by simpa [Ne.symm same] using accessed
        obtain ⟨rest, split⟩ := ih before
        refine ⟨rest.filter (· ≠ key'), ?_⟩
        rw [List.takeWhile_cons_of_pos (by simpa using same)]
        simp [recent, split, List.filter_append, Ne.symm same]

theorem mem_take_recent {history : List κ} {key : κ} {capacity : Nat} :
    key ∈ (recent history).take capacity ↔
      key ∈ history ∧ (recent (history.takeWhile (· ≠ key))).length < capacity := by
  constructor
  · intro member
    have accessed := mem_recent.mp (List.mem_of_mem_take member)
    obtain ⟨rest, split⟩ := recent_split accessed
    refine ⟨accessed, ?_⟩
    by_contra full
    rw [split, List.take_append_of_le_length (Nat.not_lt.mp full)] at member
    have early := mem_recent.mp (List.mem_of_mem_take member)
    have other := List.mem_takeWhile_imp early
    simp at other
  · rintro ⟨accessed, room⟩
    obtain ⟨rest, split⟩ := recent_split accessed
    rw [split, List.take_append, show capacity - (recent (history.takeWhile (· ≠ key))).length =
      (capacity - (recent (history.takeWhile (· ≠ key))).length - 1) + 1 by omega, List.take_succ_cons]
    simp

end Fsapfs.Program
