import Mathlib.Data.List.Basic
import Mathlib.Data.List.TakeDrop

namespace Fsapfs.Program

variable {ι α : Type}

/-- Collects items piece by piece: at a position there is a piece of the items from there on, and the
position after that piece. -/
def gather (piece : ι → Option (List α × ι)) : Nat → ι → Option (List α)
  | 0, _ => some []
  | count + 1, position =>
      match piece position with
      | none => none
      | some ([], _) => none
      | some (item :: items, next) =>
          (gather piece (count - items.length) next).map ((item :: items).take (count + 1) ++ ·)

@[simp] theorem gather_zero (piece : ι → Option (List α × ι)) (position : ι) :
    gather piece 0 position = some [] := by
  rw [gather]

theorem gather_none {piece : ι → Option (List α × ι)} {position : ι} (missing : piece position = none)
    (count : Nat) : gather piece (count + 1) position = none := by
  rw [gather, missing]

theorem gather_empty {piece : ι → Option (List α × ι)} {position next : ι}
    (empty : piece position = some ([], next)) (count : Nat) :
    gather piece (count + 1) position = none := by
  rw [gather, empty]

theorem gather_succ {piece : ι → Option (List α × ι)} {position next : ι} {items : List α}
    (there : piece position = some (items, next)) (nonempty : items ≠ []) (count : Nat) :
    gather piece (count + 1) position =
      (gather piece (count + 1 - items.length) next).map (items.take (count + 1) ++ ·) := by
  cases items with
  | nil => exact absurd rfl nonempty
  | cons item items =>
      rw [gather, there]
      simp only [List.length_cons, Nat.add_sub_add_right]

/-- The items `content` gives the addresses from `start` on. -/
def contents (content : Nat → α) (start count : Nat) : List α :=
  (List.range count).map fun i => content (start + i)

@[simp] theorem contents_length (content : Nat → α) (start count : Nat) :
    (contents content start count).length = count := by
  simp [contents]

theorem contents_add (content : Nat → α) (start first second : Nat) :
    contents content start (first + second) =
      contents content start first ++ contents content (start + first) second := by
  simp [contents, List.range_add, Nat.add_assoc]

theorem take_contents (content : Nat → α) (start : Nat) {n count : Nat} (h : n ≤ count) :
    (contents content start count).take n = contents content start n := by
  obtain ⟨rest, rfl⟩ := Nat.exists_eq_add_of_le h
  rw [contents_add]
  exact List.take_left' (contents_length content start n)

theorem take_contents_min (content : Nat → α) (start n count : Nat) :
    (contents content start count).take n = contents content start (min n count) := by
  rcases Nat.le_total n count with less | more
  · rw [take_contents content start less, Nat.min_eq_left less]
  · rw [List.take_of_length_le (by rwa [contents_length]), Nat.min_eq_right more]

theorem drop_contents (content : Nat → α) (start n count : Nat) :
    (contents content start (n + count)).drop n = contents content (start + n) count := by
  rw [contents_add]
  exact List.drop_left' (contents_length content start n)

theorem contents_congr {content content' : Nat → α} {start start' count : Nat}
    (same : ∀ i, i < count → content (start + i) = content' (start' + i)) :
    contents content start count = contents content' start' count :=
  List.map_congr_left fun i member => same i (List.mem_range.mp member)

theorem contents_inj {content content' : Nat → α} {start count : Nat}
    (same : contents content start count = contents content' start count) {i : Nat} (h : i < count) :
    content (start + i) = content' (start + i) :=
  List.map_inj_left.mp same i (List.mem_range.mpr h)

theorem contents_getD (xs : List α) (fallback : α) {start count : Nat} (inside : start + count ≤ xs.length) :
    contents (fun i => xs.getD i fallback) start count = (xs.drop start).take count := by
  apply List.ext_getElem
  · simp
    omega
  · intro i short _
    rw [contents_length] at short
    have within : start + i < xs.length := by omega
    simp [contents, within]

theorem gather_contents {piece : ι → Option (List α × ι)} (valid : ι → Prop) (address : ι → Nat)
    {content : Nat → α} {bound : Nat}
    (holds : ∀ position, valid position → address position < bound →
      ∃ items next, piece position = some (items, next) ∧ items ≠ [] ∧
        items = contents content (address position) items.length ∧
        (address position + items.length < bound →
          valid next ∧ address next = address position + items.length))
    (count : Nat) (position : ι) (start : valid position) (inside : address position + count ≤ bound) :
    gather piece count position = some (contents content (address position) count) := by
  fun_induction gather piece count position with
  | case1 => rfl
  | case2 count position missing =>
      obtain ⟨items, next, there, _⟩ := holds position start (by omega)
      rw [missing] at there
      cases there
  | case3 count position next empty =>
      obtain ⟨items, next', there, nonempty, _⟩ := holds position start (by omega)
      rw [empty] at there
      cases there
      exact absurd rfl nonempty
  | case4 count position item found next there ih =>
      obtain ⟨items, next', there', _, held, follows⟩ := holds position start (by omega)
      rw [there] at there'
      cases there'
      rw [held]
      simp only [List.length_cons] at follows ⊢
      by_cases enough : count ≤ found.length
      · rw [Nat.sub_eq_zero_of_le enough, gather_zero, Option.map_some, List.append_nil,
          take_contents content _ (Nat.succ_le_succ enough)]
      · obtain ⟨start', after⟩ := follows (by omega)
        rw [ih start' (by omega), Option.map_some, after,
          List.take_of_length_le (by simp only [contents_length]; omega), ← contents_add]
        congr 2
        omega

end Fsapfs.Program
