import Fsapfs.Program.Call
import Mathlib.Logic.Relation

namespace Fsapfs.Program

variable {ε σ κ α : Type}

/-- A recursion from key to key with a depth limit; `body` continues at another key by its argument. -/
def descend (limit : κ → Call ε σ α) (body : (κ → Call ε σ α) → κ → Call ε σ α) : Nat → κ → Call ε σ α
  | 0 => limit
  | depth + 1 => body (descend limit body depth)

/-- The same recursion under a watch over the path of keys, which ends it where a key is not allowed. -/
def descendAlong (watch : List κ → κ → Bool) (limit : κ → Call ε σ α)
    (body : (κ → Call ε σ α) → κ → Call ε σ α) : Nat → List κ → κ → Call ε σ α
  | 0, path, key => if watch path key then limit key else Call.lift (.error .undefined)
  | depth + 1, path, key =>
      if watch path key then body (descendAlong watch limit body depth (key :: path)) key
      else Call.lift (.error .undefined)

section descendAlong

variable {watch : List κ → κ → Bool} {limit : κ → Call ε σ α} {body : (κ → Call ε σ α) → κ → Call ε σ α}

/-- The body continues only at keys related to its own. -/
def Local (related : κ → κ → Prop) (body : (κ → Call ε σ α) → κ → Call ε σ α) : Prop :=
  ∀ next next' key, (∀ key', related key key' → next key' = next' key') → body next key = body next' key

theorem descendAlong_eq {related : κ → κ → Prop} (isLocal : Local related body)
    (allowed : ∀ path key, List.IsChain (fun key' key => related key key') (key :: path) → watch path key)
    (depth : Nat) {path : List κ} {key : κ}
    (chain : List.IsChain (fun key' key => related key key') (key :: path)) :
    descendAlong watch limit body depth path key = descend limit body depth key := by
  induction depth generalizing path key with
  | zero => exact if_pos (allowed path key chain)
  | succ depth ih =>
      unfold descendAlong descend
      rw [if_pos (allowed path key chain)]
      exact isLocal _ _ key fun key' step => ih (List.isChain_cons_cons.mpr ⟨step, chain⟩)

theorem descendAlong_short {bound : Nat} (depth : Nat) {path : List κ} (short : path.length + depth < bound) (key : κ) :
    descendAlong (fun path _ => path.length < bound) limit body depth path key = descend limit body depth key := by
  induction depth generalizing path key with
  | zero => exact if_pos (decide_eq_true short)
  | succ depth ih =>
      unfold descendAlong descend
      rw [if_pos (decide_eq_true (by omega))]
      congr 1
      funext key'
      exact ih (by simpa [Nat.add_assoc, Nat.add_comm 1] using short) key'

end descendAlong

section finishes

variable {finishes : Nat → κ → Prop} {child : κ → κ → Prop}
  (step : ∀ depth key key', finishes depth key → child key key' → ∃ depth' < depth, finishes depth' key')

include step

theorem finishes_along {key key' : κ} (path : Relation.TransGen child key key') (depth : Nat)
    (finished : finishes depth key) : ∃ depth' < depth, finishes depth' key' := by
  induction path with
  | single edge => exact step depth _ _ finished edge
  | tail _ edge ih =>
      obtain ⟨depth', less, finished'⟩ := ih
      obtain ⟨depth'', less', finished''⟩ := step depth' _ _ finished' edge
      exact ⟨depth'', Nat.lt_trans less' less, finished''⟩

/-- A recursion that goes on only with less depth and that finishes has not come back to a key. -/
theorem finishes_acyclic {depth : Nat} {root key : κ} (finished : finishes depth root)
    (reached : Relation.ReflTransGen child root key) : ¬Relation.TransGen child key key := by
  intro cycle
  have at_key : ∃ depth', finishes depth' key := by
    rcases Relation.reflTransGen_iff_eq_or_transGen.mp reached with rfl | path
    · exact ⟨depth, finished⟩
    · obtain ⟨depth', _, finished'⟩ := finishes_along step path depth finished
      exact ⟨depth', finished'⟩
  obtain ⟨depth', finished'⟩ := at_key
  induction depth' using Nat.strongRecOn with
  | ind depth' ih =>
      obtain ⟨depth'', less, finished''⟩ := finishes_along step cycle depth' finished'
      exact ih depth'' less finished''

end finishes

theorem answers_descend {limit : κ → Call ε σ α} {body : (κ → Call ε σ α) → κ → Call ε σ α}
    (limits : ∀ key, (limit key).Answers)
    (continues : ∀ next : κ → Call ε σ α, (∀ key, (next key).Answers) → ∀ key, (body next key).Answers)
    (depth : Nat) (key : κ) : (descend limit body depth key).Answers := by
  induction depth generalizing key with
  | zero => exact limits key
  | succ depth ih => exact continues _ ih key

end Fsapfs.Program
