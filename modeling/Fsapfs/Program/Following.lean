import Fsapfs.Program.Call

namespace Fsapfs.Program.Call

variable {ε σ τ α β : Type}

/-- A call ends as a plain one does on the part of the object that the plain one knows, and leads to a related
object. -/
def Follows (view : σ → τ) (related : σ → σ → Prop) (call : Call ε σ α) (plain : Call ε τ α) (s : σ) : Prop :=
  plain (view s) = ((call s).1, view (call s).2) ∧ related s (call s).2

section rules

variable {view : σ → τ} {related related' : σ → σ → Prop} {call : Call ε σ α} {plain : Call ε τ α} {s s' : σ}

theorem follows_pure (refl : related s s) (a : α) :
    Follows view related (pure a : Call ε σ α) (pure a) s := ⟨rfl, refl⟩

theorem follows_lift (refl : related s s) (result : Except (Failure ε) α) :
    Follows view related (lift result : Call ε σ α) (lift result) s := ⟨rfl, refl⟩

theorem Follows.mono (follows : Follows view related call plain s)
    (weaker : ∀ s', related s s' → related' s s') : Follows view related' call plain s :=
  ⟨follows.1, weaker _ follows.2⟩

theorem Follows.bind {next : α → Call ε σ β} {next' : α → Call ε τ β}
    (trans : ∀ {s s' s''}, related s s' → related s' s'' → related s s'') (first : Follows view related call plain s)
    (second : ∀ a s', call s = (.ok a, s') → plain (view s) = (.ok a, view s') → related s s' →
      Follows view related (next a) (next' a) s') :
    Follows view related (call >>= next) (plain >>= next') s := by
  obtain ⟨same, later⟩ := first
  unfold Follows
  cases run : call s with
  | mk result s' =>
      rw [run] at same later
      cases result with
      | ok a =>
          obtain ⟨same', later'⟩ := second a s' run same later
          rw [bind_of_ok run, bind_of_ok same]
          exact ⟨same', trans later later'⟩
      | error failure =>
          rw [bind_of_error run, bind_of_error same]
          exact ⟨rfl, later⟩

theorem follows_self_bind {next : σ → Call ε σ β} {next' : τ → Call ε τ β}
    (continues : Follows view related (next s) (next' (view s)) s) :
    Follows view related (self >>= next) (self >>= next') s := continues

theorem follows_lift_bind {result : Except (Failure ε) β} {next : β → Call ε σ α} {next' : β → Call ε τ α}
    (refl : related s s) (continues : ∀ b, result = .ok b → Follows view related (next b) (next' b) s) :
    Follows view related (lift result >>= next) (lift result >>= next') s := by
  cases result with
  | ok b => exact continues b rfl
  | error failure => exact ⟨rfl, refl⟩

theorem follows_update_bind {change : σ → σ} {change' : τ → τ} {next : Unit → Call ε σ α} {next' : Unit → Call ε τ α}
    (trans : ∀ {s s' s''}, related s s' → related s' s'' → related s s'') (same : view (change s) = change' (view s))
    (step : related s (change s)) (continues : Follows view related (next ()) (next' ()) (change s)) :
    Follows view related (update change >>= next) (update change' >>= next') s := by
  obtain ⟨ended, later⟩ := continues
  refine ⟨?_, trans step later⟩
  rw [update_bind, ← same, ended]
  rfl

theorem Follows.bind_left {first : Call ε σ β} {next : β → Call ε σ α} {b : β}
    (trans : ∀ {s s' s''}, related s s' → related s' s'' → related s s'') (run : first s = (.ok b, s'))
    (same : view s' = view s) (step : related s s') (continues : Follows view related (next b) plain s') :
    Follows view related (first >>= next) plain s := by
  obtain ⟨ended, later⟩ := continues
  unfold Follows
  rw [bind_of_ok run]
  rw [same] at ended
  exact ⟨ended, trans step later⟩

theorem Follows.bind_right {first : Call ε τ β} {next : β → Call ε τ α} {b : β}
    (run : first (view s) = (.ok b, view s)) (continues : Follows view related call (next b) s) :
    Follows view related call (first >>= next) s := by
  obtain ⟨ended, later⟩ := continues
  refine ⟨?_, later⟩
  rw [bind_of_ok run]
  exact ended

end rules

end Fsapfs.Program.Call
