import Fsapfs.Program.Call

namespace Fsapfs.Program

/-- The states that are later than a state, and those where a result need not be defined. -/
structure Guard (σ : Type) where
  later : σ → σ → Prop
  spoiled : σ → Prop
  refl : ∀ s, later s s
  trans : ∀ {s s' s''}, later s s' → later s' s'' → later s s''

namespace Call

variable {ε σ τ α β γ δ : Type}

/-- A call ends where another one does: in a related value, or in an error too. -/
def Alike (R : σ → τ → Prop) (post : α → β → σ → Prop) (ended : Except (Failure ε) α × σ)
    (ended' : Except (Failure ε) β × τ) : Prop :=
  match ended' with
  | (.ok b, t') => ∃ a s', ended = (.ok a, s') ∧ post a b s' ∧ R s' t'
  | (.error _, t') => ∃ code s', ended = (.error (.error code), s') ∧ R s' t'

/-- From related states a call ends as a plain one does, or its result is undefined in a spoiled state. If the
simulation is not exact, this is said only of plain calls that have a value. -/
def Simulates (guard : Guard σ) (R : σ → τ → Prop) (exact : Prop) (pre : σ → Prop) (call : Call ε σ α)
    (plain : Call ε τ β) (post : α → β → σ → Prop) : Prop :=
  ∀ s t, R s t → pre s → (exact ∨ ∃ b t', plain t = (.ok b, t')) → guard.later s (call s).2 ∧
    (((call s).1 = .error .undefined ∧ guard.spoiled (call s).2) ∨ Alike R post (call s) (plain t))

section rules

variable {guard : Guard σ} {R : σ → τ → Prop} {exact : Prop} {pre : σ → Prop} {call : Call ε σ α}
  {plain : Call ε τ β} {post : α → β → σ → Prop}

theorem simulates_pure {a : α} {b : β} (holds : ∀ s, pre s → post a b s) :
    Simulates guard R exact pre (pure a : Call ε σ α) (pure b : Call ε τ β) post :=
  fun s _ related held _ => ⟨guard.refl s, Or.inr ⟨a, s, rfl, holds s held, related⟩⟩

theorem simulates_fail (code code' : ε) :
    Simulates guard R exact pre (lift (.error (.error code)) : Call ε σ α)
      (lift (.error (.error code')) : Call ε τ β) post :=
  fun s _ related _ _ => ⟨guard.refl s, Or.inr ⟨code, s, rfl, related⟩⟩

theorem simulates_self_bind {next : σ → Call ε σ α} {next' : τ → Call ε τ β}
    (continues : ∀ s t, R s t → pre s → Simulates guard R exact (fun s' => s' = s) (next s) (next' t) post) :
    Simulates guard R exact pre (self >>= next) (self >>= next') post :=
  fun s t related held asked => continues s t related held s t related rfl asked

theorem Simulates.bind {next : α → Call ε σ γ} {next' : β → Call ε τ δ} {middle : α → β → σ → Prop}
    {post : γ → δ → σ → Prop} (first : Simulates guard R exact pre call plain middle)
    (second : ∀ a b, Simulates guard R exact (middle a b) (next a) (next' b) post) :
    Simulates guard R exact pre (call >>= next) (plain >>= next') post := by
  intro s t related held asked
  have asked' : exact ∨ ∃ b t', plain t = (.ok b, t') := by
    refine asked.imp_right fun ⟨c, t', whole⟩ => ?_
    cases run' : plain t with
    | mk result' t' =>
        cases result' with
        | ok b => exact ⟨b, t', rfl⟩
        | error failure =>
            rw [bind_of_error run'] at whole
            cases whole
  obtain ⟨later, spoiled | alike⟩ := first s t related held asked'
  · cases run : call s with
    | mk result s' =>
        rw [run] at later spoiled
        obtain ⟨rfl, spoiled⟩ := spoiled
        rw [bind_of_error run]
        exact ⟨later, Or.inl ⟨rfl, spoiled⟩⟩
  · cases run' : plain t with
    | mk result' t' =>
        rw [run'] at alike
        cases result' with
        | ok b =>
            obtain ⟨a, s', run, ended, related'⟩ := alike
            rw [run] at later
            rw [bind_of_ok run'] at asked ⊢
            rw [bind_of_ok run]
            obtain ⟨later', ended'⟩ := second a b s' t' related' ended asked
            exact ⟨guard.trans later later', ended'⟩
        | error failure =>
            obtain ⟨code, s', run, related'⟩ := alike
            rw [run] at later
            rw [bind_of_error run, bind_of_error run']
            exact ⟨later, Or.inr ⟨code, s', rfl, related'⟩⟩

theorem simulates_lift_bind {result : Except (Failure ε) γ} (returns : Outcome result (fun _ => True) True)
    {next : γ → Call ε σ α} {next' : γ → Call ε τ β}
    (continues : ∀ c, result = .ok c → Simulates guard R exact pre (next c) (next' c) post) :
    Simulates guard R exact pre (lift result >>= next) (lift result >>= next') post := by
  intro s t related held asked
  rcases outcome_returns returns with ⟨c, rfl, _⟩ | ⟨⟨code, rfl⟩, _⟩
  · exact continues c rfl s t related held asked
  · exact ⟨guard.refl s, Or.inr ⟨code, s, rfl, related⟩⟩

theorem simulates_update_bind {change : σ → σ} {change' : τ → τ} {middle : σ → Prop} {next : Unit → Call ε σ α}
    {next' : Unit → Call ε τ β}
    (holds : ∀ s t, R s t → pre s → R (change s) (change' t) ∧ guard.later s (change s) ∧ middle (change s))
    (continues : Simulates guard R exact middle (next ()) (next' ()) post) :
    Simulates guard R exact pre (update change >>= next) (update change' >>= next') post := by
  intro s t related held asked
  obtain ⟨related', later, held'⟩ := holds s t related held
  obtain ⟨later', ended⟩ := continues (change s) (change' t) related' held' asked
  exact ⟨guard.trans later later', ended⟩

theorem Simulates.mono {pre' : σ → Prop} {post' : α → β → σ → Prop}
    (simulates : Simulates guard R exact pre call plain post) (weaker : ∀ s, pre' s → pre s)
    (stronger : ∀ a b s, post a b s → post' a b s) : Simulates guard R exact pre' call plain post' := by
  intro s t related held asked
  obtain ⟨later, spoiled | alike⟩ := simulates s t related (weaker s held) asked
  · exact ⟨later, Or.inl spoiled⟩
  · refine ⟨later, Or.inr ?_⟩
    unfold Alike at alike ⊢
    split at alike
    · obtain ⟨a, s', run, ended, related'⟩ := alike
      exact ⟨a, s', run, stronger _ _ _ ended, related'⟩
    · exact alike

theorem Simulates.frame {stable : σ → Prop} (kept : ∀ s s', guard.later s s' → stable s → stable s')
    (simulates : Simulates guard R exact pre call plain post) :
    Simulates guard R exact (fun s => pre s ∧ stable s) call plain (fun a b s => post a b s ∧ stable s) := by
  intro s t related held asked
  obtain ⟨later, spoiled | alike⟩ := simulates s t related held.1 asked
  · exact ⟨later, Or.inl spoiled⟩
  · refine ⟨later, Or.inr ?_⟩
    unfold Alike at alike ⊢
    split at alike
    · obtain ⟨a, s', run, ended, related'⟩ := alike
      rw [run] at later
      exact ⟨a, s', run, ⟨ended, kept s s' later held.2⟩, related'⟩
    · exact alike

end rules

end Call

end Fsapfs.Program
