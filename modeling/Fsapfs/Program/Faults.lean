import Fsapfs.Program.Call

namespace Fsapfs.Program

variable {ε σ α α' β β' : Type}

/-- A step in whose place an error may be reported: it gives what the step gives, or fails. -/
def Agrees (fails : Prop) (result step : Except (Failure ε) α) : Prop :=
  result = step ∨ fails ∧ ∃ code, result = .error (.error code)

theorem Agrees.refl (fails : Prop) (result : Except (Failure ε) α) : Agrees fails result result := Or.inl rfl

theorem Agrees.bind {fails : Prop} {result step : Except (Failure ε) α} {next next' : α → Except (Failure ε) β}
    (first : Agrees fails result step) (second : ∀ a, step = .ok a → Agrees fails (next a) (next' a)) :
    Agrees fails (result >>= next) (step >>= next') := by
  rcases first with rfl | ⟨fails, code, rfl⟩
  · cases result with
    | ok a => exact second a rfl
    | error failure => exact Or.inl rfl
  · exact Or.inr ⟨fails, code, rfl⟩

theorem Agrees.ok {fails : Prop} {step : Except (Failure ε) α} {a : α} (agrees : Agrees fails (.ok a) step) :
    step = .ok a := by
  rcases agrees with same | ⟨_, code, failed⟩
  · exact same.symm
  · cases failed

namespace Call

/-- A call on an object against the value that its steps give: both end in related values, or the call fails, with the
failure of the steps or with one in their place. -/
def Conforms (fails : Prop) (call : Call ε σ α) (s : σ) (value : Except (Failure ε) α') (post : α → α' → σ → Prop)
    (failed : σ → Prop) : Prop :=
  match call s with
  | (.ok a, s') => ∃ a', value = .ok a' ∧ post a a' s'
  | (.error failure, s') => (value = .error failure ∨ fails ∧ ∃ code, failure = .error code) ∧ failed s'

section rules

variable {fails : Prop} {s : σ} {value : Except (Failure ε) α'} {post : α → α' → σ → Prop} {failed : σ → Prop}

theorem conforms_pure {a : α} {a' : α'} (held : post a a' s) :
    Conforms fails (pure a) s (.ok a' : Except (Failure ε) α') post failed := ⟨a', rfl, held⟩

theorem conforms_fail {failure : Failure ε} (held : failed s) :
    Conforms fails (lift (.error failure) : Call ε σ α) s (.error failure : Except (Failure ε) α') post failed :=
  ⟨Or.inl rfl, held⟩

theorem conforms_self_bind {next : σ → Call ε σ α} (conforms : Conforms fails (next s) s value post failed) :
    Conforms fails (self >>= next) s value post failed := conforms

theorem conforms_update {change : σ → σ} {post : Unit → α' → σ → Prop} {a' : α'} (held : post () a' (change s)) :
    Conforms fails (update change) s (.ok a' : Except (Failure ε) α') post failed := ⟨a', rfl, held⟩

theorem conforms_update_bind {change : σ → σ} {next : Unit → Call ε σ α}
    (conforms : Conforms fails (next ()) (change s) value post failed) :
    Conforms fails (update change >>= next) s value post failed := conforms

theorem conforms_bind_of_ok {call : Call ε σ β} {next : β → Call ε σ α} {s' : σ} {b : β} (run : call s = (.ok b, s'))
    (conforms : Conforms fails (next b) s' value post failed) :
    Conforms fails (call >>= next) s value post failed := by
  unfold Conforms
  rw [bind_of_ok run]
  exact conforms

theorem conforms_lift {result value : Except (Failure ε) α} {post : α → α → σ → Prop}
    (agrees : Agrees fails result value) (held : ∀ a, value = .ok a → post a a s) (error : failed s) :
    Conforms fails (lift result) s value post failed := by
  cases result with
  | ok a => exact ⟨a, agrees.ok, held a agrees.ok⟩
  | error failure =>
      refine ⟨?_, error⟩
      rcases agrees with same | ⟨fails, code, same⟩
      · exact Or.inl same.symm
      · exact Or.inr ⟨fails, code, Except.error.inj same⟩

theorem Conforms.bind {call : Call ε σ α} {next : α → Call ε σ β} {next' : α' → Except (Failure ε) β'}
    {middle : α → α' → σ → Prop} {post : β → β' → σ → Prop} (first : Conforms fails call s value middle failed)
    (second : ∀ a a' s', value = .ok a' → middle a a' s' → Conforms fails (next a) s' (next' a') post failed) :
    Conforms fails (call >>= next) s (value >>= next') post failed := by
  unfold Conforms at first
  split at first
  next a s' run =>
    obtain ⟨a', ok, held⟩ := first
    rw [ok]
    unfold Conforms
    rw [bind_of_ok run]
    exact second a a' s' ok held
  next failure s' run =>
    obtain ⟨failure', held⟩ := first
    unfold Conforms
    rw [bind_of_error run]
    refine ⟨?_, held⟩
    rcases failure' with same | fails
    · rw [same]
      exact Or.inl rfl
    · exact Or.inr fails

theorem conforms_lift_bind {result step : Except (Failure ε) β} {next : β → Call ε σ α}
    {next' : β → Except (Failure ε) α'} (agrees : Agrees fails result step)
    (second : ∀ b, result = .ok b → step = .ok b → Conforms fails (next b) s (next' b) post failed)
    (error : ∀ failure, result = .error failure → failed s) :
    Conforms fails (lift result >>= next) s (step >>= next') post failed := by
  cases result with
  | ok b =>
      rw [agrees.ok]
      exact second b rfl agrees.ok
  | error failure =>
      refine ⟨?_, error failure rfl⟩
      rcases agrees with same | ⟨fails, code, same⟩
      · rw [← same]
        exact Or.inl rfl
      · exact Or.inr ⟨fails, code, Except.error.inj same⟩

theorem conforms_lift_seq {result step : Except (Failure ε) β} {next : β → Call ε σ α} {post : α → β → σ → Prop}
    (agrees : Agrees fails result step)
    (second : ∀ b, result = .ok b → step = .ok b →
      Conforms fails (next b) s (.ok b : Except (Failure ε) β) post failed)
    (error : ∀ failure, result = .error failure → failed s) :
    Conforms fails (lift result >>= next) s step post failed := by
  have whole : Conforms fails (lift result >>= next) s (step >>= fun b => .ok b) post failed :=
    conforms_lift_bind agrees second error
  cases step with
  | ok b => exact whole
  | error failure => exact whole

theorem Conforms.mono {call : Call ε σ α} {post' : α → α' → σ → Prop} {failed' : σ → Prop}
    (conforms : Conforms fails call s value post failed)
    (ok : ∀ a a' s', value = .ok a' → post a a' s' → post' a a' s') (error : ∀ s', failed s' → failed' s') :
    Conforms fails call s value post' failed' := by
  unfold Conforms at conforms ⊢
  split at conforms
  next a s' run =>
    obtain ⟨a', same, held⟩ := conforms
    exact ⟨a', same, ok a a' s' same held⟩
  next failure s' run => exact ⟨conforms.1, error s' conforms.2⟩

theorem Conforms.seq {call : Call ε σ α} {next : α → Call ε σ β} {middle : α → α' → σ → Prop} {post : β → α' → σ → Prop}
    (first : Conforms fails call s value middle failed)
    (second : ∀ a a' s', value = .ok a' → middle a a' s' →
      Conforms fails (next a) s' (.ok a' : Except (Failure ε) α') post failed) :
    Conforms fails (call >>= next) s value post failed := by
  have whole : Conforms fails (call >>= next) s (value >>= fun a' => .ok a') post failed := first.bind second
  cases value with
  | ok a' => exact whole
  | error failure => exact whole

theorem Conforms.map {call : Call ε σ α} {f : α' → β'} {post : α → β' → σ → Prop}
    (conforms : Conforms fails call s value (fun a a' s' => post a (f a') s') failed) :
    Conforms fails call s (do let a' ← value; return f a') post failed := by
  unfold Conforms at conforms ⊢
  split at conforms
  next a s' run =>
    obtain ⟨a', ok, held⟩ := conforms
    rw [ok]
    exact ⟨f a', rfl, held⟩
  next failure s' run =>
    refine ⟨?_, conforms.2⟩
    rcases conforms.1 with same | fails
    · rw [same]
      exact Or.inl rfl
    · exact Or.inr fails

theorem Conforms.agrees {call : Call ε σ α} {value : Except (Failure ε) α} {post : α → α → σ → Prop}
    (conforms : Conforms fails call s value post failed) (same : ∀ a a' s', post a a' s' → a = a') :
    Agrees fails (call s).1 value := by
  unfold Conforms at conforms
  split at conforms
  next a s' run =>
    obtain ⟨a', ok, held⟩ := conforms
    rw [run, ok, same a a' s' held]
    exact Agrees.refl _ _
  next failure s' run =>
    rw [run]
    rcases conforms.1 with same | ⟨fails, code, rfl⟩
    · exact Or.inl same.symm
    · exact Or.inr ⟨fails, code, rfl⟩

theorem Conforms.after {call : Call ε σ α} {invariant : σ → Prop} (conforms : Conforms fails call s value post failed)
    (ok : ∀ a a' s', post a a' s' → invariant s') (error : ∀ s', failed s' → invariant s') : invariant (call s).2 := by
  unfold Conforms at conforms
  split at conforms
  next a s' run =>
    obtain ⟨a', -, held⟩ := conforms
    rw [run]
    exact ok a a' s' held
  next failure s' run =>
    rw [run]
    exact error s' conforms.2

end rules

/-- A call with a clean-up for where it fails. -/
def onError (cleanUp : σ → σ) (call : Call ε σ α) : Call ε σ α := fun s =>
  match call s with
  | (.ok a, s') => (.ok a, s')
  | (.error failure, s') => (.error failure, cleanUp s')

theorem Conforms.onError {fails : Prop} {call : Call ε σ α} {s : σ} {value : Except (Failure ε) α'}
    {post : α → α' → σ → Prop} {failed : σ → Prop} {cleanUp : σ → σ}
    (conforms : Conforms fails call s value post fun s' => failed (cleanUp s')) :
    Conforms fails (onError cleanUp call) s value post failed := by
  unfold Conforms at conforms ⊢
  split at conforms
  next a s' run =>
    simp only [Call.onError, run]
    exact conforms
  next failure s' run =>
    simp only [Call.onError, run]
    exact conforms

end Call

end Fsapfs.Program
