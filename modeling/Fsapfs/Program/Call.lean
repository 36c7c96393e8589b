import Fsapfs.Program.Outcome

namespace Fsapfs.Program

/-- A call on a mutable object: the object is left changed also when the call fails. -/
def Call (ε σ α : Type) := σ → Except (Failure ε) α × σ

namespace Call

variable {ε σ α β : Type}

instance : Monad (Call ε σ) where
  pure a := fun s => (.ok a, s)
  bind call next := fun s =>
    match call s with
    | (.ok a, s') => next a s'
    | (.error failure, s') => (.error failure, s')

def self : Call ε σ σ := fun s => (.ok s, s)

def update (change : σ → σ) : Call ε σ Unit := fun s => (.ok (), change s)

def lift (result : Except (Failure ε) α) : Call ε σ α := fun s => (result, s)

@[simp] theorem pure_run (a : α) (s : σ) : (pure a : Call ε σ α) s = (.ok a, s) := rfl

@[simp] theorem lift_run (result : Except (Failure ε) α) (s : σ) :
    (lift result : Call ε σ α) s = (result, s) := rfl

@[simp] theorem self_bind (next : σ → Call ε σ β) (s : σ) : (self >>= next) s = next s s := rfl

@[simp] theorem update_bind (change : σ → σ) (next : Unit → Call ε σ β) (s : σ) :
    (update change >>= next) s = next () (change s) := rfl

theorem bind_of_ok {call : Call ε σ α} {s s' : σ} {a : α} (h : call s = (.ok a, s'))
    (next : α → Call ε σ β) : (call >>= next) s = next a s' := by
  change (match call s with | (.ok a, s') => next a s' | (.error failure, s') => (.error failure, s')) = _
  rw [h]

theorem bind_of_error {call : Call ε σ α} {s s' : σ} {failure : Failure ε}
    (h : call s = (.error failure, s')) (next : α → Call ε σ β) :
    (call >>= next) s = (.error failure, s') := by
  change (match call s with | (.ok a, s') => next a s' | (.error failure, s') => (.error failure, s')) = _
  rw [h]

theorem lift_bind_of_ok {result : Except (Failure ε) α} {a : α} (ok : result = .ok a) (next : α → Call ε σ β)
    (s : σ) : (lift result >>= next) s = next a s := by
  rw [ok]
  rfl

theorem lift_bind_of_error {result : Except (Failure ε) α} {failure : Failure ε} (refused : result = .error failure)
    (next : α → Call ε σ β) (s : σ) : (lift result >>= next) s = (.error failure, s) := by
  rw [refused]
  rfl

theorem bind_ok {call : Call ε σ α} {next : α → Call ε σ β} {s t : σ} {b : β}
    (run : (call >>= next) s = (.ok b, t)) : ∃ a s', call s = (.ok a, s') ∧ next a s' = (.ok b, t) := by
  cases first : call s with
  | mk result s' =>
      cases result with
      | ok a => exact ⟨a, s', rfl, (bind_of_ok first next).symm.trans run⟩
      | error failure =>
          rw [bind_of_error first] at run
          cases run

theorem lift_ok {result : Except (Failure ε) α} {s t : σ} {a : α}
    (run : (lift result : Call ε σ α) s = (.ok a, t)) : result = .ok a ∧ t = s := by
  obtain ⟨value, same⟩ := Prod.mk.inj run
  exact ⟨value, same.symm⟩

/-- What holds of the value and the object after a call that succeeds, and of the object after one
that fails. -/
def Ends (call : Call ε σ α) (s : σ) (post : α → σ → Prop) (failed : σ → Prop) : Prop :=
  match call s with
  | (.ok a, s') => post a s'
  | (.error _, s') => failed s'

section rules

variable {s : σ} {post : α → σ → Prop} {failed : σ → Prop}

@[simp] theorem ends_self_bind (next : σ → Call ε σ α) :
    (self >>= next).Ends s post failed ↔ (next s).Ends s post failed := Iff.rfl

@[simp] theorem ends_update_bind (change : σ → σ) (next : Unit → Call ε σ α) :
    (update change >>= next).Ends s post failed ↔ (next ()).Ends (change s) post failed := Iff.rfl

@[simp] theorem ends_update (change : σ → σ) (post : Unit → σ → Prop) :
    (update change : Call ε σ Unit).Ends s post failed ↔ post () (change s) := Iff.rfl

@[simp] theorem ends_pure (a : α) : (pure a : Call ε σ α).Ends s post failed ↔ post a s := Iff.rfl

@[simp] theorem ends_lift_ok (a : α) :
    (lift (.ok a) : Call ε σ α).Ends s post failed ↔ post a s := Iff.rfl

@[simp] theorem ends_lift_error (failure : Failure ε) :
    (lift (.error failure) : Call ε σ α).Ends s post failed ↔ failed s := Iff.rfl

@[simp] theorem ends_lift_ok_bind (b : β) (next : β → Call ε σ α) :
    (lift (.ok b) >>= next).Ends s post failed ↔ (next b).Ends s post failed := Iff.rfl

@[simp] theorem ends_lift_error_bind (failure : Failure ε) (next : β → Call ε σ α) :
    (lift (.error failure) >>= next).Ends s post failed ↔ failed s := Iff.rfl

theorem ends_bind_of_ok {call : Call ε σ β} {s' : σ} {b : β} (run : call s = (.ok b, s')) (next : β → Call ε σ α) :
    (call >>= next).Ends s post failed ↔ (next b).Ends s' post failed := by
  unfold Ends
  rw [bind_of_ok run]

end rules

theorem Ends.mono {call : Call ε σ α} {s : σ} {post post' : α → σ → Prop} {failed failed' : σ → Prop}
    (h : call.Ends s post failed) (value : ∀ a s', post a s' → post' a s')
    (error : ∀ s', failed s' → failed' s') : call.Ends s post' failed' := by
  unfold Ends at h ⊢
  split at h
  · exact value _ _ h
  · exact error _ h

theorem Ends.bind {call : Call ε σ α} {next : α → Call ε σ β} {s : σ} {middle : α → σ → Prop}
    {post : β → σ → Prop} {failed : σ → Prop} (first : call.Ends s middle failed)
    (second : ∀ a s', middle a s' → (next a).Ends s' post failed) :
    (call >>= next).Ends s post failed := by
  unfold Ends at first
  split at first
  next a s' h =>
    unfold Ends
    rw [bind_of_ok h]
    exact second a s' first
  next failure s' h =>
    unfold Ends
    rw [bind_of_error h]
    exact first

theorem ends_trivial (call : Call ε σ α) (s : σ) : call.Ends s (fun _ _ => True) (fun _ => True) := by
  unfold Ends
  split <;> trivial

theorem ends_lift {result : Except (Failure ε) α} {s : σ} {post : α → σ → Prop} {failed : σ → Prop}
    (value : ∀ a, result = .ok a → post a s) (error : ∀ failure, result = .error failure → failed s) :
    (lift result : Call ε σ α).Ends s post failed := by
  cases result with
  | ok a => exact value a rfl
  | error failure => exact error failure rfl

theorem ends_lift_bind {result : Except (Failure ε) α} {next : α → Call ε σ β} {s : σ} {post : β → σ → Prop}
    {failed : σ → Prop} (error : failed s) (value : ∀ a, result = .ok a → (next a).Ends s post failed) :
    (lift result >>= next).Ends s post failed := by
  cases result with
  | ok a => exact value a rfl
  | error failure => exact error

theorem Ends.of_ok {call : Call ε σ α} {s s' : σ} {post : α → σ → Prop} {failed : σ → Prop} {a : α}
    (h : call.Ends s post failed) (ok : call s = (.ok a, s')) : post a s' := by
  unfold Ends at h
  rw [ok] at h
  exact h

theorem Ends.value {call : Call ε σ α} {s : σ} {post : α → σ → Prop} (h : call.Ends s post fun _ => False) :
    ∃ a s', call s = (.ok a, s') ∧ post a s' := by
  unfold Ends at h
  split at h
  next a s' run => exact ⟨a, s', run, h⟩
  next => exact h.elim

section moves

variable {related : σ → σ → Prop} {s : σ}

/-- A call leads to a related object, whether it succeeds or not. -/
def Moves (related : σ → σ → Prop) (call : Call ε σ α) (s : σ) : Prop := related s (call s).2

theorem Moves.bind {call : Call ε σ α} {next : α → Call ε σ β}
    (trans : ∀ {s s' s''}, related s s' → related s' s'' → related s s'') (first : Moves related call s)
    (second : ∀ a s', call s = (.ok a, s') → Moves related (next a) s') : Moves related (call >>= next) s := by
  unfold Moves at first ⊢
  cases run : call s with
  | mk result s' =>
      rw [run] at first
      cases result with
      | ok a =>
          rw [bind_of_ok run]
          exact trans first (second a s' run)
      | error failure =>
          rw [bind_of_error run]
          exact first

theorem moves_self_bind {next : σ → Call ε σ β} (continues : Moves related (next s) s) :
    Moves related (self >>= next) s := continues

theorem moves_lift_bind {result : Except (Failure ε) α} {next : α → Call ε σ β} (refl : related s s)
    (continues : ∀ a, result = .ok a → Moves related (next a) s) : Moves related (lift result >>= next) s := by
  cases result with
  | ok a => exact continues a rfl
  | error failure => exact refl

theorem Moves.of_run {call : Call ε σ α} {result : Except (Failure ε) α} {s' : σ} (moves : Moves related call s)
    (run : call s = (result, s')) : related s s' := by
  unfold Moves at moves
  rwa [run] at moves

theorem Moves.mono {related' : σ → σ → Prop} {call : Call ε σ α} (moves : Moves related call s)
    (weaker : ∀ s', related s s' → related' s s') : Moves related' call s := weaker _ moves

end moves

/-- A call that leaves the invariant of the object in place, whether it succeeds or not. -/
def Keeps (invariant : σ → Prop) (call : Call ε σ α) : Prop := ∀ s, invariant s → invariant (call s).2

section keeps

variable {invariant : σ → Prop}

theorem keeps_pure (a : α) : Keeps invariant (pure a : Call ε σ α) := fun _ held => held

theorem keeps_self : Keeps invariant (self : Call ε σ σ) := fun _ held => held

theorem keeps_lift (result : Except (Failure ε) α) : Keeps invariant (lift result : Call ε σ α) :=
  fun _ held => held

theorem keeps_update {change : σ → σ} (kept : ∀ s, invariant s → invariant (change s)) :
    Keeps invariant (update change : Call ε σ Unit) := kept

theorem Keeps.bind {call : Call ε σ α} {next : α → Call ε σ β} (first : Keeps invariant call)
    (second : ∀ a, Keeps invariant (next a)) : Keeps invariant (call >>= next) := by
  intro s held
  have held' := first s held
  cases ended : call s with
  | mk result s' =>
      rw [ended] at held'
      cases result with
      | ok a =>
          rw [bind_of_ok ended]
          exact second a s' held'
      | error failure =>
          rw [bind_of_error ended]
          exact held'

end keeps

/-- A call that ends in a value or a reported error, whatever object it is made on. -/
def Answers (call : Call ε σ α) : Prop := ∀ s, Outcome (call s).1 (fun _ => True) True

section answers

theorem answers_pure (a : α) : Answers (pure a : Call ε σ α) := fun _ => trivial

theorem answers_self : Answers (self : Call ε σ σ) := fun _ => trivial

theorem answers_update (change : σ → σ) : Answers (update change : Call ε σ Unit) := fun _ => trivial

theorem answers_lift {result : Except (Failure ε) α} (returns : Outcome result (fun _ => True) True) :
    Answers (lift result : Call ε σ α) := fun _ => returns

theorem Answers.bind_of {call : Call ε σ α} {next : α → Call ε σ β} {post : α → Prop}
    (first : ∀ s, Outcome (call s).1 post True) (second : ∀ a, post a → Answers (next a)) :
    Answers (call >>= next) := by
  intro s
  have ended := first s
  cases run : call s with
  | mk result s' =>
      rw [run] at ended
      cases result with
      | ok a =>
          rw [bind_of_ok run]
          exact second a ended s'
      | error failure =>
          rw [bind_of_error run]
          cases failure with
          | error code => trivial
          | undefined => exact ended
          | unfinished => exact ended

theorem Answers.bind {call : Call ε σ α} {next : α → Call ε σ β} (first : Answers call)
    (second : ∀ a, Answers (next a)) : Answers (call >>= next) :=
  bind_of first fun a _ => second a

end answers

def times (call : Call ε σ Unit) : Nat → Call ε σ Unit
  | 0 => pure ()
  | number + 1 => do
      call
      times call number

/-- A call that ends in a value or a reported error, and leaves the object with the invariant. -/
def Safe (invariant : σ → Prop) (call : Call ε σ α) (s : σ) : Prop :=
  Outcome (call s).1 (fun _ => True) True ∧ invariant (call s).2

section safe

variable {invariant : σ → Prop} {s : σ}

theorem safe_pure (a : α) (held : invariant s) : Safe invariant (pure a : Call ε σ α) s := ⟨trivial, held⟩

theorem safe_fail (code : ε) (held : invariant s) :
    Safe invariant (lift (.error (.error code)) : Call ε σ α) s := ⟨trivial, held⟩

theorem safe_update {change : σ → σ} (held : invariant (change s)) :
    Safe invariant (update change : Call ε σ Unit) s := ⟨trivial, held⟩

theorem safe_self_bind {next : σ → Call ε σ α} (continues : Safe invariant (next s) s) :
    Safe invariant (self >>= next) s := continues

theorem safe_update_bind {change : σ → σ} {next : Unit → Call ε σ α}
    (continues : Safe invariant (next ()) (change s)) : Safe invariant (update change >>= next) s := continues

theorem safe_lift_bind {result : Except (Failure ε) α} {next : α → Call ε σ β} {post : α → Prop} (held : invariant s)
    (returns : Outcome result post True) (continues : ∀ a, post a → Safe invariant (next a) s) :
    Safe invariant (lift result >>= next) s := by
  rcases outcome_returns returns with ⟨a, ok, value⟩ | ⟨⟨code, refused⟩, _⟩
  · rw [ok]
    exact continues a value
  · rw [refused]
    exact ⟨trivial, held⟩

theorem Safe.bind {call : Call ε σ α} {next : α → Call ε σ β} (first : Safe invariant call s)
    (second : ∀ a s', invariant s' → Safe invariant (next a) s') : Safe invariant (call >>= next) s := by
  obtain ⟨returns, held⟩ := first
  cases run : call s with
  | mk result s' =>
      rw [run] at returns held
      unfold Safe
      rcases outcome_returns returns with ⟨a, rfl, _⟩ | ⟨⟨code, rfl⟩, _⟩
      · rw [bind_of_ok run]
        exact second a s' held
      · rw [bind_of_error run]
        exact ⟨trivial, held⟩

theorem Safe.times {call : Call ε σ Unit} (step : ∀ s, invariant s → Safe invariant call s) (number : Nat)
    (held : invariant s) : Safe invariant (call.times number) s := by
  induction number generalizing s with
  | zero => exact safe_pure () held
  | succ number ih => exact (step s held).bind fun _ s' held' => ih held'

end safe

theorem bind_congr {call : Call ε σ α} {next next' : α → Call ε σ β}
    (same : ∀ a s s', call s = (.ok a, s') → next a s' = next' a s') : call >>= next = call >>= next' := by
  funext s
  cases run : call s with
  | mk result s' =>
      cases result with
      | ok a => rw [bind_of_ok run, bind_of_ok run, same a s s' run]
      | error failure => rw [bind_of_error run, bind_of_error run]

end Call

end Fsapfs.Program
