import Mathlib.Algebra.GroupWithZero.Nat
import Mathlib.Data.List.Basic
import Mathlib.Data.List.TakeDrop

namespace Fsapfs.Program

/-- A reported error, an operation the language leaves undefined, or a loop that ran out of fuel. -/
inductive Failure (ε : Type)
  | error (code : ε)
  | undefined
  | unfinished
  deriving Repr, DecidableEq

variable {ε α β σ : Type}

/-- The computation ends in a value satisfying `post`, or reports an error and then `refused` holds. -/
def Outcome (result : Except (Failure ε) α) (post : α → Prop) (refused : Prop) : Prop :=
  match result with
  | .ok a => post a
  | .error (.error _) => refused
  | .error .undefined => False
  | .error .unfinished => False

@[simp] theorem outcome_ok (a : α) (post : α → Prop) (refused : Prop) :
    Outcome (.ok a : Except (Failure ε) α) post refused ↔ post a := Iff.rfl

@[simp] theorem outcome_error (code : ε) (post : α → Prop) (refused : Prop) :
    Outcome (.error (.error code) : Except (Failure ε) α) post refused ↔ refused := Iff.rfl

@[simp] theorem ok_bind (a : α) (next : α → Except (Failure ε) β) :
    (Except.ok a >>= next) = next a := rfl

@[simp] theorem error_bind (failure : Failure ε) (next : α → Except (Failure ε) β) :
    (Except.error failure >>= next) = .error failure := rfl

theorem bind_eq_ok {result : Except (Failure ε) α} {next : α → Except (Failure ε) β} {b : β} :
    (result >>= next) = .ok b ↔ ∃ a, result = .ok a ∧ next a = .ok b := by
  cases result with
  | ok a => simp
  | error failure => simp

theorem Outcome.mono {result : Except (Failure ε) α} {post post' : α → Prop}
    {refused refused' : Prop} (h : Outcome result post refused)
    (value : ∀ a, post a → post' a) (error : refused → refused') :
    Outcome result post' refused' := by
  rcases result with (code | _ | _) | a
  · exact error h
  · exact h
  · exact h
  · exact value a h

theorem Outcome.bind {result : Except (Failure ε) α} {next : α → Except (Failure ε) β}
    {middle : α → Prop} {post : β → Prop} {refused : Prop} (first : Outcome result middle refused)
    (second : ∀ a, middle a → Outcome (next a) post refused) :
    Outcome (result >>= next) post refused := by
  rcases result with (code | _ | _) | a
  · exact first
  · exact first
  · exact first
  · exact second a first

theorem outcome_returns {result : Except (Failure ε) α} {post : α → Prop} {refused : Prop}
    (h : Outcome result post refused) :
    (∃ a, result = .ok a ∧ post a) ∨ (∃ code, result = .error (.error code)) ∧ refused := by
  rcases result with (code | _ | _) | a
  · exact Or.inr ⟨⟨code, rfl⟩, h⟩
  · exact h.elim
  · exact h.elim
  · exact Or.inl ⟨a, rfl, h⟩

theorem Outcome.value {result : Except (Failure ε) α} {post : α → Prop} {refused : Prop}
    (h : Outcome result post refused) (accepted : ¬refused) : ∃ a, result = .ok a ∧ post a :=
  (outcome_returns h).resolve_right fun failed => accepted failed.2

theorem Outcome.of_ok {result : Except (Failure ε) α} {post : α → Prop} {refused : Prop} {a : α}
    (h : Outcome result post refused) (ok : result = .ok a) : post a := by
  rw [ok] at h
  exact h

/-- The rule for a counting loop: the invariant at `i` gives the invariant at `i + 1`. -/
theorem outcome_foldlM_range {step : σ → Nat → Except (Failure ε) σ} (invariant : Nat → σ → Prop)
    {refused : Prop} {n : Nat} {start : σ} (initial : invariant 0 start)
    (advance : ∀ i s, i < n → invariant i s → Outcome (step s i) (invariant (i + 1)) refused) :
    Outcome ((List.range n).foldlM step start) (invariant n) refused := by
  induction n with
  | zero => exact initial
  | succ n ih =>
      rw [List.range_succ, List.foldlM_append]
      refine (ih fun i s small => advance i s (Nat.lt_succ_of_lt small)).bind fun s held => ?_
      simpa using advance n s (Nat.lt_succ_self n) held

def load (xs : List α) (i : Nat) : Except (Failure ε) α :=
  match xs[i]? with
  | some x => .ok x
  | none => .error .undefined

def store (xs : List α) (i : Nat) (x : α) : Except (Failure ε) (List α) :=
  if i < xs.length then .ok (xs.set i x) else .error .undefined

def slice (xs : List α) (offset count : Nat) : Except (Failure ε) (List α) :=
  if offset + count ≤ xs.length then .ok ((xs.drop offset).take count) else .error .undefined

theorem load_of_getElem? {xs : List α} {i : Nat} {x : α} (h : xs[i]? = some x) :
    load (ε := ε) xs i = .ok x := by
  simp [load, h]

theorem load_of_lt {xs : List α} {i : Nat} (h : i < xs.length) : load (ε := ε) xs i = .ok xs[i] := by
  simp [load, h]

theorem store_of_lt {xs : List α} {i : Nat} (x : α) (h : i < xs.length) :
    store (ε := ε) xs i x = .ok (xs.set i x) := by
  simp [store, h]

theorem slice_of_le {xs : List α} {offset count : Nat} (h : offset + count ≤ xs.length) :
    slice (ε := ε) xs offset count = .ok ((xs.drop offset).take count) := by
  simp [slice, h]

/-- The computation does not run out of fuel, and ends in a value satisfying `post` where it ends in one. -/
def Finishes (result : Except (Failure ε) α) (post : α → Prop) : Prop :=
  match result with
  | .ok a => post a
  | .error .unfinished => False
  | .error _ => True

section finishes

variable {post : α → Prop}

@[simp] theorem finishes_ok (a : α) : Finishes (.ok a : Except (Failure ε) α) post ↔ post a := Iff.rfl

@[simp] theorem finishes_pure (a : α) : Finishes (pure a : Except (Failure ε) α) post ↔ post a := Iff.rfl

@[simp] theorem finishes_error (code : ε) : Finishes (.error (.error code) : Except (Failure ε) α) post := trivial

@[simp] theorem finishes_undefined : Finishes (.error .undefined : Except (Failure ε) α) post := trivial

theorem Finishes.bind {result : Except (Failure ε) α} {next : α → Except (Failure ε) β} {middle : α → Prop}
    {post : β → Prop} (first : Finishes result middle) (second : ∀ a, middle a → Finishes (next a) post) :
    Finishes (result >>= next) post := by
  rcases result with (code | _ | _) | a
  · trivial
  · trivial
  · exact first
  · exact second a first

theorem Finishes.ne {result : Except (Failure ε) α} (finishes : Finishes result post) :
    result ≠ .error .unfinished := by
  rintro rfl
  exact finishes

theorem finishes_load (xs : List α) (i : Nat) : Finishes (load xs i : Except (Failure ε) α) fun _ => True := by
  unfold load
  split <;> trivial

theorem finishes_slice (xs : List α) (offset count : Nat) :
    Finishes (slice xs offset count : Except (Failure ε) (List α)) fun _ => True := by
  unfold slice
  split <;> trivial

end finishes

end Fsapfs.Program
