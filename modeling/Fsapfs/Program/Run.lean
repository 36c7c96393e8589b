import Mathlib.Data.List.Basic

namespace Fsapfs.Program

variable {σ ι : Type}

def run (step : σ → ι → σ) (s : σ) (operations : List ι) : σ := operations.foldl step s

/-- Every operation of a sequence is allowed in the state it starts from. -/
def Along (step : σ → ι → σ) (allowed : σ → ι → Prop) : σ → List ι → Prop
  | _, [] => True
  | s, operation :: operations => allowed s operation ∧ Along step allowed (step s operation) operations

instance alongDecidable (step : σ → ι → σ) (allowed : σ → ι → Prop)
    [decide : ∀ s operation, Decidable (allowed s operation)] :
    ∀ s operations, Decidable (Along step allowed s operations)
  | _, [] => isTrue trivial
  | s, operation :: operations =>
      have := alongDecidable step allowed (step s operation) operations
      inferInstanceAs (Decidable (allowed s operation ∧ _))

theorem run_invariant {step : σ → ι → σ} {allowed : σ → ι → Prop} (invariant : σ → Prop)
    (advance : ∀ s operation, invariant s → allowed s operation → invariant (step s operation))
    {s : σ} {operations : List ι} (initial : invariant s) (along : Along step allowed s operations) :
    invariant (run step s operations) := by
  induction operations generalizing s with
  | nil => exact initial
  | cons operation operations ih => exact ih (advance s operation initial along.1) along.2

theorem Along.and_mem {step : σ → ι → σ} {allowed : σ → ι → Prop} {holds : ι → Prop} {s : σ} {operations : List ι}
    (along : Along step allowed s operations) (all : ∀ operation ∈ operations, holds operation) :
    Along step (fun s operation => holds operation ∧ allowed s operation) s operations := by
  induction operations generalizing s with
  | nil => trivial
  | cons operation operations ih =>
      exact ⟨⟨all operation List.mem_cons_self, along.1⟩,
        ih along.2 fun operation member => all operation (List.mem_cons_of_mem _ member)⟩

theorem along_of_forall {step : σ → ι → σ} {holds : ι → Prop} {s : σ} {operations : List ι}
    (all : ∀ operation ∈ operations, holds operation) : Along step (fun _ => holds) s operations := by
  induction operations generalizing s with
  | nil => trivial
  | cons operation operations ih =>
      obtain ⟨here, all⟩ := List.forall_mem_cons.mp all
      exact ⟨here, ih all⟩

def outcomes {ρ : Type} (perform : ι → σ → ρ × σ) : σ → List ι → List (ρ × σ)
  | _, [] => []
  | s, operation :: operations => perform operation s :: outcomes perform (perform operation s).2 operations

theorem outcomes_related {τ ρ : Type} (perform : ι → σ → ρ × σ) (perform' : ι → τ → ρ × τ) {allowed : σ → ι → Prop}
    (related : σ → τ → Prop)
    (advance : ∀ s t operation, related s t → allowed s operation →
      (perform operation s).1 = (perform' operation t).1 ∧ related (perform operation s).2 (perform' operation t).2)
    {s : σ} {t : τ} {operations : List ι} (initial : related s t)
    (along : Along (fun s operation => (perform operation s).2) allowed s operations) :
    List.Forall₂ (fun outcome outcome' => outcome.1 = outcome'.1 ∧ related outcome.2 outcome'.2)
      (outcomes perform s operations) (outcomes perform' t operations) := by
  induction operations generalizing s t with
  | nil => exact .nil
  | cons operation operations ih =>
      have here := advance s t operation initial along.1
      exact .cons here (ih here.2 along.2)

theorem outcomes_forall {ρ : Type} {perform : ι → σ → ρ × σ} {holds : ρ → Prop}
    (each : ∀ operation s, holds (perform operation s).1) {s : σ} {operations : List ι} :
    ∀ outcome ∈ outcomes perform s operations, holds outcome.1 := by
  induction operations generalizing s with
  | nil => simp [outcomes]
  | cons operation operations ih => exact List.forall_mem_cons.mpr ⟨each operation s, ih⟩

/-- Operations that act as others do on what a view shows of a state give every sequence the outcomes of the others, as
the view shows them. -/
theorem outcomes_view {τ ρ : Type} {perform : ι → σ → ρ × σ} {perform' : ι → τ → ρ × τ} {allowed : ι → Prop}
    (view : σ → τ) (invariant : σ → Prop)
    (advance : ∀ operation s, allowed operation → invariant s →
      Prod.map id view (perform operation s) = perform' operation (view s) ∧ invariant (perform operation s).2)
    {s : σ} {operations : List ι} (initial : invariant s) (all : ∀ operation ∈ operations, allowed operation) :
    (outcomes perform s operations).map (Prod.map id view) = outcomes perform' (view s) operations := by
  induction operations generalizing s with
  | nil => rfl
  | cons operation operations ih =>
      obtain ⟨here, all⟩ := List.forall_mem_cons.mp all
      obtain ⟨same, kept⟩ := advance operation s here initial
      simp only [outcomes, List.map_cons, ih kept all, ← same, Prod.map_snd]

end Fsapfs.Program
