import Mathlib.Data.List.Basic

namespace Fsapfs.Program

variable {ι σ τ : Type} {good : σ → Prop}

theorem foldl_keeps {step : σ → ι → σ} {items : List ι}
    (keeps : ∀ s, good s → ∀ item ∈ items, good (step s item)) {s : σ} (held : good s) :
    good (items.foldl step s) := by
  induction items generalizing s with
  | nil => exact held
  | cons item items ih =>
      apply ih fun s held item member => keeps s held item (List.mem_cons_of_mem _ member)
      exact keeps s held item (List.mem_cons_self ..)

theorem foldl_undo {step undo : σ → ι → σ} {items : List ι}
    (keeps : ∀ s, good s → ∀ item ∈ items, good (step s item))
    (undoes : ∀ s, good s → ∀ item ∈ items, undo (step s item) item = s) {s : σ} (held : good s) :
    items.reverse.foldl undo (items.foldl step s) = s := by
  induction items generalizing s with
  | nil => rfl
  | cons item items ih =>
      have rest := ih (fun s held item member => keeps s held item (List.mem_cons_of_mem _ member))
        (fun s held item member => undoes s held item (List.mem_cons_of_mem _ member))
        (keeps s held item (List.mem_cons_self ..))
      rw [List.foldl_cons, List.reverse_cons, List.foldl_append, rest]
      exact undoes s held item (List.mem_cons_self ..)

theorem foldl_follows {step : σ → ι → σ} {step' : τ → ι → τ} {view : σ → τ} {items : List ι}
    (keeps : ∀ s, good s → ∀ item ∈ items, good (step s item))
    (follows : ∀ s, good s → ∀ item ∈ items, step' (view s) item = view (step s item)) {s : σ} (held : good s) :
    items.foldl step' (view s) = view (items.foldl step s) := by
  induction items generalizing s with
  | nil => rfl
  | cons item items ih =>
      rw [List.foldl_cons, follows s held item (List.mem_cons_self ..)]
      apply ih (fun s held item member => keeps s held item (List.mem_cons_of_mem _ member))
        (fun s held item member => follows s held item (List.mem_cons_of_mem _ member))
      exact keeps s held item (List.mem_cons_self ..)

end Fsapfs.Program
