import Fsapfs.Program.Outcome

namespace Fsapfs.Program

variable {ε α : Type}

/-- Finds the first item that does not precede: the fuel bounds the number of halvings. -/
def searchLoop (items : List α) (precedes : α → Bool) : Nat → Nat → Nat → Except (Failure ε) Nat
  | 0, lower, upper => if lower < upper then .error .unfinished else .ok lower
  | fuel + 1, lower, upper =>
      if lower < upper then do
        let item ← load items (lower + (upper - lower) / 2)
        if precedes item then searchLoop items precedes fuel (lower + (upper - lower) / 2 + 1) upper
        else searchLoop items precedes fuel lower (lower + (upper - lower) / 2)
      else .ok lower

/-- The items that precede come first. -/
def Partitioned (items : List α) (precedes : α → Bool) : Prop :=
  ∀ i j (_ : i ≤ j) (h : j < items.length), precedes items[j] → precedes items[i]

theorem searchLoop_ok {items : List α} {precedes : α → Bool} (sorted : Partitioned items precedes)
    {fuel lower upper : Nat} (enough : upper - lower ≤ fuel) (ordered : lower ≤ upper)
    (inside : upper ≤ items.length)
    (before : ∀ i (h : i < items.length), i < lower → precedes items[i])
    (after : ∀ i (h : i < items.length), upper ≤ i → ¬precedes items[i]) :
    ∃ found, (searchLoop items precedes fuel lower upper : Except (Failure ε) Nat) = .ok found ∧
      found ≤ items.length ∧ ∀ i (h : i < items.length), precedes items[i] ↔ i < found := by
  have finished : ∀ (h : lower = upper), lower ≤ items.length ∧
      ∀ i (h : i < items.length), precedes items[i] ↔ i < lower := by
    intro same
    refine ⟨same ▸ inside, fun i h => ⟨fun first => ?_, before i h⟩⟩
    exact Nat.lt_of_not_le fun past => after i h (same ▸ past) first
  induction fuel generalizing lower upper with
  | zero =>
      refine ⟨lower, ?_, finished (by omega)⟩
      rw [searchLoop, if_neg (by omega)]
  | succ fuel ih =>
      unfold searchLoop
      by_cases more : lower < upper
      · have middle : lower + (upper - lower) / 2 < items.length := by omega
        rw [if_pos more, load_of_lt middle, ok_bind]
        split_ifs with first
        · have before' : ∀ i (h : i < items.length), i < lower + (upper - lower) / 2 + 1 →
              precedes items[i] :=
            fun i h below => sorted i _ (Nat.le_of_lt_succ below) middle first
          apply ih (by omega) (by omega) inside before' after
          intro same
          refine ⟨middle, fun i h => ⟨fun first' => ?_, before' i h⟩⟩
          exact Nat.lt_of_not_le fun past => after i h (by omega) first'
        · have after' : ∀ i (h : i < items.length), lower + (upper - lower) / 2 ≤ i →
              ¬precedes items[i] :=
            fun i h past first' => first (sorted _ i past h first')
          apply ih (by omega) (by omega) (by omega) before after'
          intro same
          refine ⟨by omega, fun i h => ⟨fun first' => ?_, before i h⟩⟩
          exact Nat.lt_of_not_le fun past => after' i h (by omega) first'
      · rw [if_neg more]
        exact ⟨lower, rfl, finished (by omega)⟩

theorem search_ok {items : List α} {precedes : α → Bool} (sorted : Partitioned items precedes) :
    ∃ found, (searchLoop items precedes items.length 0 items.length : Except (Failure ε) Nat) = .ok found ∧
      found ≤ items.length ∧ ∀ i (h : i < items.length), precedes items[i] ↔ i < found :=
  searchLoop_ok sorted (Nat.le_refl _) (Nat.zero_le _) (Nat.le_refl _)
    (fun _ _ below => absurd below (Nat.not_lt_zero _)) (fun _ h past => absurd h (Nat.not_lt_of_le past))

end Fsapfs.Program
