import Mathlib.Data.List.Flatten

namespace Fsapfs.Program

variable {α ν : Type}

/-- A test that holds up to some item and fails from there on. -/
def Falling (test : α → Bool) (items : List α) : Prop := items.Pairwise fun a b => test b → test a

/-- The last item before the first one that fails the test. -/
def lastWhile (test : α → Bool) : List α → Option α
  | [] => none
  | a :: items => if test a then some ((lastWhile test items).getD a) else none

/-- The item a search continues at: the last one that passes the test, or else the first one. -/
def routed (test : α → Bool) (items : List α) : Option α := (lastWhile test items).or items.head?

section lastWhile

variable {test : α → Bool} {a : α} {items before after : List α}

theorem lastWhile_append_of_fails (fails : ∀ b ∈ after, test b = false) :
    lastWhile test (before ++ after) = lastWhile test before := by
  induction before with
  | nil =>
      cases after with
      | nil => rfl
      | cons b after => simp [lastWhile, fails b]
  | cons b before ih => simp only [List.cons_append, lastWhile, ih]

theorem lastWhile_append_of_passes (passes : ∀ b ∈ before, test b)
    (found : (lastWhile test after).isSome) :
    lastWhile test (before ++ after) = lastWhile test after := by
  induction before with
  | nil => rfl
  | cons b before ih =>
      obtain ⟨a, last⟩ := Option.isSome_iff_exists.mp found
      have passes' := List.forall_mem_cons.mp passes
      rw [List.cons_append, lastWhile, if_pos passes'.1, ih passes'.2, last]
      rfl

theorem lastWhile_eq_none : lastWhile test items = none ↔ ∀ a ∈ items.head?, test a = false := by
  cases items with
  | nil => simp [lastWhile]
  | cons a items => simp [lastWhile]

theorem lastWhile_eq_some_iff : lastWhile test items = some a ↔
    ∃ before after, items = before ++ a :: after ∧ (∀ b ∈ before, test b) ∧ test a ∧
      ∀ b ∈ after.head?, test b = false := by
  constructor
  · intro found
    induction items with
    | nil => cases found
    | cons b items ih =>
        unfold lastWhile at found
        split at found
        next passes =>
          cases last : lastWhile test items with
          | none =>
              obtain rfl : b = a := by simpa [last] using found
              exact ⟨[], items, rfl, by simp, passes, lastWhile_eq_none.mp last⟩
          | some c =>
              obtain rfl : c = a := by simpa [last] using found
              obtain ⟨before, after, rfl, passes', pass, fails⟩ := ih last
              exact ⟨b :: before, after, rfl, List.forall_mem_cons.mpr ⟨passes, passes'⟩, pass, fails⟩
        next => cases found
  · rintro ⟨before, after, rfl, passes, pass, fails⟩
    have here : lastWhile test (a :: after) = some a := by
      rw [lastWhile, if_pos pass, lastWhile_eq_none.mpr fails, Option.getD_none]
    rw [lastWhile_append_of_passes passes (by rw [here]; rfl), here]

theorem lastWhile_of_split (passes : ∀ b ∈ before, test b) (pass : test a) (fails : ∀ b ∈ after, test b = false) :
    lastWhile test (before ++ a :: after) = some a :=
  lastWhile_eq_some_iff.mpr ⟨before, after, rfl, passes, pass, fun b head => fails b (List.mem_of_mem_head? head)⟩

theorem lastWhile_mem (found : lastWhile test items = some a) : a ∈ items ∧ test a := by
  obtain ⟨before, after, rfl, _, pass, _⟩ := lastWhile_eq_some_iff.mp found
  exact ⟨by simp, pass⟩

theorem lastWhile_map {β : Type} (f : β → α) (items : List β) :
    lastWhile test (items.map f) = (lastWhile (fun b => test (f b)) items).map f := by
  induction items with
  | nil => rfl
  | cons b items ih =>
      rw [List.map_cons, lastWhile, lastWhile, ih]
      split
      · cases lastWhile (fun b => test (f b)) items <;> rfl
      · rfl

theorem falling_fails (falling : Falling test items) (none : lastWhile test items = none) :
    ∀ a ∈ items, test a = false := by
  cases items with
  | nil => simp
  | cons b items =>
      have first : test b = false := lastWhile_eq_none.mp none b rfl
      refine List.forall_mem_cons.mpr ⟨first, fun a later => Bool.eq_false_iff.mpr fun passes => ?_⟩
      have earlier := (List.pairwise_cons.mp falling).1 a later passes
      rw [first] at earlier
      cases earlier

theorem lastWhile_split (falling : Falling test items) (found : lastWhile test items = some a) :
    ∃ before after, items = before ++ a :: after ∧ test a ∧ (∀ b ∈ before, test b) ∧
      ∀ b ∈ after, test b = false := by
  induction items with
  | nil => cases found
  | cons b items ih =>
      obtain ⟨_, rest⟩ := List.pairwise_cons.mp falling
      by_cases pass : test b
      · rw [lastWhile, if_pos pass] at found
        cases last : lastWhile test items with
        | none =>
            have same : b = a := by simpa [last] using found
            subst same
            exact ⟨[], items, rfl, pass, by simp, falling_fails rest last⟩
        | some c =>
            have same : c = a := by simpa [last] using found
            subst same
            obtain ⟨before, after, rfl, held, passes, fails⟩ := ih rest last
            exact ⟨b :: before, after, rfl, held, List.forall_mem_cons.mpr ⟨pass, passes⟩, fails⟩
      · rw [lastWhile, if_neg pass] at found
        cases found

theorem routed_split (falling : Falling test items) (filled : items ≠ []) :
    ∃ before a after, items = before ++ a :: after ∧ routed test items = some a ∧
      (test a ∨ before = []) ∧ (∀ b ∈ before, test b) ∧ ∀ b ∈ after, test b = false := by
  cases last : lastWhile test items with
  | some a =>
      obtain ⟨before, after, split, held, passes, fails⟩ := lastWhile_split falling last
      exact ⟨before, a, after, split, by simp [routed, last], Or.inl held, passes, fails⟩
  | none =>
      obtain ⟨a, rest, rfl⟩ := List.exists_cons_of_ne_nil filled
      have fails := List.forall_mem_cons.mp (falling_fails falling last)
      exact ⟨[], a, rest, rfl, by simp [routed, last], Or.inr rfl, by simp, fails.2⟩

end lastWhile

/-- A tree whose leaves, all at one depth, hold the items; an item leads to each of the sub trees. -/
def SearchTree (α : Type) : Nat → Type
  | 0 => List α
  | height + 1 => List (α × SearchTree α height)

namespace SearchTree

abbrev branch {height : Nat} (subTrees : List (α × SearchTree α height)) : SearchTree α (height + 1) := subTrees

abbrev subTrees {height : Nat} (tree : SearchTree α (height + 1)) : List (α × SearchTree α height) := tree

def items : ∀ {height : Nat}, SearchTree α height → List α
  | 0, leaf => leaf
  | _ + 1, branch => List.flatMap (fun sub => items sub.2) branch

def leaves : ∀ {height : Nat}, SearchTree α height → List (List α)
  | 0, leaf => [leaf]
  | _ + 1, branch => List.flatMap (fun sub => leaves sub.2) branch

/-- In every branch above the item none of the keys up to the one of its sub tree comes after what is looked for, and
the next key does. -/
def InPlace (comesAfter : α → Prop) : ∀ {height : Nat}, SearchTree α height → α → Prop
  | 0, (leaf : List α), a => a ∈ leaf
  | height + 1, (branch : List (α × SearchTree α height)), a =>
      ∃ (before : List (α × SearchTree α height)) (sub : α × SearchTree α height)
        (after : List (α × SearchTree α height)), branch = before ++ sub :: after ∧
      (∀ sub' ∈ before, ¬comesAfter sub'.1) ∧ ¬comesAfter sub.1 ∧ (∀ next ∈ after.head?, comesAfter next.1) ∧
      InPlace comesAfter sub.2 a

/-- The leaf of the item does not start after what is looked for, and the next leaf does. -/
def InPlaceOfLeaf {height : Nat} (comesAfter : α → Prop) (tree : SearchTree α height) (a : α) : Prop :=
  ∃ before leaf after, tree.leaves = before ++ leaf :: after ∧ a ∈ leaf ∧
    (∀ start ∈ leaf.head?, ¬comesAfter start) ∧ ∀ next ∈ after.head?, ∀ start ∈ next.head?, comesAfter start

variable {sameKey : α → α → Prop} {test : α → Bool} {height : Nat}

theorem leaves_flatten {tree : SearchTree α height} : tree.leaves.flatten = tree.items := by
  induction height with
  | zero => exact List.flatten_singleton
  | succ height ih =>
      change (List.flatMap (fun sub => leaves sub.2) tree.subTrees).flatten =
        List.flatMap (fun sub => items sub.2) tree.subTrees
      rw [List.flatMap_def, List.flatten_flatten, List.map_map, List.flatMap_def]
      exact congrArg List.flatten (List.map_congr_left fun sub _ => ih)

/-- The sub trees start with the keys of the items that lead to them. -/
def Heads (sameKey : α → α → Prop) (branch : List (α × SearchTree α height)) : Prop :=
  ∀ sub ∈ branch, ∃ first rest, sub.2.items = first :: rest ∧ sameKey sub.1 first

/-- Branches have sub trees, and each item that leads to one has the key it starts with. -/
def Headed (sameKey : α → α → Prop) : ∀ {height : Nat}, SearchTree α height → Prop
  | 0, _ => True
  | _ + 1, (branch : List (α × SearchTree α _)) =>
      branch ≠ [] ∧ Heads sameKey branch ∧ ∀ sub ∈ branch, Headed sameKey sub.2

section branch

variable {branch : List (α × SearchTree α height)}

theorem heads_mem (heads : Heads sameKey branch) {sub : α × SearchTree α height} (member : sub ∈ branch) :
    ∃ a ∈ branch.flatMap fun sub => sub.2.items, sameKey sub.1 a := by
  obtain ⟨first, rest, items, key⟩ := heads sub member
  exact ⟨first, List.mem_flatMap.mpr ⟨sub, member, by simp [items]⟩, key⟩

theorem heads_pairwise {related : α → α → Prop}
    (same : ∀ a a' b b', sameKey a a' → sameKey b b' → related a' b' → related a b)
    (heads : Heads sameKey branch) (ordered : (branch.flatMap fun sub => sub.2.items).Pairwise related) :
    (branch.map Prod.fst).Pairwise related := by
  induction branch with
  | nil => exact List.Pairwise.nil
  | cons sub branch ih =>
      obtain ⟨⟨first, rest, items, key⟩, heads⟩ := List.forall_mem_cons.mp heads
      rw [List.flatMap_cons, items] at ordered
      obtain ⟨left, right⟩ := List.pairwise_cons.mp ordered
      refine List.pairwise_cons.mpr ⟨fun item member => ?_, ih heads (List.pairwise_append.mp right).2.1⟩
      obtain ⟨sub', member', rfl⟩ := List.mem_map.mp member
      obtain ⟨a, inside, key'⟩ := heads_mem heads member'
      exact same _ _ _ _ key key' (left a (List.mem_append_right _ inside))

theorem heads_falling (same : ∀ a b, sameKey a b → test a = test b) (heads : Heads sameKey branch)
    (falling : Falling test (branch.flatMap fun sub => sub.2.items)) :
    Falling test (branch.map Prod.fst) :=
  heads_pairwise (fun a a' b b' key key' held passes => by
    rw [same _ _ key]
    exact held (same _ _ key' ▸ passes)) heads falling

theorem heads_fail (same : ∀ a b, sameKey a b → test a = test b) (heads : Heads sameKey branch)
    (falling : Falling test (branch.flatMap fun sub => sub.2.items))
    (fails : ∀ sub ∈ branch, test sub.1 = false) :
    ∀ a ∈ branch.flatMap fun sub => sub.2.items, test a = false := by
  apply falling_fails falling
  rw [lastWhile_eq_none]
  cases branch with
  | nil => simp
  | cons sub branch =>
      obtain ⟨first, rest, items, key⟩ := heads sub (by simp)
      simpa [items, ← same _ _ key] using fails sub (by simp)

theorem items_sublist {sub : α × SearchTree α height} (member : sub ∈ branch) :
    sub.2.items.Sublist (branch.flatMap fun sub => sub.2.items) :=
  List.sublist_flatten_of_mem (List.mem_map_of_mem member)

theorem lastWhile_subTree (same : ∀ a b, sameKey a b → test a = test b)
    {before after : List (α × SearchTree α height)} {sub : α × SearchTree α height}
    (heads : Heads sameKey (before ++ sub :: after))
    (falling : Falling test ((before ++ sub :: after).flatMap fun sub => sub.2.items))
    (passes : test sub.1 ∨ before = []) (later : ∀ sub' ∈ after, test sub'.1 = false) :
    lastWhile test sub.2.items = lastWhile test ((before ++ sub :: after).flatMap fun sub => sub.2.items) := by
  obtain ⟨first, rest, items, key⟩ := heads sub (by simp)
  rw [List.flatMap_append, List.flatMap_cons] at falling ⊢
  obtain ⟨_, fallingRest, across⟩ := List.pairwise_append.mp falling
  have headsAfter : Heads sameKey after := fun sub' member => heads sub' (by simp [member])
  have fails := heads_fail same headsAfter (List.pairwise_append.mp fallingRest).2.1 later
  rw [← List.append_assoc, lastWhile_append_of_fails fails]
  rcases passes with pass | rfl
  · have passes : test first := (same _ _ key).symm.trans pass
    have found : (lastWhile test sub.2.items).isSome := by simp [items, lastWhile, passes]
    exact (lastWhile_append_of_passes
      (fun a inside => across a inside first (by simp [items]) passes) found).symm
  · rfl

theorem routed_map {β : Type} (f : β → α) (items : List β) :
    routed test (items.map f) = (routed (fun b => test (f b)) items).map f := by
  unfold routed
  rw [lastWhile_map, List.head?_map, Option.map_or]

theorem routed_subTree (test : α → Bool) (same : ∀ a b, sameKey a b → test a = test b) (filled : branch ≠ [])
    (heads : Heads sameKey branch) (falling : Falling test (branch.flatMap fun sub => sub.2.items)) :
    ∃ sub ∈ branch, routed (fun sub => test sub.1) branch = some sub ∧
      lastWhile test sub.2.items = lastWhile test (branch.flatMap fun sub => sub.2.items) := by
  have fallingSubs : Falling (fun sub => test sub.1) branch := List.pairwise_map.mp (heads_falling same heads falling)
  obtain ⟨before, sub, after, rfl, continues, passes, _, later⟩ := routed_split fallingSubs filled
  exact ⟨sub, by simp, continues, lastWhile_subTree same heads falling passes later⟩

theorem route (test : α → Bool) (same : ∀ a b, sameKey a b → test a = test b) (filled : branch ≠ [])
    (heads : Heads sameKey branch) (falling : Falling test (branch.flatMap fun sub => sub.2.items)) :
    ∃ sub ∈ branch, routed test (branch.map Prod.fst) = some sub.1 ∧
      lastWhile test sub.2.items = lastWhile test (branch.flatMap fun sub => sub.2.items) := by
  obtain ⟨sub, member, continues, last⟩ := routed_subTree test same filled heads falling
  exact ⟨sub, member, by rw [routed_map, continues, Option.map_some], last⟩

theorem lastWhile_isSome (same : ∀ a b, sameKey a b → test a = test b) (filled : branch ≠ [])
    (heads : Heads sameKey branch)
    (starts : ∀ a ∈ (branch.flatMap fun sub => sub.2.items).head?, test a) :
    ∃ sub, lastWhile (fun sub => test sub.1) branch = some sub := by
  obtain ⟨sub, branch, rfl⟩ := List.exists_cons_of_ne_nil filled
  obtain ⟨first, rest, items, key⟩ := heads sub (by simp)
  have passes : test sub.1 := (same _ _ key).trans (starts first (by simp [items]))
  exact ⟨_, if_pos passes⟩

theorem starts_of_passes (same : ∀ a b, sameKey a b → test a = test b) (heads : Heads sameKey branch)
    {sub : α × SearchTree α height} (member : sub ∈ branch) (passes : test sub.1) :
    ∀ a ∈ sub.2.items.head?, test a := by
  obtain ⟨first, rest, items, key⟩ := heads sub member
  intro a head
  obtain rfl : first = a := by simpa [items] using head
  exact (same _ _ key).symm.trans passes

end branch

/-- The items that lead a search down to a leaf. -/
def trail (test : α → Bool) : ∀ {height : Nat}, SearchTree α height → List α
  | 0, _ => []
  | _ + 1, (branch : List (α × SearchTree α _)) =>
      match routed (fun sub => test sub.1) branch with
      | none => []
      | some sub => sub.1 :: trail test sub.2

theorem trail_branch {branch : List (α × SearchTree α height)} {sub : α × SearchTree α height}
    (continues : routed (fun sub => test sub.1) branch = some sub) :
    trail test (SearchTree.branch branch) = sub.1 :: trail test sub.2 := by
  change (match routed (fun sub => test sub.1) branch with | none => [] | some sub => sub.1 :: trail test sub.2) = _
  rw [continues]

/-- The leaf a search ends in that goes on to the last sub tree whose item passes the test. -/
def reached (test : α → Bool) : ∀ {height : Nat}, SearchTree α height → List α
  | 0, leaf => leaf
  | _ + 1, (branch : List (α × SearchTree α _)) =>
      match lastWhile (fun sub => test sub.1) branch with
      | none => []
      | some sub => reached test sub.2

theorem reached_branch {branch : List (α × SearchTree α height)} {sub : α × SearchTree α height}
    (last : lastWhile (fun sub => test sub.1) branch = some sub) :
    reached test (SearchTree.branch branch) = reached test sub.2 := by
  change (match lastWhile (fun sub => test sub.1) branch with | none => [] | some sub => reached test sub.2) = _
  rw [last]

theorem reached_nothing {branch : List (α × SearchTree α height)}
    (nothing : lastWhile (fun sub => test sub.1) branch = none) : reached test (SearchTree.branch branch) = [] := by
  change (match lastWhile (fun sub => test sub.1) branch with | none => [] | some sub => reached test sub.2) = _
  rw [nothing]

theorem reached_subset {tree : SearchTree α height} : reached test tree ⊆ tree.items := by
  induction height with
  | zero => exact fun _ member => member
  | succ height ih =>
      intro a member
      cases last : lastWhile (fun sub => test sub.1) tree.subTrees with
      | none =>
          rw [show reached test tree = [] from reached_nothing last] at member
          cases member
      | some sub =>
          rw [show reached test tree = reached test sub.2 from reached_branch last] at member
          exact List.mem_flatMap.mpr ⟨sub, (lastWhile_mem last).1, ih member⟩

theorem lastWhile_reached (same : ∀ a b, sameKey a b → test a = test b) {tree : SearchTree α height}
    (headed : tree.Headed sameKey) (falling : Falling test tree.items)
    (starts : ∀ a ∈ tree.items.head?, test a) : lastWhile test (reached test tree) = lastWhile test tree.items := by
  induction height with
  | zero => rfl
  | succ height ih =>
      obtain ⟨filled, heads, headed⟩ := headed
      obtain ⟨sub, last⟩ := lastWhile_isSome same filled heads starts
      obtain ⟨member, passes⟩ := lastWhile_mem last
      have fallingSubs : Falling (fun sub => test sub.1) tree.subTrees :=
        List.pairwise_map.mp (heads_falling same heads falling)
      obtain ⟨before, after, split, _, _, later⟩ := lastWhile_split fallingSubs last
      have below := ih (headed sub member) (falling.sublist (items_sublist member))
        (starts_of_passes same heads member passes)
      have subHeads : Heads sameKey (before ++ sub :: after) := split ▸ heads
      have subFalling : Falling test ((before ++ sub :: after).flatMap fun sub => sub.2.items) := split ▸ falling
      have within := lastWhile_subTree same subHeads subFalling (Or.inl passes) later
      rw [← split] at within
      rw [show reached test tree = reached test sub.2 from reached_branch last, below]
      exact within

theorem mem_reached_iff {comesAfter : α → Prop} (fails : ∀ a, comesAfter a ↔ test a = false)
    {tree : SearchTree α height} {a : α} : a ∈ reached test tree ↔ tree.InPlace comesAfter a := by
  have passes (b : α) : ¬comesAfter b ↔ test b := by rw [fails, Bool.not_eq_false]
  induction height with
  | zero => exact Iff.rfl
  | succ height ih =>
      constructor
      · intro member
        cases last : lastWhile (fun sub => test sub.1) tree.subTrees with
        | none =>
            rw [show reached test tree = [] from reached_nothing last] at member
            cases member
        | some sub =>
            rw [show reached test tree = reached test sub.2 from reached_branch last] at member
            obtain ⟨before, after, split, earlier, pass, next⟩ := lastWhile_eq_some_iff.mp last
            exact ⟨before, sub, after, split, fun sub' inside => (passes _).mpr (earlier sub' inside),
              (passes _).mpr pass, fun sub' head => (fails _).mpr (next sub' head), ih.mp member⟩
      · rintro ⟨before, sub, after, split, earlier, pass, next, below⟩
        have last : lastWhile (fun sub => test sub.1) tree.subTrees = some sub :=
          lastWhile_eq_some_iff.mpr ⟨before, after, split, fun sub' inside => (passes _).mp (earlier sub' inside),
            (passes _).mp pass, fun sub' head => (fails _).mp (next sub' head)⟩
        rw [show reached test tree = reached test sub.2 from reached_branch last]
        exact ih.mpr below

theorem leaves_filled {tree : SearchTree α height} (headed : tree.Headed sameKey) (filled : tree.items ≠ []) :
    ∀ leaf ∈ tree.leaves, leaf ≠ [] := by
  induction height with
  | zero => exact List.forall_mem_singleton.mpr filled
  | succ height ih =>
      intro leaf member
      obtain ⟨sub, inside, member⟩ := List.mem_flatMap.mp member
      obtain ⟨first, rest, items, _⟩ := headed.2.1 sub inside
      exact ih (headed.2.2 sub inside) (by simp [items]) leaf member

theorem leaves_sub_filled {branch : List (α × SearchTree α height)} (heads : Heads sameKey branch)
    (headed : ∀ sub ∈ branch, sub.2.Headed sameKey) {leaf : List α}
    (member : leaf ∈ branch.flatMap fun sub => sub.2.leaves) : ∃ first rest, leaf = first :: rest := by
  obtain ⟨sub, inside, member⟩ := List.mem_flatMap.mp member
  obtain ⟨first, rest, items, _⟩ := heads sub inside
  exact List.exists_cons_of_ne_nil (leaves_filled (headed sub inside) (by simp [items]) leaf member)

theorem leaf_items {branch : List (α × SearchTree α height)} {leaf : List α}
    (member : leaf ∈ branch.flatMap fun sub => sub.2.leaves) {a : α} (inside : a ∈ leaf) :
    a ∈ branch.flatMap fun sub => sub.2.items := by
  obtain ⟨sub, within, member⟩ := List.mem_flatMap.mp member
  refine List.mem_flatMap.mpr ⟨sub, within, ?_⟩
  rw [← leaves_flatten]
  exact List.mem_flatten.mpr ⟨leaf, member, inside⟩

theorem lastWhile_leaves (same : ∀ a b, sameKey a b → test a = test b) {tree : SearchTree α height}
    (headed : tree.Headed sameKey) (falling : Falling test tree.items) (starts : ∀ a ∈ tree.items.head?, test a) :
    lastWhile (fun leaf => leaf.head?.all test) tree.leaves = some (reached test tree) := by
  induction height with
  | zero =>
      have passes : tree.items.head?.all test := by
        cases head : tree.items.head? with
        | none => rfl
        | some a => exact starts a head
      exact if_pos passes
  | succ height ih =>
      obtain ⟨filled, heads, headed⟩ := headed
      obtain ⟨sub, last⟩ := lastWhile_isSome same filled heads starts
      have fallingSubs : Falling (fun sub => test sub.1) tree.subTrees :=
        List.pairwise_map.mp (heads_falling same heads falling)
      obtain ⟨before, after, split, pass, _, later⟩ := lastWhile_split fallingSubs last
      have member : sub ∈ tree.subTrees := (lastWhile_mem last).1
      have below := ih (headed sub member) (falling.sublist (items_sublist member))
        (starts_of_passes same heads member pass)
      have headsAfter : Heads sameKey after := fun sub' inside => heads sub' (by simp [split, inside])
      have headedAfter : ∀ sub' ∈ after, sub'.2.Headed sameKey := fun sub' inside =>
        headed sub' (by simp [split, inside])
      have headsBefore : Heads sameKey before := fun sub' inside => heads sub' (by simp [split, inside])
      have headedBefore : ∀ sub' ∈ before, sub'.2.Headed sameKey := fun sub' inside =>
        headed sub' (by simp [split, inside])
      change Falling test (tree.subTrees.flatMap fun sub => sub.2.items) at falling
      change lastWhile _ (tree.subTrees.flatMap fun sub => sub.2.leaves) = _
      rw [show reached test tree = reached test sub.2 from reached_branch last]
      rw [split, List.flatMap_append, List.flatMap_cons] at falling ⊢
      obtain ⟨_, fallingRest, across⟩ := List.pairwise_append.mp falling
      have fails := heads_fail same headsAfter (List.pairwise_append.mp fallingRest).2.1 later
      obtain ⟨first, rest, items, key⟩ := heads sub member
      have passes : test first := (same _ _ key).symm.trans pass
      rw [← List.append_assoc, lastWhile_append_of_fails, lastWhile_append_of_passes, below]
      · intro leaf inside
        obtain ⟨start, others, rfl⟩ := leaves_sub_filled headsBefore headedBefore inside
        exact across start (leaf_items inside (by simp)) first (by simp [items]) passes
      · rw [below]
        rfl
      · intro leaf inside
        obtain ⟨start, others, rfl⟩ := leaves_sub_filled headsAfter headedAfter inside
        exact fails start (leaf_items inside (by simp))

theorem leaves_falling {tree : SearchTree α height} (falling : Falling test tree.items)
    (filled : ∀ leaf ∈ tree.leaves, leaf ≠ []) : Falling (fun leaf => leaf.head?.all test) tree.leaves := by
  rw [← leaves_flatten] at falling
  refine (List.pairwise_flatten.mp falling).2.imp_of_mem fun {leaf leaf'} member member' across passes => ?_
  obtain ⟨first, rest, rfl⟩ := List.exists_cons_of_ne_nil (filled leaf member)
  obtain ⟨first', rest', rfl⟩ := List.exists_cons_of_ne_nil (filled leaf' member')
  exact across first (by simp) first' (by simp) passes

theorem inPlace_iff_ofLeaf {comesAfter : α → Prop} (fails : ∀ a, comesAfter a ↔ test a = false)
    (same : ∀ a b, sameKey a b → test a = test b) {tree : SearchTree α height} (headed : tree.Headed sameKey)
    (filled : tree.items ≠ []) (falling : Falling test tree.items) (starts : ∀ a ∈ tree.items.head?, test a) {a : α} :
    tree.InPlace comesAfter a ↔ tree.InPlaceOfLeaf comesAfter a := by
  have last := lastWhile_leaves same headed falling starts
  have nonempty := leaves_filled headed filled
  have passes (b : α) : ¬comesAfter b ↔ test b := by rw [fails, Bool.not_eq_false]
  rw [← mem_reached_iff fails]
  constructor
  · intro member
    obtain ⟨before, after, split, _, pass, next⟩ := lastWhile_eq_some_iff.mp last
    refine ⟨before, _, after, split, member, fun start head => (passes start).mpr ?_, fun leaf head start head' =>
      (fails start).mpr ?_⟩
    · simpa [Option.mem_def.mp head] using pass
    · simpa [Option.mem_def.mp head'] using next leaf head
  · rintro ⟨before, leaf, after, split, member, pass, next⟩
    have here : leaf.head?.all test := by
      cases head : leaf.head? with
      | none => rfl
      | some start => exact (passes start).mp (pass start head)
    have earlier := (List.pairwise_append.mp (split ▸ leaves_falling falling nonempty)).2.2
    have reaches : lastWhile (fun leaf => leaf.head?.all test) tree.leaves = some leaf := by
      refine lastWhile_eq_some_iff.mpr ⟨before, after, split, fun leaf' inside => earlier leaf' inside leaf (by simp)
        here, here, fun leaf' head => ?_⟩
      have inside : leaf' ∈ tree.leaves := by simp [split, List.mem_of_mem_head? head]
      obtain ⟨start, rest, rfl⟩ := List.exists_cons_of_ne_nil (nonempty leaf' inside)
      exact (fails start).mp (next _ head start rfl)
    rw [Option.some.inj (last.symm.trans reaches)]
    exact member

end SearchTree

/-- How nodes hold items: a leaf its own, a branch the items that lead to its sub nodes. -/
structure Layout (ν α : Type) where
  leaf : ν → List α → Prop
  branch : ν → List α → Prop
  leads : ν → α → ν → Prop

namespace Layout

/-- The tree that is stored under a node. -/
def Stored (layout : Layout ν α) : ∀ {height : Nat}, SearchTree α height → ν → Prop
  | 0, leaf, node => layout.leaf node leaf
  | _ + 1, (branch : List (α × SearchTree α _)), node =>
      layout.branch node (branch.map Prod.fst) ∧
        ∀ sub ∈ branch, ∃ subNode, layout.leads node sub.1 subNode ∧ Stored layout sub.2 subNode

theorem Stored.forall_mem {layout : Layout ν α} {good : α → Prop}
    (leaves : ∀ node items, layout.leaf node items → ∀ a ∈ items, good a) {height : Nat}
    {tree : SearchTree α height} {node : ν} (stored : layout.Stored tree node) : ∀ a ∈ tree.items, good a := by
  induction height generalizing node with
  | zero => exact leaves node tree stored
  | succ height ih =>
      intro a member
      obtain ⟨sub, inside, member⟩ := List.mem_flatMap.mp member
      obtain ⟨subNode, _, stored⟩ := stored.2 sub inside
      exact ih stored a member

end Layout

end Fsapfs.Program
