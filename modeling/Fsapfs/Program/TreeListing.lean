import Fsapfs.Program.SearchTree
import Mathlib.Data.List.Chain
import Mathlib.Tactic.SplitIfs
import Mathlib.Tactic.Tauto

namespace Fsapfs.Program

variable {α β γ : Type}

/-- The items a listing visits up to where it stops: each one before an item to visit from, and the
last one. -/
def visited (stops visits : β → Bool) : Option β → List β → List β
  | previous, [] => previous.toList
  | previous, b :: items =>
      if stops b then previous.toList
      else if visits b then previous.toList ++ visited stops visits (some b) items
      else visited stops visits (some b) items

section visited

variable {stops visits : β → Bool} {collect : β → List γ} {items : List β}

/-- Nothing is collected from an item at which a listing stops, or from one after it. -/
structure Ended (stops : β → Bool) (collect : β → List γ) (items : List β) : Prop where
  here : ∀ b ∈ items, stops b → collect b = []
  later : items.Pairwise fun b b' => stops b → collect b' = []

/-- Nothing is collected from an item right before one that is passed by. -/
def Spared (passes : β → Bool) (collect : β → List γ) (items : List β) : Prop :=
  items.IsChain fun b b' => passes b' → collect b = []

theorem visited_sublist (previous : Option β) :
    (visited stops visits previous items).Sublist (previous.toList ++ items) := by
  induction items generalizing previous with
  | nil => simp [visited]
  | cons b items ih =>
      unfold visited
      split_ifs
      · exact List.sublist_append_left _ _
      · exact (List.Sublist.refl _).append (ih (some b))
      · exact (ih (some b)).trans (List.sublist_append_right _ _)

theorem Ended.tail {b : β} (ended : Ended stops collect (b :: items)) : Ended stops collect items where
  here b' member := ended.here b' (List.mem_cons_of_mem _ member)
  later := (List.pairwise_cons.mp ended.later).2

theorem Ended.collects_nothing {b : β} (ended : Ended stops collect (b :: items)) (stop : stops b) :
    (b :: items).flatMap collect = [] := by
  rw [List.flatMap_eq_nil_iff]
  intro b' member
  rcases List.mem_cons.mp member with rfl | later
  · exact ended.here _ member stop
  · exact (List.pairwise_cons.mp ended.later).1 b' later stop

theorem spared_of_nothing {passes : β → Bool} (nothing : ∀ b ∈ items, collect b = []) :
    Spared passes collect items := by
  induction items with
  | nil => exact List.isChain_nil
  | cons b items ih =>
      cases items with
      | nil => exact List.isChain_singleton b
      | cons b' items =>
          exact List.isChain_cons_cons.mpr
            ⟨fun _ => nothing b (by simp), ih fun b' member => nothing b' (List.mem_cons_of_mem _ member)⟩

theorem sublist_eq_append {left right before : List γ} (fewer : left.Sublist right)
    (same : left = before ++ right) : before = [] ∧ left = right := by
  have sizes := congrArg List.length same
  rw [List.length_append] at sizes
  have less := fewer.length_le
  exact ⟨List.length_eq_zero_iff.mp (by omega), fewer.eq_of_length (by omega)⟩

theorem visited_collect (ended : Ended stops collect items) (previous : Option β) :
    (visited stops visits previous items).flatMap collect = (previous.toList ++ items).flatMap collect ↔
      Spared (fun b => !stops b && !visits b) collect (previous.toList ++ items) := by
  induction items generalizing previous with
  | nil =>
      cases previous with
      | none => simp [visited, Spared]
      | some b => simp [visited, Spared]
  | cons b items ih =>
      have chain : Spared (fun b => !stops b && !visits b) collect (previous.toList ++ b :: items) ↔
          (∀ b' ∈ previous, stops b = false → visits b = false → collect b' = []) ∧
            Spared (fun b => !stops b && !visits b) collect (b :: items) := by
        cases previous with
        | none => simp
        | some b' => simp [Spared]
      rw [chain, List.flatMap_append]
      unfold visited
      split_ifs with stop visit
      · have nothing := ended.collects_nothing stop
        refine ⟨fun _ => ⟨fun b' _ stays => ?_, ?_⟩, fun _ => by rw [nothing, List.append_nil]⟩
        · rw [stop] at stays
          cases stays
        · exact spared_of_nothing (List.flatMap_eq_nil_iff.mp nothing)
      · rw [List.flatMap_append, List.append_cancel_left_eq, show b :: items = (some b).toList ++ items from rfl,
          ih ended.tail (some b)]
        simp [visit]
      · have fewer : ((visited stops visits (some b) items).flatMap collect).Sublist
            ((b :: items).flatMap collect) := (visited_sublist (some b)).flatMap collect
        constructor
        · intro same
          obtain ⟨nothing, rest⟩ := sublist_eq_append fewer same
          refine ⟨fun b' member _ _ => ?_, (ih ended.tail (some b)).mp rest⟩
          exact List.flatMap_eq_nil_iff.mp nothing b' (by simpa using member)
        · rintro ⟨nothing, spared⟩
          have rest := (ih ended.tail (some b)).mpr spared
          have none : previous.toList.flatMap collect = [] := List.flatMap_eq_nil_iff.mpr fun b' member =>
            nothing b' (by simpa using member) (by simpa using stop) (by simpa using visit)
          rw [rest, none]
          rfl

theorem unvisited_nothing {items' : List β} (fewer : items'.Sublist items)
    (same : items'.flatMap collect = items.flatMap collect) : ∀ b ∈ items, b ∈ items' ∨ collect b = [] := by
  induction fewer with
  | slnil => simp
  | @cons items' items b fewer ih =>
      obtain ⟨nothing, rest⟩ := sublist_eq_append (fewer.flatMap collect) (same.trans (List.flatMap_cons ..))
      exact List.forall_mem_cons.mpr ⟨Or.inr nothing, ih rest⟩
  | @cons_cons items' items b fewer ih =>
      rw [List.flatMap_cons, List.flatMap_cons, List.append_cancel_left_eq] at same
      refine List.forall_mem_cons.mpr ⟨Or.inl (by simp), fun b' member => ?_⟩
      exact (ih same b' member).imp_left (List.mem_cons_of_mem _)

theorem flatMap_parts {part whole : β → List γ} (fewer : ∀ b ∈ items, (part b).Sublist (whole b))
    (same : items.flatMap part = items.flatMap whole) : ∀ b ∈ items, part b = whole b := by
  induction items with
  | nil => simp
  | cons b items ih =>
      obtain ⟨first, rest⟩ := List.forall_mem_cons.mp fewer
      have less := first.length_le
      have less' := (List.Sublist.flatMap_right items rest).length_le
      have sizes := congrArg List.length same
      rw [List.flatMap_cons, List.flatMap_cons, List.length_append, List.length_append] at sizes
      have here : part b = whole b := first.eq_of_length (by omega)
      rw [List.flatMap_cons, List.flatMap_cons, here, List.append_cancel_left_eq] at same
      exact List.forall_mem_cons.mpr ⟨here, ih rest same⟩

end visited

namespace SearchTree

variable (stops visits : α → Bool)

def visitedSubTrees {height : Nat} (branch : List (α × SearchTree α height)) : List (α × SearchTree α height) :=
  visited (fun sub => stops sub.1) (fun sub => visits sub.1) none branch

def collected (leaf : List α → List α) : ∀ {height : Nat}, SearchTree α height → List α
  | 0, items => leaf items
  | _ + 1, (branch : List (α × SearchTree α _)) =>
      (visitedSubTrees stops visits branch).flatMap fun sub => collected leaf sub.2

/-- No sub tree right before one whose item is passed by has an item that is looked for. -/
def Lossless (passes wanted : α → Bool) : ∀ {height : Nat}, SearchTree α height → Prop
  | 0, _ => True
  | _ + 1, (branch : List (α × SearchTree α _)) =>
      Spared (fun sub => passes sub.1) (fun sub => sub.2.items.filter wanted) branch ∧
        ∀ sub ∈ branch, Lossless passes wanted sub.2

variable {stops visits} {passes wanted : α → Bool} {leaf : List α → List α} {sameKey : α → α → Prop} {height : Nat}

theorem visitedSubTrees_sublist (branch : List (α × SearchTree α height)) :
    (visitedSubTrees stops visits branch).Sublist branch := visited_sublist none

theorem lossless_of_nothing {tree : SearchTree α height} (nothing : ∀ a ∈ tree.items, wanted a = false) :
    Lossless passes wanted tree := by
  induction height with
  | zero => trivial
  | succ height ih =>
      have each : ∀ sub ∈ tree.subTrees, ∀ a ∈ sub.2.items, wanted a = false :=
        fun sub member a inside => nothing a (List.mem_flatMap.mpr ⟨sub, member, inside⟩)
      refine ⟨spared_of_nothing fun sub member => ?_, fun sub member => ih (each sub member)⟩
      rw [List.filter_eq_nil_iff]
      intro a inside
      simp [each sub member a inside]

/-- What a listing needs of the items in order: from the first that stops it on none is wanted, and a leaf
gives those that are. -/
structure Listable (stops wanted : α → Bool) (leaf : List α → List α) (items : List α) : Prop where
  stopped : Falling (fun a => !stops a) items
  unwanted : ∀ a ∈ items, stops a → wanted a = false
  leaf : ∀ part, part.Sublist items → leaf part = part.filter wanted

theorem Listable.sublist {items part : List α} (listable : Listable stops wanted leaf items)
    (sublist : part.Sublist items) : Listable stops wanted leaf part where
  stopped := listable.stopped.sublist sublist
  unwanted a member := listable.unwanted a (sublist.subset member)
  leaf part' sublist' := listable.leaf part' (sublist'.trans sublist)

theorem Listable.ended (same : ∀ a b, sameKey a b → stops a = stops b)
    {branch : List (α × SearchTree α height)} (heads : Heads sameKey branch)
    (listable : Listable stops wanted leaf (branch.flatMap fun sub => sub.2.items)) :
    Ended (fun sub => stops sub.1) (fun sub => sub.2.items.filter wanted) branch := by
  induction branch with
  | nil => exact ⟨by simp, List.Pairwise.nil⟩
  | cons sub branch ih =>
      obtain ⟨⟨first, rest, items, key⟩, heads⟩ := List.forall_mem_cons.mp heads
      have after : stops sub.1 → ∀ a ∈ (sub :: branch).flatMap (fun sub => sub.2.items), wanted a = false := by
        intro stop a member
        have whole := listable.stopped
        refine listable.unwanted a member ?_
        rw [List.flatMap_cons, items] at whole member
        rw [same _ _ key] at stop
        rcases List.mem_cons.mp member with rfl | later
        · exact stop
        · have passes := (List.pairwise_cons.mp whole).1 a later
          simpa [stop] using passes
      have tail := ih heads (listable.sublist (List.sublist_append_right _ _))
      refine ⟨List.forall_mem_cons.mpr ⟨fun stop => ?_, tail.here⟩,
        List.pairwise_cons.mpr ⟨fun sub' member stop => ?_, tail.later⟩⟩
      · rw [List.filter_eq_nil_iff]
        intro a inside
        simp [after stop a (List.mem_flatMap.mpr ⟨sub, by simp, inside⟩)]
      · rw [List.filter_eq_nil_iff]
        intro a inside
        simp [after stop a (List.mem_flatMap.mpr ⟨sub', by simp [member], inside⟩)]

theorem collected_sublist {tree : SearchTree α height} (listable : Listable stops wanted leaf tree.items) :
    (collected stops visits leaf tree).Sublist (tree.items.filter wanted) := by
  induction height with
  | zero =>
      have exact : collected stops visits leaf tree = tree.items.filter wanted :=
        listable.leaf _ (List.Sublist.refl _)
      rw [exact]
  | succ height ih =>
      have inside : ∀ sub ∈ visitedSubTrees stops visits tree, sub.2.items.Sublist tree.items := fun sub member =>
        items_sublist ((visitedSubTrees_sublist tree).subset member)
      have whole : (tree.items.filter wanted) =
          tree.subTrees.flatMap fun sub => sub.2.items.filter wanted :=
        List.filter_flatMap
      rw [whole]
      exact (List.Sublist.flatMap_right _ fun sub member => ih (listable.sublist (inside sub member))).trans
        ((visitedSubTrees_sublist tree).flatMap _)

theorem collected_branch (same : ∀ a b, sameKey a b → stops a = stops b)
    {branch : List (α × SearchTree α height)} (heads : Heads sameKey branch)
    (listable : Listable stops wanted leaf (branch.flatMap fun sub => sub.2.items))
    (each : ∀ sub ∈ branch, collected stops visits leaf sub.2 = sub.2.items.filter wanted ↔
      Lossless (fun a => !stops a && !visits a) wanted sub.2) :
    (visitedSubTrees stops visits branch).flatMap (fun sub => collected stops visits leaf sub.2) =
        (branch.flatMap fun sub => sub.2.items).filter wanted ↔
      Spared (fun sub => !stops sub.1 && !visits sub.1) (fun sub => sub.2.items.filter wanted) branch ∧
        ∀ sub ∈ branch, Lossless (fun a => !stops a && !visits a) wanted sub.2 := by
  have inside : ∀ sub ∈ visitedSubTrees stops visits branch, sub ∈ branch := fun sub member =>
    (visitedSubTrees_sublist branch).subset member
  have fewer : ∀ sub ∈ visitedSubTrees stops visits branch,
      (collected stops visits leaf sub.2).Sublist (sub.2.items.filter wanted) := fun sub member =>
    collected_sublist (listable.sublist (items_sublist (inside sub member)))
  have spared : (visitedSubTrees stops visits branch).flatMap (fun sub => sub.2.items.filter wanted) =
      branch.flatMap (fun sub => sub.2.items.filter wanted) ↔ _ :=
    visited_collect (listable.ended same heads) none
  rw [List.filter_flatMap]
  constructor
  · intro all
    have lower := (List.Sublist.flatMap_right (visitedSubTrees stops visits branch) fewer).length_le
    have upper : ((visitedSubTrees stops visits branch).flatMap fun sub => sub.2.items.filter wanted).Sublist
        (branch.flatMap fun sub => sub.2.items.filter wanted) := (visitedSubTrees_sublist branch).flatMap _
    have visitedAll := upper.eq_of_length (Nat.le_antisymm upper.length_le (all ▸ lower))
    refine ⟨spared.mp visitedAll, fun sub member => ?_⟩
    rcases unvisited_nothing (visitedSubTrees_sublist branch) visitedAll sub member with reached | nothing
    · exact (each sub member).mp (flatMap_parts fewer (all.trans visitedAll.symm) sub reached)
    · refine lossless_of_nothing fun a inside => ?_
      simpa using List.filter_eq_nil_iff.mp nothing a inside
  · rintro ⟨chain, lossless⟩
    rw [← spared.mpr chain]
    exact List.flatMap_congr fun sub member => (each sub (inside sub member)).mpr (lossless sub (inside sub member))

theorem collected_eq_iff (same : ∀ a b, sameKey a b → stops a = stops b) {tree : SearchTree α height}
    (headed : tree.Headed sameKey) (listable : Listable stops wanted leaf tree.items) :
    collected stops visits leaf tree = tree.items.filter wanted ↔ Lossless (fun a => !stops a && !visits a) wanted tree := by
  induction height with
  | zero => exact ⟨fun _ => trivial, fun _ => listable.leaf _ (List.Sublist.refl _)⟩
  | succ height ih =>
      obtain ⟨_, heads, headed⟩ := headed
      exact collected_branch same heads listable fun sub member =>
        ih (headed sub member) (listable.sublist (items_sublist member))

theorem spared_of_pairwise (passesSame : ∀ a b, sameKey a b → passes a = passes b)
    {branch : List (α × SearchTree α height)} (heads : Heads sameKey branch)
    (ordered : (branch.flatMap fun sub => sub.2.items).Pairwise fun a b => passes b → wanted a = false) :
    Spared (fun sub => passes sub.1) (fun sub => sub.2.items.filter wanted) branch := by
  induction branch with
  | nil => exact List.isChain_nil
  | cons sub branch ih =>
      cases branch with
      | nil => exact List.isChain_singleton sub
      | cons sub' branch =>
          obtain ⟨_, rest⟩ := List.forall_mem_cons.mp heads
          obtain ⟨first, _, items, key⟩ := rest sub' (by simp)
          obtain ⟨_, later, across⟩ := List.pairwise_append.mp ordered
          refine List.isChain_cons_cons.mpr ⟨fun passed => ?_, ih rest later⟩
          rw [List.filter_eq_nil_iff]
          intro a inside
          have unwanted := across a inside first (by simp [items]) (by rwa [← passesSame _ _ key])
          simp [unwanted]

theorem lossless_of_pairwise (passesSame : ∀ a b, sameKey a b → passes a = passes b)
    {tree : SearchTree α height} (headed : tree.Headed sameKey)
    (ordered : tree.items.Pairwise fun a b => passes b → wanted a = false) : Lossless passes wanted tree := by
  induction height with
  | zero => trivial
  | succ height ih =>
      obtain ⟨_, heads, headed⟩ := headed
      exact ⟨spared_of_pairwise passesSame heads ordered, fun sub member =>
        ih (headed sub member) (ordered.sublist (items_sublist member))⟩

theorem lossless_congr {passes passes' : α → Bool} (passesSame : ∀ a b, sameKey a b → passes a = passes b)
    (passesSame' : ∀ a b, sameKey a b → passes' a = passes' b) {tree : SearchTree α height}
    (headed : tree.Headed sameKey) (agree : ∀ a ∈ tree.items, passes a = passes' a) :
    Lossless passes wanted tree ↔ Lossless passes' wanted tree := by
  induction height with
  | zero => exact Iff.rfl
  | succ height ih =>
      obtain ⟨_, heads, headed⟩ := headed
      have chain : ∀ branch : List (α × SearchTree α height), (∀ sub ∈ branch, passes sub.1 = passes' sub.1) →
          (Spared (fun sub => passes sub.1) (fun sub => sub.2.items.filter wanted) branch ↔
            Spared (fun sub => passes' sub.1) (fun sub => sub.2.items.filter wanted) branch) := by
        intro branch same
        induction branch with
        | nil => simp [Spared]
        | cons sub branch ih =>
            cases branch with
            | nil => simp [Spared]
            | cons sub' branch =>
                simp only [Spared, List.isChain_cons_cons, same sub' (by simp)] at ih ⊢
                rw [ih fun sub member => same sub (List.mem_cons_of_mem _ member)]
      have keys : ∀ sub ∈ tree.subTrees, passes sub.1 = passes' sub.1 := by
        intro sub member
        obtain ⟨a, inside, key⟩ := heads_mem heads member
        rw [passesSame _ _ key, passesSame' _ _ key, agree a inside]
      have each : ∀ sub ∈ tree.subTrees, Lossless passes wanted sub.2 ↔ Lossless passes' wanted sub.2 :=
        fun sub member => ih (headed sub member) fun a inside => agree a ((items_sublist member).subset inside)
      exact and_congr (chain tree keys) (forall₂_congr each)

theorem lossless_or {passes passes' : α → Bool} {tree : SearchTree α height} :
    Lossless (fun a => passes a || passes' a) wanted tree ↔
      Lossless passes wanted tree ∧ Lossless passes' wanted tree := by
  induction height with
  | zero => simp [Lossless]
  | succ height ih =>
      have chain : ∀ branch : List (α × SearchTree α height),
          Spared (fun sub => passes sub.1 || passes' sub.1) (fun sub => sub.2.items.filter wanted) branch ↔
            Spared (fun sub => passes sub.1) (fun sub => sub.2.items.filter wanted) branch ∧
              Spared (fun sub => passes' sub.1) (fun sub => sub.2.items.filter wanted) branch := by
        intro branch
        induction branch with
        | nil => simp [Spared]
        | cons sub branch ih =>
            cases branch with
            | nil => simp [Spared]
            | cons sub' branch =>
                simp only [Spared, List.isChain_cons_cons, Bool.or_eq_true] at ih ⊢
                rw [ih]
                tauto
      constructor
      · rintro ⟨spared, each⟩
        exact ⟨⟨((chain _).mp spared).1, fun sub member => (ih.mp (each sub member)).1⟩,
          ⟨((chain _).mp spared).2, fun sub member => (ih.mp (each sub member)).2⟩⟩
      · rintro ⟨⟨spared, each⟩, ⟨spared', each'⟩⟩
        exact ⟨(chain _).mpr ⟨spared, spared'⟩, fun sub member => ih.mpr ⟨each sub member, each' sub member⟩⟩

end SearchTree

end Fsapfs.Program
