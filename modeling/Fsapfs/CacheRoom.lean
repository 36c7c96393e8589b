import Fsapfs.NodeCache
import Mathlib.Data.List.Perm.Subperm

namespace Fsapfs.NodeCache
open Program

/-- The blocks are fewer than a capacity. -/
def Few (capacity : Option Nat) (blocks : Nat → Prop) : Prop :=
  ∀ n, capacity = some n →
    ∃ list : List Nat, list.length < n ∧ ∀ blockNumber, blocks blockNumber → blockNumber ∈ list

def Since (blocks : Nat → Prop) (reference : NodeReference) (cache : NodeCache) : Prop :=
  ∃ later earlier, cache.accesses = later ++ reference.value.blockNumber :: earlier ∧
    earlier.length + 1 = reference.obtained ∧ ∀ blockNumber ∈ later, blocks blockNumber

/-- A later state, up to which only these blocks were accessed and no dropped node was used. -/
structure Within (blocks : Nat → Prop) (cache cache' : NodeCache) : Prop where
  grows : Grows cache cache'
  accessed : ∃ later, cache'.accesses = later ++ cache.accesses ∧ ∀ blockNumber ∈ later, blocks blockNumber
  undropped : cache.Valid → cache.Undropped → cache'.Undropped

section few

variable {capacity : Option Nat} {blocks blocks' : Nat → Prop}

theorem Few.mono (few : Few capacity blocks) (fewer : ∀ blockNumber, blocks' blockNumber → blocks blockNumber) :
    Few capacity blocks' := by
  intro n bounded
  obtain ⟨list, short, all⟩ := few n bounded
  exact ⟨list, short, fun blockNumber member => all blockNumber (fewer blockNumber member)⟩

theorem few_none (room : capacity ≠ some 0) (none : ∀ blockNumber, ¬blocks blockNumber) : Few capacity blocks := by
  intro n bounded
  refine ⟨[], Nat.pos_of_ne_zero ?_, fun blockNumber member => absurd member (none blockNumber)⟩
  rintro rfl
  exact room bounded

end few

section within

variable {blocks blocks' : Nat → Prop} {cache cache' cache'' : NodeCache}

theorem Within.refl (cache : NodeCache) : Within blocks cache cache where
  grows := Grows.refl cache
  accessed := ⟨[], rfl, by simp⟩
  undropped _ undropped := undropped

theorem Within.trans (first : Within blocks cache cache') (second : Within blocks cache' cache'') :
    Within blocks cache cache'' where
  grows := first.grows.trans second.grows
  accessed := by
    obtain ⟨later, eq, all⟩ := first.accessed
    obtain ⟨later', eq', all'⟩ := second.accessed
    refine ⟨later' ++ later, by rw [eq', eq, List.append_assoc], fun blockNumber member => ?_⟩
    exact (List.mem_append.mp member).elim (all' blockNumber) (all blockNumber)
  undropped valid undropped := second.undropped (first.grows.valid valid) (first.undropped valid undropped)

theorem Within.mono (within : Within blocks cache cache')
    (more : ∀ blockNumber, blocks blockNumber → blocks' blockNumber) : Within blocks' cache cache' where
  grows := within.grows
  accessed := by
    obtain ⟨later, eq, all⟩ := within.accessed
    exact ⟨later, eq, fun blockNumber member => more blockNumber (all blockNumber member)⟩
  undropped := within.undropped

end within

section since

variable {blocks blocks' : Nat → Prop} {cache cache' : NodeCache} {value : CachedNode} {reference : NodeReference}

theorem since_obtained (value : CachedNode) (cache : NodeCache) :
    Since (fun _ => False) { value, obtained := (access value cache).accesses.length } (access value cache) :=
  ⟨[], cache.accesses, rfl, rfl, by simp⟩

theorem Since.mono (since : Since blocks reference cache)
    (more : ∀ blockNumber, blocks blockNumber → blocks' blockNumber) : Since blocks' reference cache := by
  obtain ⟨later, earlier, eq, obtained, all⟩ := since
  exact ⟨later, earlier, eq, obtained, fun blockNumber member => more blockNumber (all blockNumber member)⟩

theorem Since.within (since : Since blocks reference cache) (within : Within blocks cache cache') :
    Since blocks reference cache' := by
  obtain ⟨later, earlier, eq, obtained, all⟩ := since
  obtain ⟨later', eq', all'⟩ := within.accessed
  refine ⟨later' ++ later, earlier, by rw [eq', eq, List.append_assoc], obtained, fun blockNumber member => ?_⟩
  exact (List.mem_append.mp member).elim (all' blockNumber) (all blockNumber)

theorem recent_length_lt {later earlier : List Nat} {blockNumber n : Nat} {list : List Nat} (short : list.length < n)
    (all : ∀ other ∈ later, other ∈ list) :
    (recent ((later ++ blockNumber :: earlier).takeWhile (· ≠ blockNumber))).length < n := by
  have inside : recent ((later ++ blockNumber :: earlier).takeWhile (· ≠ blockNumber)) ⊆ list := by
    intro other member
    have before := mem_recent.mp member
    have different := List.mem_takeWhile_imp before
    have member' : other ∈ later := by
      rw [List.takeWhile_append] at before
      split at before
      · simpa using before
      · exact List.takeWhile_subset _ before
    exact all other member'
  exact Nat.lt_of_le_of_lt (List.subperm_of_subset (recent_nodup _) inside).length_le short

theorem Since.recent (since : Since blocks reference cache) (few : Few cache.capacity blocks) {time : Nat}
    (from_ : reference.obtained ≤ time) (until_ : time ≤ cache.accesses.length) :
    cache.Recent time reference.value.blockNumber := by
  obtain ⟨later, earlier, eq, obtained, all⟩ := since
  have length : cache.accesses.length = later.length + (earlier.length + 1) := by simp [eq]
  have split : cache.history time =
      later.drop (cache.accesses.length - time) ++ reference.value.blockNumber :: earlier := by
    rw [history, eq, List.drop_append_of_le_length (by rw [← eq]; omega)]
  rw [Recent, split]
  refine ⟨by simp, fun n bounded => ?_⟩
  obtain ⟨list, short, few⟩ := few n bounded
  exact recent_length_lt short fun other member => few other (all other (List.drop_subset _ _ member))

theorem access_within (fresh : value ∈ cache.values ∨ ∀ other ∈ cache.values, other.blockNumber ≠ value.blockNumber) :
    Within (fun blockNumber => blockNumber = value.blockNumber) cache (access value cache) where
  grows := access_grows fresh
  accessed := ⟨[value.blockNumber], rfl, by simp⟩
  undropped valid undropped use member time from_ until_ :=
    (access_recent (Nat.le_trans until_ (valid.logged use member).2.1)).mpr (undropped use member time from_ until_)

theorem use_within (points : Points reference cache) (since : Since blocks reference cache)
    (few : Few cache.capacity blocks) : Within (fun _ => False) cache (use reference cache) where
  grows := use_grows points
  accessed := ⟨[], rfl, by simp⟩
  undropped _ undropped := List.forall_mem_cons.mpr ⟨fun _ => since.recent few, undropped⟩

end since

/-- A later state, up to which just these blocks were accessed. -/
def Visits (blocks : Nat → Prop) (cache cache' : NodeCache) : Prop :=
  ∃ later, cache'.accesses = later ++ cache.accesses ∧ ∀ blockNumber, blockNumber ∈ later ↔ blocks blockNumber

/-- Just these blocks were accessed since a node was. -/
def Spans (blocks : Nat → Prop) (reference : NodeReference) (cache : NodeCache) : Prop :=
  ∃ later earlier, cache.accesses = later ++ reference.value.blockNumber :: earlier ∧
    ∀ blockNumber, blockNumber ∈ later ↔ blocks blockNumber

section visits

variable {blocks blocks' : Nat → Prop} {cache cache' cache'' : NodeCache} {reference : NodeReference}

theorem visits_nothing (same : cache'.accesses = cache.accesses) : Visits (fun _ => False) cache cache' :=
  ⟨[], same, by simp⟩

theorem visits_access (value : CachedNode) : Visits (· = value.blockNumber) cache (access value cache) :=
  ⟨[value.blockNumber], rfl, by simp⟩

theorem spans_access (value : CachedNode) :
    Spans (fun _ => False) { value, obtained := (access value cache).accesses.length } (access value cache) :=
  ⟨[], cache.accesses, rfl, by simp⟩

theorem Visits.trans (first : Visits blocks cache cache') (second : Visits blocks' cache' cache'') :
    Visits (fun blockNumber => blocks blockNumber ∨ blocks' blockNumber) cache cache'' := by
  obtain ⟨later, eq, all⟩ := first
  obtain ⟨later', eq', all'⟩ := second
  refine ⟨later' ++ later, by rw [eq', eq, List.append_assoc], fun blockNumber => ?_⟩
  rw [List.mem_append, all, all', Or.comm]

theorem Visits.congr (visits : Visits blocks cache cache') (same : ∀ blockNumber, blocks blockNumber ↔ blocks' blockNumber) :
    Visits blocks' cache cache' := by
  obtain ⟨later, eq, all⟩ := visits
  exact ⟨later, eq, fun blockNumber => (all blockNumber).trans (same blockNumber)⟩

theorem Spans.congr (spans : Spans blocks reference cache) (same : ∀ blockNumber, blocks blockNumber ↔ blocks' blockNumber) :
    Spans blocks' reference cache := by
  obtain ⟨later, earlier, eq, all⟩ := spans
  exact ⟨later, earlier, eq, fun blockNumber => (all blockNumber).trans (same blockNumber)⟩

theorem Spans.visits (spans : Spans blocks reference cache) (visits : Visits blocks' cache cache') :
    Spans (fun blockNumber => blocks blockNumber ∨ blocks' blockNumber) reference cache' := by
  obtain ⟨later, earlier, eq, all⟩ := spans
  obtain ⟨later', eq', all'⟩ := visits
  refine ⟨later' ++ later, earlier, by rw [eq', eq, List.append_assoc], fun blockNumber => ?_⟩
  rw [List.mem_append, all, all', Or.comm]

theorem Spans.few (spans : Spans blocks reference cache) (other : ¬blocks reference.value.blockNumber)
    (live : reference.value ∈ cache.values) :
    Few cache.capacity blocks := by
  obtain ⟨later, earlier, eq, all⟩ := spans
  intro n bounded
  have recently : cache.Recent cache.accesses.length reference.value.blockNumber :=
    recent_iff.mpr ⟨reference.value, live, rfl⟩
  have absent : ∀ blockNumber ∈ later, blockNumber ≠ reference.value.blockNumber := by
    rintro _ member rfl
    exact other ((all _).mp member)
  have since : (cache.history cache.accesses.length).takeWhile (· ≠ reference.value.blockNumber) = later := by
    rw [history, Nat.sub_self, List.drop_zero, eq, List.takeWhile_append_of_pos (by simpa using absent)]
    simp
  refine ⟨recent later, since ▸ recently.2 n bounded, fun blockNumber member => ?_⟩
  exact mem_recent.mpr ((all blockNumber).mpr member)

end visits

end Fsapfs.NodeCache
