import Fsapfs.BtreeNode
import Fsapfs.Program.Call
import Fsapfs.Program.Recency

namespace Fsapfs
open Program

def maximumCacheEntriesBtreeNodes : Nat := 8192

/-- A node in memory. A block that is read again gives another one, which the number of accesses at that time
tells from it. -/
structure CachedNode where
  blockNumber : Nat
  serial : Nat
  node : BtreeNode
  deriving DecidableEq

/-- An entry of a node was read: when the node was obtained and when it was used, in accesses to the cache. -/
structure NodeUse where
  blockNumber : Nat
  obtained : Nat
  used : Nat

section keep

variable {α β : Type} {capacity : Option Nat}

def keep (capacity : Option Nat) (values : List α) : List α :=
  match capacity with
  | none => values
  | some capacity => values.take capacity

theorem keep_map (f : α → β) (values : List α) : (keep capacity values).map f = keep capacity (values.map f) := by
  cases capacity with
  | none => rfl
  | some capacity => exact List.map_take

theorem keep_subset (values : List α) : keep capacity values ⊆ values := by
  cases capacity with
  | none => exact List.Subset.refl values
  | some capacity => exact List.take_subset capacity values

theorem mem_keep_recent {accesses : List Nat} {blockNumber : Nat} :
    blockNumber ∈ keep capacity (recent accesses) ↔ blockNumber ∈ accesses ∧
      ∀ n, capacity = some n → (recent (accesses.takeWhile (· ≠ blockNumber))).length < n := by
  cases capacity with
  | none => simp [keep, mem_recent]
  | some capacity =>
      rw [keep, mem_take_recent]
      simp

theorem mem_keep_access {accesses : List Nat} {first blockNumber : Nat}
    (kept : blockNumber ∈ keep capacity (recent (first :: accesses))) :
    blockNumber = first ∨ blockNumber ∈ keep capacity (recent accesses) := by
  have refreshed : keep capacity (recent (first :: accesses)) ⊆
      first :: (keep capacity (recent accesses)).filter (· ≠ first) := by
    cases capacity with
    | none => exact List.Subset.refl _
    | some n =>
        rw [keep, show (recent (first :: accesses)).take n = refresh n first (recent accesses) from rfl,
          ← refresh_take (recent_nodup _)]
        exact List.take_subset _ _
  exact (List.mem_cons.mp (refreshed kept)).imp id List.mem_of_mem_filter

end keep

/-- libfcache: the values that a cache holds after accesses, of which the first is the latest. It holds the most
recently used ones that there is room for, each as it was last put. -/
structure Libfcache where
  values : Option Nat → List CachedNode → List CachedNode
  holds : ∀ {capacity : Option Nat} {accessed : List CachedNode} {blockNumber : Nat},
    (∃ value ∈ values capacity accessed, value.blockNumber = blockNumber) ↔
      blockNumber ∈ keep capacity (recent (accessed.map CachedNode.blockNumber))
  latest : ∀ {capacity : Option Nat} {accessed : List CachedNode} {value : CachedNode},
    value ∈ values capacity accessed → accessed.find? (·.blockNumber = value.blockNumber) = some value

def lastAccessed (capacity : Option Nat) : List CachedNode → List CachedNode
  | [] => []
  | value :: accessed =>
      keep capacity (value :: (lastAccessed capacity accessed).filter fun other => other.blockNumber ≠ value.blockNumber)

theorem lastAccessed_blockNumbers (capacity : Option Nat) (accessed : List CachedNode) :
    (lastAccessed capacity accessed).map CachedNode.blockNumber =
      keep capacity (recent (accessed.map CachedNode.blockNumber)) := by
  induction accessed with
  | nil => cases capacity <;> simp [lastAccessed, keep, recent]
  | cons value accessed ih =>
      have filtered : ((lastAccessed capacity accessed).filter fun other =>
          other.blockNumber ≠ value.blockNumber).map CachedNode.blockNumber =
          ((lastAccessed capacity accessed).map CachedNode.blockNumber).filter (· ≠ value.blockNumber) := by
        rw [List.filter_map]
        rfl
      rw [lastAccessed, keep_map, List.map_cons, filtered, ih]
      cases capacity with
      | none => rfl
      | some capacity => exact refresh_take (recent_nodup _) _ _

theorem lastAccessed_latest {capacity : Option Nat} {accessed : List CachedNode} {value : CachedNode}
    (member : value ∈ lastAccessed capacity accessed) :
    accessed.find? (·.blockNumber = value.blockNumber) = some value := by
  induction accessed with
  | nil => cases member
  | cons first accessed ih =>
      rcases List.mem_cons.mp (keep_subset _ member) with rfl | filtered
      · simp
      · obtain ⟨earlier, other⟩ := List.mem_filter.mp filtered
        have apart : ¬first.blockNumber = value.blockNumber := fun same => by simp [same] at other
        rw [List.find?_cons_of_neg (by simpa using apart), ih earlier]

def Libfcache.lastAccess : Libfcache where
  values := lastAccessed
  holds := by
    intro capacity accessed blockNumber
    rw [← List.mem_map, lastAccessed_blockNumbers]
  latest := lastAccessed_latest

/-- A value that is dropped is freed. What was accessed and used is kept track of. -/
structure NodeCache where
  libfcache : Libfcache
  capacity : Option Nat
  accessed : List CachedNode
  uses : List NodeUse

structure NodeReference where
  value : CachedNode
  obtained : Nat

namespace NodeCache

abbrev CacheCall := Call ErrorCode NodeCache

def create (libfcache : Libfcache) (capacity : Option Nat) : NodeCache where
  libfcache := libfcache
  capacity := capacity
  accessed := []
  uses := []

def values (cache : NodeCache) : List CachedNode := cache.libfcache.values cache.capacity cache.accessed

def accesses (cache : NodeCache) : List Nat := cache.accessed.map CachedNode.blockNumber

def getValue (cache : NodeCache) (blockNumber : Nat) : Option CachedNode :=
  cache.values.find? fun value => value.blockNumber = blockNumber

def access (value : CachedNode) (cache : NodeCache) : NodeCache := { cache with accessed := value :: cache.accessed }

def obtain (value : CachedNode) : CacheCall NodeReference := do
  Call.update (access value)
  let cache ← Call.self
  return { value, obtained := cache.accesses.length }

/-- The node of a block, from the cache or as it is read; one that is read is put into the cache. -/
def getNode (blockNumber : Nat) (read : Result BtreeNode) : CacheCall NodeReference := do
  let cache ← Call.self
  match cache.getValue blockNumber with
  | some value => obtain value
  | none => do
      let node ← Call.lift read
      obtain { blockNumber, serial := cache.accesses.length, node }

def use (reference : NodeReference) (cache : NodeCache) : NodeCache :=
  { cache with
    uses := { blockNumber := reference.value.blockNumber
              obtained := reference.obtained
              used := cache.accesses.length } :: cache.uses }

/-- An entry of a node is read; what is read of a freed node is undefined. -/
def useNode (reference : NodeReference) : CacheCall Unit := do
  Call.update (use reference)
  let cache ← Call.self
  if reference.value ∈ cache.values then return () else Call.lift (.error .undefined)

def forgetUses (cache : NodeCache) : NodeCache := { cache with uses := [] }

def history (cache : NodeCache) (time : Nat) : List Nat := cache.accesses.drop (cache.accesses.length - time)

/-- At a time, a block had been accessed and fewer other blocks than the capacity since then. -/
def Recent (cache : NodeCache) (time blockNumber : Nat) : Prop :=
  blockNumber ∈ cache.history time ∧
    ∀ capacity, cache.capacity = some capacity →
      (recent ((cache.history time).takeWhile (· ≠ blockNumber))).length < capacity

/-- Whenever an entry was read, its node had been recently accessed at all times since it was obtained. -/
def Undropped (cache : NodeCache) : Prop :=
  ∀ use ∈ cache.uses, ∀ time, use.obtained ≤ time → time ≤ use.used → cache.Recent time use.blockNumber

/-- What was used had been accessed when it was obtained. -/
structure Valid (cache : NodeCache) : Prop where
  room : cache.capacity ≠ some 0
  logged : ∀ use ∈ cache.uses, use.obtained ≤ use.used ∧ use.used ≤ cache.accesses.length ∧
    use.blockNumber ∈ cache.history use.obtained

/-- A pointer whose node is in the cache unless it has been dropped since. -/
structure Points (reference : NodeReference) (cache : NodeCache) : Prop where
  past : reference.obtained ≤ cache.accesses.length
  accessed : reference.value.blockNumber ∈ cache.history reference.obtained
  held : (∀ time, reference.obtained ≤ time → time ≤ cache.accesses.length →
    cache.Recent time reference.value.blockNumber) → reference.value ∈ cache.values

structure Grows (cache cache' : NodeCache) : Prop where
  valid : cache.Valid → cache'.Valid
  points : cache.Valid → ∀ reference, Points reference cache → Points reference cache'
  undropped : cache.Valid → cache'.Undropped → cache.Undropped
  capacity : cache'.capacity = cache.capacity

theorem create_valid {libfcache : Libfcache} {capacity : Option Nat} (room : capacity ≠ some 0) :
    (create libfcache capacity).Valid where
  room := room
  logged := by simp [create]

theorem create_values (libfcache : Libfcache) (capacity : Option Nat) : (create libfcache capacity).values = [] := by
  apply List.eq_nil_iff_forall_not_mem.mpr
  intro value member
  cases libfcache.latest member

theorem forgetUses_valid {cache : NodeCache} (valid : cache.Valid) : cache.forgetUses.Valid where
  room := valid.room
  logged _ member := by cases member

theorem forgetUses_undropped (cache : NodeCache) : cache.forgetUses.Undropped := by
  intro _ member
  cases member

theorem Grows.refl (cache : NodeCache) : Grows cache cache := ⟨id, fun _ _ => id, fun _ => id, rfl⟩

theorem Grows.trans {cache cache' cache'' : NodeCache} (first : Grows cache cache') (second : Grows cache' cache'') :
    Grows cache cache'' where
  valid := second.valid ∘ first.valid
  points valid reference points := second.points (first.valid valid) reference (first.points valid reference points)
  undropped valid undropped := first.undropped valid (second.undropped (first.valid valid) undropped)
  capacity := second.capacity.trans first.capacity

section access

variable {cache : NodeCache} {value : CachedNode}

theorem value_unique {other : CachedNode} (member : value ∈ cache.values) (member' : other ∈ cache.values)
    (same : other.blockNumber = value.blockNumber) : other = value := by
  have found := cache.libfcache.latest member'
  rw [same, cache.libfcache.latest member] at found
  exact (Option.some.inj found).symm

theorem mem_access {other : CachedNode} (member : other ∈ (access value cache).values) :
    other = value ∨ other ∈ cache.values ∧ other.blockNumber ≠ value.blockNumber := by
  have found : (value :: cache.accessed).find? (·.blockNumber = other.blockNumber) = some other :=
    cache.libfcache.latest member
  by_cases same : value.blockNumber = other.blockNumber
  · rw [List.find?_cons_of_pos (by simpa using same)] at found
    exact Or.inl (Option.some.inj found).symm
  · rw [List.find?_cons_of_neg (by simpa using same)] at found
    have kept := (mem_keep_access (cache.libfcache.holds.mp ⟨other, member, rfl⟩)).resolve_left (Ne.symm same)
    obtain ⟨value', member', same'⟩ := cache.libfcache.holds.mpr kept
    have found' := cache.libfcache.latest member'
    rw [same', found] at found'
    exact Or.inr ⟨Option.some.inj found' ▸ member', Ne.symm same⟩

theorem access_history {time : Nat} (past : time ≤ cache.accesses.length) :
    (access value cache).history time = cache.history time := by
  have longer : (access value cache).accesses.length - time = cache.accesses.length - time + 1 :=
    Nat.succ_sub past
  unfold history
  rw [longer]
  exact List.drop_succ_cons

theorem access_recent {time blockNumber : Nat} (past : time ≤ cache.accesses.length) :
    (access value cache).Recent time blockNumber ↔ cache.Recent time blockNumber := by
  unfold Recent
  rw [access_history past]
  exact Iff.rfl

theorem recent_iff {blockNumber : Nat} :
    cache.Recent cache.accesses.length blockNumber ↔ ∃ value ∈ cache.values, value.blockNumber = blockNumber := by
  have now : cache.history cache.accesses.length = cache.accesses := by simp [history]
  rw [values, cache.libfcache.holds, mem_keep_recent, Recent, now]
  rfl

theorem access_valid (valid : cache.Valid) (value : CachedNode) : (access value cache).Valid where
  room := valid.room
  logged use member := by
    obtain ⟨order, past, accessed⟩ := valid.logged use member
    exact ⟨order, Nat.le_succ_of_le past, (access_history (Nat.le_trans order past)).symm ▸ accessed⟩

theorem access_undropped (valid : cache.Valid) (value : CachedNode) (undropped : (access value cache).Undropped) :
    cache.Undropped := by
  intro use member time from_ until_
  exact (access_recent (Nat.le_trans until_ (valid.logged use member).2.1)).mp (undropped use member time from_ until_)

theorem access_points (fresh : value ∈ cache.values ∨ ∀ other ∈ cache.values, other.blockNumber ≠ value.blockNumber)
    {reference : NodeReference} (points : Points reference cache) : Points reference (access value cache) where
  past := Nat.le_succ_of_le points.past
  accessed := (access_history points.past).symm ▸ points.accessed
  held kept := by
    have member : reference.value ∈ cache.values := points.held fun time from_ until_ =>
      (access_recent until_).mp (kept time from_ (Nat.le_succ_of_le until_))
    have later := kept (access value cache).accesses.length (Nat.le_succ_of_le points.past) (Nat.le_refl _)
    obtain ⟨other, member', same⟩ := recent_iff.mp later
    rcases mem_access member' with rfl | ⟨before, _⟩
    · rcases fresh with present | absent
      · exact (value_unique present member same.symm).symm ▸ member'
      · exact absurd same.symm (absent _ member)
    · exact (value_unique member before same) ▸ member'

theorem getValue_access (room : cache.capacity ≠ some 0) (value : CachedNode) :
    (access value cache).getValue value.blockNumber = some value := by
  have kept : value.blockNumber ∈ keep cache.capacity (recent (value.blockNumber :: cache.accesses)) := by
    refine mem_keep_recent.mpr ⟨List.mem_cons_self, fun n bounded => ?_⟩
    rw [List.takeWhile_cons_of_neg (by simp)]
    exact Nat.pos_of_ne_zero fun none => room (none ▸ bounded)
  obtain ⟨held, member, same⟩ : ∃ held ∈ (access value cache).values, held.blockNumber = value.blockNumber :=
    cache.libfcache.holds.mpr kept
  obtain ⟨found, search⟩ : ∃ found, (access value cache).getValue value.blockNumber = some found :=
    Option.isSome_iff_exists.mp (List.find?_isSome.mpr ⟨held, member, by simpa using same⟩)
  have same' : found.blockNumber = value.blockNumber := by simpa using List.find?_some search
  rcases mem_access (List.mem_of_find?_eq_some search) with rfl | ⟨_, other⟩
  · exact search
  · exact absurd same' other

theorem access_grows (fresh : value ∈ cache.values ∨ ∀ other ∈ cache.values, other.blockNumber ≠ value.blockNumber) :
    Grows cache (access value cache) where
  valid valid := access_valid valid value
  points _ _ points := access_points fresh points
  undropped valid undropped := access_undropped valid value undropped
  capacity := rfl

end access

section use

variable {cache : NodeCache} {reference : NodeReference}

theorem use_grows (points : Points reference cache) : Grows cache (use reference cache) where
  valid valid := ⟨valid.room,
    List.forall_mem_cons.mpr ⟨⟨points.past, Nat.le_refl _, points.accessed⟩, valid.logged⟩⟩
  points _ _ points := ⟨points.past, points.accessed, points.held⟩
  undropped _ undropped use' member := undropped use' (List.mem_cons_of_mem _ member)
  capacity := rfl

theorem Points.live (points : Points reference cache) (undropped : (use reference cache).Undropped) :
    reference.value ∈ cache.values :=
  points.held fun time from_ until_ => undropped _ (List.mem_cons_self ..) time from_ until_

theorem access_obtained (value : CachedNode) :
    Points { value, obtained := (access value cache).accesses.length } (access value cache) where
  past := Nat.le_refl _
  accessed := by simp [history, access, accesses]
  held kept := by
    have now := kept _ (Nat.le_refl _) (Nat.le_refl _)
    obtain ⟨other, member, same⟩ := recent_iff.mp now
    rcases mem_access member with rfl | ⟨_, other'⟩
    · exact member
    · exact absurd same other'

theorem Valid.undropped (valid : cache.Valid) (unbounded : cache.capacity = none) : cache.Undropped := by
  intro use member time from_ _
  refine ⟨?_, fun capacity bounded => absurd (unbounded.symm.trans bounded) (by simp)⟩
  exact List.drop_subset_drop_left _ (by omega) (valid.logged use member).2.2

end use

end NodeCache

end Fsapfs
