import Robins.Pipeline.Model
import Mathlib.Data.Finset.Card

/-!
# The duplicate cache

The identifiers seen lately, and a queue of them with their expiry.  The queue is read from the
front: expired entries go first, and the oldest ones make room when there are too many.

The two are kept apart in the code, and a set that has what the queue has not would never forget
it.  `Lists` says that the queue lists the set, each identifier once, and every call keeps it: an
entry that is dropped from the front goes out of the set too, an identifier is only put at the end
when the set does not have it, and forgetting one takes it out of both.

An entry whose lifetime is not over may be anywhere in the queue, and it stays where it is when the
front is pruned (`mem_pruneFrom`); nothing is assumed here about the order of the queue.  It goes
when it is forgotten, or when others have filled the cache; `Evicts` says when that is.
-/

namespace Robins
namespace Pipeline

/-- A bounded set of identifiers that are seen for some time. -/
structure DedupCache where
  capacity : ℕ
  ttl : Duration
  seen : Finset EnvelopeId
  order : List (EnvelopeId × Instant)

/-- An empty cache with room for one identifier at least. -/
def DedupCache.new (capacity : ℕ) (ttl : Duration) : DedupCache := ⟨max capacity 1, ttl, ∅, []⟩

def DedupCache.len (cache : DedupCache) : ℕ := cache.seen.card

/-- Drop an identifier, so that a later sighting is new again. -/
def DedupCache.forget (cache : DedupCache) (id : EnvelopeId) : DedupCache :=
  if id ∈ cache.seen then
    { cache with
      seen := cache.seen.erase id
      order := cache.order.filter fun entry => entry.1 ≠ id }
  else cache

/-- Drop the entries at the front of a queue that have expired. -/
def pruneFrom (now : Instant) :
    List (EnvelopeId × Instant) → Finset EnvelopeId →
      Finset EnvelopeId × List (EnvelopeId × Instant)
  | [], seen => (seen, [])
  | (id, expiry) :: order, seen =>
    if expiry > now then (seen, (id, expiry) :: order) else pruneFrom now order (seen.erase id)

/-- Drop the entries whose lifetime is over. -/
def DedupCache.pruneExpired (cache : DedupCache) (now : Instant) : DedupCache :=
  let (seen, order) := pruneFrom now cache.order cache.seen
  { cache with seen, order }

/-- Drop entries at the front of a queue until the identifiers fit. -/
def evictFrom (capacity : ℕ) :
    List (EnvelopeId × Instant) → Finset EnvelopeId →
      Finset EnvelopeId × List (EnvelopeId × Instant)
  | [], seen => (seen, [])
  | (id, expiry) :: order, seen =>
    if seen.card > capacity then evictFrom capacity order (seen.erase id)
    else (seen, (id, expiry) :: order)

/-- Evict the oldest entries until the cache is within its capacity. -/
def DedupCache.enforceCapacity (cache : DedupCache) : DedupCache :=
  let (seen, order) := evictFrom cache.capacity cache.order cache.seen
  { cache with seen, order }

/-- Record an identifier; whether it is new, that is, not held by a live entry. -/
def DedupCache.insertIfNewAt (cache : DedupCache) (id : EnvelopeId) (now : Instant) :
    Bool × DedupCache :=
  let cache := cache.pruneExpired now
  if id ∈ cache.seen then (false, cache)
  else
    (true, DedupCache.enforceCapacity { cache with
      seen := insert id cache.seen
      order := cache.order ++ [(id, now + cache.ttl)] })

/-- An identifier that is held is found to be a duplicate. -/
theorem DedupCache.insertIfNewAt_of_mem {cache : DedupCache} {id : EnvelopeId} {now : Instant}
    (h : id ∈ (cache.pruneExpired now).seen) :
    cache.insertIfNewAt id now = (false, cache.pruneExpired now) :=
  if_pos h

/-- A new one is put at the end of the queue, and the oldest make room for it. -/
theorem DedupCache.insertIfNewAt_of_notMem {cache : DedupCache} {id : EnvelopeId} {now : Instant}
    (h : id ∉ (cache.pruneExpired now).seen) :
    cache.insertIfNewAt id now = (true, DedupCache.enforceCapacity
      { cache.pruneExpired now with
        seen := insert id (cache.pruneExpired now).seen
        order := (cache.pruneExpired now).order ++ [(id, now + cache.ttl)] }) :=
  if_neg h

/-! ## What is seen -/

theorem pruneFrom_subset (now : Instant) (order : List (EnvelopeId × Instant)) :
    ∀ seen : Finset EnvelopeId, (pruneFrom now order seen).1 ⊆ seen := by
  induction order with
  | nil => exact fun seen => Finset.Subset.refl seen
  | cons entry order ih =>
    intro seen
    rw [pruneFrom]
    split_ifs with hlive
    · exact Finset.Subset.refl seen
    · exact (ih _).trans (Finset.erase_subset _ _)

theorem evictFrom_subset (capacity : ℕ) (order : List (EnvelopeId × Instant)) :
    ∀ seen : Finset EnvelopeId, (evictFrom capacity order seen).1 ⊆ seen := by
  induction order with
  | nil => exact fun seen => Finset.Subset.refl seen
  | cons entry order ih =>
    intro seen
    rw [evictFrom]
    split_ifs with hfull
    · exact (ih _).trans (Finset.erase_subset _ _)
    · exact Finset.Subset.refl seen

variable {cache : DedupCache} {id other : EnvelopeId} {now : Instant}

/-- A forgotten identifier is not held, and the others are. -/
theorem mem_seen_forget : other ∈ (cache.forget id).seen ↔ other ∈ cache.seen ∧ other ≠ id := by
  unfold DedupCache.forget
  split_ifs with hmem
  · rw [Finset.mem_erase, and_comm]
  · refine ⟨fun h => ⟨h, ?_⟩, And.left⟩
    rintro rfl
    exact hmem h

theorem mem_seen_of_mem_insertIfNewAt (h : other ∈ (cache.insertIfNewAt id now).2.seen) :
    other ∈ cache.seen ∨ (other = id ∧ (cache.insertIfNewAt id now).1 = true) := by
  have hprune := pruneFrom_subset now cache.order cache.seen
  unfold DedupCache.insertIfNewAt at h ⊢
  dsimp only at h ⊢
  split_ifs at h ⊢ with hmem
  · exact .inl (hprune h)
  · have hinsert := evictFrom_subset _ _ _ h
    rcases Finset.mem_insert.mp hinsert with heq | hold
    · exact .inr ⟨heq, rfl⟩
    · exact .inl (hprune hold)

/-- What is found to be a duplicate was held. -/
theorem mem_seen_of_insertIfNewAt_eq_false (h : (cache.insertIfNewAt id now).1 = false) :
    id ∈ cache.seen := by
  unfold DedupCache.insertIfNewAt at h
  dsimp only at h
  split_ifs at h with hmem
  exact pruneFrom_subset now cache.order cache.seen hmem

/-! ## The queue and the set -/

/-- The queue lists the identifiers of the set, each once. -/
def Lists (order : List (EnvelopeId × Instant)) (seen : Finset EnvelopeId) : Prop :=
  (order.map Prod.fst).Nodup ∧ ∀ id, id ∈ seen ↔ id ∈ order.map Prod.fst

section

variable {order : List (EnvelopeId × Instant)} {seen : Finset EnvelopeId}
  {entry : EnvelopeId × Instant} {capacity : ℕ}

/-- Taking the first entry out of both. -/
theorem Lists.tail (h : Lists (entry :: order) seen) : Lists order (seen.erase entry.1) := by
  obtain ⟨hnot, hnodup⟩ := List.nodup_cons.mp h.1
  refine ⟨hnodup, fun id => ?_⟩
  rw [Finset.mem_erase, h.2, List.map_cons, List.mem_cons]
  constructor
  · rintro ⟨hne, heq | hmem⟩
    · exact absurd heq hne
    · exact hmem
  · intro hmem
    refine ⟨?_, .inr hmem⟩
    rintro rfl
    exact hnot hmem

theorem Lists.pruneFrom (h : Lists order seen) (now : Instant) :
    Lists (pruneFrom now order seen).2 (pruneFrom now order seen).1 := by
  induction order generalizing seen with
  | nil => exact h
  | cons entry order ih =>
    rw [Pipeline.pruneFrom]
    split_ifs
    · exact h
    · exact ih h.tail

theorem Lists.evictFrom (h : Lists order seen) (capacity : ℕ) :
    Lists (evictFrom capacity order seen).2 (evictFrom capacity order seen).1 := by
  induction order generalizing seen with
  | nil => exact h
  | cons entry order ih =>
    rw [Pipeline.evictFrom]
    split_ifs
    · exact ih h.tail
    · exact h

/-- An entry whose lifetime is not over stays, wherever it is in the queue. -/
theorem mem_pruneFrom {now : Instant} (hmem : entry ∈ order) (hlive : now < entry.2) :
    entry ∈ (pruneFrom now order seen).2 := by
  induction order generalizing seen with
  | nil => exact hmem
  | cons first order ih =>
    rw [pruneFrom]
    split_ifs with hfirst
    · exact hmem
    · rcases List.mem_cons.mp hmem with rfl | hmem
      · exact absurd hlive hfirst
      · exact ih hmem

theorem evictFrom_subset_order (capacity : ℕ) (order : List (EnvelopeId × Instant)) :
    ∀ seen, (evictFrom capacity order seen).2 ⊆ order := by
  induction order with
  | nil => exact fun seen => List.Subset.refl _
  | cons first order ih =>
    intro seen
    rw [evictFrom]
    split_ifs
    · exact List.Subset.trans (ih _) (List.subset_cons_self _ _)
    · exact List.Subset.refl _

/-- Entries are evicted from the front, and one fits, so the last one stays. -/
theorem mem_evictFrom_last (hcapacity : 0 < capacity) (h : Lists (order ++ [entry]) seen) :
    entry ∈ (evictFrom capacity (order ++ [entry]) seen).2 := by
  induction order generalizing seen with
  | nil =>
    have hseen : seen = {entry.1} := by
      ext id
      rw [h.2, Finset.mem_singleton]
      simp
    have hfits : ¬ seen.card > capacity := by
      rw [hseen, Finset.card_singleton]
      omega
    rw [List.nil_append, evictFrom, if_neg hfits]
    exact List.mem_singleton_self entry
  | cons first order ih =>
    rw [List.cons_append, evictFrom]
    split_ifs
    · exact ih h.tail
    · exact List.mem_cons_of_mem first (List.mem_append_right order (List.mem_singleton_self entry))

end

namespace DedupCache

/-- A cache as it is between two calls. -/
structure Sound (cache : DedupCache) : Prop where
  lists : Lists cache.order cache.seen
  capacity_pos : 0 < cache.capacity

theorem sound_new (capacity : ℕ) (ttl : Duration) : (DedupCache.new capacity ttl).Sound where
  lists := ⟨List.nodup_nil, fun id => by simp [DedupCache.new]⟩
  capacity_pos := Nat.lt_of_lt_of_le Nat.one_pos (Nat.le_max_right capacity 1)

/-- Recording `other` makes room at the expense of `id`, whose lifetime was not over. -/
def Evicts (cache : DedupCache) (id other : EnvelopeId) (now : Instant) : Prop :=
  id ∈ (cache.pruneExpired now).seen ∧ id ∉ (cache.insertIfNewAt other now).2.seen

instance (cache : DedupCache) (id other : EnvelopeId) (now : Instant) :
    Decidable (cache.Evicts id other now) := inferInstanceAs (Decidable (_ ∧ _))

variable {cache : DedupCache} {id other : EnvelopeId} {now expiry : Instant}

@[simp] theorem ttl_insertIfNewAt : (cache.insertIfNewAt id now).2.ttl = cache.ttl := by
  unfold insertIfNewAt
  dsimp only
  split_ifs <;> rfl

@[simp] theorem ttl_forget : (cache.forget id).ttl = cache.ttl := by
  unfold forget
  split_ifs <;> rfl

theorem Sound.forget (h : cache.Sound) (id : EnvelopeId) : (cache.forget id).Sound := by
  unfold DedupCache.forget
  split_ifs
  · refine ⟨⟨h.lists.1.sublist (List.filter_sublist.map _), fun other => ?_⟩, h.capacity_pos⟩
    rw [Finset.mem_erase, h.lists.2]
    simp only [List.mem_map, List.mem_filter, decide_eq_true_eq]
    constructor
    · rintro ⟨hne, entry, hentry, rfl⟩
      exact ⟨entry, ⟨hentry, hne⟩, rfl⟩
    · rintro ⟨entry, ⟨hentry, hne⟩, rfl⟩
      exact ⟨hne, entry, hentry, rfl⟩
  · exact h

theorem mem_order_forget (hne : other ≠ id) (hmem : (id, expiry) ∈ cache.order) :
    (id, expiry) ∈ (cache.forget other).order := by
  unfold DedupCache.forget
  split_ifs
  · exact List.mem_filter.mpr ⟨hmem, decide_eq_true hne.symm⟩
  · exact hmem

/-- The queue and the set a new identifier is added to. -/
theorem Sound.lists_insert (h : cache.Sound) (hnew : id ∉ (cache.pruneExpired now).seen) :
    Lists ((cache.pruneExpired now).order ++ [(id, now + cache.ttl)])
      (insert id (cache.pruneExpired now).seen) := by
  have hlists := h.lists.pruneFrom now
  have hkeys : id ∉ (cache.pruneExpired now).order.map Prod.fst := mt (hlists.2 id).mpr hnew
  refine ⟨?_, fun other => ?_⟩
  · rw [List.map_append]
    exact List.nodup_append.mpr ⟨hlists.1, List.nodup_singleton _, by
      rintro a ha b hb rfl
      rw [List.map_singleton, List.mem_singleton] at hb
      subst hb
      exact hkeys ha⟩
  · rw [Finset.mem_insert, List.map_append, List.mem_append, List.map_singleton,
      List.mem_singleton, or_comm]
    exact or_congr_left (hlists.2 other)

theorem Sound.insertIfNewAt (h : cache.Sound) (id : EnvelopeId) (now : Instant) :
    (cache.insertIfNewAt id now).2.Sound := by
  unfold DedupCache.insertIfNewAt
  dsimp only
  split_ifs with hmem
  · exact ⟨h.lists.pruneFrom now, h.capacity_pos⟩
  · exact ⟨(h.lists_insert hmem).evictFrom _, h.capacity_pos⟩

/-- **A new identifier is recorded** with its expiry. -/
theorem Sound.mem_order_of_new (h : cache.Sound) (hnew : (cache.insertIfNewAt id now).1 = true) :
    (id, now + cache.ttl) ∈ (cache.insertIfNewAt id now).2.order := by
  unfold DedupCache.insertIfNewAt at hnew ⊢
  dsimp only at hnew ⊢
  split_ifs at hnew ⊢ with hmem
  exact mem_evictFrom_last h.capacity_pos (h.lists_insert hmem)

/-- An entry whose lifetime is not over is still in the set. -/
theorem Sound.mem_pruneExpired (h : cache.Sound) (hmem : (id, expiry) ∈ cache.order)
    (hlive : now < expiry) : id ∈ (cache.pruneExpired now).seen :=
  ((h.lists.pruneFrom now).2 id).mpr
    (List.mem_map_of_mem (f := Prod.fst) (mem_pruneFrom hmem hlive))

/-- **An identifier is a duplicate** until its lifetime is over. -/
theorem Sound.insertIfNewAt_eq_false (h : cache.Sound) (hmem : (id, expiry) ∈ cache.order)
    (hlive : now < expiry) : (cache.insertIfNewAt id now).1 = false := by
  rw [insertIfNewAt_of_mem (h.mem_pruneExpired hmem hlive)]

/-- **An entry is kept** unless its lifetime is over or another takes its room. -/
theorem Sound.mem_order_insertIfNewAt (h : cache.Sound) (hmem : (id, expiry) ∈ cache.order)
    (hlive : now < expiry) (hkeep : ¬ cache.Evicts id other now) :
    (id, expiry) ∈ (cache.insertIfNewAt other now).2.order := by
  have hpruned : (id, expiry) ∈ (pruneFrom now cache.order cache.seen).2 :=
    mem_pruneFrom hmem hlive
  have hseen : id ∈ (cache.insertIfNewAt other now).2.seen := by
    by_contra hnot
    exact hkeep ⟨h.mem_pruneExpired hmem hlive, hnot⟩
  unfold DedupCache.insertIfNewAt at hseen ⊢
  dsimp only at hseen ⊢
  split_ifs at hseen ⊢ with hold
  · exact hpruned
  · have hlists := h.lists_insert hold
    have hkey := ((hlists.evictFrom _).2 id).mp hseen
    obtain ⟨entry, hentry, rfl⟩ := List.mem_map.mp hkey
    -- an identifier has one entry
    have hsame : entry = (entry.1, expiry) := List.inj_on_of_nodup_map hlists.1
      (evictFrom_subset_order _ _ _ hentry) (List.mem_append_left _ hpruned) rfl
    rw [hsame] at hentry
    exact hentry

end DedupCache

end Pipeline
end Robins
