import Robins.Pipeline.Dedup
import Robins.Lib.SlidingWindow
import Mathlib.Data.List.TakeWhile

/-!
# What the duplicate cache suppresses

The cache keeps a set for the question whether an identifier is known, and a queue of the same
identifiers with the times they expire.  Its lifetime is the same for all, so the queue is in the
order of expiry, and both expiry and eviction are taken off its front.

Over a whole history of calls the cache does what a sliding window should: an identifier is found
to be a duplicate exactly when its last successful insertion is not too long ago and it has neither
been forgotten nor pushed out since.  The window is the general one, over the history alone; the
cache keeps it (`Run.keeps`) because pruning the front of a queue that is sorted is the same as
dropping whatever has expired, and evicting the front the same as keeping the newest.

All this needs that the times of the calls do not decrease, and nothing else.
-/

namespace Robins
namespace Pipeline

open SlidingWindow

/-! ## The queue, without the set -/

theorem pruneFrom_order (now : Instant) (order : List (EnvelopeId × Instant)) :
    ∀ seen, (pruneFrom now order seen).2 = order.dropWhile fun e => e.2 ≤ now := by
  induction order with
  | nil => exact fun seen => rfl
  | cons entry order ih =>
    intro seen
    obtain ⟨id, expiry⟩ := entry
    rw [pruneFrom, List.dropWhile_cons]
    by_cases hlive : expiry > now
    · rw [if_pos hlive, if_neg (by simpa using hlive)]
    · rw [if_neg hlive, if_pos (by simpa using hlive)]
      exact ih _

section

variable {order : List (EnvelopeId × Instant)} {seen : Finset EnvelopeId}

theorem Lists.card_eq (h : Lists order seen) : seen.card = order.length := by
  have hseen : seen = (order.map Prod.fst).toFinset := by
    ext id
    rw [h.2, List.mem_toFinset]
  rw [hseen, List.toFinset_card_of_nodup h.1, List.length_map]

theorem Lists.evictFrom_order (h : Lists order seen) (capacity : ℕ) :
    (Pipeline.evictFrom capacity order seen).2 = order.drop (order.length - capacity) := by
  induction order generalizing seen with
  | nil =>
    rw [List.drop_nil]
    rfl
  | cons entry order ih =>
    have hcard := h.card_eq
    rw [Pipeline.evictFrom]
    rw [List.length_cons] at hcard ⊢
    by_cases hfull : seen.card > capacity
    · rw [if_pos hfull, ih h.tail,
        show order.length + 1 - capacity = order.length - capacity + 1 by omega,
        List.drop_succ_cons]
    · rw [if_neg hfull, show order.length + 1 - capacity = 0 by omega, List.drop_zero]

end

/-- The entry of the queue for an insertion at some time. -/
def expiring (ttl : Duration) (e : EnvelopeId × Instant) : EnvelopeId × Instant :=
  (e.1, e.2 + ttl)

/-- In a queue sorted by time, what is left after the expired entries is not expired. -/
theorem live_of_mem_dropWhile (ttl : Duration) (now : Instant)
    {kept : List (EnvelopeId × Instant)} (hsorted : kept.Pairwise fun e e' => e.2 ≤ e'.2) :
    ∀ e ∈ kept.dropWhile (fun e => e.2 + ttl ≤ now), now < e.2 + ttl := by
  induction kept with
  | nil => simp
  | cons first kept ih =>
    obtain ⟨hfirst, hrest⟩ := List.pairwise_cons.mp hsorted
    intro e he
    rw [List.dropWhile_cons] at he
    split at he
    · exact ih hrest e he
    · next hlive =>
      have hlive : now < first.2 + ttl := by simpa using hlive
      rcases List.mem_cons.mp he with rfl | he
      · exact hlive
      · exact hlive.trans_le (Nat.add_le_add_right (hfirst e he) ttl)

theorem expired_of_mem_takeWhile {ttl : Duration} {now : Instant}
    {kept : List (EnvelopeId × Instant)} {e : EnvelopeId × Instant}
    (h : e ∈ kept.takeWhile fun e => e.2 + ttl ≤ now) : e.2 + ttl ≤ now := by
  have himp := List.mem_takeWhile_imp h
  exact of_decide_eq_true himp

namespace DedupCache

/-! ## Histories of the cache -/

/-- A cache after a history of calls, whose times do not decrease. -/
inductive Run (capacity : ℕ) (ttl : Duration) : List (Call EnvelopeId) → DedupCache → Prop where
  | new : Run capacity ttl [] (DedupCache.new capacity ttl)
  | insert {calls : List (Call EnvelopeId)} {cache : DedupCache} (h : Run capacity ttl calls cache)
      (id : EnvelopeId) (now : Instant) (hnow : ∀ t ∈ times calls, t ≤ now) :
      Run capacity ttl (calls ++ [.insert id now (cache.insertIfNewAt id now).1])
        (cache.insertIfNewAt id now).2
  | forget {calls : List (Call EnvelopeId)} {cache : DedupCache} (h : Run capacity ttl calls cache)
      (id : EnvelopeId) : Run capacity ttl (calls ++ [.forget id]) (cache.forget id)

variable {capacity : ℕ} {ttl : Duration} {calls : List (Call EnvelopeId)} {cache : DedupCache}

theorem Run.times_sorted (h : Run capacity ttl calls cache) :
    (times calls).Pairwise (· ≤ ·) := by
  induction h with
  | new => exact List.Pairwise.nil
  | insert h id now hnow ih =>
    rw [times_snoc]
    refine List.pairwise_append.mpr ⟨ih, List.pairwise_singleton _ _, fun t ht t' ht' => ?_⟩
    obtain rfl := List.mem_singleton.mp ht'
    exact hnow t ht
  | forget h id ih =>
    rw [times_snoc]
    refine List.pairwise_append.mpr ⟨ih, List.Pairwise.nil, fun t _ t' ht' => ?_⟩
    exact absurd ht' (by simp [Call.time?])

/-- The cache keeps the window: its queue is that of the entries kept, with their expiry. -/
structure Keeps (capacity : ℕ) (ttl : Duration) (calls : List (Call EnvelopeId))
    (cache : DedupCache) (now : Instant) (gone kept : List (EnvelopeId × Instant)) : Prop where
  sound : cache.Sound
  capacity_eq : cache.capacity = max capacity 1
  ttl_eq : cache.ttl = ttl
  order_eq : cache.order = kept.map (expiring ttl)
  tracks : Tracks (max capacity 1) ttl now calls gone kept

section

variable {now now' : Instant} {gone kept : List (EnvelopeId × Instant)}

theorem Keeps.sorted (h : Keeps capacity ttl calls cache now gone kept)
    (hsorted : (times calls).Pairwise (· ≤ ·)) : kept.Pairwise fun e e' => e.2 ≤ e'.2 := by
  have hstanding := sorted_standing hsorted
  rw [h.tracks.standing_eq] at hstanding
  exact (List.pairwise_append.mp hstanding).2.1

theorem Keeps.order_pruneExpired (h : Keeps capacity ttl calls cache now gone kept)
    (now' : Instant) :
    (cache.pruneExpired now').order =
      (kept.dropWhile fun e => e.2 + ttl ≤ now').map (expiring ttl) := by
  show (pruneFrom now' cache.order cache.seen).2 = _
  rw [pruneFrom_order, h.order_eq, List.dropWhile_map]
  rfl

theorem map_fst_expiring (ttl : Duration) (l : List (EnvelopeId × Instant)) :
    (l.map (expiring ttl)).map Prod.fst = l.map Prod.fst := by
  rw [List.map_map]
  rfl

/-- The identifiers that are found to be duplicates. -/
theorem Keeps.mem_pruneExpired_iff (h : Keeps capacity ttl calls cache now gone kept)
    (now' : Instant) (id : EnvelopeId) :
    id ∈ (cache.pruneExpired now').seen ↔
      id ∈ (kept.dropWhile fun e => e.2 + ttl ≤ now').map Prod.fst := by
  have hlists := (h.sound.lists.pruneFrom now').2 id
  have horder := h.order_pruneExpired now'
  rw [pruneExpired] at horder ⊢
  dsimp only at horder ⊢
  rw [hlists, horder, map_fst_expiring]

theorem insertIfNewAt_eq_false_iff {id : EnvelopeId} :
    (cache.insertIfNewAt id now).1 = false ↔ id ∈ (cache.pruneExpired now).seen := by
  by_cases hmem : id ∈ (cache.pruneExpired now).seen
  · rw [insertIfNewAt_of_mem hmem]
    exact iff_of_true rfl hmem
  · rw [insertIfNewAt_of_notMem hmem]
    exact iff_of_false (by simp) hmem

theorem Keeps.forget (h : Keeps capacity ttl calls cache now gone kept) (id : EnvelopeId) :
    Keeps capacity ttl (calls ++ [.forget id]) (cache.forget id) now
      (gone.filter fun e => e.1 ≠ id) (kept.filter fun e => e.1 ≠ id) where
  sound := h.sound.forget id
  capacity_eq := by
    unfold DedupCache.forget
    split_ifs
    · exact h.capacity_eq
    · exact h.capacity_eq
  ttl_eq := by rw [ttl_forget, h.ttl_eq]
  order_eq := by
    have hfilter : (kept.filter fun e => e.1 ≠ id).map (expiring ttl) =
        cache.order.filter fun e => e.1 ≠ id := by
      rw [h.order_eq, List.filter_map]
      rfl
    rw [hfilter]
    unfold DedupCache.forget
    split_ifs with hmem
    · rfl
    · refine (List.filter_eq_self.mpr fun e he => decide_eq_true ?_).symm
      rintro rfl
      exact hmem ((h.sound.lists.2 _).mpr (List.mem_map_of_mem he))
  tracks := h.tracks.forget id

/-- **Inserting**, whether or not the identifier is new. -/
theorem Keeps.insert (h : Keeps capacity ttl calls cache now gone kept)
    (hsorted : (times calls).Pairwise (· ≤ ·)) (htimes : ∀ t ∈ times calls, t ≤ now)
    (hnow : now ≤ now') (id : EnvelopeId) :
    ∃ gone' kept', Keeps capacity ttl
      (calls ++ [.insert id now' (cache.insertIfNewAt id now').1]) (cache.insertIfNewAt id now').2
      now' gone' kept' := by
  have hsplit := List.takeWhile_append_dropWhile (p := fun e => decide (e.2 + ttl ≤ now'))
    (l := kept)
  have hlive := live_of_mem_dropWhile ttl now' (h.sorted hsorted)
  have hexpired : ∀ e ∈ kept.takeWhile (fun e => decide (e.2 + ttl ≤ now')), e.2 + ttl ≤ now' :=
    fun e he => expired_of_mem_takeWhile he
  have hmem := h.mem_pruneExpired_iff now' id
  have horder := h.order_pruneExpired now'
  have htracks := h.tracks
  rw [← hsplit] at htracks
  generalize kept.takeWhile (fun e => decide (e.2 + ttl ≤ now')) = expired at *
  generalize kept.dropWhile (fun e => decide (e.2 + ttl ≤ now')) = live at *
  have hsound := h.sound.insertIfNewAt id now'
  by_cases hseen : id ∈ (cache.pruneExpired now').seen
  · rw [insertIfNewAt_of_mem hseen] at hsound ⊢
    exact ⟨_, live, hsound, h.capacity_eq, h.ttl_eq, horder,
      htracks.refuse hnow hexpired id⟩
  · rw [insertIfNewAt_of_notMem hseen] at hsound ⊢
    refine ⟨_, (live ++ [(id, now')]).drop (live.length + 1 - max capacity 1), hsound,
      h.capacity_eq, h.ttl_eq, ?_, htracks.record (by omega) hnow htimes hexpired hlive
        (mt hmem.mpr hseen)⟩
    have hevict := (h.sound.lists_insert hseen).evictFrom_order cache.capacity
    rw [enforceCapacity]
    dsimp only
    rw [show (cache.pruneExpired now').capacity = cache.capacity from rfl, hevict, horder,
      h.ttl_eq, h.capacity_eq, List.map_drop, List.map_append, List.length_append,
      List.length_map]
    rfl

end

/-- **The cache keeps the window** over every history of calls.  A call is refused, recorded, or
forgets, and for each the window has a rule. -/
theorem Run.keeps (h : Run capacity ttl calls cache) :
    ∃ now gone kept, (∀ t ∈ times calls, t ≤ now) ∧ (now = 0 ∨ now ∈ times calls) ∧
      Keeps capacity ttl calls cache now gone kept := by
  induction h with
  | new => exact ⟨0, [], [], by simp [times], .inl rfl, sound_new capacity ttl, rfl, rfl, rfl,
      tracks_nil _ _ _⟩
  | @insert calls cache h id now' hnow' ih =>
    obtain ⟨now, gone, kept, htimes, hlast, hkeeps⟩ := ih
    have hnow : now ≤ now' := by
      rcases hlast with rfl | hlast
      · exact Nat.zero_le _
      · exact hnow' now hlast
    obtain ⟨gone', kept', hkeeps'⟩ := hkeeps.insert h.times_sorted htimes hnow id
    refine ⟨now', gone', kept', ?_, .inr ?_, hkeeps'⟩
    · intro t ht
      rw [times_snoc] at ht
      rcases List.mem_append.mp ht with ht | ht
      · exact hnow' t ht
      · exact (List.mem_singleton.mp ht).le
    · rw [times_snoc]
      exact List.mem_append_right _ (List.mem_singleton_self now')
  | @forget calls cache h id ih =>
    obtain ⟨now, gone, kept, htimes, hlast, hkeeps⟩ := ih
    have hsame : times (calls ++ [.forget id]) = times calls := by
      rw [times_snoc]
      exact List.append_nil _
    exact ⟨now, _, _, by rwa [hsame], by rwa [hsame], hkeeps.forget id⟩

/-- **The duplicate cache refines its specification.**  Over every history of calls the set
and the queue hold the same identifiers, the queue is sorted by expiry, and they are at most
`max capacity 1`; and an identifier is a duplicate exactly when its last successful insertion
is not too long ago, and it has neither been forgotten nor pushed out since. -/
theorem dedup_refines (capacity : ℕ) (ttl : Duration) (calls : List (Call EnvelopeId))
    (cache : DedupCache) (h : Run capacity ttl calls cache) :
    Lists cache.order cache.seen ∧ cache.order.Pairwise (fun e e' => e.2 ≤ e'.2) ∧
      cache.len ≤ max capacity 1 ∧
      ∀ (id : EnvelopeId) (now : Instant), (∀ t ∈ times calls, t ≤ now) →
        ((cache.insertIfNewAt id now).1 = false ↔
          ∃ t before since, Stands calls id t before since ∧ now < t + ttl ∧
            ¬ PushedOut (max capacity 1) ttl id t before since) := by
  obtain ⟨last, gone, kept, -, hlast, hkeeps⟩ := h.keeps
  have hsorted := hkeeps.sorted h.times_sorted
  refine ⟨hkeeps.sound.lists, ?_, ?_, ?_⟩
  · rw [hkeeps.order_eq, List.pairwise_map]
    exact hsorted.imp fun hle => Nat.add_le_add_right hle ttl
  · rw [len, hkeeps.sound.lists.card_eq, hkeeps.order_eq, List.length_map]
    exact hkeeps.tracks.length_le
  · intro id now hnow
    have hle : last ≤ now := by
      rcases hlast with rfl | hlast
      · exact Nat.zero_le _
      · exact hnow last hlast
    rw [insertIfNewAt_eq_false_iff, hkeeps.mem_pruneExpired_iff, ← hkeeps.tracks.holds_iff hle id]
    constructor
    · intro hmem
      obtain ⟨e, he, rfl⟩ := List.mem_map.mp hmem
      exact ⟨e.2, (List.dropWhile_suffix _).subset he, live_of_mem_dropWhile _ _ hsorted e he⟩
    · rintro ⟨t, hmem, hlive⟩
      refine List.mem_map.mpr ⟨(id, t), ?_, rfl⟩
      -- what is live is not among the expired entries at the front
      rw [← List.takeWhile_append_dropWhile (p := fun e => decide (e.2 + ttl ≤ now)) (l := kept)]
        at hmem
      rcases List.mem_append.mp hmem with hmem | hmem
      · have hover : t + ttl ≤ now := expired_of_mem_takeWhile hmem
        exact absurd hlive (by omega)
      · exact hmem

def idOf (n : UInt8) : EnvelopeId := ⟨.replicate 32 n⟩

/-- A cache with room for one: the second identifier pushes the first out, and is
forgotten. -/
def crowdedCache : DedupCache :=
  ((((DedupCache.new 1 10).insertIfNewAt (idOf 1) 0).2.insertIfNewAt (idOf 2) 1).2).forget (idOf 2)

theorem run_crowdedCache : ∃ calls, Run 1 10 calls crowdedCache ∧ times calls = [0, 1] := by
  have hnew : Run 1 10 [] (DedupCache.new 1 10) := .new
  have hfirst := hnew.insert (idOf 1) 0 (by simp [times])
  have hsecond := hfirst.insert (idOf 2) 1 (by simp [times, Call.time?])
  exact ⟨_, hsecond.forget (idOf 2), rfl⟩

theorem dedup_refines_crowdedCache :
    ∃ calls, (crowdedCache.insertIfNewAt (idOf 1) 2).1 = true ∧
      ((crowdedCache.insertIfNewAt (idOf 1) 2).1 = false ↔
        ∃ t before since, Stands calls (idOf 1) t before since ∧ 2 < t + 10 ∧
          ¬ PushedOut (max 1 1) 10 (idOf 1) t before since) := by
  obtain ⟨calls, hrun, htimes⟩ := run_crowdedCache
  have hall := (dedup_refines 1 10 calls crowdedCache hrun).2.2.2
  exact ⟨calls, by decide +kernel, hall (idOf 1) 2 (by rw [htimes]; decide)⟩

end DedupCache

end Pipeline
end Robins
