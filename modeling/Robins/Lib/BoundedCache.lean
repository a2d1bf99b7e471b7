import Mathlib.Data.List.Basic

/-!
# Bounded caches

A cache with room for so many entries: `put` forgets some other entry when the cache is full, and
nothing else is forgotten except by `pop`.  Which entry makes room is left open.  `CacheOps` lists
the operations and `CacheOps.Lawful` says what they do; a program that uses a cache is modelled
over any lawful one, and then nothing that is proved of it depends on the choice.

What such a program relies on is `Lawful.len_put_le`, the bound, and `Lawful.peek_put`, that an
entry which is found after a `put` is the new one or was there before: a cache may forget, but it
does not invent.

`recencyCache` is the cache that forgets the least recently used entry: a list of entries with
different keys, the most recently used first.  That it is lawful shows that the laws can be met.
-/

/-- The operations of a bounded cache. -/
structure CacheOps (κ ν : Type) where
  Cache : Type
  /-- An empty cache with room for so many entries. -/
  new : ℕ → Cache
  /-- Look at an entry without using it. -/
  peek : Cache → κ → Option ν
  get : Cache → κ → Option ν × Cache
  put : Cache → κ → ν → Cache
  pop : Cache → κ → Cache
  len : Cache → ℕ
  cap : Cache → ℕ

namespace CacheOps

variable {κ ν : Type}

/-- What the operations do. -/
structure Lawful (ops : CacheOps κ ν) : Prop where
  cap_new : ∀ n, ops.cap (ops.new n) = n
  len_new : ∀ n, ops.len (ops.new n) = 0
  peek_new : ∀ n k, ops.peek (ops.new n) k = none
  get_fst : ∀ c k, (ops.get c k).1 = ops.peek c k
  cap_get : ∀ c k, ops.cap (ops.get c k).2 = ops.cap c
  len_get : ∀ c k, ops.len (ops.get c k).2 = ops.len c
  peek_get : ∀ c k k', ops.peek (ops.get c k).2 k' = ops.peek c k'
  cap_pop : ∀ c k, ops.cap (ops.pop c k) = ops.cap c
  len_pop : ∀ c k, ops.len (ops.pop c k) ≤ ops.len c
  peek_pop_self : ∀ c k, ops.peek (ops.pop c k) k = none
  peek_pop_of_ne : ∀ c k k', k' ≠ k → ops.peek (ops.pop c k) k' = ops.peek c k'
  cap_put : ∀ c k v, ops.cap (ops.put c k v) = ops.cap c
  /-- A known key is given another value. -/
  len_put_of_some : ∀ c k v w, ops.peek c k = some w → ops.len (ops.put c k v) = ops.len c
  /-- A new key takes one place, as long as there is one. -/
  len_put_of_lt : ∀ c k v, ops.len c < ops.cap c → ops.len (ops.put c k v) ≤ ops.len c + 1
  /-- In a full cache it takes the place of another key. -/
  len_put_of_full : ∀ c k v, ops.len c = ops.cap c → 0 < ops.cap c →
    ops.len (ops.put c k v) = ops.len c
  peek_put_self : ∀ c k v, 0 < ops.cap c → ops.peek (ops.put c k v) k = some v
  /-- Other entries stay, or make room. -/
  peek_put_of_ne : ∀ c k v k', k' ≠ k →
    ops.peek (ops.put c k v) k' = ops.peek c k' ∨ ops.peek (ops.put c k v) k' = none

variable {ops : CacheOps κ ν}

/-- **The bound** is kept by `put`. -/
theorem Lawful.len_put_le (h : ops.Lawful) {c : ops.Cache} (hpos : 0 < ops.cap c)
    (hlen : ops.len c ≤ ops.cap c) (k : κ) (v : ν) :
    ops.len (ops.put c k v) ≤ ops.cap (ops.put c k v) := by
  rw [h.cap_put]
  rcases Nat.lt_or_eq_of_le hlen with hlt | hfull
  · have hput := h.len_put_of_lt c k v hlt
    omega
  · rw [h.len_put_of_full c k v hfull hpos]
    exact hlen

/-- An entry found after a `put` is the new one or was there before. -/
theorem Lawful.peek_put (h : ops.Lawful) {c : ops.Cache} (hpos : 0 < ops.cap c) {k k' : κ}
    {v w : ν} (hpeek : ops.peek (ops.put c k v) k' = some w) :
    (k' = k ∧ w = v) ∨ ops.peek c k' = some w := by
  by_cases hk : k' = k
  · subst hk
    rw [h.peek_put_self c k' v hpos] at hpeek
    exact .inl ⟨rfl, (Option.some.inj hpeek).symm⟩
  · rcases h.peek_put_of_ne c k v k' hk with hsame | hnone
    · exact .inr (hsame ▸ hpeek)
    · rw [hnone] at hpeek
      exact absurd hpeek (by simp)

end CacheOps

/-! ## Recency lists -/

/-- Entries with different keys, the most recently used first. -/
structure RecencyList (κ ν : Type) where
  cap : ℕ
  entries : List (κ × ν)
  nodup : (entries.map Prod.fst).Nodup

namespace RecencyList

variable {κ ν : Type} [DecidableEq κ]

/-- The value of a key. -/
def find (entries : List (κ × ν)) (k : κ) : Option ν :=
  (entries.find? fun p => decide (p.1 = k)).map Prod.snd

/-- The entries of other keys. -/
def others (entries : List (κ × ν)) (k : κ) : List (κ × ν) :=
  entries.filter fun p => decide (p.1 ≠ k)

theorem find_cons_self (k : κ) (v : ν) (l : List (κ × ν)) : find ((k, v) :: l) k = some v := by
  simp [find]

theorem find_cons_of_ne {k k' : κ} (h : k' ≠ k) (v : ν) (l : List (κ × ν)) :
    find ((k, v) :: l) k' = find l k' := by
  simp [find, h.symm]

theorem find_eq_none_iff {l : List (κ × ν)} {k : κ} : find l k = none ↔ k ∉ l.map Prod.fst := by
  rw [find, Option.map_eq_none_iff, List.find?_eq_none]
  constructor
  · intro h hk
    obtain ⟨p, hp, rfl⟩ := List.mem_map.mp hk
    exact h p hp (decide_eq_true rfl)
  · rintro h p hp heq
    exact h (of_decide_eq_true heq ▸ List.mem_map_of_mem hp)

theorem find_others_self (l : List (κ × ν)) (k : κ) : find (others l k) k = none := by
  rw [find_eq_none_iff]
  intro hk
  obtain ⟨p, hp, rfl⟩ := List.mem_map.mp hk
  exact of_decide_eq_true (List.mem_filter.mp hp).2 rfl

theorem find_others_of_ne {k k' : κ} (h : k' ≠ k) (l : List (κ × ν)) :
    find (others l k) k' = find l k' := by
  induction l with
  | nil => rfl
  | cons p l ih =>
    obtain ⟨q, v⟩ := p
    by_cases hq : q = k
    · subst hq
      rw [find_cons_of_ne h, ← ih, others, List.filter_cons_of_neg (by simp)]
      rfl
    · rw [others, List.filter_cons_of_pos (by simp [hq])]
      by_cases hk : k' = q
      · subst hk
        rw [find_cons_self, find_cons_self]
      · rw [find_cons_of_ne hk, find_cons_of_ne hk]
        exact ih

theorem others_of_find_eq_none {l : List (κ × ν)} {k : κ} (h : find l k = none) :
    others l k = l := by
  rw [find_eq_none_iff] at h
  refine List.filter_eq_self.mpr fun p hp => decide_eq_true ?_
  rintro rfl
  exact h (List.mem_map_of_mem hp)

theorem length_others {l : List (κ × ν)} {k : κ} {v : ν} (hnodup : (l.map Prod.fst).Nodup)
    (h : find l k = some v) : (others l k).length + 1 = l.length := by
  induction l with
  | nil => exact absurd h (by simp [find])
  | cons p l ih =>
    obtain ⟨q, w⟩ := p
    rw [List.map_cons, List.nodup_cons] at hnodup
    by_cases hq : q = k
    · subst hq
      have hrest : others l q = l := others_of_find_eq_none (find_eq_none_iff.mpr hnodup.1)
      rw [others, List.filter_cons_of_neg (by simp), List.length_cons]
      rw [others] at hrest
      rw [hrest]
    · rw [find_cons_of_ne (Ne.symm hq)] at h
      rw [others, List.filter_cons_of_pos (by simp [hq]), List.length_cons, List.length_cons]
      have hrest := ih hnodup.2 h
      rw [others] at hrest
      rw [hrest]

/-- The last entry goes: its key is no longer found. -/
theorem find_dropLast (l : List (κ × ν)) (k : κ) :
    find l.dropLast k = find l k ∨ find l.dropLast k = none := by
  induction l with
  | nil => exact .inl rfl
  | cons p l ih =>
    cases l with
    | nil => exact .inr rfl
    | cons q l =>
      obtain ⟨a, v⟩ := p
      rw [List.dropLast_cons_cons]
      by_cases ha : k = a
      · subst ha
        exact .inl (by rw [find_cons_self, find_cons_self])
      · rw [find_cons_of_ne ha, find_cons_of_ne ha]
        exact ih

theorem nodup_front {l l' : List (κ × ν)} {k : κ} (v : ν) (hsub : l'.Sublist l)
    (hnodup : (l.map Prod.fst).Nodup) (hk : find l' k = none) :
    (((k, v) :: l').map Prod.fst).Nodup := by
  rw [List.map_cons, List.nodup_cons]
  exact ⟨find_eq_none_iff.mp hk, (hsub.map _).nodup hnodup⟩

/-- Use an entry: it comes first. -/
def get (c : RecencyList κ ν) (k : κ) : Option ν × RecencyList κ ν :=
  match find c.entries k with
  | none => (none, c)
  | some v => (some v, ⟨c.cap, (k, v) :: others c.entries k,
      nodup_front v List.filter_sublist c.nodup (find_others_self _ _)⟩)

/-- A new entry comes first; the last one makes room if necessary. -/
def put (c : RecencyList κ ν) (k : κ) (v : ν) : RecencyList κ ν :=
  if hfound : find c.entries k = none then
    if c.entries.length < c.cap then
      ⟨c.cap, (k, v) :: c.entries, nodup_front v (List.Sublist.refl _) c.nodup hfound⟩
    else
      ⟨c.cap, (k, v) :: c.entries.dropLast,
        nodup_front v (List.dropLast_sublist _) c.nodup
          ((find_dropLast c.entries k).elim (fun h => h.trans hfound) id)⟩
  else
    ⟨c.cap, (k, v) :: others c.entries k,
      nodup_front v List.filter_sublist c.nodup (find_others_self _ _)⟩

def pop (c : RecencyList κ ν) (k : κ) : RecencyList κ ν :=
  ⟨c.cap, others c.entries k, (List.filter_sublist.map _).nodup c.nodup⟩

end RecencyList

section

variable (κ ν : Type) [DecidableEq κ]

/-- The cache that forgets the least recently used entry. -/
def recencyCache : CacheOps κ ν where
  Cache := RecencyList κ ν
  new n := ⟨n, [], List.nodup_nil⟩
  peek c := RecencyList.find c.entries
  get := RecencyList.get
  put := RecencyList.put
  pop := RecencyList.pop
  len c := c.entries.length
  cap := RecencyList.cap

open RecencyList in
/-- **A recency list is a bounded cache.** -/
theorem recencyCache_lawful : (recencyCache κ ν).Lawful where
  cap_new _ := rfl
  len_new _ := rfl
  peek_new _ _ := rfl
  get_fst c k := by
    show (RecencyList.get c k).1 = find c.entries k
    unfold RecencyList.get
    split <;> simp_all
  cap_get c k := by
    show (RecencyList.get c k).2.cap = c.cap
    unfold RecencyList.get
    split <;> rfl
  len_get c k := by
    show (RecencyList.get c k).2.entries.length = c.entries.length
    unfold RecencyList.get
    split
    · rfl
    · next v hfound => exact length_others c.nodup hfound
  peek_get c k k' := by
    show find (RecencyList.get c k).2.entries k' = find c.entries k'
    unfold RecencyList.get
    split
    · rfl
    · next v hfound =>
      by_cases hk : k' = k
      · subst hk
        rw [find_cons_self, hfound]
      · rw [find_cons_of_ne hk, find_others_of_ne hk]
  cap_pop _ _ := rfl
  len_pop c k := List.length_filter_le _ _
  peek_pop_self c k := find_others_self _ _
  peek_pop_of_ne c k k' hk := find_others_of_ne hk _
  cap_put c k v := by
    show (RecencyList.put c k v).cap = c.cap
    unfold RecencyList.put
    split_ifs <;> rfl
  len_put_of_some c k v w hfound := by
    show (RecencyList.put c k v).entries.length = c.entries.length
    have hfound' : find c.entries k = some w := hfound
    unfold RecencyList.put
    rw [dif_neg (by rw [hfound']; simp)]
    exact length_others c.nodup hfound'
  len_put_of_lt c k v hlt := by
    show (RecencyList.put c k v).entries.length ≤ c.entries.length + 1
    have hlt' : c.entries.length < c.cap := hlt
    unfold RecencyList.put
    split_ifs
    · exact Nat.le_refl _
    · exact Nat.succ_le_succ (List.length_filter_le _ _)
  len_put_of_full c k v hfull hpos := by
    show (RecencyList.put c k v).entries.length = c.entries.length
    have hfull' : c.entries.length = c.cap := hfull
    have hpos' : 0 < c.cap := hpos
    unfold RecencyList.put
    split_ifs with hfound hlt
    · exact absurd hfull' (Nat.ne_of_lt hlt)
    · show c.entries.dropLast.length + 1 = c.entries.length
      rw [List.length_dropLast]
      omega
    · obtain ⟨w, hw⟩ := Option.ne_none_iff_exists'.mp hfound
      exact length_others c.nodup hw
  peek_put_self c k v hpos := by
    show find (RecencyList.put c k v).entries k = some v
    unfold RecencyList.put
    split_ifs <;> exact find_cons_self k v _
  peek_put_of_ne c k v k' hk := by
    show find (RecencyList.put c k v).entries k' = find c.entries k' ∨
      find (RecencyList.put c k v).entries k' = none
    unfold RecencyList.put
    split_ifs
    · exact .inl (find_cons_of_ne hk v _)
    · dsimp only
      rw [find_cons_of_ne hk]
      exact find_dropLast _ _
    · exact .inl (by dsimp only; rw [find_cons_of_ne hk, find_others_of_ne hk])

end
