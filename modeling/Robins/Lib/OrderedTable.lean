import Mathlib.Data.List.Nodup
import Mathlib.Order.Lattice

/-!
# Ordered tables

A table of a key-value store: entries with distinct keys, read in ascending key order.  The order is
a field of the structure, so every table that can be written down iterates in key order and holds
at most one value for a key.

Inserting above the greatest key is the one case with an equation of its own
(`entries_insert_of_forall_lt`), since a queue that numbers its entries upwards only ever inserts
there; every other effect is described by membership.  Two tables with the same entries are equal,
so for a program that only appends and removes, equations between lists of entries say all.
-/

universe u v

/-- Entries in strictly ascending key order. -/
structure OrderedTable (κ : Type u) (β : Type v) [LinearOrder κ] where
  /-- The entries, in iteration order. -/
  entries : List (κ × β)
  /-- The keys ascend strictly. -/
  sorted : entries.Pairwise fun p q => p.1 < q.1

namespace OrderedTable

variable {κ : Type u} {β : Type v} [LinearOrder κ]

@[ext] theorem ext {t t' : OrderedTable κ β} (h : t.entries = t'.entries) : t = t' := by
  cases t
  cases t'
  congr

def empty : OrderedTable κ β := ⟨[], List.Pairwise.nil⟩

/-- The value stored under a key. -/
def get? (t : OrderedTable κ β) (k : κ) : Option β :=
  (t.entries.find? fun p => decide (p.1 = k)).map Prod.snd

/-- Store a value under a key, replacing what the key held. -/
def insert (t : OrderedTable κ β) (k : κ) (b : β) : OrderedTable κ β where
  entries := t.entries.filter (fun p => p.1 < k) ++ (k, b) :: t.entries.filter (fun p => k < p.1)
  sorted := by
    have hbelow := t.sorted.filter fun p => decide (p.1 < k)
    have habove := t.sorted.filter fun p => decide (k < p.1)
    refine List.pairwise_append.mpr ⟨hbelow, List.pairwise_cons.mpr ⟨?_, habove⟩, ?_⟩
    · intro q hq
      exact of_decide_eq_true (List.mem_filter.mp hq).2
    · intro p hp q hq
      have hpk : p.1 < k := of_decide_eq_true (List.mem_filter.mp hp).2
      rcases List.mem_cons.mp hq with rfl | hq
      · exact hpk
      · exact hpk.trans (of_decide_eq_true (List.mem_filter.mp hq).2)

/-- Remove a key, if it is there. -/
def remove (t : OrderedTable κ β) (k : κ) : OrderedTable κ β where
  entries := t.entries.filter fun p => decide (p.1 ≠ k)
  sorted := t.sorted.filter _

@[simp] theorem entries_empty : (empty : OrderedTable κ β).entries = [] := rfl

/-! ## Reading -/

theorem nodup_keys (t : OrderedTable κ β) : (t.entries.map Prod.fst).Nodup :=
  List.pairwise_map.mpr (t.sorted.imp fun hlt => hlt.ne)

theorem get?_eq_some_iff {t : OrderedTable κ β} {k : κ} {b : β} :
    t.get? k = some b ↔ (k, b) ∈ t.entries := by
  unfold get?
  constructor
  · intro h
    obtain ⟨p, hp, rfl⟩ := Option.map_eq_some_iff.mp h
    have hk : p.1 = k := by simpa using List.find?_some hp
    have hmem := List.mem_of_find?_eq_some hp
    rwa [← hk]
  · intro h
    cases hf : t.entries.find? fun p => decide (p.1 = k) with
    | none =>
      have := List.find?_eq_none.mp hf (k, b) h
      simp at this
    | some q =>
      have hk : q.1 = k := by simpa using List.find?_some hf
      have hq := List.inj_on_of_nodup_map t.nodup_keys (List.mem_of_find?_eq_some hf) h hk
      rw [hq, Option.map_some]

theorem get?_eq_none_iff {t : OrderedTable κ β} {k : κ} :
    t.get? k = none ↔ ∀ p ∈ t.entries, p.1 ≠ k := by
  unfold get?
  rw [Option.map_eq_none_iff, List.find?_eq_none]
  simp

/-! ## Writing -/

theorem mem_entries_remove {t : OrderedTable κ β} {k : κ} {p : κ × β} :
    p ∈ (t.remove k).entries ↔ p ∈ t.entries ∧ p.1 ≠ k := by
  simp only [remove, List.mem_filter, decide_eq_true_eq]

theorem mem_of_mem_insert {t : OrderedTable κ β} {k : κ} {b : β} {p : κ × β}
    (h : p ∈ (t.insert k b).entries) : p = (k, b) ∨ p ∈ t.entries := by
  rcases List.mem_append.mp h with hbelow | habove
  · exact .inr (List.mem_of_mem_filter hbelow)
  · rcases List.mem_cons.mp habove with heq | habove
    · exact .inl heq
    · exact .inr (List.mem_of_mem_filter habove)

/-- A key above all others goes to the end. -/
theorem entries_insert_of_forall_lt {t : OrderedTable κ β} {k : κ}
    (h : ∀ p ∈ t.entries, p.1 < k) (b : β) :
    (t.insert k b).entries = t.entries ++ [(k, b)] := by
  have hbelow : t.entries.filter (fun p => decide (p.1 < k)) = t.entries :=
    List.filter_eq_self.mpr fun p hp => decide_eq_true (h p hp)
  have habove : t.entries.filter (fun p => decide (k < p.1)) = [] :=
    List.filter_eq_nil_iff.mpr fun p hp => by
      simpa using (h p hp).le
  simp only [insert, hbelow, habove]

end OrderedTable
