import Mathlib.Algebra.Ring.Nat
import Mathlib.Data.List.AList
import Mathlib.Data.List.Perm.Lattice

/-!
# Waiting rooms

A waiting room is a list of items in the order they came in.  Each item has a
key, and items leave together: all those of one key at a time, in that order.

A map from keys to non-empty lists *groups* a room when it holds, under each key,
the room's items with that key.  The two ways to change a room, `room ++ [a]` and
`others key k room`, are matched by updates of the map.
-/

universe u v

namespace WaitingRoom

variable {α : Type u} {κ : Type v} [DecidableEq κ] {key : α → κ}

/-- The items with a key, in the order they came in. -/
def ofKey (key : α → κ) (k : κ) (room : List α) : List α := room.filter fun a => key a = k

/-- The items without a key. -/
def others (key : α → κ) (k : κ) (room : List α) : List α := room.filter fun a => key a ≠ k

variable {k k' : κ} {a : α} {room : List α}

theorem mem_ofKey : a ∈ ofKey key k room ↔ a ∈ room ∧ key a = k := by
  simp [ofKey]

theorem mem_others : a ∈ others key k room ↔ a ∈ room ∧ key a ≠ k := by
  simp [others]

theorem ofKey_append (room' : List α) :
    ofKey key k (room ++ room') = ofKey key k room ++ ofKey key k room' :=
  List.filter_append ..

theorem ofKey_singleton_self (a : α) : ofKey key (key a) [a] = [a] := by
  simp [ofKey]

theorem ofKey_singleton_of_ne (h : key a ≠ k) : ofKey key k [a] = [] := by
  simp [ofKey, h]

theorem ofKey_others_self : ofKey key k (others key k room) = [] := by
  simp [ofKey, others]

theorem ofKey_others_of_ne (h : k' ≠ k) : ofKey key k' (others key k room) = ofKey key k' room := by
  rw [ofKey, others, List.filter_filter]
  refine List.filter_congr fun a _ => ?_
  by_cases ha : key a = k'
  · simp [ha, h]
  · simp [ha]

/-- All items of a key are as they were. -/
theorem ofKey_eq_self (h : ∀ a ∈ room, key a = k) : ofKey key k room = room :=
  List.filter_eq_self.mpr fun a ha => decide_eq_true (h a ha)

theorem ofKey_eq_nil (h : ∀ a ∈ room, key a ≠ k) : ofKey key k room = [] :=
  List.filter_eq_nil_iff.mpr fun a ha => by simpa using h a ha

/-- Some items of one key, moved before the others, are in order with them. -/
theorem ofKey_append_others_sublist {l : List α} (hl : l.Sublist (ofKey key k room)) (k' : κ) :
    (ofKey key k' (l ++ others key k room)).Sublist (ofKey key k' room) := by
  have hkey : ∀ a ∈ l, key a = k := fun a ha => (mem_ofKey.mp (hl.subset ha)).2
  rw [ofKey_append]
  by_cases hk : k' = k
  · subst hk
    rw [ofKey_others_self, List.append_nil, ofKey_eq_self hkey]
    exact hl
  · rw [ofKey_others_of_ne hk, ofKey_eq_nil fun a ha hak => hk (hak.symm.trans (hkey a ha)),
      List.nil_append]

/-- The items with a key and the others are all items. -/
theorem ofKey_append_others_perm (k : κ) (room : List α) :
    (ofKey key k room ++ others key k room).Perm room := by
  have h := List.filter_append_perm (fun a => decide (key a = k)) room
  have hothers : room.filter (fun a => !decide (key a = k)) = others key k room := by
    simp [others]
  rwa [hothers] at h

variable (key) in
theorem length_ofKey_add_length_others (k : κ) (room : List α) :
    (ofKey key k room).length + (others key k room).length = room.length := by
  rw [← List.length_append]
  exact (ofKey_append_others_perm k room).length_eq

/-- Distinct keys that cover the room list its items. -/
theorem flatMap_ofKey_perm {keys : List κ} (hnodup : keys.Nodup) :
    ∀ {room : List α}, (∀ a ∈ room, key a ∈ keys) →
      (keys.flatMap fun k => ofKey key k room).Perm room := by
  induction keys with
  | nil =>
    intro room hcover
    rw [List.eq_nil_iff_forall_not_mem.mpr fun a ha => absurd (hcover a ha) List.not_mem_nil]
    exact .refl _
  | cons k keys ih =>
    intro room hcover
    obtain ⟨hk, hnodup⟩ := List.nodup_cons.mp hnodup
    have hrest : ∀ a ∈ others key k room, key a ∈ keys := by
      intro a ha
      obtain ⟨hmem, hne⟩ := mem_others.mp ha
      exact (List.mem_cons.mp (hcover a hmem)).resolve_left hne
    have hsame : (keys.flatMap fun k' => ofKey key k' (others key k room)) =
        keys.flatMap fun k' => ofKey key k' room := by
      refine List.flatMap_congr fun k' hk' => ofKey_others_of_ne ?_
      rintro rfl
      exact hk hk'
    have hperm := (ih hnodup hrest).append_left (ofKey key k room)
    rw [hsame] at hperm
    exact hperm.trans (ofKey_append_others_perm k room)

/-! ## Grouping by key -/

/-- The map holds the items of each key; a key without items is absent. -/
def Groups (key : α → κ) (room : List α) (m : AList fun _ : κ => List α) : Prop :=
  ∀ k, m.lookup k = if ofKey key k room = [] then none else some (ofKey key k room)

namespace Groups

variable {m : AList fun _ : κ => List α}

theorem empty (key : α → κ) : Groups key [] ∅ := fun _ => rfl

theorem lookup_eq (h : Groups key room m) {l : List α} (hl : m.lookup k = some l) :
    ofKey key k room = l ∧ l ≠ [] := by
  rw [h k] at hl
  split at hl
  · exact absurd hl (by simp)
  · next hne =>
    obtain rfl := Option.some.inj hl
    exact ⟨rfl, hne⟩

theorem getD_lookup (h : Groups key room m) (k : κ) : (m.lookup k).getD [] = ofKey key k room := by
  rw [h k]
  split
  · next hnil => exact hnil.symm
  · rfl

/-- The keys of the map are those of the items. -/
theorem mem_keys_iff (h : Groups key room m) : k ∈ m.keys ↔ ∃ a ∈ room, key a = k := by
  rw [← AList.mem_keys, ← AList.lookup_isSome, h k]
  constructor
  · intro hsome
    split at hsome
    · exact absurd hsome (by simp)
    · next hne =>
      obtain ⟨a, ha⟩ := List.exists_mem_of_ne_nil _ hne
      exact ⟨a, mem_ofKey.mp ha⟩
  · rintro ⟨a, ha⟩
    rw [if_neg (List.ne_nil_of_mem (mem_ofKey.mpr ha))]
    rfl

/-- An item with a known key joins the others. -/
theorem join (h : Groups key room m) {l : List α} (hl : m.lookup (key a) = some l) :
    Groups key (room ++ [a]) (m.insert (key a) (l ++ [a])) := by
  intro k
  rw [ofKey_append]
  by_cases hk : k = key a
  · subst hk
    rw [AList.lookup_insert, ofKey_singleton_self, if_neg (by simp), (h.lookup_eq hl).1]
  · rw [AList.lookup_insert_ne hk, ofKey_singleton_of_ne (Ne.symm hk), List.append_nil, h k]

/-- An item with a new key begins a group. -/
theorem begin (h : Groups key room m) (hl : m.lookup (key a) = none) :
    Groups key (room ++ [a]) (m.insert (key a) [a]) := by
  have hnil : ofKey key (key a) room = [] := by
    have hk := h (key a)
    rw [hl] at hk
    by_contra hne
    rw [if_neg hne] at hk
    exact absurd hk (by simp)
  intro k
  rw [ofKey_append]
  by_cases hk : k = key a
  · subst hk
    rw [AList.lookup_insert, ofKey_singleton_self, hnil]
    rfl
  · rw [AList.lookup_insert_ne hk, ofKey_singleton_of_ne (Ne.symm hk), List.append_nil, h k]

theorem erase (h : Groups key room m) (k : κ) : Groups key (others key k room) (m.erase k) := by
  intro k'
  by_cases hk : k' = k
  · subst hk
    rw [AList.lookup_erase, ofKey_others_self]
    rfl
  · rw [AList.lookup_erase_ne hk, ofKey_others_of_ne hk, h k']

/-- The lists of the map hold the items of the room. -/
theorem flatMap_perm (h : Groups key room m) : (m.entries.flatMap Sigma.snd).Perm room := by
  have hentries : m.entries.flatMap Sigma.snd = m.keys.flatMap fun k => ofKey key k room := by
    rw [AList.keys, List.keys, List.flatMap_map]
    refine List.flatMap_congr fun e he => ?_
    have hlookup : m.lookup e.1 = some e.2 := AList.mem_lookup_iff.mpr he
    exact (h.lookup_eq hlookup).1.symm
  rw [hentries]
  exact flatMap_ofKey_perm m.keys_nodup fun a ha => h.mem_keys_iff.mpr ⟨a, ha, rfl⟩

/-- The lists of the map have as many items as the room. -/
theorem sum_length (h : Groups key room m) :
    (m.entries.map fun e => e.2.length).sum = room.length := by
  rw [← h.flatMap_perm.length_eq, List.length_flatMap]

end Groups

end WaitingRoom
