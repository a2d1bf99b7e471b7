import Mathlib.Data.Finset.Card
import Mathlib.Data.List.Nodup

/-!
# Grouping by a key

Pairs of a key and a value are put into groups, one group for each key, in the order in which the
keys are first seen.  Each pair goes to the end of its group, or begins a new one.

`group_eq` says what comes out of it: the keys as they are first seen, each with its values in
order.  Both parts of this are functions of the list that know nothing of groups (`firstSeen` and
`valuesOf`), so a statement about the groups is one about these.

The last question is what happens under a coarser key, one that may give several keys the same
value.  There are as many groups only if no two keys fall together (`injOn_of_length_firstSeen`),
and then they are the same groups in the same order (`firstSeen_map`, `valuesOf_map`).
-/

namespace Grouping

variable {K V L : Type} [DecidableEq K] [DecidableEq L]

/-- Add a value to the group of its key, or begin a group. -/
def push (k : K) (v : V) : List (K × List V) → List (K × List V)
  | [] => [(k, [v])]
  | (k', vs) :: rest => if k' = k then (k', vs ++ [v]) :: rest else (k', vs) :: push k v rest

/-- The groups of a list of pairs. -/
def group (l : List (K × V)) : List (K × List V) := l.foldl (fun gs p => push p.1 p.2 gs) []

/-- Each element once, where it is first seen. -/
def firstSeen (l : List K) : List K :=
  l.foldl (fun seen k => if k ∈ seen then seen else seen ++ [k]) []

def valuesOf (k : K) (l : List (K × V)) : List V :=
  l.filterMap fun p => if p.1 = k then some p.2 else none

section

variable {k : K} {v : V} {l : List (K × V)}

theorem group_snoc : group (l ++ [(k, v)]) = push k v (group l) := by
  rw [group, List.foldl_append]
  rfl

theorem valuesOf_snoc_self : valuesOf k (l ++ [(k, v)]) = valuesOf k l ++ [v] := by
  rw [valuesOf, List.filterMap_append]
  simp [valuesOf]

theorem valuesOf_snoc_of_ne {k' : K} (h : k' ≠ k) :
    valuesOf k (l ++ [(k', v)]) = valuesOf k l := by
  rw [valuesOf, List.filterMap_append]
  simp [valuesOf, h]

theorem valuesOf_of_notMem (h : k ∉ l.map Prod.fst) : valuesOf k l = [] :=
  List.filterMap_eq_nil_iff.mpr fun _ hp =>
    if_neg fun heq => h (List.mem_map.mpr ⟨_, hp, heq⟩)

end

/-! ## First sight -/

theorem firstSeen_snoc (l : List K) (k : K) :
    firstSeen (l ++ [k]) = if k ∈ firstSeen l then firstSeen l else firstSeen l ++ [k] := by
  rw [firstSeen, List.foldl_append]
  rfl

@[simp] theorem mem_firstSeen {l : List K} {k : K} : k ∈ firstSeen l ↔ k ∈ l := by
  induction l using List.reverseRecOn with
  | nil => rfl
  | append_singleton l k' ih =>
    rw [firstSeen_snoc, List.mem_append, List.mem_singleton, ← ih]
    split
    · next hmem => exact ⟨.inl, fun h => h.elim id fun heq => heq ▸ hmem⟩
    · rw [List.mem_append, List.mem_singleton]

theorem nodup_firstSeen (l : List K) : (firstSeen l).Nodup := by
  induction l using List.reverseRecOn with
  | nil => exact List.nodup_nil
  | append_singleton l k ih =>
    rw [firstSeen_snoc]
    split
    · exact ih
    · next hmem => exact List.nodup_append.mpr ⟨ih, List.nodup_singleton k, fun a ha b hb heq =>
        hmem (List.mem_singleton.mp hb ▸ heq ▸ ha)⟩

/-- There are as many as there are different elements. -/
theorem length_firstSeen (l : List K) : (firstSeen l).length = l.toFinset.card := by
  rw [← List.toFinset_card_of_nodup (nodup_firstSeen l)]
  congr 1
  ext k
  rw [List.mem_toFinset, List.mem_toFinset, mem_firstSeen]

/-- A key that tells the elements apart is first seen when they are. -/
theorem firstSeen_map {f : K → L} {l : List K} (hf : ∀ a ∈ l, ∀ b ∈ l, f a = f b → a = b) :
    firstSeen (l.map f) = (firstSeen l).map f := by
  induction l using List.reverseRecOn with
  | nil => rfl
  | append_singleton l k ih =>
    have hinit : ∀ a ∈ l, ∀ b ∈ l, f a = f b → a = b := fun a ha b hb =>
      hf a (List.mem_append_left _ ha) b (List.mem_append_left _ hb)
    rw [List.map_append, List.map_singleton, firstSeen_snoc, firstSeen_snoc, ih hinit]
    have hmem : f k ∈ (firstSeen l).map f ↔ k ∈ firstSeen l := by
      constructor
      · intro h
        obtain ⟨a, ha, heq⟩ := List.mem_map.mp h
        have hal := mem_firstSeen.mp ha
        rw [← hf a (List.mem_append_left _ hal) k (List.mem_append_right _ List.mem_cons_self) heq]
        exact ha
      · exact List.mem_map_of_mem
    by_cases hk : k ∈ firstSeen l
    · rw [if_pos hk, if_pos (hmem.mpr hk)]
    · rw [if_neg hk, if_neg (mt hmem.mp hk), List.map_append, List.map_singleton]

/-- A coarser key has as many values as there are elements only if it tells them apart. -/
theorem injOn_of_length_firstSeen {f : K → L} {l : List K}
    (h : (firstSeen (l.map f)).length = (firstSeen l).length) :
    ∀ a ∈ l, ∀ b ∈ l, f a = f b → a = b := by
  have himage : (l.map f).toFinset = l.toFinset.image f := by
    ext b
    simp
  rw [length_firstSeen, length_firstSeen, himage, Finset.card_image_iff] at h
  exact fun a ha b hb heq => h (List.mem_toFinset.mpr ha) (List.mem_toFinset.mpr hb) heq

/-! ## Groups -/

theorem push_of_mem {ks : List K} {f : K → List V} {k : K} {v : V} (hnodup : ks.Nodup)
    (hk : k ∈ ks) :
    push k v (ks.map fun k' => (k', f k')) =
      ks.map fun k' => (k', if k' = k then f k' ++ [v] else f k') := by
  induction ks with
  | nil => cases hk
  | cons k' ks ih =>
    obtain ⟨hnot, hnodup⟩ := List.nodup_cons.mp hnodup
    rw [List.map_cons, List.map_cons, push]
    by_cases heq : k' = k
    · subst heq
      rw [if_pos rfl, if_pos rfl]
      congr 1
      refine List.map_congr_left fun a ha => ?_
      rw [if_neg (ne_of_mem_of_not_mem ha hnot)]
    · rw [if_neg heq, if_neg heq, ih hnodup ((List.mem_cons.mp hk).resolve_left (Ne.symm heq))]

theorem push_of_notMem {ks : List K} {f : K → List V} {k : K} {v : V} (hk : k ∉ ks) :
    push k v (ks.map fun k' => (k', f k')) = (ks.map fun k' => (k', f k')) ++ [(k, [v])] := by
  induction ks with
  | nil => rfl
  | cons k' ks ih =>
    rw [List.mem_cons, not_or] at hk
    rw [List.map_cons, push, if_neg (Ne.symm hk.1), ih hk.2, List.cons_append]

/-- **What the groups are**: the keys as they are first seen, each with its values in order. -/
theorem group_eq (l : List (K × V)) :
    group l = (firstSeen (l.map Prod.fst)).map fun k => (k, valuesOf k l) := by
  induction l using List.reverseRecOn with
  | nil => rfl
  | append_singleton l p ih =>
    obtain ⟨k, v⟩ := p
    have hvalues : ∀ k' ∈ firstSeen (l.map Prod.fst),
        (k', if k' = k then valuesOf k' l ++ [v] else valuesOf k' l) =
          (k', valuesOf k' (l ++ [(k, v)])) := fun k' _ => by
      by_cases heq : k' = k
      · rw [if_pos heq, heq, valuesOf_snoc_self]
      · rw [if_neg heq, valuesOf_snoc_of_ne (Ne.symm heq)]
    rw [group_snoc, ih, List.map_append, List.map_singleton, firstSeen_snoc]
    split
    · next hk => rw [push_of_mem (nodup_firstSeen _) hk, List.map_congr_left hvalues]
    · next hk =>
      have hothers : ∀ k' ∈ firstSeen (l.map Prod.fst),
          (k', valuesOf k' l) = (k', valuesOf k' (l ++ [(k, v)])) := fun k' hk' => by
        rw [valuesOf_snoc_of_ne fun heq : k = k' => hk (heq ▸ hk')]
      rw [push_of_notMem hk, List.map_append, List.map_singleton, List.map_congr_left hothers,
        valuesOf_snoc_self, valuesOf_of_notMem (mt mem_firstSeen.mpr hk), List.nil_append]

/-- Under a key that tells the keys apart, a key has the same values. -/
theorem valuesOf_map {f : K → L} {l : List (K × V)} {k : K}
    (hf : ∀ p ∈ l, f p.1 = f k → p.1 = k) :
    valuesOf (f k) (l.map fun p => (f p.1, p.2)) = valuesOf k l := by
  rw [valuesOf, List.filterMap_map]
  refine List.filterMap_congr fun p hp => ?_
  by_cases heq : p.1 = k
  · simp [heq]
  · simp [heq, mt (hf p hp) heq]

end Grouping
