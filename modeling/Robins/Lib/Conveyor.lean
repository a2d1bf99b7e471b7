import Mathlib.Data.List.Range
import Mathlib.Data.List.Perm.Basic
import Mathlib.Order.Basic
import Mathlib.Tactic.Simps.Basic

/-!
# Sieving a list, and a queue that is sieved

`Sieve l groups left` reads a list from the front and cuts it into stretches: each stretch is one
of the groups or a single element that is left over.  So the groups are contiguous, in order, and
nothing is lost or used twice (`Sieve.perm`).

## Accounts

A `Conveyor` is the account of a queue whose items arrive at the back and are taken from the front,
some of them into numbered groups and the others dropped.  Items are known by their position, so
equal items are told apart.  That the groups and the dropped positions make up exactly the
positions taken, and that the groups run through them in ascending order, are fields: `push` and
`take` are the only ways to change an account and they keep them, `take` by a sieve of the positions
that it takes.

`accounted` then says where every position is: waiting, in one group, or dropped.  To prove that a
program loses nothing it is enough to relate its state to an account, and each of its operations to
`push`, to `take`, or to nothing.
-/

universe u v

/-! ## Sieves -/

/-- The list is made of the groups, in order, and single elements left over
between them. -/
inductive Sieve {α : Type u} : List α → List (List α) → List α → Prop
  | nil : Sieve [] [] []
  | group {l : List α} {groups : List (List α)} {left : List α} (g : List α) :
      Sieve l groups left → Sieve (g ++ l) (g :: groups) left
  | leave {l : List α} {groups : List (List α)} {left : List α} (a : α) :
      Sieve l groups left → Sieve (a :: l) groups (a :: left)

namespace Sieve

variable {α : Type u} {β : Type v} {l l' : List α} {groups groups' : List (List α)}
  {left left' : List α}

/-- Sieves of two lists make a sieve of their concatenation. -/
theorem append (h : Sieve l groups left) (h' : Sieve l' groups' left') :
    Sieve (l ++ l') (groups ++ groups') (left ++ left') := by
  induction h with
  | nil => exact h'
  | group g _ ih =>
    rw [List.append_assoc]
    exact .group g ih
  | leave a _ ih => exact .leave a ih

theorem map (h : Sieve l groups left) (f : α → β) :
    Sieve (l.map f) (groups.map (List.map f)) (left.map f) := by
  induction h with
  | nil => exact .nil
  | group g _ ih =>
    rw [List.map_append]
    exact .group (g.map f) ih
  | leave a _ ih => exact .leave (f a) ih

theorem flatten_sublist (h : Sieve l groups left) : groups.flatten.Sublist l := by
  induction h with
  | nil => exact List.Sublist.refl []
  | group g _ ih =>
    rw [List.flatten_cons]
    exact ih.append_left g
  | leave a _ ih => exact ih.cons a

/-- Nothing is lost or used twice. -/
theorem perm (h : Sieve l groups left) : (groups.flatten ++ left).Perm l := by
  induction h with
  | nil => exact List.Perm.refl []
  | group g _ ih =>
    rw [List.flatten_cons, List.append_assoc]
    exact ih.append_left g
  | leave a _ ih => exact List.perm_middle.trans (ih.cons a)

/-- What is left over is a property of the elements, if the groups never have it. -/
theorem left_eq_filter {p : α → Bool} (h : Sieve l groups left)
    (hgroups : ∀ g ∈ groups, ∀ a ∈ g, p a = false) (hleft : ∀ a ∈ left, p a = true) :
    left = l.filter p := by
  induction h with
  | nil => rfl
  | group g _ ih =>
    obtain ⟨hg, hrest⟩ := List.forall_mem_cons.mp hgroups
    have hnone : g.filter p = [] := List.filter_eq_nil_iff.mpr fun a ha => by simp [hg a ha]
    rw [List.filter_append, hnone, List.nil_append]
    exact ih hrest hleft
  | leave a _ ih =>
    obtain ⟨ha, hrest⟩ := List.forall_mem_cons.mp hleft
    rw [List.filter_cons, if_pos ha, ← ih hgroups hrest]

end Sieve

/-! ## Accounts of a queue -/

/-- The account of a queue: how many items have arrived and how many of them were
taken, into which groups the taken ones went, and which were dropped. -/
structure Conveyor where
  arrived : ℕ
  taken : ℕ
  groups : List (List ℕ)
  dropped : List ℕ
  taken_le : taken ≤ arrived
  /-- The groups run through the queue in order. -/
  ascending : groups.flatten.Pairwise (· < ·)
  /-- The groups and the dropped positions make up what was taken. -/
  partition : (groups.flatten ++ dropped).Perm (List.range taken)

namespace Conveyor

/-- A queue nothing has arrived at. -/
def empty : Conveyor := ⟨0, 0, [], [], le_rfl, List.Pairwise.nil, List.Perm.refl []⟩

/-- The positions that have arrived and were not taken. -/
def waiting (c : Conveyor) : List ℕ := List.range' c.taken (c.arrived - c.taken)

/-- The first `m` positions and the next `n`. -/
theorem range_append_range' (m n : ℕ) :
    List.range m ++ List.range' m n = List.range (m + n) := by
  have h := List.range'_append_1 (s := 0) (m := m) (n := n)
  rw [Nat.zero_add] at h
  rw [List.range_eq_range', List.range_eq_range', h]

/-- An item arrives. -/
@[simps]
def push (c : Conveyor) : Conveyor :=
  { c with
    arrived := c.arrived + 1
    taken_le := c.taken_le.trans (Nat.le_succ _) }

theorem mem_groups_lt (c : Conveyor) {i : ℕ} (hi : i ∈ c.groups.flatten) : i < c.taken :=
  List.mem_range.mp (c.partition.subset (List.mem_append_left _ hi))

/-- The next `n` items are taken, into `groups` or dropped. -/
@[simps]
def take (c : Conveyor) (n : ℕ) (groups : List (List ℕ)) (dropped : List ℕ)
    (hn : n ≤ c.arrived - c.taken) (hsub : groups.flatten.Sublist (List.range' c.taken n))
    (hperm : (groups.flatten ++ dropped).Perm (List.range' c.taken n)) : Conveyor where
  arrived := c.arrived
  taken := c.taken + n
  groups := c.groups ++ groups
  dropped := c.dropped ++ dropped
  taken_le := by
    have := c.taken_le
    omega
  ascending := by
    have hnew : groups.flatten.Pairwise (· < ·) :=
      List.Pairwise.sublist hsub List.pairwise_lt_range'
    rw [List.flatten_append]
    refine List.pairwise_append.mpr ⟨c.ascending, hnew, ?_⟩
    intro i hi j hj
    have hlow := c.mem_groups_lt hi
    have hhigh := List.mem_range'_1.mp (hsub.subset hj)
    omega
  partition := by
    have hregroup : ((c.groups ++ groups).flatten ++ (c.dropped ++ dropped)).Perm
        ((c.groups.flatten ++ c.dropped) ++ (groups.flatten ++ dropped)) := by
      rw [List.flatten_append, List.append_assoc, List.append_assoc]
      refine List.Perm.append_left _ ?_
      rw [← List.append_assoc, ← List.append_assoc]
      exact List.perm_append_comm.append_right _
    rw [← range_append_range']
    exact hregroup.trans (c.partition.append hperm)

/-- **Every position is in exactly one place.**  Those waiting, those in a group
and those dropped are together all that arrived. -/
theorem accounted (c : Conveyor) :
    (c.waiting ++ (c.groups.flatten ++ c.dropped)).Perm (List.range c.arrived) := by
  have hle := c.taken_le
  have hrange : List.range c.arrived = List.range c.taken ++ c.waiting := by
    rw [waiting, range_append_range', Nat.add_sub_cancel' hle]
  rw [hrange]
  exact (c.partition.append_left _).trans List.perm_append_comm

/-- The groups, one after another, are what was taken and not dropped, in order. -/
theorem flatten_groups_eq_filter (c : Conveyor) :
    c.groups.flatten =
      (List.range c.arrived).filter fun i => decide (i ∉ c.waiting ∧ i ∉ c.dropped) := by
  have hnodup : (c.waiting ++ (c.groups.flatten ++ c.dropped)).Nodup :=
    c.accounted.nodup_iff.mpr List.nodup_range
  have hsorted : ((List.range c.arrived).filter
      fun i => decide (i ∉ c.waiting ∧ i ∉ c.dropped)).Pairwise (· < ·) :=
    List.pairwise_lt_range.filter _
  have hmem : ∀ i, i ∈ c.groups.flatten ↔
      i ∈ (List.range c.arrived).filter fun i => decide (i ∉ c.waiting ∧ i ∉ c.dropped) := by
    intro i
    obtain ⟨-, hrest, hwait⟩ := List.nodup_append.mp hnodup
    obtain ⟨-, -, hdrop⟩ := List.nodup_append.mp hrest
    rw [List.mem_filter, decide_eq_true_eq, ← c.accounted.mem_iff, List.mem_append,
      List.mem_append]
    constructor
    · intro hi
      refine ⟨.inr (.inl hi), fun hw => ?_, fun hd => ?_⟩
      · exact hwait i hw i (List.mem_append_left _ hi) rfl
      · exact hdrop i hi i hd rfl
    · rintro ⟨hw | hi | hd, hnw, hnd⟩
      · exact absurd hw hnw
      · exact hi
      · exact absurd hd hnd
  have hperm : c.groups.flatten.Perm ((List.range c.arrived).filter
      fun i => decide (i ∉ c.waiting ∧ i ∉ c.dropped)) :=
    (List.perm_ext_iff_of_nodup (c.ascending.imp fun h => h.ne)
      (hsorted.imp fun h => h.ne)).mpr hmem
  exact hperm.eq_of_pairwise (fun _ _ _ _ h h' => absurd h h'.not_gt) c.ascending hsorted

end Conveyor
