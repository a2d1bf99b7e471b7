import Mathlib.Data.List.Basic

/-!
# Following parents

A partial function gives some nodes a parent.  From a node there is one chain of ancestors:
it may end, or go round in a cycle; nothing else is assumed of the function, which may come
from a tree that is damaged.

A walk up the chain that comes back to a node it has seen has seen all there is
(`exists_climb_eq_of_revisit`), so what it has not met by then it will not meet.
-/

namespace ParentChain

variable {ν : Type*} (up : ν → Option ν)

/-- The ancestor so many steps up, if the chain goes that far. -/
def climb : ℕ → ν → Option ν
  | 0, a => some a
  | k + 1, a => (climb k a).bind up

variable {up} {a b : ν}

@[simp] theorem climb_zero : climb up 0 a = some a := rfl

theorem climb_succ_of_eq_some {k : ℕ} (h : climb up k a = some b) :
    climb up (k + 1) a = up b := by
  rw [climb, h, Option.bind_some]

theorem climb_add (i j : ℕ) (a : ν) :
    climb up (i + j) a = (climb up i a).bind (climb up j) := by
  induction j with
  | zero => rw [Nat.add_zero, show climb up 0 = some from rfl, Option.bind_fun_some]
  | succ j ih =>
    rw [← Nat.add_assoc, climb, ih, Option.bind_assoc]
    rfl

/-- The chain does not go on after its end. -/
theorem climb_eq_none_of_le {k m : ℕ} (h : climb up k a = none) (hle : k ≤ m) :
    climb up m a = none := by
  obtain ⟨j, rfl⟩ := Nat.exists_eq_add_of_le hle
  rw [climb_add, h, Option.bind_none]

theorem lt_of_climb_eq_none {k m : ℕ} (hnone : climb up m a = none)
    (hsome : climb up k a = some b) : k < m := by
  refine Nat.lt_of_not_le fun hle => ?_
  rw [climb_eq_none_of_le hnone hle] at hsome
  exact absurd hsome (by simp)

/-- A node at which the chain ends is the last of it. -/
theorem le_of_up_eq_none {k m : ℕ} {c : ν} (hb : climb up k a = some b) (hend : up b = none)
    (hc : climb up m a = some c) : m ≤ k := by
  have hnone : climb up (k + 1) a = none := (climb_succ_of_eq_some hb).trans hend
  exact Nat.le_of_lt_succ (lt_of_climb_eq_none hnone hc)

/-- **A chain that comes back** to a node goes on among those it has met. -/
theorem exists_climb_eq_of_revisit {i j : ℕ} (hle : j ≤ i)
    (h : climb up (i + 1) a = climb up j a) (k : ℕ) :
    ∃ m, m ≤ i ∧ climb up k a = climb up m a := by
  induction k using Nat.strongRecOn with
  | ind k ih =>
    by_cases hk : k ≤ i
    · exact ⟨k, hk, rfl⟩
    · obtain ⟨d, rfl⟩ := Nat.exists_eq_add_of_le (show i + 1 ≤ k by omega)
      obtain ⟨m, hm, heq⟩ := ih (j + d) (by omega)
      refine ⟨m, hm, ?_⟩
      rw [← heq, climb_add (i + 1), h, ← climb_add]

end ParentChain
