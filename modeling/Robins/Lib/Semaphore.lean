import Mathlib.Data.List.Basic

/-!
# Semaphores

A semaphore lets so many holders in at a time.  Whoever asks is let in at once or told that there
is no room; a holder that leaves makes room again.
-/

universe u

/-- Those who were let in and have not left. -/
structure Semaphore (α : Type u) where
  capacity : ℕ
  holders : List α
  length_le : holders.length ≤ capacity

namespace Semaphore

variable {α : Type u}

/-- Nobody inside. -/
def new (capacity : ℕ) : Semaphore α := ⟨capacity, [], Nat.zero_le _⟩

/-- Let one in, if there is room. -/
def tryAcquire (q : Semaphore α) (a : α) : Option (Semaphore α) :=
  if h : q.holders.length < q.capacity then some ⟨q.capacity, a :: q.holders, h⟩ else none

/-- Somebody leaves. -/
def release [DecidableEq α] (q : Semaphore α) (a : α) : Semaphore α :=
  ⟨q.capacity, q.holders.erase a, Nat.le_trans List.length_erase_le q.length_le⟩

variable {q q' : Semaphore α} {a : α}

@[simp] theorem holders_new (capacity : ℕ) : (new capacity : Semaphore α).holders = [] := rfl

@[simp] theorem capacity_new (capacity : ℕ) : (new capacity : Semaphore α).capacity = capacity :=
  rfl

@[simp] theorem holders_release [DecidableEq α] :
    (q.release a).holders = q.holders.erase a := rfl

@[simp] theorem capacity_release [DecidableEq α] : (q.release a).capacity = q.capacity := rfl

theorem of_tryAcquire (h : q.tryAcquire a = some q') :
    q.holders.length < q.capacity ∧ q'.holders = a :: q.holders ∧ q'.capacity = q.capacity := by
  unfold tryAcquire at h
  split_ifs at h with hlt
  obtain rfl := Option.some.inj h
  exact ⟨hlt, rfl, rfl⟩

/-- Whoever is not let in finds all places taken. -/
theorem full_of_tryAcquire (h : q.tryAcquire a = none) : q.holders.length = q.capacity := by
  unfold tryAcquire at h
  split_ifs at h with hlt
  exact Nat.le_antisymm q.length_le (Nat.le_of_not_lt hlt)

end Semaphore
