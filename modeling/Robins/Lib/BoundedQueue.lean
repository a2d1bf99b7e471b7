import Mathlib.Data.List.Basic

/-!
# Bounded queues

A queue of several producers and one consumer that never holds more than its capacity.  A producer
that may wait takes a place first and fills it later; one that may not wait takes a place and fills
it at once, or is told that there is none.  The consumer takes the items in the order they were put
in, and each gives its place back.

Places that are taken and not yet filled count, so the bound is on items and places together, and
it is a field of the structure: a queue that holds too much cannot be written down.  Each operation
has one lemma that says what it does to the items and the places, in the case that it succeeds.
-/

universe u

/-- Items in the order they were put in, and places taken but not filled. -/
structure BoundedQueue (α : Type u) where
  capacity : ℕ
  reserved : ℕ
  items : List α
  length_le : items.length + reserved ≤ capacity

namespace BoundedQueue

variable {α : Type u}

def empty (capacity : ℕ) : BoundedQueue α := ⟨capacity, 0, [], Nat.zero_le _⟩

/-- Take a place and fill it, if there is one. -/
def trySend (q : BoundedQueue α) (a : α) : Option (BoundedQueue α) :=
  if h : q.items.length + q.reserved < q.capacity then
    some { q with
      items := q.items ++ [a]
      length_le := by rw [List.length_append, List.length_singleton]; omega }
  else none

/-- Take a place, if there is one. -/
def reserve (q : BoundedQueue α) : Option (BoundedQueue α) :=
  if h : q.items.length + q.reserved < q.capacity then
    some { q with reserved := q.reserved + 1, length_le := by omega }
  else none

/-- Give back a place that was taken. -/
def release (q : BoundedQueue α) : Option (BoundedQueue α) :=
  match h : q.reserved with
  | 0 => none
  | n + 1 => some { q with reserved := n, length_le := by have := q.length_le; omega }

/-- Fill a place that was taken. -/
def send (q : BoundedQueue α) (a : α) : Option (BoundedQueue α) :=
  match h : q.reserved with
  | 0 => none
  | n + 1 =>
    some { q with
      reserved := n
      items := q.items ++ [a]
      length_le := by
        have := q.length_le
        rw [List.length_append, List.length_singleton]
        omega }

/-- Take the first item. -/
def recv (q : BoundedQueue α) : Option (α × BoundedQueue α) :=
  match h : q.items with
  | [] => none
  | a :: items =>
    some (a, { q with
      items := items
      length_le := by
        have := q.length_le
        rw [h, List.length_cons] at this
        omega })

variable {q q' : BoundedQueue α} {a : α}

@[simp] theorem items_empty (capacity : ℕ) : (empty capacity : BoundedQueue α).items = [] := rfl

@[simp] theorem capacity_empty (capacity : ℕ) :
    (empty capacity : BoundedQueue α).capacity = capacity := rfl

/-- What was put in is last, and there was a place. -/
theorem of_trySend (h : q.trySend a = some q') :
    q'.items = q.items ++ [a] ∧ q'.capacity = q.capacity := by
  unfold trySend at h
  split_ifs at h
  obtain rfl := Option.some.inj h
  exact ⟨rfl, rfl⟩

theorem of_reserve (h : q.reserve = some q') :
    q'.items = q.items ∧ q'.capacity = q.capacity := by
  unfold reserve at h
  split_ifs at h
  obtain rfl := Option.some.inj h
  exact ⟨rfl, rfl⟩

theorem of_release (h : q.release = some q') :
    q'.items = q.items ∧ q'.capacity = q.capacity := by
  unfold release at h
  split at h
  · exact absurd h (by simp)
  · obtain rfl := Option.some.inj h
    exact ⟨rfl, rfl⟩

theorem of_send (h : q.send a = some q') :
    q'.items = q.items ++ [a] ∧ q'.capacity = q.capacity := by
  unfold send at h
  split at h
  · exact absurd h (by simp)
  · obtain rfl := Option.some.inj h
    exact ⟨rfl, rfl⟩

theorem of_recv (h : q.recv = some (a, q')) :
    q.items = a :: q'.items ∧ q'.capacity = q.capacity := by
  unfold recv at h
  split at h
  · exact absurd h (by simp)
  · next b items hitems =>
    obtain ⟨rfl, rfl⟩ := Prod.mk.inj (Option.some.inj h)
    exact ⟨hitems, rfl⟩

end BoundedQueue
