import Mathlib.Data.List.DropRight

/-!
# Trimming

A list without the blanks at its two ends.  What is not blank stays, so a list that has none
is left alone, and blanks after it are taken away again.
-/

namespace Trim

variable {α : Type} {space : α → Bool} {l : List α}

/-- The list from its first to its last element that is not blank. -/
def trim (space : α → Bool) (l : List α) : List α := (l.dropWhile space).rdropWhile space

theorem dropWhile_eq_self (h : ∀ x ∈ l, space x = false) : l.dropWhile space = l := by
  cases l with
  | nil => rfl
  | cons x l =>
    have hx : space x = false := h x List.mem_cons_self
    rw [List.dropWhile_cons_of_neg (by simp [hx])]

/-- Blanks at the end are taken away. -/
theorem trim_append (h : ∀ x ∈ l, space x = false) {blanks : List α}
    (hblanks : ∀ x ∈ blanks, space x = true) : trim space (l ++ blanks) = l := by
  have hreverse : ∀ x ∈ l.reverse, space x = false := fun x hx => h x (List.mem_reverse.mp hx)
  have hkept : (l ++ blanks).rdropWhile space = l := by
    rw [List.rdropWhile, List.reverse_append,
      List.dropWhile_append_of_pos fun x hx => hblanks x (List.mem_reverse.mp hx),
      dropWhile_eq_self hreverse, List.reverse_reverse]
  cases l with
  | nil =>
    have hempty : blanks.dropWhile space = [] := List.dropWhile_eq_nil_iff.mpr hblanks
    rw [trim, List.nil_append, hempty]
    rfl
  | cons x l =>
    have hx : space x = false := h x List.mem_cons_self
    rw [trim, List.cons_append, List.dropWhile_cons_of_neg (by simp [hx]), ← List.cons_append,
      hkept]

theorem mem_trim {x : α} (hx : x ∈ l) (hspace : space x = false) : x ∈ trim space l := by
  have hkept : ∀ {m : List α}, x ∈ m → x ∈ m.dropWhile space := fun {m} hm => by
    rw [← List.takeWhile_append_dropWhile (p := space) (l := m), List.mem_append] at hm
    obtain htaken | hm := hm
    · exact absurd (List.mem_takeWhile_imp htaken) (by simp [hspace])
    · exact hm
  exact List.mem_reverse.mpr (hkept (List.mem_reverse.mpr (hkept hx)))

end Trim
