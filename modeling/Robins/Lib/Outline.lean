import Robins.Lib.RoseTree

/-!
# Trees drawn line by line

A tree is drawn with a line for each of its nodes: the label, and below it the drawings of the
children one under the other.  Before the first line of a child stands a branch, before its other
lines a stem, and the last child of a node has a branch and a stem of its own.

## Nothing is lost

If a branch can be told from a stem, and the two branches from each other, then a tree is known
from its drawing (`lines_injective`): the first lines of the children show where each of them
begins, and what follows a stem is a line of the child's own drawing.  The proof goes by induction
on the tree, with the forest of the children beside it; what is needed of lists is that two lists
which are cut where something begins are cut at the same place (`append_inj_of_begins`).

The same holds of the lines written one after another, if none of them contains what separates them
(`intercalate_lines_injective`).
-/

universe u v

namespace RoseTree

variable {α : Type u} {σ : Type v}

/-- What stands before the lines of a child, which is the last one or not. -/
structure Pen (σ : Type v) where
  branch : Bool → List σ
  stem : Bool → List σ

/-- The lines of a child, behind its branch and its stem. -/
def Pen.hang (pen : Pen σ) (last : Bool) : List (List σ) → List (List σ)
  | [] => []
  | line :: lines => (pen.branch last ++ line) :: lines.map (pen.stem last ++ ·)

mutual
/-- The drawing of a tree. -/
def lines (pen : Pen σ) (text : α → List σ) : RoseTree α → List (List σ)
  | .node a ts => text a :: blocks pen text ts

/-- The drawings of the children of a node. -/
def blocks (pen : Pen σ) (text : α → List σ) : List (RoseTree α) → List (List σ)
  | [] => []
  | t :: ts => pen.hang ts.isEmpty (lines pen text t) ++ blocks pen text ts
end

/-- A branch can be told from a stem, and from the other branch. -/
structure Pen.Legible (pen : Pen σ) (begins : List σ → Bool) : Prop where
  branch : ∀ last line, begins (pen.branch last ++ line) = true
  stem : ∀ last line, begins (pen.stem last ++ line) = false
  branch_inj : ∀ last last' line line',
    pen.branch last ++ line = pen.branch last' ++ line' → last = last' ∧ line = line'

section

variable {pen : Pen σ} {text : α → List σ} {begins : List σ → Bool}

variable (pen text) in
theorem exists_lines_eq (t : RoseTree α) :
    ∃ line rest, lines pen text t = line :: rest := by
  cases t with
  | node a ts => exact ⟨_, _, rfl⟩

/-- Two lists that are cut where something begins are cut at the same place. -/
theorem append_inj_of_begins {a a' b b' : List (List σ)} (ha : ∀ line ∈ a, begins line = false)
    (ha' : ∀ line ∈ a', begins line = false) (hb : ∀ line ∈ b.head?, begins line = true)
    (hb' : ∀ line ∈ b'.head?, begins line = true) (h : a ++ b = a' ++ b') : a = a' ∧ b = b' := by
  have hcut : ∀ {a b : List (List σ)}, (∀ line ∈ a, begins line = false) →
      (∀ line ∈ b.head?, begins line = true) →
      (a ++ b).takeWhile (fun line => !begins line) = a := by
    intro a b ha hb
    rw [List.takeWhile_append_of_pos fun line hline => by rw [ha line hline]; rfl]
    cases b with
    | nil => exact List.append_nil a
    | cons line b =>
      rw [List.takeWhile_cons_of_neg (by rw [hb line rfl]; exact Bool.false_ne_true),
        List.append_nil]
  have hsame : a = a' := by rw [← hcut ha hb, h, hcut ha' hb']
  exact ⟨hsame, List.append_cancel_left (hsame ▸ h)⟩

theorem begins_of_mem_head?_blocks (hpen : pen.Legible begins) (ts : List (RoseTree α)) :
    ∀ line ∈ (blocks pen text ts).head?, begins line = true := by
  cases ts with
  | nil => exact fun line hline => absurd hline (by simp [blocks])
  | cons t ts =>
    obtain ⟨line, rest, hlines⟩ := exists_lines_eq pen text t
    intro first hfirst
    rw [blocks, hlines] at hfirst
    obtain rfl := Option.some.inj hfirst
    exact hpen.branch _ _

/-- The children of a node are known from their drawings. -/
theorem blocks_injective (hpen : pen.Legible begins) {ts us : List (RoseTree α)}
    (hlines : ∀ t ∈ ts, ∀ u, lines pen text t = lines pen text u → t = u)
    (h : blocks pen text ts = blocks pen text us) : ts = us := by
  induction ts generalizing us with
  | nil =>
    cases us with
    | nil => rfl
    | cons u us =>
      obtain ⟨line, rest, hu⟩ := exists_lines_eq pen text u
      rw [blocks, blocks, hu] at h
      exact absurd h (by simp [Pen.hang])
  | cons t ts ih =>
    obtain ⟨line, rest, ht⟩ := exists_lines_eq pen text t
    cases us with
    | nil =>
      rw [blocks, blocks, ht] at h
      exact absurd h (by simp [Pen.hang])
    | cons u us =>
      obtain ⟨line', rest', hu⟩ := exists_lines_eq pen text u
      rw [blocks, blocks, ht, hu] at h
      obtain ⟨hfirst, h⟩ := List.cons.inj h
      obtain ⟨hlast, hline⟩ := hpen.branch_inj _ _ _ _ hfirst
      -- what begins next is another child
      have hstem : ∀ last (rest : List (List σ)), ∀ line ∈ rest.map (pen.stem last ++ ·),
          begins line = false := by
        intro last rest line hmem
        obtain ⟨line, -, rfl⟩ := List.mem_map.mp hmem
        exact hpen.stem _ _
      obtain ⟨hrest, hblocks⟩ := append_inj_of_begins (hstem _ _) (hstem _ _)
        (begins_of_mem_head?_blocks hpen ts) (begins_of_mem_head?_blocks hpen us) h
      rw [hlast] at hrest
      have hrest := List.map_injective_iff.mpr (List.append_right_injective _) hrest
      have htu : t = u := hlines t List.mem_cons_self u (by rw [ht, hu, hline, hrest])
      rw [htu, ih (fun t hmem => hlines t (List.mem_cons_of_mem _ hmem)) hblocks]

/-- **A tree is known from its drawing.**  A line that begins with a branch is a child, and what
follows it with a gap before it is below that child; so the drawing of a node is cut into those
of its children in one way only. -/
theorem lines_injective (hpen : pen.Legible begins) (htext : Function.Injective text)
    {t u : RoseTree α} (h : lines pen text t = lines pen text u) : t = u := by
  induction t using RoseTree.induction generalizing u with
  | hnode a ts ih =>
    cases u with
    | node b us =>
      rw [lines, lines] at h
      obtain ⟨hlabel, hblocks⟩ := List.cons.inj h
      rw [htext hlabel, blocks_injective hpen (fun t ht u hu => ih t ht hu) hblocks]

/-! ## Text -/

theorem not_mem_of_mem_blocks {sep : σ} (hbranch : ∀ last, sep ∉ pen.branch last)
    (hstem : ∀ last, sep ∉ pen.stem last) {ts : List (RoseTree α)}
    (hlines : ∀ t ∈ ts, ∀ line ∈ lines pen text t, sep ∉ line) :
    ∀ line ∈ blocks pen text ts, sep ∉ line := by
  induction ts with
  | nil => exact fun line hline => absurd hline (by simp [blocks])
  | cons t ts ih =>
    intro line hmem
    rw [blocks] at hmem
    rcases List.mem_append.mp hmem with hmem | hmem
    · have ht := hlines t List.mem_cons_self
      obtain ⟨first, rest, heq⟩ := exists_lines_eq pen text t
      rw [heq] at hmem ht
      rcases List.mem_cons.mp hmem with rfl | hmem
      · exact fun hsep => (List.mem_append.mp hsep).elim (hbranch _) (ht first List.mem_cons_self)
      · obtain ⟨line, hline, rfl⟩ := List.mem_map.mp hmem
        exact fun hsep => (List.mem_append.mp hsep).elim (hstem _)
          (ht line (List.mem_cons_of_mem _ hline))
    · exact ih (fun t ht => hlines t (List.mem_cons_of_mem _ ht)) line hmem

theorem not_mem_of_mem_lines {sep : σ} (hbranch : ∀ last, sep ∉ pen.branch last)
    (hstem : ∀ last, sep ∉ pen.stem last) (htext : ∀ a, sep ∉ text a) (t : RoseTree α) :
    ∀ line ∈ lines pen text t, sep ∉ line := by
  induction t using RoseTree.induction with
  | hnode a ts ih =>
    intro line hmem
    rw [lines] at hmem
    rcases List.mem_cons.mp hmem with rfl | hmem
    · exact htext a
    · exact not_mem_of_mem_blocks hbranch hstem ih line hmem

/-- **A tree is known from the text of its drawing.** -/
theorem intercalate_lines_injective [DecidableEq σ] {sep : σ} (hpen : pen.Legible begins)
    (hbranch : ∀ last, sep ∉ pen.branch last) (hstem : ∀ last, sep ∉ pen.stem last)
    (htext : Function.Injective text) (hsep : ∀ a, sep ∉ text a) {t u : RoseTree α}
    (h : [sep].intercalate (lines pen text t) = [sep].intercalate (lines pen text u)) :
    t = u := by
  have hsplit : ∀ t : RoseTree α,
      ([sep].intercalate (lines pen text t)).splitOn sep = lines pen text t := fun t => by
    obtain ⟨line, rest, heq⟩ := exists_lines_eq pen text t
    exact List.splitOn_intercalate sep (not_mem_of_mem_lines hbranch hstem hsep t)
      (by rw [heq]; exact List.cons_ne_nil _ _)
  exact lines_injective hpen htext (by rw [← hsplit t, h, hsplit u])

end

end RoseTree
