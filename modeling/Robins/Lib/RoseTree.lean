import Mathlib.Data.List.Basic

/-!
# Trees with any number of children

A rose tree is a label with a list of subtrees.  A function from values to lists of values spans
such a tree below each value, as deep as one likes: `span children n a` has the values that are at
most `n` steps from `a`.

A partial function on the labels is applied to a tree as a whole, and fails on a tree as soon as it
fails on one label (`traverse`).  On a tree that is being spanned it can be applied on the way:
first to the children of a value, then below each of them (`mapM_traverse`).  This is how a program
that reads a tree level by level, and translates what it reads, comes to what it would have made of
the tree as a whole.

Cutting a tree that was spanned gives one that was spanned less deep (`cut_span`), and below a value
of some height nothing is more than so many steps away, so that there is a depth at which spanning
deeper changes nothing (`span_of_height_le`).
-/

universe u v w

/-- A label, and the subtrees in order. -/
inductive RoseTree (α : Type u) where
  | node (label : α) (children : List (RoseTree α))

namespace RoseTree

variable {α : Type u} {β : Type v} {γ : Type w}

/-- What passes from the children to a node holds of every tree. -/
theorem induction {P : RoseTree α → Prop} (hnode : ∀ a ts, (∀ t ∈ ts, P t) → P (.node a ts))
    (t : RoseTree α) : P t := by
  refine RoseTree.rec (motive_2 := fun ts => ∀ t ∈ ts, P t) hnode ?_ ?_ t
  · exact fun t ht => absurd ht List.not_mem_nil
  · intro t ts ih ihs u hu
    rcases List.mem_cons.mp hu with rfl | hu
    · exact ih
    · exact ihs u hu

/-! ## Labels -/

mutual
/-- Apply a function to every label. -/
def map (f : α → β) : RoseTree α → RoseTree β
  | .node a ts => .node (f a) (mapAll f ts)

/-- The same of several trees. -/
def mapAll (f : α → β) : List (RoseTree α) → List (RoseTree β)
  | [] => []
  | t :: ts => map f t :: mapAll f ts
end

mutual
/-- Apply a partial function to every label. -/
def traverse (p : α → Option β) : RoseTree α → Option (RoseTree β)
  | .node a ts => (p a).bind fun b => (traverseAll p ts).map (.node b)

/-- The same of several trees. -/
def traverseAll (p : α → Option β) : List (RoseTree α) → Option (List (RoseTree β))
  | [] => some []
  | t :: ts => (traverse p t).bind fun u => (traverseAll p ts).map (u :: ·)
end

theorem mapAll_eq (f : α → β) (ts : List (RoseTree α)) : mapAll f ts = ts.map (map f) := by
  induction ts with
  | nil => rfl
  | cons t ts ih => rw [mapAll, ih, List.map_cons]

@[simp] theorem map_node (f : α → β) (a : α) (ts : List (RoseTree α)) :
    map f (.node a ts) = .node (f a) (ts.map (map f)) := by
  rw [map, mapAll_eq]

theorem mapM_cons_eq {p : α → Option β} {a : α} {as : List α} :
    (a :: as).mapM p = (p a).bind fun b => (as.mapM p).map (b :: ·) := by
  rw [List.mapM_cons]
  cases p a with
  | none => rfl
  | some b => cases as.mapM p <;> rfl

theorem mapM_option_map {p : α → Option β} {f : β → γ} (as : List α) :
    (as.mapM fun a => (p a).map f) = (as.mapM p).map (List.map f) := by
  induction as with
  | nil => rfl
  | cons a as ih =>
    rw [mapM_cons_eq, mapM_cons_eq, ih]
    cases p a with
    | none => rfl
    | some b => cases as.mapM p <;> rfl

theorem traverseAll_eq (p : α → Option β) (ts : List (RoseTree α)) :
    traverseAll p ts = ts.mapM (traverse p) := by
  induction ts with
  | nil => rfl
  | cons t ts ih => rw [traverseAll, ih, mapM_cons_eq]

@[simp] theorem traverse_node (p : α → Option β) (a : α) (ts : List (RoseTree α)) :
    traverse p (.node a ts) = (p a).bind fun b => (ts.mapM (traverse p)).map (.node b) := by
  rw [traverse, traverseAll_eq]

theorem mem_of_mapM {p : α → Option β} {as : List α} {bs : List β} (h : as.mapM p = some bs) {b : β}
    (hb : b ∈ bs) : ∃ a ∈ as, p a = some b := by
  induction as generalizing bs with
  | nil =>
    obtain rfl : [] = bs := Option.some.inj h
    exact absurd hb List.not_mem_nil
  | cons a as ih =>
    rw [mapM_cons_eq, Option.bind_eq_some_iff] at h
    obtain ⟨b', hb', h⟩ := h
    obtain ⟨bs, hbs, rfl⟩ := Option.map_eq_some_iff.mp h
    rcases List.mem_cons.mp hb with rfl | hb
    · exact ⟨a, List.mem_cons_self, hb'⟩
    · obtain ⟨a', ha', hp⟩ := ih hbs hb
      exact ⟨a', List.mem_cons_of_mem _ ha', hp⟩

/-- What holds element by element holds of the list. -/
theorem map_of_mapM {p : α → Option β} {f : β → γ} {g : α → γ} {as : List α} {bs : List β}
    (hp : ∀ a ∈ as, ∀ b, p a = some b → f b = g a) (h : as.mapM p = some bs) :
    bs.map f = as.map g := by
  induction as generalizing bs with
  | nil =>
    obtain rfl : [] = bs := Option.some.inj h
    rfl
  | cons a as ih =>
    rw [mapM_cons_eq, Option.bind_eq_some_iff] at h
    obtain ⟨b, hb, h⟩ := h
    obtain ⟨bs, hbs, rfl⟩ := Option.map_eq_some_iff.mp h
    rw [List.map_cons, List.map_cons, hp a List.mem_cons_self b hb,
      ih (fun a ha => hp a (List.mem_cons_of_mem _ ha)) hbs]

/-- What holds label by label holds of the tree. -/
theorem map_of_traverse {p : α → Option β} {f : β → γ} {g : α → γ}
    (hp : ∀ a b, p a = some b → f b = g a) {t : RoseTree α} {u : RoseTree β}
    (h : traverse p t = some u) : map f u = map g t := by
  induction t using RoseTree.induction generalizing u with
  | hnode a ts ih =>
    rw [traverse_node, Option.bind_eq_some_iff] at h
    obtain ⟨b, hb, h⟩ := h
    obtain ⟨us, hus, rfl⟩ := Option.map_eq_some_iff.mp h
    rw [map_node, map_node, hp a b hb, map_of_mapM (fun t ht u hu => ih t ht hu) hus]

theorem mapM_map_of_mapM {p : α → Option β} {f : α → α} {g : β → β} {as : List α} {bs : List β}
    (hp : ∀ a ∈ as, ∀ b, p a = some b → p (f a) = some (g b)) (h : as.mapM p = some bs) :
    (as.map f).mapM p = some (bs.map g) := by
  induction as generalizing bs with
  | nil =>
    obtain rfl : [] = bs := Option.some.inj h
    rfl
  | cons a as ih =>
    rw [mapM_cons_eq, Option.bind_eq_some_iff] at h
    obtain ⟨b, hb, h⟩ := h
    obtain ⟨bs, hbs, rfl⟩ := Option.map_eq_some_iff.mp h
    rw [List.map_cons, mapM_cons_eq, hp a List.mem_cons_self b hb,
      ih (fun a ha => hp a (List.mem_cons_of_mem _ ha)) hbs]
    rfl

@[simp] theorem map_id_eq (t : RoseTree α) : map id t = t := by
  induction t using RoseTree.induction with
  | hnode a ts ih =>
    rw [map_node, List.map_congr_left ih, List.map_id']
    rfl

/-! ## Depth -/

/-- The tree without what is more than so many steps below its label. -/
def cut : ℕ → RoseTree α → RoseTree α
  | 0, .node a _ => .node a []
  | n + 1, .node a ts => .node a (ts.map (cut n))

/-- The tree below a value, so many steps deep. -/
def span (children : α → List α) : ℕ → α → RoseTree α
  | 0, a => .node a []
  | n + 1, a => .node a ((children a).map (span children n))

/-- A tree that is cut is applied to as before. -/
theorem traverse_cut {p : α → Option β} (n : ℕ) {t : RoseTree α} {u : RoseTree β}
    (h : traverse p t = some u) : traverse p (cut n t) = some (cut n u) := by
  induction n generalizing t u with
  | zero =>
    cases t with
    | node a ts =>
      rw [traverse_node, Option.bind_eq_some_iff] at h
      obtain ⟨b, hb, h⟩ := h
      obtain ⟨us, -, rfl⟩ := Option.map_eq_some_iff.mp h
      rw [cut, traverse_node, hb]
      rfl
  | succ n ih =>
    cases t with
    | node a ts =>
      rw [traverse_node, Option.bind_eq_some_iff] at h
      obtain ⟨b, hb, h⟩ := h
      obtain ⟨us, hus, rfl⟩ := Option.map_eq_some_iff.mp h
      rw [cut, traverse_node, hb, mapM_map_of_mapM (fun t _ u hu => ih hu) hus]
      rfl

variable {children : α → List α}

theorem cut_span (m k : ℕ) (a : α) : cut m (span children (m + k) a) = span children m a := by
  induction m generalizing a with
  | zero => cases k <;> rfl
  | succ m ih =>
    rw [Nat.add_right_comm, span, span, cut, List.map_map]
    exact congrArg _ (List.map_congr_left fun b _ => ih b)

theorem traverse_span_eq_none {p : α → Option β} {n : ℕ} {a : α} (h : p a = none) :
    traverse p (span children n a) = none := by
  cases n <;> rw [span, traverse_node, h] <;> rfl

theorem children_eq_nil {height : α → ℕ} (hh : ∀ a, ∀ b ∈ children a, height b < height a) {a : α}
    (h : height a ≤ 0) : children a = [] :=
  List.eq_nil_iff_forall_not_mem.mpr fun b hb =>
    absurd (Nat.lt_of_lt_of_le (hh a b hb) h) (Nat.not_lt_zero _)

/-- Below a value of some height nothing is more than so many steps away. -/
theorem span_of_height_le {height : α → ℕ} (hh : ∀ a, ∀ b ∈ children a, height b < height a)
    {n m : ℕ} {a : α} (hn : height a ≤ n) (hm : height a ≤ m) :
    span children n a = span children m a := by
  induction n generalizing m a with
  | zero =>
    cases m with
    | zero => rfl
    | succ m => rw [span, span, children_eq_nil hh hn, List.map_nil]
  | succ n ih =>
    cases m with
    | zero => rw [span, span, children_eq_nil hh hm, List.map_nil]
    | succ m =>
      rw [span, span]
      refine congrArg _ (List.map_congr_left fun b hb => ?_)
      have hlt := hh a b hb
      exact ih (by omega) (by omega)

/-- A partial function is applied to the trees below some values by applying it to the values
first. -/
theorem mapM_traverse {p : α → Option β} {tree : α → RoseTree α} {below : β → Option (RoseTree β)}
    {as : List α} (hlabel : ∀ a ∈ as, p a = none → traverse p (tree a) = none)
    (hbelow : ∀ a ∈ as, ∀ b, p a = some b → below b = traverse p (tree a)) :
    (as.mapM p).bind (fun bs => bs.mapM below) = (as.map tree).mapM (traverse p) := by
  induction as with
  | nil => rfl
  | cons a as ih =>
    have ih := ih (fun a ha => hlabel a (List.mem_cons_of_mem _ ha))
      fun a ha => hbelow a (List.mem_cons_of_mem _ ha)
    rw [List.map_cons, mapM_cons_eq, mapM_cons_eq, ← ih]
    cases hp : p a with
    | none => rw [hlabel a List.mem_cons_self hp]; rfl
    | some b =>
      rw [← hbelow a List.mem_cons_self b hp]
      cases has : as.mapM p with
      | none => cases below b <;> rfl
      | some bs => exact mapM_cons_eq

end RoseTree
