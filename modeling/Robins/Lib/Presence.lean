import Mathlib.Data.List.Infix
import Mathlib.Data.Finset.Card

/-!
# Presence

Something is present while it has been opened more often than closed.  A history of openings and
closings says of each key whether it is present, and since when: since the opening that ended its
last absence.  In a matched history nothing is closed that is not open.

A history is read from its end: each fact is about one more change, since that is what a program
sees that follows it.  An opening of what was absent begins a stay, any other change of a key that
stays present leaves the time as it is, and changes of other keys leave both.  A program that keeps
a count and a time for each key that is present has therefore to be right about one change at a
time.
-/

namespace Presence

/-- An opening, at some time, or a closing. -/
inductive Change (κ : Type*) where
  | opened (key : κ) (time : ℕ)
  | closed (key : κ)

variable {κ : Type*}

/-- The key that is opened or closed. -/
def Change.key : Change κ → κ
  | .opened key _ => key
  | .closed key => key

variable [DecidableEq κ]

def Change.opens (key : κ) : Change κ → Bool
  | .opened k _ => k = key
  | .closed _ => false

def Change.closes (key : κ) : Change κ → Bool
  | .opened _ _ => false
  | .closed k => k = key

/-- How often a key was opened. -/
def opens (key : κ) (h : List (Change κ)) : ℕ := h.countP (Change.opens key)

/-- How often a key was closed. -/
def closes (key : κ) (h : List (Change κ)) : ℕ := h.countP (Change.closes key)

/-- Nothing is closed more often than it was opened before. -/
def Matched (h : List (Change κ)) : Prop :=
  ∀ before, before <+: h → ∀ key, closes key before ≤ opens key before

/-- The key is open. -/
def Present (key : κ) (h : List (Change κ)) : Prop := closes key h < opens key h

instance (key : κ) (h : List (Change κ)) : Decidable (Present key h) :=
  inferInstanceAs (Decidable (_ < _))

/-- The key is present without interruption since it was opened at this time. -/
def Since (key : κ) (h : List (Change κ)) (time : ℕ) : Prop :=
  ∃ before after, h = before ++ .opened key time :: after ∧ ¬ Present key before ∧
    ∀ part, part <+: after → Present key (before ++ .opened key time :: part)

/-- The keys that are present. -/
def present (h : List (Change κ)) : Finset κ :=
  (h.map Change.key).toFinset.filter fun key => Present key h

section

variable {key k : κ} {h : List (Change κ)} {time t : ℕ} {c : Change κ}

/-! ## One more change -/

@[simp] theorem opens_opened (key k : κ) (h : List (Change κ)) (t : ℕ) :
    opens key (h ++ [.opened k t]) = opens key h + if k = key then 1 else 0 := by
  rw [opens, List.countP_append, List.countP_singleton]
  simp [Change.opens, opens]

@[simp] theorem opens_closed (key k : κ) (h : List (Change κ)) :
    opens key (h ++ [.closed k]) = opens key h := by
  rw [opens, List.countP_append, List.countP_singleton]
  simp [Change.opens, opens]

@[simp] theorem closes_opened (key k : κ) (h : List (Change κ)) (t : ℕ) :
    closes key (h ++ [.opened k t]) = closes key h := by
  rw [closes, List.countP_append, List.countP_singleton]
  simp [Change.closes, closes]

@[simp] theorem closes_closed (key k : κ) (h : List (Change κ)) :
    closes key (h ++ [.closed k]) = closes key h + if k = key then 1 else 0 := by
  rw [closes, List.countP_append, List.countP_singleton]
  simp [Change.closes, closes]

theorem opens_of_ne (hne : c.key ≠ key) : opens key (h ++ [c]) = opens key h := by
  cases c with
  | opened k t => rw [opens_opened, if_neg (show k ≠ key from hne), Nat.add_zero]
  | closed k => exact opens_closed key k h

theorem closes_of_ne (hne : c.key ≠ key) : closes key (h ++ [c]) = closes key h := by
  cases c with
  | opened k t => exact closes_opened key k h t
  | closed k => rw [closes_closed, if_neg (show k ≠ key from hne), Nat.add_zero]

theorem matched_nil : Matched ([] : List (Change κ)) := by
  intro before hbefore key
  rw [List.prefix_nil.mp hbefore]
  exact Nat.le_refl 0

theorem Matched.of_snoc (hm : Matched (h ++ [c])) : Matched h :=
  fun before hbefore => hm before (hbefore.trans (List.prefix_append h [c]))

theorem Matched.snoc (hm : Matched h)
    (hle : ∀ key, closes key (h ++ [c]) ≤ opens key (h ++ [c])) : Matched (h ++ [c]) := by
  intro before hbefore
  rcases List.prefix_concat_iff.mp hbefore with rfl | hbefore
  · exact hle
  · exact hm before hbefore

/-- Anything may be opened. -/
theorem Matched.opened (hm : Matched h) (key : κ) (time : ℕ) :
    Matched (h ++ [.opened key time]) := by
  refine hm.snoc fun k => ?_
  rw [closes_opened, opens_opened]
  exact (hm h (List.prefix_refl h) k).trans (Nat.le_add_right _ _)

/-- What is open may be closed. -/
theorem Matched.closed (hm : Matched h) (hp : Present key h) : Matched (h ++ [.closed key]) := by
  refine hm.snoc fun k => ?_
  rw [closes_closed, opens_closed]
  split
  · next heq =>
    subst heq
    exact hp
  · exact hm h (List.prefix_refl h) k

theorem Matched.present (hm : Matched (h ++ [.closed key])) : Present key h := by
  have hle := hm _ (List.prefix_refl _) key
  rw [closes_closed, opens_closed, if_pos rfl] at hle
  exact hle

theorem present_opened : Present key (h ++ [.opened k t]) ↔
    closes key h < opens key h + if k = key then 1 else 0 := by
  rw [Present, opens_opened, closes_opened]

theorem present_closed : Present key (h ++ [.closed k]) ↔
    closes key h + (if k = key then 1 else 0) < opens key h := by
  rw [Present, opens_closed, closes_closed]

theorem Present.mem (hp : Present key h) : key ∈ h.map Change.key := by
  have hpos : 0 < opens key h := Nat.zero_lt_of_lt hp
  obtain ⟨c, hc, hopens⟩ := List.countP_pos_iff.mp hpos
  refine List.mem_map.mpr ⟨c, hc, ?_⟩
  cases c with
  | opened k t => exact of_decide_eq_true hopens
  | closed k => exact absurd hopens Bool.false_ne_true

theorem mem_present : key ∈ present h ↔ Present key h := by
  rw [present, Finset.mem_filter, List.mem_toFinset]
  exact ⟨And.right, fun hp => ⟨hp.mem, hp⟩⟩

/-! ## Since when -/

/-- What was absent is present since it was opened. -/
theorem since_opened (hm : closes key h ≤ opens key h) (habsent : ¬ Present key h) :
    Since key (h ++ [.opened key t]) t := by
  refine ⟨h, [], rfl, habsent, fun part hpart => ?_⟩
  rw [List.prefix_nil.mp hpart, present_opened, if_pos rfl]
  exact Nat.lt_succ_of_le hm

/-- What goes on being present has been since the same time. -/
theorem Since.snoc (hs : Since key h time) (hp : Present key (h ++ [c])) :
    Since key (h ++ [c]) time := by
  obtain ⟨before, after, rfl, habsent, hpresent⟩ := hs
  rw [List.append_assoc, List.cons_append] at hp ⊢
  refine ⟨before, after ++ [c], rfl, habsent, fun part hpart => ?_⟩
  rcases List.prefix_concat_iff.mp hpart with rfl | hpart
  · exact hp
  · exact hpresent part hpart

end

end Presence
