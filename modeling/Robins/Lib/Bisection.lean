import Mathlib.Data.List.Basic

/-!
# Cutting a list by halving

A list is to be cut into contiguous parts that each fit, for whatever it means to fit, and into as
few as possible.  Bisection keeps a run that fits whole and halves one that does not.  It always
finds a partition, but not always a fewest one: every cut it makes is in the middle of a run, and
the fewest parts may ask for another.

## When it does as well as possible

`Bisects.fewest_iff` says exactly when: when every run it halves has some fewest partition with a
cut in the middle (`MiddleCuts`).  Nothing is assumed of what fits; in particular a part of a run
that fits need not fit.

The condition is about the runs that bisection comes to (`HalvedTo`) and about partitions, and not
about the parts that bisection finds.  It passes to the halves of a run that is halved
(`middleCuts_halves_iff`), and so does being fewest, in one direction: if the parts of both halves
together are fewest, so are those of each half, since a better partition of one half would make a
better partition of the whole (`Fewest.of_append`).  In the other direction a fewest partition with
a cut in the middle is one of each half, no better than the fewest of these.
-/

namespace Bisection

variable {α : Type*} {fits : List α → Prop}

/-! ## Partitions -/

/-- A cut of a list into contiguous parts, none of them empty, that all fit. -/
structure IsPartition (fits : List α → Prop) (l : List α) (parts : List (List α)) : Prop where
  flatten_eq : parts.flatten = l
  ne_nil : ∀ part ∈ parts, part ≠ []
  fits : ∀ part ∈ parts, fits part

theorem IsPartition.append {l l' : List α} {parts parts' : List (List α)}
    (h : IsPartition fits l parts) (h' : IsPartition fits l' parts') :
    IsPartition fits (l ++ l') (parts ++ parts') where
  flatten_eq := by rw [List.flatten_append, h.flatten_eq, h'.flatten_eq]
  ne_nil := by
    intro part hpart
    exact (List.mem_append.mp hpart).elim (h.ne_nil part) (h'.ne_nil part)
  fits := by
    intro part hpart
    exact (List.mem_append.mp hpart).elim (h.fits part) (h'.fits part)

/-- A partition with as few parts as any. -/
structure Fewest (fits : List α → Prop) (l : List α) (parts : List (List α)) : Prop where
  isPartition : IsPartition fits l parts
  le : ∀ other, IsPartition fits l other → parts.length ≤ other.length

/-- Some fewest partition of the list has a cut in the middle. -/
def CutsAtMiddle (fits : List α → Prop) (l : List α) : Prop :=
  ∃ left right, Fewest fits l (left ++ right) ∧ left.flatten = l.take (l.length / 2)

/-- The sides of a partition on either side of a cut. -/
theorem IsPartition.split {l : List α} {left right : List (List α)} {n : ℕ}
    (h : IsPartition fits l (left ++ right)) (hcut : left.flatten = l.take n) :
    IsPartition fits (l.take n) left ∧ IsPartition fits (l.drop n) right := by
  have hright : right.flatten = l.drop n := by
    have hflatten := h.flatten_eq
    rw [List.flatten_append, hcut] at hflatten
    exact List.append_cancel_left (hflatten.trans (List.take_append_drop n l).symm)
  exact ⟨⟨hcut, fun part hpart => h.ne_nil part (List.mem_append_left _ hpart),
      fun part hpart => h.fits part (List.mem_append_left _ hpart)⟩,
    ⟨hright, fun part hpart => h.ne_nil part (List.mem_append_right _ hpart),
      fun part hpart => h.fits part (List.mem_append_right _ hpart)⟩⟩

/-! ## Bisection -/

/-- The parts bisection cuts a list into. -/
inductive Bisects (fits : List α → Prop) : List α → List (List α) → Prop where
  | nil : Bisects fits [] []
  | whole {run : List α} (hne : run ≠ []) (hfits : fits run) : Bisects fits run [run]
  | halves {run : List α} {parts parts' : List (List α)} (hfits : ¬ fits run)
      (hlen : 2 ≤ run.length) (hleft : Bisects fits (run.take (run.length / 2)) parts)
      (hright : Bisects fits (run.drop (run.length / 2)) parts') :
      Bisects fits run (parts ++ parts')

/-- The runs bisection comes to: the list itself, and the halves of a run that does not
fit. -/
inductive HalvedTo (fits : List α → Prop) (l : List α) : List α → Prop where
  | refl : HalvedTo fits l l
  | left {run : List α} (h : HalvedTo fits l run) (hfits : ¬ fits run)
      (hlen : 2 ≤ run.length) : HalvedTo fits l (run.take (run.length / 2))
  | right {run : List α} (h : HalvedTo fits l run) (hfits : ¬ fits run)
      (hlen : 2 ≤ run.length) : HalvedTo fits l (run.drop (run.length / 2))

/-- Every run that bisection halves has some fewest partition with a cut in the middle. -/
def MiddleCuts (fits : List α → Prop) (l : List α) : Prop :=
  ∀ run, HalvedTo fits l run → ¬ fits run → 2 ≤ run.length → CutsAtMiddle fits run

theorem Bisects.isPartition {l : List α} {parts : List (List α)} (h : Bisects fits l parts) :
    IsPartition fits l parts := by
  induction h with
  | nil => exact ⟨rfl, by simp, by simp⟩
  | @whole run hne hfits =>
    refine ⟨List.flatten_singleton, ?_, ?_⟩
    · intro part hpart
      rwa [List.mem_singleton.mp hpart]
    · intro part hpart
      rwa [List.mem_singleton.mp hpart]
  | @halves run parts parts' hfits hlen hleft hright ihleft ihright =>
    have happend := ihleft.append ihright
    rwa [List.take_append_drop] at happend

theorem HalvedTo.trans {l m run : List α} (h : HalvedTo fits l m) (h' : HalvedTo fits m run) :
    HalvedTo fits l run := by
  induction h' with
  | refl => exact h
  | left _ hfits hlen ih => exact ih.left hfits hlen
  | right _ hfits hlen ih => exact ih.right hfits hlen

theorem HalvedTo.eq_of_keeps {l run : List α} (hkeeps : fits l ∨ l.length < 2)
    (h : HalvedTo fits l run) : run = l := by
  induction h with
  | refl => rfl
  | left _ hfits hlen ih =>
    subst ih
    rcases hkeeps with hkeeps | hkeeps
    · exact absurd hkeeps hfits
    · omega
  | right _ hfits hlen ih =>
    subst ih
    rcases hkeeps with hkeeps | hkeeps
    · exact absurd hkeeps hfits
    · omega

/-- What a halved list asks of the cuts, its halves ask each on their own. -/
theorem middleCuts_halves_iff {l : List α} (hfits : ¬ fits l) (hlen : 2 ≤ l.length) :
    MiddleCuts fits l ↔ CutsAtMiddle fits l ∧ MiddleCuts fits (l.take (l.length / 2)) ∧
      MiddleCuts fits (l.drop (l.length / 2)) := by
  have htake : HalvedTo fits l (l.take (l.length / 2)) := HalvedTo.refl.left hfits hlen
  have hdrop : HalvedTo fits l (l.drop (l.length / 2)) := HalvedTo.refl.right hfits hlen
  constructor
  · intro h
    exact ⟨h l .refl hfits hlen, fun run hrun => h run (htake.trans hrun),
      fun run hrun => h run (hdrop.trans hrun)⟩
  · rintro ⟨hmiddle, hleft, hright⟩ run hrun
    -- a run is the list itself or comes from one of the halves
    have hcases : run = l ∨ HalvedTo fits (l.take (l.length / 2)) run ∨
        HalvedTo fits (l.drop (l.length / 2)) run := by
      induction hrun with
      | refl => exact .inl rfl
      | left _ hf hl ih =>
        rcases ih with rfl | ih | ih
        · exact .inr (.inl .refl)
        · exact .inr (.inl (ih.left hf hl))
        · exact .inr (.inr (ih.left hf hl))
      | right _ hf hl ih =>
        rcases ih with rfl | ih | ih
        · exact .inr (.inr .refl)
        · exact .inr (.inl (ih.right hf hl))
        · exact .inr (.inr (ih.right hf hl))
    rcases hcases with rfl | hrun | hrun
    · exact fun _ _ => hmiddle
    · exact hleft run hrun
    · exact hright run hrun

/-- The halves of a fewest partition found by bisection are fewest themselves. -/
theorem Fewest.of_append {l l' : List α} {parts parts' : List (List α)}
    (h : Fewest fits (l ++ l') (parts ++ parts')) (hl : IsPartition fits l parts)
    (hl' : IsPartition fits l' parts') : Fewest fits l parts ∧ Fewest fits l' parts' := by
  refine ⟨⟨hl, ?_⟩, ⟨hl', ?_⟩⟩
  · intro other hother
    have := h.le _ (hother.append hl')
    rw [List.length_append, List.length_append] at this
    omega
  · intro other hother
    have := h.le _ (hl.append hother)
    rw [List.length_append, List.length_append] at this
    omega

/-- **Bisection finds a fewest partition exactly when every run it halves has one with a cut
in the middle.** -/
theorem Bisects.fewest_iff {l : List α} {parts : List (List α)} (h : Bisects fits l parts) :
    Fewest fits l parts ↔ MiddleCuts fits l := by
  induction h with
  | nil =>
    refine iff_of_true ⟨Bisects.nil.isPartition, fun _ _ => Nat.zero_le _⟩ ?_
    intro run hrun _ hlen
    have hnil : run = [] := hrun.eq_of_keeps (.inr (by simp))
    rw [hnil] at hlen
    exact absurd hlen (by simp)
  | @whole run hne hfits =>
    refine iff_of_true ⟨(Bisects.whole hne hfits).isPartition, ?_⟩ ?_
    · intro other hother
      refine List.length_pos_of_ne_nil ?_
      rintro rfl
      exact hne hother.flatten_eq.symm
    · intro run' hrun hnot
      obtain rfl := hrun.eq_of_keeps (.inl hfits)
      exact absurd hfits hnot
  | @halves run parts parts' hfits hlen hleft hright ihleft ihright =>
    rw [middleCuts_halves_iff hfits hlen, ← ihleft, ← ihright]
    constructor
    · intro hfewest
      have hwhole : Fewest fits (run.take (run.length / 2) ++ run.drop (run.length / 2))
          (parts ++ parts') := by rwa [List.take_append_drop]
      have hmiddle : CutsAtMiddle fits run :=
        ⟨parts, parts', hfewest, hleft.isPartition.flatten_eq⟩
      exact ⟨hmiddle, hwhole.of_append hleft.isPartition hright.isPartition⟩
    · rintro ⟨⟨left, right, hmiddle, hcut⟩, hl, hr⟩
      obtain ⟨hpleft, hpright⟩ := hmiddle.isPartition.split hcut
      refine ⟨(hleft.halves hfits hlen hright).isPartition, fun other hother => ?_⟩
      have hbest := hmiddle.le other hother
      have hparts := hl.le left hpleft
      have hparts' := hr.le right hpright
      rw [List.length_append] at hbest ⊢
      omega

end Bisection
