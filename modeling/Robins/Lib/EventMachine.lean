import Mathlib.Data.List.Basic
import Mathlib.Data.List.Induction

/-!
# Event machines, their runs, and what a run has shown

A concurrent program is modelled here by the events its environment can cause:
a message arrives, a task finishes, a timer fires, a transaction commits.  Given
a state and an event the program either cannot be in a position where that event
happens (`none`), or it takes one step and shows a finite list of observations.
Everything the environment may choose is in the event, so `step` is a function
and a run is a computation: `exec` plays a list of events and returns the state
reached together with the history shown on the way.

Three rules are proved once and used by every machine.

* `exec_induction` carries a predicate of the events played, the history shown
  and the state reached along a run, one step at a time from the right.
* `exists_step_of_exec` goes back from an observation to the event that caused it.
* `Justified` says that every observation of a history is accounted for by the
  observations before it; it is checked one step at a time by `justified_append`.
-/

universe u v w

/-- A machine driven by events.  `step` is partial: an event that cannot happen
in a state has no step there. -/
structure EventMachine (σ : Type u) (ε : Type v) (ω : Type w) where
  step : σ → ε → Option (σ × List ω)

namespace EventMachine

variable {σ : Type u} {ε : Type v} {ω : Type w} (M : EventMachine σ ε ω)

/-! ## Runs -/

/-- Play a list of events from a state: the state reached and the history shown. -/
def exec : σ → List ε → Option (σ × List ω)
  | s, [] => some (s, [])
  | s, e :: es =>
    (M.step s e).bind fun p => (exec p.1 es).map fun q => (q.1, p.2 ++ q.2)

@[simp] theorem exec_nil (s : σ) : M.exec s [] = some (s, []) := rfl

variable {M}

theorem exec_cons_eq_some_iff {s r : σ} {e : ε} {es : List ε} {h : List ω} :
    M.exec s (e :: es) = some (r, h) ↔
      ∃ t o k, M.step s e = some (t, o) ∧ M.exec t es = some (r, k) ∧ h = o ++ k := by
  rw [exec, Option.bind_eq_some_iff]
  constructor
  · rintro ⟨⟨t, o⟩, hstep, hrest⟩
    obtain ⟨⟨r', k⟩, hexec, heq⟩ := Option.map_eq_some_iff.mp hrest
    obtain ⟨rfl, rfl⟩ := Prod.mk.inj heq
    exact ⟨t, o, k, hstep, hexec, rfl⟩
  · rintro ⟨t, o, k, hstep, hexec, rfl⟩
    exact ⟨(t, o), hstep, Option.map_eq_some_iff.mpr ⟨(r, k), hexec, rfl⟩⟩

/-- A run of a concatenation is a run of the first part followed by a run of the
second, and the histories are appended. -/
theorem exec_append_eq_some_iff {s r : σ} {es fs : List ε} {h : List ω} :
    M.exec s (es ++ fs) = some (r, h) ↔
      ∃ t h₁ h₂, M.exec s es = some (t, h₁) ∧ M.exec t fs = some (r, h₂) ∧
        h = h₁ ++ h₂ := by
  induction es generalizing s h with
  | nil =>
    simp only [List.nil_append, exec_nil, Option.some.injEq, Prod.mk.injEq]
    constructor
    · intro hr
      exact ⟨s, [], h, ⟨rfl, rfl⟩, hr, rfl⟩
    · rintro ⟨t, h₁, h₂, ⟨rfl, rfl⟩, hr, rfl⟩
      exact hr
  | cons e es ih =>
    rw [List.cons_append, exec_cons_eq_some_iff]
    constructor
    · rintro ⟨t, o, k, hstep, hrest, rfl⟩
      obtain ⟨t', h₁, h₂, hes, hfs, rfl⟩ := ih.mp hrest
      exact ⟨t', o ++ h₁, h₂, exec_cons_eq_some_iff.mpr ⟨t, o, h₁, hstep, hes, rfl⟩, hfs,
        (List.append_assoc _ _ _).symm⟩
    · rintro ⟨t', h₁, h₂, hes, hfs, rfl⟩
      obtain ⟨t, o, k, hstep, hrest, rfl⟩ := exec_cons_eq_some_iff.mp hes
      exact ⟨t, o, k ++ h₂, hstep, ih.mpr ⟨t', k, h₂, hrest, hfs, rfl⟩,
        List.append_assoc _ _ _⟩

theorem exec_snoc_eq_some_iff {s r : σ} {es : List ε} {e : ε} {h : List ω} :
    M.exec s (es ++ [e]) = some (r, h) ↔
      ∃ t k o, M.exec s es = some (t, k) ∧ M.step t e = some (r, o) ∧ h = k ++ o := by
  rw [exec_append_eq_some_iff]
  constructor
  · rintro ⟨t, k, o, hes, he, rfl⟩
    obtain ⟨t', o', k', hstep, hnil, rfl⟩ := exec_cons_eq_some_iff.mp he
    rw [exec_nil] at hnil
    obtain ⟨rfl, rfl⟩ := Prod.mk.inj (Option.some.inj hnil)
    exact ⟨t, k, o', hes, hstep, by rw [List.append_nil]⟩
  · rintro ⟨t, k, o, hes, hstep, rfl⟩
    exact ⟨t, k, o, hes,
      exec_cons_eq_some_iff.mpr ⟨r, o, [], hstep, rfl, (List.append_nil _).symm⟩, rfl⟩

/-- **Induction along a run.**  A predicate of the events played, the history
shown and the state reached holds of every run if it holds at the start and
survives one more step. -/
theorem exec_induction {s₀ : σ} {P : List ε → List ω → σ → Prop}
    (nil : P [] [] s₀)
    (snoc : ∀ es h s e t o, M.exec s₀ es = some (s, h) → P es h s →
      M.step s e = some (t, o) → P (es ++ [e]) (h ++ o) t) :
    ∀ {es : List ε} {s : σ} {h : List ω}, M.exec s₀ es = some (s, h) → P es h s := by
  intro es
  induction es using List.reverseRecOn with
  | nil =>
    intro s h hrun
    rw [exec_nil] at hrun
    obtain ⟨rfl, rfl⟩ := Prod.mk.inj (Option.some.inj hrun)
    exact nil
  | append_singleton es e ih =>
    intro s h hrun
    obtain ⟨t, k, o, hes, hstep, rfl⟩ := exec_snoc_eq_some_iff.mp hrun
    exact snoc es k t e s o hes (ih hes) hstep

/-- **Every observation was shown by a step.**  The events before that step are a run, and what
the history has before the observation was shown by this run and by the step itself. -/
theorem exists_step_of_exec {s₀ s : σ} {es : List ε} {h : List ω}
    (hrun : M.exec s₀ es = some (s, h)) :
    ∀ h₁ a h₂, h = h₁ ++ a :: h₂ → ∃ es₁ e es₂ r r' k o₁ o₂, es = es₁ ++ e :: es₂ ∧
      M.exec s₀ es₁ = some (r, k) ∧ M.step r e = some (r', o₁ ++ a :: o₂) ∧ h₁ = k ++ o₁ := by
  refine exec_induction (P := fun es h _ => ∀ h₁ a h₂, h = h₁ ++ a :: h₂ →
    ∃ es₁ e es₂ r r' k o₁ o₂, es = es₁ ++ e :: es₂ ∧ M.exec s₀ es₁ = some (r, k) ∧
      M.step r e = some (r', o₁ ++ a :: o₂) ∧ h₁ = k ++ o₁) ?_ ?_ hrun
  · intro h₁ a h₂ hnil
    exact absurd hnil.symm (by simp)
  · intro es h s e t o hes ih hstep h₁ a h₂ heq
    rcases List.append_eq_append_iff.mp heq with ⟨o₁, rfl, rfl⟩ | ⟨k, rfl, hcons⟩
    · exact ⟨es, e, [], s, t, h, o₁, h₂, rfl, hes, hstep, rfl⟩
    · rcases List.cons_eq_append_iff.mp hcons with ⟨rfl, rfl⟩ | ⟨k', rfl, rfl⟩
      · rw [List.append_nil] at hes
        exact ⟨es, e, [], s, t, h₁, [], h₂, rfl, hes, hstep, (List.append_nil _).symm⟩
      · obtain ⟨es₁, e', es₂, r, r', k, o₁, o₂, rfl, hrun', hstep', rfl⟩ := ih h₁ a k' rfl
        exact ⟨es₁, e', es₂ ++ [e], r, r', k, o₁, o₂, by simp, hrun', hstep', rfl⟩

/-! ## Runs whose steps meet a condition -/

variable (M) in
/-- Every step of the run is taken in a state, and on an event, of which the condition holds. -/
def StepsMeet (C : σ → ε → Prop) : σ → List ε → Prop
  | _, [] => True
  | s, e :: es => C s e ∧
    match M.step s e with
    | some p => StepsMeet C p.1 es
    | none => True

instance decidableStepsMeet {C : σ → ε → Prop} [∀ s e, Decidable (C s e)] :
    ∀ (s : σ) (es : List ε), Decidable (M.StepsMeet C s es)
  | _, [] => .isTrue trivial
  | s, e :: es =>
    match hstep : M.step s e with
    | some p =>
      haveI : Decidable (M.StepsMeet C p.1 es) := decidableStepsMeet p.1 es
      decidable_of_iff (C s e ∧ M.StepsMeet C p.1 es) (by rw [StepsMeet, hstep])
    | none => decidable_of_iff (C s e ∧ True) (by rw [StepsMeet, hstep])

theorem stepsMeet_snoc {C : σ → ε → Prop} {s t : σ} {es : List ε} {e : ε} {h : List ω}
    (hrun : M.exec s es = some (t, h)) :
    M.StepsMeet C s (es ++ [e]) ↔ M.StepsMeet C s es ∧ C t e := by
  induction es generalizing s h with
  | nil =>
    obtain ⟨rfl, rfl⟩ := Prod.mk.inj (Option.some.inj hrun)
    rw [List.nil_append, StepsMeet, StepsMeet, and_comm]
    refine and_congr_left fun _ => iff_of_true ?_ trivial
    split <;> trivial
  | cons a es ih =>
    obtain ⟨r, o, k, hstep, hrest, rfl⟩ := exec_cons_eq_some_iff.mp hrun
    rw [List.cons_append, StepsMeet, StepsMeet, hstep]
    dsimp only
    rw [ih hrest, and_assoc]

/-- **Induction along a run whose steps meet a condition.**  The step of the induction may use
that the condition holds of the state before it and of its event. -/
theorem exec_induction_of_stepsMeet {C : σ → ε → Prop} {s₀ : σ}
    {P : List ε → List ω → σ → Prop} (nil : P [] [] s₀)
    (snoc : ∀ es h s e t o, M.exec s₀ es = some (s, h) → P es h s → C s e →
      M.step s e = some (t, o) → P (es ++ [e]) (h ++ o) t)
    {es : List ε} {s : σ} {h : List ω} (hrun : M.exec s₀ es = some (s, h))
    (hmeet : M.StepsMeet C s₀ es) : P es h s := by
  revert hmeet
  refine exec_induction (P := fun es h s => M.StepsMeet C s₀ es → P es h s) (fun _ => nil) ?_ hrun
  intro es h s e t o hes ih hstep hmeet
  obtain ⟨hbefore, he⟩ := (stepsMeet_snoc hes).mp hmeet
  exact snoc es h s e t o hes (ih hbefore) he hstep

/-! ## Parts of a history -/

/-- What is picked from a history was shown, if it is picked from one observation only. -/
theorem mem_filterMap_iff {α : Type v} {pick : ω → Option α} {x : α} {a : ω}
    (hpick : ∀ b, pick b = some x ↔ b = a) {h : List ω} : x ∈ h.filterMap pick ↔ a ∈ h := by
  rw [List.mem_filterMap]
  constructor
  · rintro ⟨b, hb, heq⟩
    rwa [← (hpick b).mp heq]
  · exact fun ha => ⟨a, ha, (hpick a).mpr rfl⟩

/-! ## Justified histories -/

/-- Every observation of the history is accounted for by what was shown before
it. -/
def Justified (J : List ω → ω → Prop) (h : List ω) : Prop :=
  ∀ h₁ a h₂, h = h₁ ++ a :: h₂ → J h₁ a

theorem justified_nil (J : List ω → ω → Prop) : Justified J [] := by
  intro h₁ a h₂ h
  exact absurd h.symm (by simp)

/-- A history stays justified when each newly shown observation is accounted for
by the history and the new observations before it. -/
theorem justified_append {J : List ω → ω → Prop} {h o : List ω} :
    Justified J (h ++ o) ↔
      Justified J h ∧ ∀ o₁ a o₂, o = o₁ ++ a :: o₂ → J (h ++ o₁) a := by
  constructor
  · intro hj
    refine ⟨fun h₁ a h₂ hh => hj h₁ a (h₂ ++ o) ?_, fun o₁ a o₂ ho => hj (h ++ o₁) a o₂ ?_⟩
    · rw [hh, List.append_assoc, List.cons_append]
    · rw [ho, List.append_assoc]
  · rintro ⟨hj, ho⟩ h₁ a h₂ heq
    rcases List.append_eq_append_iff.mp heq with ⟨k, rfl, hk⟩ | ⟨k, hk, hk'⟩
    · exact ho k a h₂ hk
    · cases k with
      | nil =>
        rw [List.append_nil] at hk
        have := ho [] a h₂ (by rw [List.nil_append]; exact hk'.symm)
        rwa [List.append_nil, hk] at this
      | cons b k =>
        rw [List.cons_append] at hk'
        obtain ⟨rfl, -⟩ := List.cons.inj hk'
        exact hj h₁ a k hk

theorem justified_append_singleton {J : List ω → ω → Prop} {h : List ω} {a : ω} :
    Justified J (h ++ [a]) ↔ Justified J h ∧ J h a := by
  rw [justified_append]
  refine and_congr_right fun _ => ⟨fun ho => ?_, fun ha o₁ b o₂ heq => ?_⟩
  · have := ho [] a [] rfl
    rwa [List.append_nil] at this
  · cases o₁ with
    | nil =>
      obtain ⟨rfl, -⟩ := List.cons.inj heq
      rwa [List.append_nil]
    | cons c o₁ =>
      obtain ⟨-, hnil⟩ := List.cons.inj heq
      exact absurd hnil.symm (by simp)

/-- What is in a justified history is accounted for by what was shown before. -/
theorem Justified.exists_of_mem {J : List ω → ω → Prop} {h : List ω} {a : ω}
    (hj : Justified J h) (ha : a ∈ h) : ∃ h₁ h₂, h = h₁ ++ a :: h₂ ∧ J h₁ a := by
  obtain ⟨h₁, h₂, rfl⟩ := List.append_of_mem ha
  exact ⟨h₁, h₂, rfl, hj h₁ a h₂ rfl⟩

/-- A step that shows nothing leaves a justified history justified. -/
theorem Justified.append_nil {J : List ω → ω → Prop} {h : List ω} (hj : Justified J h) :
    Justified J (h ++ []) := by
  rwa [List.append_nil]

end EventMachine
