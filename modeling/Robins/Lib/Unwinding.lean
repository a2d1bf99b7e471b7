import Robins.Lib.EventMachine

/-!
# Two runs that look the same to an observer

Several parties drive one machine, and one of them should not notice what the
others do.  Its own events are those that `concerns` it, and what it sees of a
history are the observations that are `visible` to it.  An unwinding is a relation
between states of two runs: an event of somebody else moves one of the two and
keeps the relation, and shows the observer nothing; an event of its own moves both
and shows it the same.

`Unwinds.exec` is the consequence for whole runs: two runs with the same events of
the observer, in the same order, and anything between them, show it the same.  A
condition `C` on the steps taken may be assumed where its own events happen.
-/

universe u v w

namespace EventMachine

variable {σ : Type u} {ε : Type v} {ω : Type w} {M : EventMachine σ ε ω}

/-- A relation of states that the observer cannot tell apart. -/
structure Unwinds (M : EventMachine σ ε ω) (concerns : ε → Bool) (visible : ω → Bool)
    (C : σ → ε → Prop) (R : σ → σ → Prop) : Prop where
  symm : ∀ s t, R s t → R t s
  unseen : ∀ s t e s' o, R s t → concerns e = false → M.step s e = some (s', o) →
    R s' t ∧ o.filter visible = []
  seen : ∀ s t e s' t' o p, R s t → concerns e = true → C s e → C t e →
    M.step s e = some (s', o) → M.step t e = some (t', p) →
    R s' t' ∧ o.filter visible = p.filter visible

theorem stepsMeet_cons {C : σ → ε → Prop} {s t : σ} {e : ε} {es : List ε} {o : List ω}
    (hstep : M.step s e = some (t, o)) :
    M.StepsMeet C s (e :: es) ↔ C s e ∧ M.StepsMeet C t es := by
  rw [StepsMeet, hstep]

theorem stepsMeet_of_forall {C : σ → ε → Prop} (hC : ∀ s e, C s e) (s : σ) (es : List ε) :
    M.StepsMeet C s es := by
  induction es generalizing s with
  | nil => trivial
  | cons e es ih =>
    refine ⟨hC s e, ?_⟩
    split
    · exact ih _
    · trivial

variable {concerns : ε → Bool} {visible : ω → Bool} {C : σ → ε → Prop} {R : σ → σ → Prop}

/-- A run without events of the observer. -/
theorem Unwinds.exec_unseen (hu : M.Unwinds concerns visible C R) {s t s' : σ} {es : List ε}
    {h : List ω} (hR : R s t) (hes : es.filter concerns = [])
    (hrun : M.exec s es = some (s', h)) : R s' t ∧ h.filter visible = [] := by
  induction es generalizing s h with
  | nil =>
    obtain ⟨rfl, rfl⟩ := Prod.mk.inj (Option.some.inj hrun)
    exact ⟨hR, rfl⟩
  | cons e es ih =>
    obtain ⟨s₁, o, k, hstep, hrest, rfl⟩ := exec_cons_eq_some_iff.mp hrun
    have he : concerns e = false := by
      have := List.filter_eq_nil_iff.mp hes e List.mem_cons_self
      simpa using this
    rw [List.filter_cons_of_neg (by rw [he]; exact Bool.false_ne_true)] at hes
    obtain ⟨hR₁, ho⟩ := hu.unseen s t e s₁ o hR he hstep
    obtain ⟨hR', hk⟩ := ih hR₁ hes hrest
    exact ⟨hR', by rw [List.filter_append, ho, hk]; rfl⟩

/-- **The observer cannot tell two runs apart** that have its own events in common.  Events of
others are taken off whichever run has them first, and its own off both at once. -/
theorem Unwinds.exec (hu : M.Unwinds concerns visible C R) {s t s' t' : σ} {es fs : List ε}
    {h k : List ω} (hR : R s t) (hsame : es.filter concerns = fs.filter concerns)
    (hes : M.exec s es = some (s', h)) (hfs : M.exec t fs = some (t', k))
    (hmeet : M.StepsMeet C s es) (hmeet' : M.StepsMeet C t fs) :
    R s' t' ∧ h.filter visible = k.filter visible := by
  induction es generalizing s t fs h k with
  | nil =>
    obtain ⟨rfl, rfl⟩ := Prod.mk.inj (Option.some.inj hes)
    obtain ⟨hR', hk⟩ := hu.exec_unseen (hu.symm _ _ hR) hsame.symm hfs
    exact ⟨hu.symm _ _ hR', hk.symm⟩
  | cons e es ih =>
    obtain ⟨s₁, o, h₁, hstep, hrest, rfl⟩ := exec_cons_eq_some_iff.mp hes
    obtain ⟨hC, hmeet₁⟩ := (stepsMeet_cons hstep).mp hmeet
    cases he : concerns e with
    | false =>
      rw [List.filter_cons_of_neg (by rw [he]; exact Bool.false_ne_true)] at hsame
      obtain ⟨hR₁, ho⟩ := hu.unseen s t e s₁ o hR he hstep
      obtain ⟨hR', hh⟩ := ih hR₁ hsame hrest hfs hmeet₁ hmeet'
      exact ⟨hR', by rw [List.filter_append, ho, hh]; rfl⟩
    | true =>
      rw [List.filter_cons_of_pos he] at hsame
      -- the other run first does what does not concern the observer
      induction fs generalizing t k with
      | nil => exact absurd hsame (by simp)
      | cons f fs ihf =>
        obtain ⟨t₁, p, k₁, hstep', hrest', rfl⟩ := exec_cons_eq_some_iff.mp hfs
        obtain ⟨hC', hmeet₂⟩ := (stepsMeet_cons hstep').mp hmeet'
        cases hf : concerns f with
        | false =>
          rw [List.filter_cons_of_neg (by rw [hf]; exact Bool.false_ne_true)] at hsame
          obtain ⟨hR₁, hp⟩ := hu.unseen t s f t₁ p (hu.symm _ _ hR) hf hstep'
          obtain ⟨hR', hh⟩ := ihf (hu.symm _ _ hR₁) hsame hrest' hmeet₂
          exact ⟨hR', by rw [List.filter_append p, hp, hh]; rfl⟩
        | true =>
          rw [List.filter_cons_of_pos hf] at hsame
          obtain ⟨rfl, hsame'⟩ := List.cons.inj hsame
          obtain ⟨hR₁, ho⟩ := hu.seen s t e s₁ t₁ o p hR he hC hC' hstep hstep'
          obtain ⟨hR', hh⟩ := ih hR₁ hsame' hrest hrest' hmeet₁ hmeet₂
          exact ⟨hR', by rw [List.filter_append, List.filter_append, ho, hh]⟩

end EventMachine
