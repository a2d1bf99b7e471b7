import Mathlib.Data.List.Basic

/-!
# Transactions over a database that may fail

A write transaction works on a copy of the database.  Each of its calls may fail with an error of
the database, and its own code may give up as well; either way the transaction is dropped, and the
database is what it was.  Only a commit puts the copy in place.

`faults` says how the calls to come will go: the next one fails with the error at the head of the
list, if there is one, and a list that has run out means no more failures.  So a statement about
all lists of faults is one about failures at every call, and several of them.

What a transaction is for is said by a function that knows nothing of faults (`Refines`); a
transaction that ends well has done just that, and one without faults does it.  With
`write_of_error` a program that uses transactions can then be modelled with its operations as single
steps.
-/

namespace FaultyTransaction

variable {σ ε α : Type*}

/-- How the calls to come will go. -/
abbrev Faults (ε : Type*) := List (Option ε)

/-- One call to the database: it fails, or leaves the faults to come. -/
def call : Faults ε → Except ε (Faults ε)
  | [] => .ok []
  | none :: faults => .ok faults
  | some err :: _ => .error err

/-- The code of a transaction, run on a copy of the database. -/
abbrev Body (σ ε α : Type*) := Faults ε → σ → Except ε (α × Faults ε × σ)

/-- The code does what `run` says, as far as no call fails. -/
structure Refines (body : Body σ ε α) (run : σ → Except ε (α × σ)) : Prop where
  of_ok : ∀ {faults faults' : Faults ε} {s s' : σ} {a : α},
    body faults s = .ok (a, faults', s') → run s = .ok (a, s')
  faultless : ∀ s : σ, body [] s = (run s).map fun p => (p.1, [], p.2)

/-- A write transaction: begin, the code on a copy, commit. -/
def write (body : Body σ ε α) (faults : Faults ε) (db : σ) : Except ε α × σ :=
  match call faults with
  | .error err => (.error err, db)
  | .ok faults =>
    match body faults db with
    | .error err => (.error err, db)
    | .ok (a, faults, staged) =>
      match call faults with
      | .error err => (.error err, db)
      | .ok _ => (.ok a, staged)

/-- **A transaction that fails leaves the database as it was.** -/
theorem write_of_error {body : Body σ ε α} {faults : Faults ε} {db db' : σ} {err : ε}
    (h : write body faults db = (.error err, db')) : db' = db := by
  unfold write at h
  split at h
  · exact (Prod.mk.inj h).2.symm
  · split at h
    · exact (Prod.mk.inj h).2.symm
    · split at h
      · exact (Prod.mk.inj h).2.symm
      · exact absurd (Prod.mk.inj h).1 (by simp)

/-- **A transaction that ends well has done what it is for.** -/
theorem Refines.run_of_write {body : Body σ ε α} {run : σ → Except ε (α × σ)}
    (hrefines : Refines body run) {faults : Faults ε} {db db' : σ} {a : α}
    (h : write body faults db = (.ok a, db')) : run db = .ok (a, db') := by
  unfold write at h
  split at h
  · exact absurd (Prod.mk.inj h).1 (by simp)
  · split at h
    · exact absurd (Prod.mk.inj h).1 (by simp)
    · next hbody =>
      split at h
      · exact absurd (Prod.mk.inj h).1 (by simp)
      · obtain ⟨ha, rfl⟩ := Prod.mk.inj h
        obtain rfl := Except.ok.inj ha
        exact hrefines.of_ok hbody

theorem Refines.write_faultless {body : Body σ ε α} {run : σ → Except ε (α × σ)}
    (hrefines : Refines body run) (db : σ) :
    write body [] db =
      match run db with
      | .error err => (.error err, db)
      | .ok (a, db') => (.ok a, db') := by
  simp only [write, call, hrefines.faultless]
  cases run db with
  | error err => rfl
  | ok p => rfl

end FaultyTransaction
