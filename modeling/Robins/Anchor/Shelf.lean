import Robins.Anchor.Worker
import Robins.BatchStore.Contents
import Mathlib.Data.List.Destutter

/-!
# Batches in the order of their identifiers

The table of ready batches is a window on a longer list: all batches that were ever ready, in
the order of their identifiers.  Since identifiers are handed out in order and never again, the
table is that list without a prefix, and two numbers say all there is to say about the anchor's
progress.

* The batches before position `k` have been removed.
* The batches before position `n` have been finalized, and `n` is `k` or `k + 1`.

`Shelf` says that the tables and the history are those of two such positions.  Three things
change them, with a lemma for each: the batcher appends (`Shelf.commit`), a submission that is
finalized moves the second position (`Shelf.finalize`), and a confirmation moves the first
(`Shelf.remove`).  Everything else a run shows leaves both where they are (`Shelf.observe`).

A batch may be finalized several times in a row, by processes that ended before its confirmation.
What is compared with the list is therefore the sequence of finalizations without repetitions
(`List.destutter`), of which the first section has what is needed.
-/

namespace Robins
namespace Anchor

open BatchStore

/-! ## Repetitions -/

theorem destutter_append_singleton {α : Type} [DecidableEq α] (l : List α) (a : α) :
    (l ++ [a]).destutter (· ≠ ·) =
      if l.getLast? = some a then l.destutter (· ≠ ·) else l.destutter (· ≠ ·) ++ [a] := by
  have hfrom : ∀ (l : List α) (b : α), (l ++ [a]).destutter' (· ≠ ·) b =
      if (b :: l).getLast? = some a then l.destutter' (· ≠ ·) b
      else l.destutter' (· ≠ ·) b ++ [a] := by
    intro l
    induction l with
    | nil =>
      intro b
      by_cases h : b = a <;> simp [h]
    | cons x l ih =>
      intro b
      have hlast : (b :: x :: l).getLast? = (x :: l).getLast? := by simp [List.getLast?_cons_cons]
      rw [List.cons_append, List.destutter'_cons, List.destutter'_cons, hlast, ih x]
      by_cases hbx : b = x
      · subst hbx
        rw [if_neg (not_not.mpr rfl), if_neg (not_not.mpr rfl), ih b]
      · rw [if_pos hbx, if_pos hbx]
        split_ifs <;> rfl
  cases l with
  | nil => simp
  | cons b l =>
    rw [List.cons_append, List.destutter_cons', List.destutter_cons']
    exact hfrom l b

theorem getLast?_destutter {α : Type} [DecidableEq α] (l : List α) :
    (l.destutter (· ≠ ·)).getLast? = l.getLast? := by
  induction l using List.reverseRecOn with
  | nil => rfl
  | append_singleton l a ih =>
    rw [destutter_append_singleton, List.getLast?_concat]
    split_ifs with hlast
    · rw [ih, hlast]
    · exact List.getLast?_concat

theorem mem_destutter {α : Type} [DecidableEq α] {l : List α} {a : α} :
    a ∈ l.destutter (· ≠ ·) ↔ a ∈ l := by
  induction l using List.reverseRecOn with
  | nil => simp
  | append_singleton l b ih =>
    rw [destutter_append_singleton, List.mem_append, List.mem_singleton]
    split_ifs with hlast
    · rw [ih]
      refine ⟨.inl, fun h => h.elim id ?_⟩
      rintro rfl
      exact List.mem_of_getLast? hlast
    · rw [List.mem_append, List.mem_singleton, ih]

/-! ## Reading a history -/

/-- The batches committed. -/
def created (h : List Observation) : List StoredBatch :=
  h.filterMap fun | .created batch => some batch | _ => none

/-- The payloads finalized, with the batch each one belongs to. -/
def finalizations (h : List Observation) : List (BatchId × Bytes) :=
  h.filterMap fun | .finalized id payload => some (id, payload) | _ => none

theorem created_append (h k : List Observation) : created (h ++ k) = created h ++ created k :=
  List.filterMap_append

theorem finalizations_append (h k : List Observation) :
    finalizations (h ++ k) = finalizations h ++ finalizations k := List.filterMap_append

theorem mem_finalizations {h : List Observation} {id : BatchId} {payload : Bytes} :
    (id, payload) ∈ finalizations h ↔ .finalized id payload ∈ h := by
  refine EventMachine.mem_filterMap_iff fun b => ?_
  cases b <;> simp

/-- All batches that were ready at some time, in identifier order. -/
def stored (c₀ : Contents) (h : List Observation) : List StoredBatch := c₀.ready ++ created h

theorem stored_append (c₀ : Contents) (h k : List Observation) :
    stored c₀ (h ++ k) = stored c₀ h ++ created k := by
  rw [stored, created_append, ← List.append_assoc, stored]

/-- What a submission of a batch finalizes. -/
def submission (b : StoredBatch) : BatchId × Bytes := (b.id, b.payload)

/-- What must have happened before an observation. -/
def Ordered (c₀ : Contents) (h : List Observation) : Observation → Prop
  /- A batch is removed after its stored bytes were finalized. -/
  | .removed b => .finalized b.id b.payload ∈ h
  /- Stored bytes are submitted after all batches before were finalized and removed. -/
  | .submitted id payload => (∃ b ∈ stored c₀ h, b.id = id ∧ b.payload = payload) ∧
    ∀ b ∈ stored c₀ h, b.id < id → .finalized b.id b.payload ∈ h ∧ .removed b ∈ h
  | _ => True

/-! ## Batches in the tables -/

section

variable {t : Tables} {c : Contents}

theorem committed_range' (createdAt : Timestamp) (prepared : List PreparedBatch) (n : ℕ) :
    committed createdAt (List.range' n prepared.length) prepared =
      (Contents.stamp createdAt n prepared).map .created := by
  induction prepared generalizing n with
  | nil => rfl
  | cons batch prepared ih =>
    rw [List.length_cons, List.range'_succ, Contents.stamp, List.map_cons, ← ih (n + 1)]
    rfl

theorem removal_of_mem (h : t.Holds c) {b : StoredBatch} (hb : b ∈ c.ready) :
    removal t b.id = [.removed b] := by
  have hget : t.readyBatches.get? b.id = some (encodeBatch b.createdAt b.prepared) := by
    rw [OrderedTable.get?_eq_some_iff, h.ready]
    exact List.mem_map_of_mem hb
  rw [removal, hget]
  dsimp only
  rw [decodeBatch_encodeBatch]
  rfl

theorem removal_of_forall_ne (h : t.Holds c) {id : BatchId} (hid : ∀ b ∈ c.ready, b.id ≠ id) :
    removal t id = [] := by
  have hget : t.readyBatches.get? id = none := by
    rw [OrderedTable.get?_eq_none_iff]
    intro p hp
    rw [h.ready] at hp
    obtain ⟨b, hb, rfl⟩ := List.mem_map.mp hp
    exact hid b hb
  rw [removal, hget]

/-- A confirmation of a batch that is not there changes no batch. -/
theorem ready_confirm_of_forall_ne {id : BatchId} (hid : ∀ b ∈ c.ready, b.id ≠ id) :
    (c.confirm id).ready = c.ready :=
  List.filter_eq_self.mpr fun b hb => decide_eq_true (hid b hb)

theorem ready_confirm_head {b : StoredBatch} {rest : List StoredBatch}
    (hready : c.ready = b :: rest)
    (hrest : ∀ b' ∈ rest, b'.id ≠ b.id) : (c.confirm b.id).ready = rest := by
  rw [Contents.confirm_ready, hready, List.filter_cons]
  rw [if_neg (by simp)]
  exact List.filter_eq_self.mpr fun b' hb' => decide_eq_true (hrest b' hb')

end

/-! ## The two positions -/

/-- The batches before position `k` have been removed, those before position `n`
finalized. -/
structure Shelf (c₀ : Contents) (h : List Observation) (t : Tables) (c : Contents) (k n : ℕ) :
    Prop where
  holds : t.Holds c
  ready : c.ready = (stored c₀ h).drop k
  ascending : ((stored c₀ h).map StoredBatch.id).Pairwise (· < ·)
  id_lt : ∀ b ∈ stored c₀ h, b.id < c.nextBatchId
  le : k ≤ n
  le_succ : n ≤ k + 1
  le_length : n ≤ (stored c₀ h).length
  removed : ∀ b, .removed b ∈ h ↔ b ∈ (stored c₀ h).take k
  finalized : (finalizations h).destutter (· ≠ ·) =
    ((stored c₀ h).take n).map submission
  ordered : EventMachine.Justified (Ordered c₀) h

namespace Shelf

variable {c₀ c : Contents} {h : List Observation} {t : Tables} {k n : ℕ}

theorem id_lt_id (sh : Shelf c₀ h t c k n) {i j : ℕ} {a b : StoredBatch} (hij : i < j)
    (ha : (stored c₀ h)[i]? = some a) (hb : (stored c₀ h)[j]? = some b) : a.id < b.id := by
  obtain ⟨hi, rfl⟩ := List.getElem?_eq_some_iff.mp ha
  obtain ⟨hj, rfl⟩ := List.getElem?_eq_some_iff.mp hb
  have h := List.pairwise_iff_getElem.mp sh.ascending i j (by simpa using hi) (by simpa using hj)
    hij
  rwa [List.getElem_map, List.getElem_map] at h

theorem mem_take {i : ℕ} {b : StoredBatch} {l : List StoredBatch} :
    b ∈ l.take i ↔ ∃ j < i, l[j]? = some b := by
  rw [List.mem_iff_getElem?]
  constructor
  · rintro ⟨j, hj⟩
    rw [List.getElem?_take] at hj
    split_ifs at hj with hlt
    exact ⟨j, hlt, hj⟩
  · rintro ⟨j, hlt, hj⟩
    exact ⟨j, by rw [List.getElem?_take, if_pos hlt, hj]⟩

theorem mem_drop {i : ℕ} {b : StoredBatch} {l : List StoredBatch} :
    b ∈ l.drop i ↔ ∃ j ≥ i, l[j]? = some b := by
  rw [List.mem_iff_getElem?]
  constructor
  · rintro ⟨j, hj⟩
    rw [List.getElem?_drop] at hj
    exact ⟨i + j, Nat.le_add_right _ _, hj⟩
  · rintro ⟨j, hle, hj⟩
    exact ⟨j - i, by rw [List.getElem?_drop, Nat.add_sub_cancel' hle, hj]⟩

theorem finalized_of_mem_take (sh : Shelf c₀ h t c k n) {b : StoredBatch}
    (hb : b ∈ (stored c₀ h).take n) : .finalized b.id b.payload ∈ h := by
  rw [← mem_finalizations]
  have hmem : submission b ∈ (finalizations h).destutter (· ≠ ·) := by
    rw [sh.finalized]
    exact List.mem_map_of_mem hb
  exact (List.destutter_sublist _ _).subset hmem

theorem ne_of_mem_take (sh : Shelf c₀ h t c k n) {b : StoredBatch}
    (hb : b ∈ (stored c₀ h).take k) : ∀ b' ∈ c.ready, b'.id ≠ b.id := by
  intro b' hb'
  rw [sh.ready] at hb'
  obtain ⟨i, hi, hget⟩ := mem_take.mp hb
  obtain ⟨j, hj, hget'⟩ := mem_drop.mp hb'
  exact Nat.ne_of_gt (sh.id_lt_id (by omega) hget hget')

/-- Observations that create and remove nothing move at most the second position. -/
theorem keep (sh : Shelf c₀ h t c k n) {o : List Observation} {n' : ℕ} (hcreated : created o = [])
    (hremoved : ∀ b, .removed b ∉ o) (hle : k ≤ n') (hle_succ : n' ≤ k + 1)
    (hle_length : n' ≤ (stored c₀ h).length)
    (hfinalized : (finalizations (h ++ o)).destutter (· ≠ ·) =
      ((stored c₀ h).take n').map submission)
    (hordered : EventMachine.Justified (Ordered c₀) (h ++ o)) : Shelf c₀ (h ++ o) t c k n' := by
  have hstored : stored c₀ (h ++ o) = stored c₀ h := by
    rw [stored_append, hcreated, List.append_nil]
  refine ⟨sh.holds, ?_, ?_, ?_, hle, hle_succ, ?_, ?_, ?_, hordered⟩
  · rw [hstored]
    exact sh.ready
  · rw [hstored]
    exact sh.ascending
  · rw [hstored]
    exact sh.id_lt
  · rw [hstored]
    exact hle_length
  · intro b
    rw [hstored, List.mem_append, ← sh.removed]
    exact or_iff_left (hremoved b)
  · rw [hstored]
    exact hfinalized

/-- Observations of other kinds, or none, change nothing. -/
theorem observe (sh : Shelf c₀ h t c k n) {o : List Observation} (hcreated : created o = [])
    (hfinalized : finalizations o = []) (hremoved : ∀ b, .removed b ∉ o)
    (hordered : EventMachine.Justified (Ordered c₀) (h ++ o)) : Shelf c₀ (h ++ o) t c k n := by
  refine sh.keep hcreated hremoved sh.le sh.le_succ sh.le_length ?_ hordered
  rw [finalizations_append, hfinalized, List.append_nil]
  exact sh.finalized

/-- **Finalizing** the batch at the first position. -/
theorem finalize (sh : Shelf c₀ h t c k n) {b : StoredBatch} (hb : (stored c₀ h)[k]? = some b) :
    Shelf c₀ (h ++ [.finalized b.id b.payload]) t c k (k + 1) := by
  obtain ⟨hk, hget⟩ := List.getElem?_eq_some_iff.mp hb
  have htake : (stored c₀ h).take (k + 1) = (stored c₀ h).take k ++ [b] := by
    rw [List.take_succ_eq_append_getElem hk, hget]
  refine sh.keep rfl (by simp) (Nat.le_succ k) (Nat.le_refl _) hk ?_
    (EventMachine.justified_append_singleton.mpr ⟨sh.ordered, trivial⟩)
  have hsingle : finalizations [.finalized b.id b.payload] = [submission b] := rfl
  rw [finalizations_append, hsingle, destutter_append_singleton, htake, List.map_append]
  rw [← getLast?_destutter, sh.finalized]
  rcases Nat.lt_or_ge k n with hlt | hge
  · -- the batch was finalized before
    obtain rfl : n = k + 1 := Nat.le_antisymm sh.le_succ hlt
    rw [htake, List.map_append, List.map_singleton, List.getLast?_concat, if_pos rfl]
  · obtain rfl : n = k := Nat.le_antisymm hge sh.le
    rw [if_neg, List.map_singleton]
    intro hlast
    obtain ⟨b', hb', heq⟩ := List.mem_map.mp (List.mem_of_getLast? hlast)
    obtain ⟨i, hi, hget'⟩ := mem_take.mp hb'
    exact Nat.ne_of_lt (sh.id_lt_id hi hget' hb) (congrArg Prod.fst heq)

/-- **Confirming** a batch that was finalized. -/
theorem remove (sh : Shelf c₀ h t c k n) {b : StoredBatch} (hb : b ∈ (stored c₀ h).take n) :
    ∃ k', b ∈ (stored c₀ h).take k' ∧ k ≤ k' ∧ (b ∈ (stored c₀ h).take k → k' = k) ∧
      stored c₀ (h ++ removal t b.id) = stored c₀ h ∧
      Shelf c₀ (h ++ removal t b.id) (confirmBatch t b.id) (c.confirm b.id) k' n := by
  by_cases htaken : b ∈ (stored c₀ h).take k
  · -- it was removed before
    have hne := sh.ne_of_mem_take htaken
    rw [removal_of_forall_ne sh.holds hne, List.append_nil]
    refine ⟨k, htaken, Nat.le_refl k, fun _ => rfl, rfl, confirmBatch_holds sh.holds b.id, ?_,
      sh.ascending, sh.id_lt, sh.le, sh.le_succ, sh.le_length, sh.removed, sh.finalized, sh.ordered⟩
    rw [ready_confirm_of_forall_ne hne, sh.ready]
  · -- it is the first of the batches that are ready
    obtain ⟨i, hi, hget⟩ := mem_take.mp hb
    have hik : i = k := by
      have hnot : ¬ i < k := fun hlt => htaken (mem_take.mpr ⟨i, hlt, hget⟩)
      have := sh.le_succ
      omega
    subst hik
    obtain ⟨hlen, hb'⟩ := List.getElem?_eq_some_iff.mp hget
    have hdrop : (stored c₀ h).drop i = b :: (stored c₀ h).drop (i + 1) := by
      rw [List.drop_eq_getElem_cons hlen, hb']
    have htake : (stored c₀ h).take (i + 1) = (stored c₀ h).take i ++ [b] := by
      rw [List.take_succ_eq_append_getElem hlen, hb']
    have hready : b ∈ c.ready := by
      rw [sh.ready, hdrop]
      exact List.mem_cons_self
    have hstored : stored c₀ (h ++ [.removed b]) = stored c₀ h := by
      rw [stored_append]
      exact List.append_nil _
    have hfinalized : finalizations (h ++ [.removed b]) = finalizations h := by
      rw [finalizations_append]
      exact List.append_nil _
    rw [removal_of_mem sh.holds hready]
    refine ⟨i + 1, ?_, Nat.le_succ i, fun h => absurd h htaken, hstored,
      confirmBatch_holds sh.holds b.id, ?_, ?_, ?_, hi, ?_, ?_, ?_, ?_, ?_⟩
    · rw [htake]
      exact List.mem_append_right _ List.mem_cons_self
    · rw [hstored]
      refine ready_confirm_head (sh.ready.trans hdrop) fun b' hb' => ?_
      obtain ⟨j, hj, hget'⟩ := mem_drop.mp hb'
      exact Nat.ne_of_gt (sh.id_lt_id hj hget hget')
    · rw [hstored]
      exact sh.ascending
    · rw [hstored]
      exact sh.id_lt
    · exact Nat.le_succ_of_le sh.le_succ
    · rw [hstored]
      exact sh.le_length
    · intro b'
      rw [hstored, htake, List.mem_append, List.mem_append, sh.removed, List.mem_singleton,
        List.mem_singleton, Observation.removed.injEq]
    · rw [hstored, hfinalized]
      exact sh.finalized
    · exact EventMachine.justified_append_singleton.mpr
        ⟨sh.ordered, sh.finalized_of_mem_take hb⟩

/-- **Committing** batches: they go behind the others. -/
theorem commit (sh : Shelf c₀ h t c k n) {createdAt : Timestamp} {consumed : List MessageId}
    {prepared : List PreparedBatch} {ids : List BatchId} {t' : Tables}
    (hn : c.nextBatchId + prepared.length ≤ 2 ^ 64)
    (hcommit : commitBatches t createdAt consumed prepared = .ok (ids, t')) :
    Shelf c₀ (h ++ committed createdAt ids prepared) t'
      (c.commit createdAt consumed prepared) k n := by
  obtain ⟨rfl, hholds⟩ := holds_of_commitBatches sh.holds hn hcommit
  rw [committed_range']
  generalize hnew : Contents.stamp createdAt c.nextBatchId prepared = new
  have hfresh : ∀ b ∈ new, c.nextBatchId ≤ b.id ∧ b.id < c.nextBatchId + prepared.length := by
    rw [← hnew]
    exact fun b hb => Contents.id_mem_stamp hb
  have hcreated : created (new.map .created) = new := by
    rw [created, List.filterMap_map]
    exact List.filterMap_some
  have hstored : stored c₀ (h ++ new.map .created) = stored c₀ h ++ new := by
    rw [stored_append, hcreated]
  have hfinalized : finalizations (new.map .created) = [] := by
    rw [finalizations, List.filterMap_map]
    exact List.filterMap_eq_nil_iff.mpr fun _ _ => rfl
  have hk : k ≤ (stored c₀ h).length := sh.le.trans sh.le_length
  refine ⟨hholds, ?_, ?_, ?_, sh.le, sh.le_succ, ?_, ?_, ?_, ?_⟩
  · rw [Contents.commit_ready, hnew, hstored, List.drop_append_of_le_length hk, sh.ready]
  · rw [hstored, List.map_append, List.pairwise_append]
    refine ⟨sh.ascending, ?_, ?_⟩
    · rw [← hnew, Contents.map_id_stamp]
      exact List.pairwise_lt_range'
    · intro id hid id' hid'
      obtain ⟨b, hb, rfl⟩ := List.mem_map.mp hid
      obtain ⟨b', hb', rfl⟩ := List.mem_map.mp hid'
      exact (sh.id_lt b hb).trans_le (hfresh b' hb').1
  · intro b hb
    rw [hstored] at hb
    rcases List.mem_append.mp hb with hb | hb
    · exact (sh.id_lt b hb).trans_le (Nat.le_add_right _ _)
    · exact (hfresh b hb).2
  · rw [hstored, List.length_append]
    exact sh.le_length.trans (Nat.le_add_right _ _)
  · intro b
    rw [hstored, List.take_append_of_le_length hk, List.mem_append, ← sh.removed]
    exact or_iff_left (by simp)
  · rw [hstored, List.take_append_of_le_length sh.le_length, finalizations_append, hfinalized,
      List.append_nil]
    exact sh.finalized
  · refine EventMachine.justified_append.mpr ⟨sh.ordered, fun o₁ a o₂ heq => ?_⟩
    have ha : a ∈ new.map Observation.created := by
      rw [heq]
      exact List.mem_append_right _ List.mem_cons_self
    obtain ⟨b, -, rfl⟩ := List.mem_map.mp ha
    trivial

end Shelf

end Anchor
end Robins
