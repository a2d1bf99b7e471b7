import Robins.Anchor.Shelf

/-!
# Delivery at least once, in order

The anchor submits a batch, and when that is finalized it has the batch removed.  Between the two
the process may end, so a batch may be submitted twice; what must not happen is that a batch is
removed without having been finalized, or submitted before one with a smaller identifier is done.

## What the anchor has in hand

`Shelf` describes the store by two positions in the list of all batches: those before the first
have been removed, those before the second have been finalized.  What the anchor has in hand fits
these positions (`Control.Fits`): a batch being submitted is the first that is ready, and a batch
being confirmed is the last that was finalized.

The delicate part is a confirmation whose attempt was given up.  It is a transaction of its own
and may take effect at any later moment.  `Control.Awaits` says which of those issued may still
change something: only that of the batch in hand, or, once the run has returned, that of the batch
it had in hand.  All others are of batches that are gone, so a late confirmation cannot remove a
batch that is waiting.

## Steps and runs

`Tracked` joins the two accounts, and `Tracked.step` carries it over each move of the anchor; the
lemmas before it are named after the moves.  Along a run it then says everything that
`AtLeastOnce` asks for (`anchor_at_least_once`): the order of removals and submissions, the prefix
that was finalized, and that a permanent error stops the run with the failing batch and all later
ones still stored.
-/

namespace Robins
namespace Anchor

open BatchStore

/-! ## What the anchor has in hand -/

/-- The batches of a task lie at the two positions. -/
def Task.Fits (all : List StoredBatch) (k n : ℕ) : Task → Prop
  | .load => True
  | .submit b rest => ∃ tail, all.drop k = b :: (rest ++ tail)
  | .confirm b rest => ∃ m tail, n = m + 1 ∧ all.drop m = b :: (rest ++ tail)

/-- So do those of the control; a batch that failed is the first that is ready. -/
structure Control.Fits (all : List StoredBatch) (k n : ℕ) (c : Control) : Prop where
  task : ∀ task, c.task? = some task → task.Fits all k n
  failed : ∀ b error, c = .failed b error → ∃ tail, all.drop k = b :: tail

/-- A confirmation issued may still take effect: of the batch in hand, or after the
run has returned. -/
def Control.Awaits (all : List StoredBatch) (n : ℕ) (id : BatchId) (c : Control) : Prop :=
  (∃ b rest, c.task? = some (.confirm b rest) ∧ b.id = id) ∨
    (c = .returned ∧ ∃ b ∈ all.take n, b.id = id)

structure Tracked (c₀ : Contents) (h : List Observation) (s : State) (c : Contents) (k n : ℕ) :
    Prop where
  shelf : Shelf c₀ h s.tables c k n
  fits : s.control.Fits (stored c₀ h) k n
  issued : ∀ id ∈ s.issued, (∃ b ∈ (stored c₀ h).take k, b.id = id) ∨
    s.control.Awaits (stored c₀ h) n id

section

variable {all new : List StoredBatch} {k n : ℕ}

theorem Task.Fits.append {task : Task} (h : task.Fits all k n) (hk : k ≤ all.length)
    (hn : n ≤ all.length) : task.Fits (all ++ new) k n := by
  cases task with
  | load => trivial
  | submit b rest =>
    obtain ⟨tail, hdrop⟩ := h
    exact ⟨tail ++ new, by rw [List.drop_append_of_le_length hk, hdrop]; simp⟩
  | confirm b rest =>
    obtain ⟨m, tail, rfl, hdrop⟩ := h
    exact ⟨m, tail ++ new, rfl, by rw [List.drop_append_of_le_length (by omega), hdrop]; simp⟩

theorem Control.Fits.append {c : Control} (h : c.Fits all k n) (hk : k ≤ all.length)
    (hn : n ≤ all.length) : c.Fits (all ++ new) k n where
  task task htask := (h.task task htask).append hk hn
  failed b error hc := by
    obtain ⟨tail, hdrop⟩ := h.failed b error hc
    exact ⟨tail ++ new, by rw [List.drop_append_of_le_length hk, hdrop, List.cons_append]⟩

theorem fits_of_task {c : Control} (task : Task) (htask : c.task? = some task)
    (h : task.Fits all k n) : c.Fits all k n where
  task task' htask' := by
    rw [htask] at htask'
    obtain rfl := Option.some.inj htask'
    exact h
  failed b error hc := by
    rw [hc] at htask
    exact absurd htask (by simp [Control.task?])

theorem fits_idle : Control.idle.Fits all k n :=
  ⟨fun _ h => absurd h (by simp [Control.task?]), by simp⟩

theorem fits_returned : Control.returned.Fits all k n :=
  ⟨fun _ h => absurd h (by simp [Control.task?]), by simp⟩

/-- The head of what lies behind a position is at that position. -/
theorem getElem?_of_drop {i : ℕ} {b : StoredBatch} {l : List StoredBatch}
    (h : all.drop i = b :: l) : all[i]? = some b := by
  have hget := all.getElem?_drop (i := i) (j := 0)
  rw [h] at hget
  exact hget.symm

/-- With no confirmation in hand, none is awaited. -/
theorem not_awaits {c : Control} {id : BatchId} (hreturned : c ≠ .returned)
    (htask : ∀ b rest, c.task? ≠ some (.confirm b rest)) : ¬ c.Awaits all n id := by
  rintro (⟨b, rest, hconfirm, -⟩ | ⟨hr, -⟩)
  · exact htask b rest hconfirm
  · exact hreturned hr

/-- What may still be removed was finalized. -/
theorem Control.Awaits.mem_take {c : Control} {id : BatchId} (h : c.Awaits all n id)
    (hfits : c.Fits all k n) : ∃ b ∈ all.take n, b.id = id := by
  rcases h with ⟨b, rest, htask, hid⟩ | ⟨-, hmem⟩
  · obtain ⟨m, tail, rfl, hdrop⟩ := hfits.task _ htask
    exact ⟨b, Shelf.mem_take.mpr ⟨m, Nat.lt_succ_self m, getElem?_of_drop hdrop⟩, hid⟩
  · exact hmem

end

/-! ## Steps -/

namespace Tracked

variable {c₀ c : Contents} {h : List Observation} {s : State} {k n : ℕ}

theorem start {t₀ : Tables} (hholds : t₀.Holds c₀) : Tracked c₀ [] (.start t₀) c₀ 0 0 where
  shelf := by
    have hstored : stored c₀ [] = c₀.ready := List.append_nil _
    refine ⟨hholds, by rw [hstored]; rfl, ?_, ?_, Nat.le_refl 0, Nat.zero_le 1, Nat.zero_le _, ?_,
      ?_, EventMachine.justified_nil _⟩
    · rw [hstored]
      exact hholds.ready_ascending
    · rw [hstored]
      exact c₀.id_lt
    · intro b
      simp
    · simp [finalizations]
  fits := fits_of_task .load rfl trivial
  issued _ hid := absurd hid List.not_mem_nil

/-- The control moves on, with confirmations only of batches that are gone or
awaited. -/
theorem turn (t : Tracked c₀ h s c k n) {control : Control}
    (hfits : control.Fits (stored c₀ h) k n)
    (hissued : ∀ id, s.control.Awaits (stored c₀ h) n id → control.Awaits (stored c₀ h) n id) :
    Tracked c₀ (h ++ []) { s with control } c k n := by
  rw [List.append_nil]
  exact ⟨t.shelf, hfits, fun id hid => (t.issued id hid).imp_right (hissued id)⟩

/-- With no confirmation in hand, all issued ones are of batches that are gone. -/
theorem issued_gone (t : Tracked c₀ h s c k n) (hreturned : s.control ≠ .returned)
    (htask : ∀ b rest, s.control.task? ≠ some (.confirm b rest)) :
    ∀ id ∈ s.issued, ∃ b ∈ (stored c₀ h).take k, b.id = id := by
  intro id hid
  rcases t.issued id hid with hgone | hawaits
  · exact hgone
  · exact absurd hawaits (not_awaits hreturned htask)

theorem returned (t : Tracked c₀ h s c k n) :
    Tracked c₀ (h ++ []) { s with control := .returned } c k n :=
  t.turn fits_returned fun _ ha => .inr ⟨rfl, ha.mem_take t.fits⟩

theorem commit (t : Tracked c₀ h s c k n) {createdAt : Timestamp} {consumed : List MessageId}
    {prepared : List PreparedBatch} {ids : List BatchId} {tables : Tables}
    (hn : c.nextBatchId + prepared.length ≤ 2 ^ 64)
    (hcommit : commitBatches s.tables createdAt consumed prepared = .ok (ids, tables)) :
    Tracked c₀ (h ++ committed createdAt ids prepared) { s with tables }
      (c.commit createdAt consumed prepared) k n := by
  have hlen := t.shelf.le_length
  have hk := t.shelf.le.trans hlen
  refine ⟨t.shelf.commit hn hcommit, ?_, fun id hid => ?_⟩
  · rw [stored_append]
    exact t.fits.append hk hlen
  · rw [stored_append, List.take_append_of_le_length hk, Control.Awaits,
      List.take_append_of_le_length hlen]
    exact t.issued id hid

/-- A confirmation takes effect: late, or as the end of its attempt. -/
theorem remove (t : Tracked c₀ h s c k n) {id : BatchId}
    (hid : (∃ b ∈ (stored c₀ h).take k, b.id = id) ∨ s.control.Awaits (stored c₀ h) n id) :
    ∃ k', k ≤ k' ∧ (∃ b ∈ (stored c₀ h).take k', b.id = id) ∧
      stored c₀ (h ++ removal s.tables id) = stored c₀ h ∧
      Tracked c₀ (h ++ removal s.tables id) { s with tables := confirmBatch s.tables id }
        (c.confirm id) k' n := by
  have hmem : ∃ b ∈ (stored c₀ h).take n, b.id = id := by
    rcases hid with ⟨b, hb, rfl⟩ | hawaits
    · exact ⟨b, List.take_subset_take_left _ t.shelf.le hb, rfl⟩
    · exact hawaits.mem_take t.fits
  obtain ⟨b, hb, rfl⟩ := hmem
  obtain ⟨k', htaken, hle, hsame, hstored, hshelf⟩ := t.shelf.remove hb
  refine ⟨k', hle, ⟨b, htaken, rfl⟩, hstored, hshelf, ?_, fun id' hid' => ?_⟩
  · rw [hstored]
    rcases hid with ⟨b', hb', heq⟩ | ⟨b', rest, htask, -⟩ | ⟨hreturned, -⟩
    · -- nothing was there to remove
      have hbb' : b' = b := by
        obtain ⟨i, hi, hget⟩ := Shelf.mem_take.mp hb'
        obtain ⟨j, hj, hget'⟩ := Shelf.mem_take.mp hb
        rcases Nat.lt_trichotomy i j with hlt | rfl | hgt
        · exact absurd heq (Nat.ne_of_lt (t.shelf.id_lt_id hlt hget hget'))
        · exact Option.some.inj (hget.symm.trans hget')
        · exact absurd heq (Nat.ne_of_gt (t.shelf.id_lt_id hgt hget' hget))
      rw [hsame (hbb' ▸ hb')]
      exact t.fits
    · exact fits_of_task _ htask (t.fits.task _ htask)
    · dsimp only
      rw [hreturned]
      exact fits_returned
  · rw [hstored]
    refine (t.issued id' hid').imp_left fun ⟨b', hb', heq⟩ => ⟨b', ?_, heq⟩
    exact List.take_subset_take_left _ hle hb'

theorem submitted (t : Tracked c₀ h s c k n) {b : StoredBatch} {rest : List StoredBatch}
    {attempt : UInt32} (hcontrol : s.control = .check (.submit b rest) attempt) :
    Tracked c₀ (h ++ [.submitted b.id b.payload])
      { s with control := .running (.submit b rest) attempt } c k n := by
  have htask : s.control.task? = some (.submit b rest) := by rw [hcontrol]; rfl
  obtain ⟨tail, hdrop⟩ := t.fits.task _ htask
  have hget := getElem?_of_drop hdrop
  have hordered : Ordered c₀ h (.submitted b.id b.payload) := by
    refine ⟨⟨b, List.mem_of_getElem? hget, rfl, rfl⟩, fun b' hb' hlt => ?_⟩
    obtain ⟨j, hget'⟩ := List.getElem?_of_mem hb'
    have hjk : j < k := by
      rcases Nat.lt_trichotomy j k with hjk | rfl | hkj
      · exact hjk
      · rw [Option.some.inj (hget'.symm.trans hget)] at hlt
        exact absurd hlt (Nat.lt_irrefl _)
      · exact absurd hlt (Nat.lt_asymm (t.shelf.id_lt_id hkj hget hget'))
    have htaken : b' ∈ (stored c₀ h).take k := Shelf.mem_take.mpr ⟨j, hjk, hget'⟩
    exact ⟨t.shelf.finalized_of_mem_take (List.take_subset_take_left _ t.shelf.le htaken),
      (t.shelf.removed b').mpr htaken⟩
  have hstored : stored c₀ (h ++ [.submitted b.id b.payload]) = stored c₀ h := by
    rw [stored_append]
    exact List.append_nil _
  have hgone := t.issued_gone (by rw [hcontrol]; simp) (by rw [htask]; simp)
  refine ⟨t.shelf.observe rfl rfl (by simp)
    (EventMachine.justified_append_singleton.mpr ⟨t.shelf.ordered, hordered⟩), ?_, ?_⟩
  · rw [hstored]
    exact fits_of_task (.submit b rest) rfl ⟨tail, hdrop⟩
  · rw [hstored]
    exact fun id hid => .inl (hgone id hid)

theorem finalize (t : Tracked c₀ h s c k n) {b : StoredBatch} {rest : List StoredBatch}
    (hcontrol : s.control.task? = some (.submit b rest)) :
    Tracked c₀ (h ++ [.finalized b.id b.payload])
      { s with control := .check (.confirm b rest) 0 } c k (k + 1) := by
  obtain ⟨tail, hdrop⟩ := t.fits.task _ hcontrol
  have hstored : stored c₀ (h ++ [.finalized b.id b.payload]) = stored c₀ h := by
    rw [stored_append]
    exact List.append_nil _
  have hgone := t.issued_gone (fun hr => by rw [hr] at hcontrol; exact absurd hcontrol (by
    simp [Control.task?])) (by rw [hcontrol]; simp)
  refine ⟨t.shelf.finalize (getElem?_of_drop hdrop), ?_, ?_⟩
  · rw [hstored]
    exact fits_of_task (.confirm b rest) rfl ⟨k, tail, rfl, hdrop⟩
  · rw [hstored]
    exact fun id hid => .inl (hgone id hid)

theorem fail (t : Tracked c₀ h s c k n) {b : StoredBatch} {rest : List StoredBatch}
    {error : AnchorError} (hcontrol : s.control.task? = some (.submit b rest)) :
    Tracked c₀ (h ++ [.stopped b error]) { s with control := .failed b error } c k n := by
  obtain ⟨tail, hdrop⟩ := t.fits.task _ hcontrol
  have hstored : stored c₀ (h ++ [.stopped b error]) = stored c₀ h := by
    rw [stored_append]
    exact List.append_nil _
  have hgone := t.issued_gone (fun hr => by rw [hr] at hcontrol; exact absurd hcontrol (by
    simp [Control.task?])) (by rw [hcontrol]; simp)
  refine ⟨t.shelf.observe rfl rfl (by simp)
    (EventMachine.justified_append_singleton.mpr ⟨t.shelf.ordered, trivial⟩), ?_, ?_⟩
  · rw [hstored]
    refine ⟨fun _ htask => absurd htask (by simp [Control.task?]), fun b' error' heq => ?_⟩
    obtain ⟨rfl, -⟩ := Control.failed.inj heq
    exact ⟨rest ++ tail, hdrop⟩
  · rw [hstored]
    exact fun id hid => .inl (hgone id hid)

theorem restart (t : Tracked c₀ h s c k n) :
    Tracked c₀ (h ++ [.restarted]) (.start s.tables) c k n where
  shelf := t.shelf.observe rfl rfl (by simp)
    (EventMachine.justified_append_singleton.mpr ⟨t.shelf.ordered, trivial⟩)
  fits := fits_of_task .load rfl trivial
  issued _ hid := absurd hid List.not_mem_nil

/-- The batches of a page are the first that are ready. -/
theorem page (t : Tracked c₀ h s c k n) {b : StoredBatch} {rest : List StoredBatch}
    (htask : s.control.task? = some .load)
    (hload : readyBatches s.tables readyPage = .ok (b :: rest)) :
    Tracked c₀ (h ++ []) { s with control := anchorPage (b :: rest) } c k n := by
  rw [readyBatches_eq t.shelf.holds] at hload
  have hready : c.ready = b :: (rest ++ c.ready.drop readyPage) := by
    rw [← List.cons_append, ← Except.ok.inj hload, List.take_append_drop]
  refine t.turn (fits_of_task (.submit b rest) rfl ⟨_, t.shelf.ready ▸ hready⟩) ?_
  intro id hawaits
  refine absurd hawaits (not_awaits (fun hreturned => ?_) (by rw [htask]; simp))
  rw [hreturned] at htask
  exact absurd htask (by simp [Control.task?])

/-- The batch finalized is confirmed, and the next one of the page is the first
that is ready. -/
theorem confirm (t : Tracked c₀ h s c k n) {b : StoredBatch} {rest : List StoredBatch}
    (htask : s.control.task? = some (.confirm b rest)) :
    Tracked c₀ (h ++ removal s.tables b.id)
      { s with tables := confirmBatch s.tables b.id, control := anchorPage rest }
      (c.confirm b.id) n n := by
  obtain ⟨m, tail, rfl, hdrop⟩ := t.fits.task _ htask
  obtain ⟨k', hle, ⟨b', hb', hid⟩, hstored, t'⟩ := t.remove (.inr (.inl ⟨b, rest, htask, rfl⟩))
  have hk' : k' = m + 1 := by
    obtain ⟨i, hi, hget⟩ := Shelf.mem_take.mp hb'
    have hlast := getElem?_of_drop hdrop
    have hle' := t'.shelf.le
    have him : ¬ i < m := fun hlt => absurd hid (Nat.ne_of_lt (t.shelf.id_lt_id hlt hget hlast))
    omega
  subst hk'
  refine ⟨t'.shelf, ?_, fun id' hid' => .inl ?_⟩
  · rw [hstored]
    cases rest with
    | nil => exact fits_of_task .load rfl trivial
    | cons b₁ rest =>
      refine fits_of_task (.submit b₁ rest) rfl ⟨tail, ?_⟩
      rw [← List.drop_drop, hdrop]
      rfl
  · rcases t'.issued id' hid' with hgone | ⟨b₁, rest₁, htask₁, rfl⟩ | ⟨hreturned, -⟩
    · exact hgone
    · have htask₁' : s.control.task? = some (.confirm b₁ rest₁) := htask₁
      rw [htask] at htask₁'
      obtain ⟨rfl, -⟩ := Task.confirm.inj (Option.some.inj htask₁')
      rw [hstored]
      exact ⟨b', hb', hid⟩
    · have hreturned' : s.control = .returned := hreturned
      rw [hreturned'] at htask
      exact absurd htask (by simp [Control.task?])

theorem issue (t : Tracked c₀ h s c k n) {b : StoredBatch} {rest : List StoredBatch}
    {attempt : UInt32} (hcontrol : s.control = .check (.confirm b rest) attempt) :
    Tracked c₀ (h ++ []) { s with
      issued := b.id :: s.issued
      control := .running (.confirm b rest) attempt } c k n := by
  have htask : s.control.task? = some (.confirm b rest) := by rw [hcontrol]; rfl
  have t' :
      Tracked c₀ (h ++ []) { s with control := .running (.confirm b rest) attempt } c k n := by
    refine t.turn (fits_of_task _ rfl (t.fits.task _ htask)) fun id hawaits => ?_
    rcases hawaits with ⟨b', rest', hconfirm, hid⟩ | ⟨hreturned, -⟩
    · exact .inl ⟨b', rest', by rw [← hconfirm, htask]; rfl, hid⟩
    · rw [hreturned] at hcontrol
      exact absurd hcontrol (by simp)
  refine ⟨t'.shelf, t'.fits, fun id hid => ?_⟩
  rcases List.mem_cons.mp hid with rfl | hid
  · exact .inr (.inl ⟨b, rest, rfl, rfl⟩)
  · exact t'.issued id hid

theorem retry (t : Tracked c₀ h s c k n) {task : Task} {control : Control}
    (htask : s.control.task? = some task) (htask' : control.task? = some task) :
    Tracked c₀ (h ++ []) { s with control } c k n := by
  refine t.turn (fits_of_task _ htask' (t.fits.task _ htask)) fun id hawaits => ?_
  rcases hawaits with ⟨b, rest, hconfirm, hid⟩ | ⟨hreturned, -⟩
  · exact .inl ⟨b, rest, by rw [htask', ← htask, hconfirm], hid⟩
  · rw [hreturned] at htask
    exact absurd htask (by simp [Control.task?])

end Tracked

/-- Batches that an event may commit. -/
def newBatches : Event → ℕ
  | .commit _ _ prepared => prepared.length
  | _ => 0

/-- **One step keeps the account.**  Each move is one of the lemmas above: the anchor goes on
with the batch it has in hand, takes the next one, or drops what it has; batches arrive; or a
confirmation that was issued takes effect. -/
theorem Tracked.step {anchor : Anchor} {c₀ c : Contents} {h o : List Observation} {s s' : State}
    {e : Event} {k n : ℕ} (t : Tracked c₀ h s c k n)
    (hn : c.nextBatchId + newBatches e ≤ 2 ^ 64) (hmove : Move anchor s e s' o) :
    ∃ c' k' n', Tracked c₀ (h ++ o) s' c' k' n' ∧
      c'.nextBatchId ≤ c.nextBatchId + newBatches e := by
  have hle : c.nextBatchId ≤ c.nextBatchId + newBatches e := Nat.le_add_right _ _
  cases hmove with
  | signal shutdown =>
    have t' := t.turn t.fits fun _ => id
    exact ⟨c, k, n, ⟨t'.shelf, t'.fits, t'.issued⟩, hle⟩
  | commit hcommit => exact ⟨_, k, n, t.commit hn hcommit, Nat.le_refl _⟩
  | transaction hid =>
    obtain ⟨k', -, -, -, t'⟩ := t.remove (t.issued _ hid)
    exact ⟨_, k', n, t', hle⟩
  | restart => exact ⟨c, k, n, t.restart, hle⟩
  | retry htask htask' => exact ⟨c, k, n, t.retry htask htask', hle⟩
  | refused => exact ⟨c, k, n, t.returned, hle⟩
  | drained => exact ⟨c, k, n, t.returned, hle⟩
  | stop => exact ⟨c, k, n, t.returned, hle⟩
  | sleep hcontrol =>
    exact ⟨c, k, n, t.turn fits_idle fun id hawaits =>
      absurd hawaits (not_awaits (by simp [hcontrol]) (by simp [hcontrol, Control.task?])), hle⟩
  | wake hcontrol =>
    exact ⟨c, k, n, t.turn (fits_of_task .load rfl trivial) fun id hawaits =>
      absurd hawaits (not_awaits (by simp [hcontrol]) (by simp [hcontrol, Control.task?])), hle⟩
  | page hcontrol hload => exact ⟨c, k, n, t.page (by rw [hcontrol]; rfl) hload, hle⟩
  | submit hcontrol => exact ⟨c, k, n, t.submitted hcontrol, hle⟩
  | finalize hcontrol => exact ⟨c, k, k + 1, t.finalize (by rw [hcontrol]; rfl), hle⟩
  | fail htask => exact ⟨c, k, n, t.fail htask, hle⟩
  | issue hcontrol => exact ⟨c, k, n, t.issue hcontrol, hle⟩
  | confirm hcontrol => exact ⟨_, n, n, t.confirm (by rw [hcontrol]; rfl), hle⟩

/-! ## Runs -/

/-- **Every run is accounted for**, while identifiers last.  The account begins with the batches
that the store already has, none of them removed or finalized. -/
theorem tracked_of_exec {anchor : Anchor} {t₀ : Tables} {c₀ : Contents} (hholds : t₀.Holds c₀)
    {es : List Event} {s : State} {h : List Observation}
    (hrun : (anchorMachine anchor).exec (.start t₀) es = some (s, h))
    (hn : c₀.nextBatchId + (es.map newBatches).sum ≤ 2 ^ 64) :
    ∃ c k n, Tracked c₀ h s c k n ∧ c.nextBatchId ≤ c₀.nextBatchId + (es.map newBatches).sum := by
  revert hn
  refine EventMachine.exec_induction (P := fun es h s =>
    c₀.nextBatchId + (es.map newBatches).sum ≤ 2 ^ 64 →
      ∃ c k n, Tracked c₀ h s c k n ∧
        c.nextBatchId ≤ c₀.nextBatchId + (es.map newBatches).sum) ?_ ?_ hrun
  · intro _
    exact ⟨c₀, 0, 0, .start hholds, Nat.le_add_right _ _⟩
  · intro es h s e s' o _ ih hstep hn
    rw [List.map_append, List.sum_append, List.map_singleton, List.sum_singleton] at hn ⊢
    obtain ⟨c, k, n, t, hc⟩ := ih (by omega)
    obtain ⟨c', k', n', t', hc'⟩ := t.step (by omega) (move_of_anchorStep hstep)
    exact ⟨c', k', n', t', by omega⟩

theorem created_of_mem_committed {createdAt : Timestamp} {ids : List BatchId}
    {prepared : List PreparedBatch} {a : Observation} (ha : a ∈ committed createdAt ids prepared) :
    ∃ b, a = .created b := by
  rw [committed, ← List.map_uncurry_zip_eq_zipWith] at ha
  obtain ⟨_, -, rfl⟩ := List.mem_map.mp ha
  exact ⟨_, rfl⟩

theorem removed_of_mem_removal {tables : Tables} {id : BatchId} {a : Observation}
    (ha : a ∈ removal tables id) : ∃ b, a = .removed b := by
  unfold removal at ha
  split at ha
  · exact absurd ha List.not_mem_nil
  · split at ha
    · exact absurd ha List.not_mem_nil
    · exact ⟨_, List.mem_singleton.mp ha⟩

/-- A run that stopped makes no move until the process is started again. -/
theorem Move.of_failed {anchor : Anchor} {s s' : State} {e : Event} {o : List Observation}
    (hmove : Move anchor s e s' o) {b : StoredBatch} {error : AnchorError}
    (hcontrol : s.control = .failed b error) (hrestarted : .restarted ∉ o) :
    s'.control = .failed b error ∧ ∀ id payload, .submitted id payload ∉ o := by
  cases hmove with
  | signal => exact ⟨hcontrol, fun _ _ => List.not_mem_nil⟩
  | commit =>
    refine ⟨hcontrol, fun _ _ hmem => ?_⟩
    obtain ⟨_, heq⟩ := created_of_mem_committed hmem
    exact absurd heq (by simp)
  | transaction =>
    refine ⟨hcontrol, fun _ _ hmem => ?_⟩
    obtain ⟨_, heq⟩ := removed_of_mem_removal hmem
    exact absurd heq (by simp)
  | restart => exact absurd List.mem_cons_self hrestarted
  | retry htask => exact absurd htask (by simp [hcontrol, Control.task?])
  | fail htask => exact absurd htask (by simp [hcontrol, Control.task?])
  | refused h | drained h | sleep h | wake h | page h | submit h | finalize h | issue h
  | confirm h =>
    exact absurd h (by simp [hcontrol])
  | stop h => exact absurd h (by simp [hcontrol])

/-- The step that stops a run shows nothing else. -/
theorem Move.of_stopped {anchor : Anchor} {s s' : State} {e : Event} {o : List Observation}
    (hmove : Move anchor s e s' o) (b : StoredBatch) (error : AnchorError)
    (hstopped : .stopped b error ∈ o) :
    o = [.stopped b error] ∧ s'.control = .failed b error := by
  cases hmove with
  | fail =>
    obtain ⟨rfl, rfl⟩ := Observation.stopped.inj (List.mem_singleton.mp hstopped)
    exact ⟨rfl, rfl⟩
  | commit =>
    obtain ⟨_, heq⟩ := created_of_mem_committed hstopped
    exact absurd heq (by simp)
  | transaction | confirm =>
    obtain ⟨_, heq⟩ := removed_of_mem_removal hstopped
    exact absurd heq (by simp)
  | _ => exact absurd hstopped (by simp)

/-- A permanent error is the last of its run: nothing is submitted after it. -/
theorem failed_of_stopped {anchor : Anchor} {s₀ s : State} {es : List Event}
    {h : List Observation} (hrun : (anchorMachine anchor).exec s₀ es = some (s, h))
    {h₁ h₂ : List Observation} {b : StoredBatch} {error : AnchorError}
    (hh : h = h₁ ++ .stopped b error :: h₂) (hrestarted : .restarted ∉ h₂) :
    s.control = .failed b error ∧ ∀ id payload, .submitted id payload ∉ h₂ := by
  revert h₂
  refine EventMachine.exec_induction (P := fun _ h s => ∀ {h₂},
    h = h₁ ++ .stopped b error :: h₂ → .restarted ∉ h₂ →
      s.control = .failed b error ∧ ∀ id payload, .submitted id payload ∉ h₂) ?_ ?_ hrun
  · intro h₂ heq
    exact absurd heq.symm (by simp)
  · intro es h s e s' o _ ih hstep h₂ heq hrestarted
    have hmove := move_of_anchorStep hstep
    -- the error is shown by this step, or was shown before it
    have hcases : o = .stopped b error :: h₂ ∨
        ∃ l, h = h₁ ++ .stopped b error :: l ∧ h₂ = l ++ o := by
      rcases List.append_eq_append_iff.mp heq with ⟨l, -, ho⟩ | ⟨l, hh, hl⟩
      · obtain ⟨hsingle, -⟩ := hmove.of_stopped b error (by rw [ho]; simp)
        rw [hsingle] at ho ⊢
        cases l with
        | nil => exact .inl ho
        | cons a l => exact absurd (List.cons.inj ho).2.symm (by simp)
      · cases l with
        | nil => exact .inl hl.symm
        | cons a l =>
          obtain ⟨rfl, rfl⟩ := List.cons.inj hl
          exact .inr ⟨l, hh, rfl⟩
    rcases hcases with ho | ⟨l, hh, rfl⟩
    · obtain ⟨hsingle, hcontrol⟩ := hmove.of_stopped b error (by rw [ho]; simp)
      obtain rfl : h₂ = [] := (List.cons.inj (ho.symm.trans hsingle)).2
      exact ⟨hcontrol, fun _ _ => List.not_mem_nil⟩
    · rw [List.mem_append, not_or] at hrestarted
      obtain ⟨hcontrol, hnone⟩ := ih hh hrestarted.1
      obtain ⟨hcontrol', hnone'⟩ := hmove.of_failed hcontrol hrestarted.2
      refine ⟨hcontrol', fun id payload hmem => ?_⟩
      exact (List.mem_append.mp hmem).elim (hnone id payload) (hnone' id payload)

/-- A submission fails for good: the target says so, or the batch is too large to be
submitted. -/
def FailsForGood (anchor : Anchor) (s : State) (e : Event) (b : StoredBatch)
    (error : AnchorError) : Prop :=
  error.isTransient = false ∧
    ((e = .target (.error error) ∧
        ∃ rest attempt, s.control = .running (.submit b rest) attempt) ∨
      (e = .attempt ∧ s.shutdown.isTriggered = false ∧ anchor.refuse b = some error ∧
        ∃ rest attempt, s.control = .check (.submit b rest) attempt))

theorem stopped_of_failsForGood {anchor : Anchor} {s s' : State} {e : Event} {b : StoredBatch}
    {error : AnchorError} {o : List Observation} (hfails : FailsForGood anchor s e b error)
    (hstep : anchorStep anchor s e = some (s', o)) : o = [.stopped b error] := by
  obtain ⟨hpermanent, ⟨rfl, rest, attempt, hcontrol⟩ |
    ⟨rfl, htriggered, hrefuse, rest, attempt, hcontrol⟩⟩ := hfails
  · simp only [anchorStep, hcontrol, Anchor.submissionFailed, hpermanent] at hstep
    exact (Prod.mk.inj (Option.some.inj hstep)).2.symm
  · simp only [anchorStep, hcontrol, Anchor.attempt, htriggered, hrefuse, Anchor.submissionFailed,
      hpermanent] at hstep
    exact (Prod.mk.inj (Option.some.inj hstep)).2.symm

/-- What a run of the anchor guarantees. -/
structure AtLeastOnce (anchor : Anchor) (t₀ : Tables) (c₀ : Contents) (es : List Event)
    (s : State) (h : List Observation) : Prop where
  ascending : ((stored c₀ h).map StoredBatch.id).Pairwise (· < ·)
  /-- A batch is removed after its stored bytes were finalized, and submitted after all
  batches before it were finalized and removed. -/
  ordered : EventMachine.Justified (Ordered c₀) h
  /-- The payloads finalized, without repetitions, are those of the first batches. -/
  finalized : (finalizations h).destutter (· ≠ ·) <+: (stored c₀ h).map submission
  /-- What was not removed is in the store, as it was stored. -/
  kept : ∀ limit, readyBatches s.tables limit =
    .ok (((stored c₀ h).filter fun b => decide (.removed b ∉ h)).take limit)
  /-- A submission that fails for good is reported. -/
  reported : ∀ es₁ e es₂ s₁ h₁ b error, es = es₁ ++ e :: es₂ →
    (anchorMachine anchor).exec (.start t₀) es₁ = some (s₁, h₁) →
    FailsForGood anchor s₁ e b error → ∃ h₂, h = h₁ ++ .stopped b error :: h₂
  /-- Then nothing is submitted until the process is started again, and no batch from
  this one on is removed. -/
  stopped : ∀ h₁ b error h₂, h = h₁ ++ .stopped b error :: h₂ → .restarted ∉ h₂ →
    (∀ id payload, .submitted id payload ∉ h₂) ∧ b ∈ stored c₀ h ∧
      ∀ b' ∈ stored c₀ h, b.id ≤ b'.id → .removed b' ∉ h

theorem Shelf.ready_eq_filter {c₀ c : Contents} {h : List Observation} {t : Tables} {k n : ℕ}
    (sh : Shelf c₀ h t c k n) :
    c.ready = (stored c₀ h).filter fun b => decide (.removed b ∉ h) := by
  have hgone : ((stored c₀ h).take k).filter (fun b => decide (.removed b ∉ h)) = [] := by
    refine List.filter_eq_nil_iff.mpr fun b hb => ?_
    rw [decide_eq_true_iff, not_not]
    exact (sh.removed b).mpr hb
  have hkept : ((stored c₀ h).drop k).filter (fun b => decide (.removed b ∉ h)) =
      (stored c₀ h).drop k := by
    refine List.filter_eq_self.mpr fun b hb => decide_eq_true fun hremoved => ?_
    exact sh.ne_of_mem_take ((sh.removed b).mp hremoved) b (sh.ready ▸ hb) rfl
  calc c.ready = (stored c₀ h).drop k := sh.ready
    _ = ((stored c₀ h).take k ++ (stored c₀ h).drop k).filter
        fun b => decide (.removed b ∉ h) := by
      rw [List.filter_append, hgone, hkept, List.nil_append]
    _ = (stored c₀ h).filter fun b => decide (.removed b ∉ h) := by rw [List.take_append_drop]

/-- **The anchor delivers at least once, in order.**  For every run over a store that
holds contents, with commits, failures, shutdowns and restarts at any moment: batches
are removed and submitted as `Ordered` says, what was finalized is a prefix of the
batches in identifier order, and an error that is not transient stops the run with the
failing batch and all later ones still stored. -/
theorem anchor_at_least_once (anchor : Anchor) (t₀ : Tables) (c₀ : Contents)
    (hholds : t₀.Holds c₀) (es : List Event) (s : State) (h : List Observation)
    (hrun : (anchorMachine anchor).exec (.start t₀) es = some (s, h))
    (hids : c₀.nextBatchId + (es.map newBatches).sum ≤ 2 ^ 64) :
    AtLeastOnce anchor t₀ c₀ es s h := by
  obtain ⟨c, k, n, t, -⟩ := tracked_of_exec hholds hrun hids
  refine ⟨t.shelf.ascending, t.shelf.ordered, ?_, ?_, ?_, ?_⟩
  · rw [t.shelf.finalized, List.map_take]
    exact List.take_prefix _ _
  · intro limit
    rw [readyBatches_eq t.shelf.holds, t.shelf.ready_eq_filter]
  · intro es₁ e es₂ s₁ h₁ b error hes hrun₁ hfails
    rw [hes] at hrun
    obtain ⟨t', h', k', hfirst, hrest, rfl⟩ := EventMachine.exec_append_eq_some_iff.mp hrun
    rw [hrun₁] at hfirst
    obtain ⟨rfl, rfl⟩ := Prod.mk.inj (Option.some.inj hfirst)
    obtain ⟨s₂, o, h₂, hstep, -, rfl⟩ := EventMachine.exec_cons_eq_some_iff.mp hrest
    rw [stopped_of_failsForGood hfails hstep]
    exact ⟨h₂, rfl⟩
  · intro h₁ b error h₂ hh hrestarted
    obtain ⟨hcontrol, hnone⟩ := failed_of_stopped hrun hh hrestarted
    obtain ⟨tail, hdrop⟩ := t.fits.failed b error hcontrol
    have hget := getElem?_of_drop hdrop
    refine ⟨hnone, List.mem_of_getElem? hget, fun b' hb' hle hremoved => ?_⟩
    obtain ⟨i, hi, hget'⟩ := Shelf.mem_take.mp ((t.shelf.removed b').mp hremoved)
    have hlt := t.shelf.id_lt_id hi hget' hget
    exact absurd hle (Nat.not_le.mpr hlt)

/-! Two batches: the first is finalized twice, since the process ends between the
finalization and the confirmation; the second is too large. -/

def smallAnchor : Anchor := ⟨.default, 2⟩

def twoBatches : List Event :=
  [.commit ⟨5⟩ [] [⟨1, [7, 8]⟩, ⟨1, [1, 2, 3]⟩], .attempt, .loaded, .attempt,
    .target (.error (.transient "no connection")), .slept, .attempt, .target (.ok ⟨"0x1", "0x2"⟩),
    .restart, .attempt, .loaded, .attempt, .target (.ok ⟨"0x3", "0x4"⟩), .attempt, .confirmed,
    .attempt]

theorem anchor_at_least_once_twoBatches :
    ∃ s h, (anchorMachine smallAnchor).exec (.start .create) twoBatches = some (s, h) ∧
      finalizations h = [(0, [7, 8]), (0, [7, 8])] ∧
      .removed ⟨0, ⟨5⟩, 1, [7, 8]⟩ ∈ h ∧ AtLeastOnce smallAnchor .create .fresh twoBatches s h := by
  have hshown : ((anchorMachine smallAnchor).exec (.start .create) twoBatches).map (fun p =>
      (finalizations p.2, decide (.removed ⟨0, ⟨5⟩, 1, [7, 8]⟩ ∈ p.2))) =
        some ([(0, [7, 8]), (0, [7, 8])], true) := by
    decide +kernel
  obtain ⟨⟨s, h⟩, hrun, hh⟩ := Option.map_eq_some_iff.mp hshown
  obtain ⟨hfinalized, hremoved⟩ := Prod.mk.inj hh
  exact ⟨s, h, hrun, hfinalized, of_decide_eq_true hremoved,
    anchor_at_least_once smallAnchor .create .fresh holds_create twoBatches s h hrun (by decide)⟩

end Anchor
end Robins
