import Robins.Batcher.Sessions
import Robins.Edge.App

/-!
# The shared store

The store is followed by three accounts: that of the batcher, in which messages become batches,
that of the anchor, in which batches are finalized and removed, and that of the payload format.
Each was made for a part that works alone.  Here a transaction moves all of them: what one part
does is, for another, a commit, a confirmation, or nothing that it looks at.

`Stored` holds the three together, over the same tables.  The accounts are about different things
in them, and this is what makes it work: the anchor's looks at the ready batches only
(`Tracked.onTables`), the format's at the metadata, and the batcher's at both queues.  A commit of
the batcher is an arrival of batches for the anchor, with identifiers that follow those it knows; a
confirmation of the anchor takes one batch away from the batcher's account; a push concerns neither
of the others.

The tables may hold only one set of contents (`Tables.Holds.ready_unique`), so accounts that were
made separately speak of the same batches.
-/

namespace Robins

namespace BatchStore

/-- The table of ready batches determines them. -/
theorem Tables.Holds.ready_unique {t t' : Tables} {c d : Contents} (hc : t.Holds c)
    (hd : t'.Holds d) (hready : t'.readyBatches = t.readyBatches) : d.ready = c.ready := by
  have hread : ∀ limit, BatchStore.readyBatches t' limit = BatchStore.readyBatches t limit :=
    fun limit => by rw [BatchStore.readyBatches, hready, BatchStore.readyBatches]
  have htake := Except.ok.inj ((readyBatches_eq hd (c.ready.length + d.ready.length)).symm.trans
    ((hread _).trans (readyBatches_eq hc _)))
  rwa [List.take_of_length_le (by omega), List.take_of_length_le (by omega)] at htake

theorem Reconciled.holds {t t' : Tables} {configured : FormatDescriptor}
    {result : Except FormatError FormatOutcome} (hr : Reconciled t configured result t')
    {c : Contents} (hc : t.Holds c) : t'.Holds c ∧ t'.readyBatches = t.readyBatches := by
  cases hr with
  | failed | unchanged => exact ⟨hc, rfl⟩
  | recorded | updated => exact ⟨⟨hc.pending, hc.ready, hc.nextSequence, hc.nextBatchId⟩, rfl⟩

end BatchStore

namespace Anchor

open BatchStore

/-- The account of the anchor looks at the ready batches only. -/
theorem Tracked.onTables {c₀ c d : Contents} {h : List Observation} {s : State} {k n : ℕ}
    (t : Tracked c₀ h s c k n) {tables : Tables} (hholds : tables.Holds d)
    (hready : tables.readyBatches = s.tables.readyBatches)
    (hid : ∀ b ∈ stored c₀ h, b.id < d.nextBatchId) :
    Tracked c₀ h { s with tables } d k n where
  shelf :=
    { t.shelf with
      holds := hholds
      ready := (t.shelf.holds.ready_unique hholds hready).trans t.shelf.ready
      id_lt := hid }
  fits := t.fits
  issued := t.issued

/-- The batches of a commit, as they are shown. -/
theorem created_committed (createdAt : Timestamp) (id : ℕ) (prepared : List PreparedBatch) :
    created (committed createdAt (List.range' id prepared.length) prepared) =
      Contents.stamp createdAt id prepared := by
  rw [committed_range', created, List.filterMap_map]
  exact List.filterMap_some

/-- Nothing is created by an event other than a commit. -/
theorem Move.created_eq_nil {anchor : Anchor} {s s' : State} {e : Event} {o : List Observation}
    (hmove : Move anchor s e s' o) (he : ∀ createdAt consumed prepared,
      e ≠ .commit createdAt consumed prepared) : created o = [] := by
  have hremoval : ∀ tables id, created (removal tables id) = [] := fun tables id => by
    refine List.filterMap_eq_nil_iff.mpr fun a ha => ?_
    obtain ⟨b, rfl⟩ := removed_of_mem_removal ha
    rfl
  cases hmove with
  | commit => exact absurd rfl (he _ _ _)
  | transaction | confirm => exact hremoval _ _
  | _ => rfl

/-- Beginning an attempt does not write to the store. -/
theorem tables_attempt (anchor : Anchor) (s : State) (task : Task) (attempt : UInt32) :
    (anchor.attempt s task attempt).1.tables = s.tables := by
  unfold Anchor.attempt
  split_ifs
  · rfl
  · cases task with
    | submit batch rest =>
      dsimp only
      split <;> rfl
    | _ => rfl

end Anchor

namespace Edge

open Protocol BatchStore Pipeline

/-- What a step of the anchor does to the store. -/
theorem tables_of_anchorStep {anchor : Anchor.Anchor} {s : EdgeApp} {e : Anchor.Event}
    (hown : isAnchors e = true) {a : Anchor.State} {o : List Anchor.Observation}
    (hstep : Anchor.anchorStep anchor s.anchorState e = some (a, o)) :
    a.tables = match s.confirms e with
      | none => s.gateway.tables
      | some id => confirmBatch s.gateway.tables id := by
  unfold Anchor.anchorStep at hstep
  split at hstep
  · exact absurd hown (by simp [isAnchors])
  · split_ifs at hstep
    obtain ⟨rfl, -⟩ := Prod.mk.inj (Option.some.inj hstep)
    rfl
  · obtain ⟨rfl, -⟩ := Prod.mk.inj (Option.some.inj hstep)
    rfl
  · split_ifs at hstep
    obtain ⟨rfl, -⟩ := Prod.mk.inj (Option.some.inj hstep)
    rfl
  · exact absurd hown (by simp [isAnchors])
  · next task attempt hcontrol =>
    obtain rfl := (Prod.mk.inj (Option.some.inj hstep)).1
    exact Anchor.tables_attempt anchor _ _ _
  · split at hstep <;>
    · obtain ⟨rfl, -⟩ := Prod.mk.inj (Option.some.inj hstep)
      rfl
  · obtain ⟨rfl, -⟩ := Prod.mk.inj (Option.some.inj hstep)
    rfl
  · obtain ⟨rfl, -⟩ := Prod.mk.inj (Option.some.inj hstep)
    rfl
  · next batch rest attempt hcontrol =>
    have hrunning : s.anchor.control = .running (.confirm batch rest) attempt := hcontrol
    obtain ⟨rfl, -⟩ := Prod.mk.inj (Option.some.inj hstep)
    rw [EdgeApp.confirms, hrunning]
    rfl
  · obtain ⟨rfl, -⟩ := Prod.mk.inj (Option.some.inj hstep)
    rfl
  · obtain ⟨rfl, -⟩ := Prod.mk.inj (Option.some.inj hstep)
    rfl
  · split_ifs at hstep
    obtain ⟨rfl, -⟩ := Prod.mk.inj (Option.some.inj hstep)
    rfl
  · obtain ⟨rfl, -⟩ := Prod.mk.inj (Option.some.inj hstep)
    rfl
  · obtain ⟨rfl, -⟩ := Prod.mk.inj (Option.some.inj hstep)
    rfl
  · split_ifs at hstep
    obtain ⟨rfl, -⟩ := Prod.mk.inj (Option.some.inj hstep)
    rfl
  · split_ifs at hstep
    obtain ⟨rfl, -⟩ := Prod.mk.inj (Option.some.inj hstep)
    rfl
  · exact absurd hstep (by simp)

variable {codecs : Batcher.Codecs} {verify : Ed25519Verify} {sha256 : Sha256} {n : ℕ}
  {h o : List Observation} {s s' : EdgeApp} {c : Contents} {k : Conveyor}
  {runs : List (List Batcher.Decoded)} {i j : ℕ}

/-- The store after `n` events that showed `h`: it holds `c`, in the account of the batcher
messages and batches are as `k` and `runs` say, and in that of the anchor the batches before
`i` have been removed and those before `j` finalized. -/
structure Stored (codecs : Batcher.Codecs) (n : ℕ) (h : List Observation) (s : EdgeApp)
    (c : Contents) (k : Conveyor) (runs : List (List Batcher.Decoded)) (i j : ℕ) : Prop where
  batcher : Batcher.Represents codecs n (storePart h) s.gateway c k runs
  anchor : Anchor.Tracked .fresh (anchorPart h) s.anchorState c i j
  /-- Both see the same batches. -/
  created : (Anchor.created (anchorPart h)).map (fun b => (b.id, b.prepared)) =
    (Batcher.created (storePart h)).map fun b => (b.id, b.batch)
  /-- In a session with anchoring every ready batch has the format that is configured. -/
  guarded : Batcher.Guarded codecs ((storePart h).map .worked)
    ⟨s.gateway, s.config.blockchain.map Blockchain.batcher⟩

theorem id_lt_of_ids {h : List Anchor.Observation} {created : List Batcher.Created} {next : ℕ}
    (hcreated : (Anchor.created h).map (fun b => (b.id, b.prepared)) =
      created.map fun b => (b.id, b.batch))
    (hids : created.map Batcher.Created.id = List.range next) :
    ∀ b ∈ Anchor.stored .fresh h, b.id < next := by
  intro b hb
  have hmem : (b.id, b.prepared) ∈ created.map fun b => (b.id, b.batch) := by
    rw [← hcreated]
    exact List.mem_map_of_mem (f := fun b : StoredBatch => (b.id, b.prepared)) hb
  obtain ⟨b', hb', heq⟩ := List.mem_map.mp hmem
  have hid : b'.id ∈ List.range next := by
    rw [← hids]
    exact List.mem_map_of_mem hb'
  rw [← (Prod.mk.inj heq).1]
  exact List.mem_range.mp hid

/-- **A process that was started** runs on the store as it was, except for the format. -/
theorem spawned_of_start {config : EdgeConfig} {faults : StoreCall → Option StoreError}
    {t : Tables} {k : List Batcher.DaemonObservation}
    (hstart : EdgeApp.start config faults t = some s') (hholds : t.Holds c)
    (hlabelled : Batcher.Labelled codecs k t) :
    ∃ tables, s' = .spawn config tables ∧ tables.Holds c ∧ tables.readyBatches = t.readyBatches ∧
      Batcher.Guarded codecs k ⟨⟨tables, none⟩, config.blockchain.map Blockchain.batcher⟩ := by
  unfold EdgeApp.start at hstart
  split at hstart
  · next hnone =>
    obtain rfl := Option.some.inj hstart
    rw [hnone]
    exact ⟨t, rfl, hholds, rfl, hlabelled, by simp, by simp⟩
  · next blockchain hsome =>
    split_ifs at hstart with hvalid
    split at hstart
    · exact absurd hstart (by simp)
    · next outcome tables hreconcile =>
      obtain rfl := Option.some.inj hstart
      have hreconciled := reconciled_of_reconcileFormat hreconcile
      obtain ⟨hholds', hready⟩ := hreconciled.holds hholds
      obtain ⟨hlabelled', hformat⟩ := hlabelled.reconcile (o := []) hreconciled
      rw [List.append_nil] at hlabelled'
      refine ⟨tables, rfl, hholds', hready, hlabelled', fun config' heq => ?_, by simp⟩
      rw [hsome] at heq
      obtain rfl := Option.some.inj heq
      exact hformat _ rfl

namespace Stored

theorem start {config : EdgeConfig} {faults : StoreCall → Option StoreError}
    (codecs : Batcher.Codecs) (hstart : EdgeApp.start config faults .create = some s) :
    Stored codecs 0 [] s .fresh .empty [] 0 0 := by
  obtain ⟨tables, rfl, hholds, hready, hg⟩ := spawned_of_start hstart holds_create
    (Batcher.guarded_fresh codecs).labelled
  refine ⟨{ Batcher.represents_fresh codecs with holds := hholds }, ?_, rfl, hg⟩
  exact (Anchor.Tracked.start holds_create).onTables hholds hready
    fun b hb => absurd hb List.not_mem_nil

/-- The accounts need not agree on the contents beforehand. -/
theorem of {d : Contents} (hr : Batcher.Represents codecs n (storePart h) s.gateway c k runs)
    (ht : Anchor.Tracked .fresh (anchorPart h) s.anchorState d i j)
    (hcreated : (Anchor.created (anchorPart h)).map (fun b => (b.id, b.prepared)) =
      (Batcher.created (storePart h)).map fun b => (b.id, b.batch))
    (hg : Batcher.Guarded codecs ((storePart h).map .worked)
      ⟨s.gateway, s.config.blockchain.map Blockchain.batcher⟩) :
    Stored codecs n h s c k runs i j :=
  ⟨hr, ht.onTables hr.holds rfl (id_lt_of_ids hcreated hr.ids), hcreated, hg⟩

theorem nextBatchId_le (st : Stored codecs n h s c k runs i j) : c.nextBatchId ≤ n :=
  st.batcher.nextBatchId_le.trans (k.taken_le.trans st.batcher.arrived_le)

/-- A step that concerns neither the store nor the anchor. -/
theorem stay (st : Stored codecs n h s c k runs i j) (hgateway : s'.gateway = s.gateway)
    (hanchor : s'.anchor = s.anchor) (hconfig : s'.config = s.config) (hstore : storePart o = [])
    (hshown : anchorPart o = []) : Stored codecs (n + 1) (h ++ o) s' c k runs i j := by
  have hstate : s'.anchorState = s.anchorState := by
    rw [EdgeApp.anchorState, hgateway, hanchor]
    rfl
  refine ⟨?_, ?_, ?_, ?_⟩
  · rw [storePart_append, hstore, List.append_nil, hgateway]
    exact st.batcher.stay
  · rw [anchorPart_append, hshown, List.append_nil, hstate]
    exact st.anchor
  · rw [anchorPart_append, storePart_append, hstore, hshown, List.append_nil, List.append_nil]
    exact st.created
  · rw [storePart_append, hstore, List.append_nil, hgateway, hconfig]
    exact st.guarded

/-- In a session with anchoring, work on the store keeps it guarded. -/
theorem guarded_work (st : Stored codecs n h s c k runs i j) {blockchain : Blockchain}
    (hconfig : s.config.blockchain = some blockchain) {e : Batcher.Event}
    (hunder : e.isUnder blockchain.batcher = true)
    (hsession : e.session blockchain.batcher = some blockchain.batcher) {g : Batcher.Gateway}
    {shown : List Batcher.Observation}
    (hstep : Batcher.gatewayStep codecs s.gateway e = some (g, shown)) :
    Batcher.Guarded codecs ((storePart h ++ shown).map .worked)
      ⟨g, s.config.blockchain.map Blockchain.batcher⟩ := by
  have hg := st.guarded.work (by rw [hconfig]; rfl) hunder hstep
  rw [hsession] at hg
  rw [List.map_append, hconfig]
  exact hg

/-- A push or a plan: the anchor does not notice. -/
theorem work (hc : codecs.Lawful) (st : Stored codecs n h s c k runs i j) (hn : n < 2 ^ 32)
    {blockchain : Blockchain} (hconfig : s.config.blockchain = some blockchain)
    {e : Batcher.Event} (hunder : e.isUnder blockchain.batcher = true)
    (hsession : e.session blockchain.batcher = some blockchain.batcher)
    (hstep : Batcher.gatewayStep codecs s.gateway e = some (s'.gateway, storePart o))
    (hready : s'.gateway.tables.readyBatches = s.gateway.tables.readyBatches)
    (hnone : Batcher.created (storePart o) = []) (hanchor : s'.anchor = s.anchor)
    (hsame : s'.config = s.config) (hshown : anchorPart o = []) :
    ∃ c' k' runs', Stored codecs (n + 1) (h ++ o) s' c' k' runs' i j := by
  obtain ⟨c', k', runs', hr⟩ := st.batcher.step hc hn hstep
  have hcreated : (Anchor.created (anchorPart (h ++ o))).map (fun b => (b.id, b.prepared)) =
      (Batcher.created (storePart (h ++ o))).map fun b => (b.id, b.batch) := by
    rw [anchorPart_append, storePart_append, hshown, List.append_nil, Batcher.created_append,
      hnone, List.append_nil]
    exact st.created
  rw [← storePart_append] at hr
  have ht : Anchor.Tracked .fresh (anchorPart (h ++ o)) { s.anchorState with
      tables := s'.gateway.tables } c' i j := by
    rw [anchorPart_append, hshown, List.append_nil] at hcreated ⊢
    exact st.anchor.onTables hr.holds hready (id_lt_of_ids hcreated hr.ids)
  have hstate : s'.anchorState = { s.anchorState with tables := s'.gateway.tables } := by
    rw [EdgeApp.anchorState, hanchor]
    rfl
  refine ⟨c', k', runs', of hr (hstate ▸ ht) hcreated ?_⟩
  rw [storePart_append, hsame]
  exact st.guarded_work hconfig hunder hsession hstep

/-- **The durable sink** takes a message. -/
theorem push (hc : codecs.Lawful) (st : Stored codecs n h s c k runs i j) (hn : n < 2 ^ 32)
    {blockchain : Blockchain} (hconfig : s.config.blockchain = some blockchain)
    {message : AcceptedMessage} {stored : StoredMessage} {tables : Tables}
    (hlen : message.rawEnvelope.length ≤ isizeMax)
    (hdeliver : deliver s.gateway.tables message = .ok (stored, tables)) :
    ∃ c' k' runs', Stored codecs (n + 1) (h ++ [.store (.pushed stored)])
      { s with answer := some (.ok ()), gateway := { s.gateway with tables } } c' k' runs' i j := by
  unfold deliver at hdeliver
  split at hdeliver
  · exact absurd hdeliver (by simp)
  · next sequence store hpush =>
    obtain ⟨rfl, rfl⟩ := Prod.mk.inj (Except.ok.inj hdeliver)
    have hstep : Batcher.gatewayStep codecs s.gateway
        (.push message.receivedAt message.rawEnvelope) = some ({ s.gateway with tables := store },
          [.pushed ⟨sequence, message.receivedAt, message.rawEnvelope⟩]) := by
      rw [Batcher.gatewayStep, if_pos hlen, hpush]
    exact st.work hc hn hconfig (o := [.store (.pushed _)]) rfl rfl hstep
      (formatDescriptor_pushMessage hpush).2 rfl rfl rfl rfl

/-- **The batcher plans** a step. -/
theorem plan (hc : codecs.Lawful) (st : Stored codecs n h s c k runs i j) (hn : n < 2 ^ 32)
    {blockchain : Blockchain} (hconfig : s.config.blockchain = some blockchain) {now : Timestamp}
    {force : Bool} {g : Batcher.Gateway} {shown : List Batcher.Observation}
    (hplan : Batcher.gatewayStep codecs s.gateway (.plan blockchain.batcher now force) =
      some (g, shown)) :
    ∃ c' k' runs', Stored codecs (n + 1) (h ++ shown.map .store) { s with gateway := g } c' k' runs'
      i j := by
  have hquiet : g.tables.readyBatches = s.gateway.tables.readyBatches ∧ shown = [] := by
    simp only [Batcher.gatewayStep] at hplan
    split_ifs at hplan
    split at hplan
    · obtain ⟨rfl, rfl⟩ := Prod.mk.inj (Option.some.inj hplan)
      exact ⟨rfl, rfl⟩
    · split at hplan <;>
      · obtain ⟨rfl, rfl⟩ := Prod.mk.inj (Option.some.inj hplan)
        exact ⟨rfl, rfl⟩
  obtain ⟨hready, rfl⟩ := hquiet
  exact st.work hc hn hconfig (e := .plan blockchain.batcher now force) (o := [])
    (decide_eq_true rfl) rfl hplan hready rfl rfl rfl rfl

/-- **The batcher commits** a step: for the anchor, batches arrive. -/
theorem commit (hc : codecs.Lawful) (st : Stored codecs n h s c k runs i j) (hn : n < 2 ^ 32)
    {blockchain : Blockchain} (hconfig : s.config.blockchain = some blockchain)
    {createdAt : Timestamp} {config : Batcher.BatcherConfig} {flush : Batcher.Flush}
    (hbatcher : s.gateway.batcher = some (config, flush)) {g : Batcher.Gateway}
    {shown : List Batcher.Observation}
    (hstep : Batcher.gatewayStep codecs s.gateway (.commit createdAt) = some (g, shown))
    {a : Anchor.State} {seen : List Anchor.Observation}
    (hanchor : Anchor.anchorStep blockchain.anchor s.anchorState
      (.commit createdAt flush.consumed flush.prepared) = some (a, seen)) :
    ∃ c' k' runs', Stored codecs (n + 1) (h ++ (shown.map .store ++ seen.map .anchor))
      { s with gateway := g } c' k' runs' i j := by
  obtain ⟨c', k', runs', hr⟩ := st.batcher.step hc hn hstep
  have hg := st.guarded_work hconfig rfl rfl hstep
  have hstore : storePart (h ++ (shown.map .store ++ seen.map .anchor)) =
      storePart h ++ shown := by simp
  have hseen : anchorPart (h ++ (shown.map .store ++ seen.map .anchor)) =
      anchorPart h ++ seen := by simp
  obtain ⟨m, new, hm, hcovers⟩ := st.batcher.batcher hbatcher
  have harrived := st.batcher.arrived_le
  have hnext := st.nextBatchId_le
  have hcount : flush.prepared.length ≤ m :=
    hcovers.length_prepared_le.trans (List.length_take_le _ _)
  have hids : c.nextBatchId + flush.prepared.length ≤ 2 ^ 64 := by omega
  have hmoved : ∃ d, Anchor.Tracked .fresh (anchorPart h ++ seen)
      { s.anchorState with tables := g.tables } d i j ∧
      (Anchor.created (anchorPart h ++ seen)).map (fun b => (b.id, b.prepared)) =
        (Batcher.created (storePart h ++ shown)).map fun b => (b.id, b.batch) := by
    simp only [Batcher.gatewayStep, hbatcher] at hstep
    cases hcommit : commitBatches s.gateway.tables createdAt flush.consumed flush.prepared with
    | error error =>
      have hfails : commitBatches s.anchorState.tables createdAt flush.consumed flush.prepared =
          .error error := hcommit
      rw [hcommit] at hstep
      simp only [Anchor.anchorStep, hfails] at hanchor
      obtain ⟨rfl, rfl⟩ := Prod.mk.inj (Option.some.inj hstep)
      obtain ⟨rfl, rfl⟩ := Prod.mk.inj (Option.some.inj hanchor)
      rw [List.append_nil, List.append_nil]
      exact ⟨c, st.anchor, st.created⟩
    | ok result =>
      obtain ⟨ids, tables⟩ := result
      have hok : commitBatches s.anchorState.tables createdAt flush.consumed flush.prepared =
          .ok (ids, tables) := hcommit
      rw [hcommit] at hstep
      simp only [Anchor.anchorStep, hok] at hanchor
      obtain ⟨rfl, rfl⟩ := Prod.mk.inj (Option.some.inj hstep)
      obtain ⟨rfl, rfl⟩ := Prod.mk.inj (Option.some.inj hanchor)
      refine ⟨_, st.anchor.commit hids hok, ?_⟩
      obtain ⟨rfl, -⟩ := holds_of_commitBatches st.batcher.holds hids hcommit
      rw [Anchor.created_append, Anchor.created_committed, List.map_append, st.created,
        Batcher.map_stamp_eq_map_newBatches config, Batcher.created_append, Batcher.created_append,
        Batcher.created_map_created, Batcher.created_map_rejected, List.append_nil, List.map_append]
  obtain ⟨d, ht, hcreated⟩ := hmoved
  refine ⟨c', k', runs', of (d := d) ?_ ?_ ?_ ?_⟩
  · rw [hstore]
    exact hr
  · rw [hseen]
    exact ht
  · rw [hseen, hstore]
    exact hcreated
  · rw [hstore]
    exact hg

/-- **The anchor makes a step**: for the batcher, a batch is confirmed or nothing happens. -/
theorem anchorStep (st : Stored codecs n h s c k runs i j) (hn : n < 2 ^ 32)
    {blockchain : Blockchain} (hconfig : s.config.blockchain = some blockchain)
    {e : Anchor.Event} (hown : isAnchors e = true) {a : Anchor.State}
    {seen : List Anchor.Observation}
    (hstep : Anchor.anchorStep blockchain.anchor s.anchorState e = some (a, seen)) :
    ∃ c' k' runs' i' j', Stored codecs (n + 1)
      (h ++ ((confirmation s.gateway.tables (s.confirms e)).map .store ++ seen.map .anchor))
      { s with
        gateway := { s.gateway with tables := a.tables }
        anchor := ⟨a.shutdown, a.issued, a.control⟩ } c' k' runs' i' j' := by
  have hmove := Anchor.move_of_anchorStep hstep
  have hquiet : Anchor.newBatches e = 0 ∧ Anchor.created seen = [] := by
    refine ⟨?_, hmove.created_eq_nil fun createdAt consumed prepared heq => ?_⟩
    · cases e with
      | commit => exact absurd hown (by simp [isAnchors])
      | _ => rfl
    · rw [heq] at hown
      exact absurd hown (by simp [isAnchors])
  have hnext := st.nextBatchId_le
  obtain ⟨d, i', j', ht, -⟩ := st.anchor.step (by rw [hquiet.1]; omega) hmove
  have hstore : storePart (h ++ ((confirmation s.gateway.tables (s.confirms e)).map .store ++
      seen.map .anchor)) = storePart h ++ confirmation s.gateway.tables (s.confirms e) := by simp
  have hseen : anchorPart (h ++ ((confirmation s.gateway.tables (s.confirms e)).map .store ++
      seen.map .anchor)) = anchorPart h ++ seen := by simp
  have htables := tables_of_anchorStep hown hstep
  have hmoved : ∃ c' k' runs', Batcher.Represents codecs (n + 1)
      (storePart h ++ confirmation s.gateway.tables (s.confirms e))
      { s.gateway with tables := a.tables } c' k' runs' ∧
      Batcher.Guarded codecs ((storePart h ++
        confirmation s.gateway.tables (s.confirms e)).map .worked)
        ⟨{ s.gateway with tables := a.tables }, s.config.blockchain.map Blockchain.batcher⟩ ∧
      Batcher.created (confirmation s.gateway.tables (s.confirms e)) = [] := by
    cases hid : s.confirms e with
    | none =>
      rw [hid] at htables
      rw [htables, confirmation, List.append_nil]
      exact ⟨c, k, runs, st.batcher.stay, st.guarded, rfl⟩
    | some id =>
      rw [hid] at htables
      rw [htables]
      refine ⟨_, _, _, st.batcher.confirm id, ?_, ?_⟩
      · exact st.guarded_work hconfig (e := .confirm id) rfl rfl rfl
      · rw [confirmation]
        split_ifs <;> rfl
  obtain ⟨c', k', runs', hr, hg, hnone⟩ := hmoved
  refine ⟨c', k', runs', i', j', of (d := d) ?_ ?_ ?_ ?_⟩
  · rw [hstore]
    exact hr
  · rw [hseen]
    exact ht
  · rw [hseen, hstore, Anchor.created_append, hquiet.2, List.append_nil, Batcher.created_append,
      hnone, List.append_nil]
    exact st.created
  · rw [hstore]
    exact hg

/-- **A process is started** on the store. -/
theorem restart (st : Stored codecs n h s c k runs i j) {config : EdgeConfig}
    {faults : StoreCall → Option StoreError}
    (hstart : EdgeApp.start config faults s.gateway.tables = some s') :
    Stored codecs (n + 1) (h ++ [.anchor .restarted, .started config]) s' c k runs i j := by
  obtain ⟨tables, rfl, hholds, hready, hg⟩ :=
    spawned_of_start hstart st.batcher.holds st.guarded.labelled
  have hstore : storePart (h ++ [.anchor .restarted, .started config]) = storePart h :=
    (storePart_append _ _).trans (List.append_nil _)
  have hseen : anchorPart (h ++ [.anchor .restarted, .started config]) =
      anchorPart h ++ [.restarted] := anchorPart_append _ _
  have hsame : Anchor.created (anchorPart h ++ [.restarted]) = Anchor.created (anchorPart h) :=
    (Anchor.created_append _ _).trans (List.append_nil _)
  refine ⟨?_, ?_, ?_, ?_⟩
  · rw [hstore]
    exact { st.batcher.forget with holds := hholds }
  · have ht := st.anchor.restart
    rw [hseen]
    refine ht.onTables (s := .start s.gateway.tables) hholds hready ?_
    refine id_lt_of_ids ?_ st.batcher.ids
    rw [hsame]
    exact st.created
  · rw [hseen, hstore, hsame]
    exact st.created
  · rw [hstore]
    exact hg

/-- **Every step keeps the accounts.**  Each move is one of the lemmas above, or concerns neither
queue nor the metadata. -/
theorem step (hc : codecs.Lawful) (st : Stored codecs n h s c k runs i j) (hn : n < 2 ^ 32)
    (hfits : ∀ v, s.delivering = some v → v.message.rawEnvelope.length ≤ isizeMax)
    (hmove : Move codecs verify sha256 s s' o) :
    ∃ c' k' runs' i' j', Stored codecs (n + 1) (h ++ o) s' c' k' runs' i' j' := by
  cases hmove with
  | turnAway ha =>
    refine ⟨c, k, runs, i, j, st.stay rfl rfl rfl ?_ ?_⟩ <;>
    · rcases ha with ⟨body, rfl⟩ | ⟨body, status, text, rfl, -⟩ <;> rfl
  | post | place | radio | pushFailed => exact ⟨c, k, runs, i, j, st.stay rfl rfl rfl rfl rfl⟩
  | recv | pipeline | answer =>
    exact ⟨c, k, runs, i, j, st.stay rfl rfl rfl (storePart_map_pipeline _)
      (anchorPart_map_pipeline _)⟩
  | push hdelivering hdeliver =>
    have hsome : s.config.blockchain.isSome := by
      unfold EdgeApp.delivering at hdelivering
      split at hdelivering
      · split_ifs at hdelivering with hindex
        exact hindex.1
      · exact absurd hdelivering (by simp)
    obtain ⟨blockchain, hconfig⟩ := Option.isSome_iff_exists.mp hsome
    obtain ⟨c', k', runs', st'⟩ := st.push hc hn hconfig (hfits _ hdelivering) hdeliver
    exact ⟨c', k', runs', i, j, st'⟩
  | plan hconfig hstep =>
    obtain ⟨c', k', runs', st'⟩ := st.plan hc hn hconfig hstep
    exact ⟨c', k', runs', i, j, st'⟩
  | commit hconfig hbatcher hstep hanchor =>
    obtain ⟨c', k', runs', st'⟩ := st.commit hc hn hconfig hbatcher hstep hanchor
    exact ⟨c', k', runs', i, j, st'⟩
  | anchor hconfig hown hstep => exact st.anchorStep hn hconfig hown hstep
  | restart hstart => exact ⟨c, k, runs, i, j, st.restart hstart⟩

end Stored

end Edge
end Robins
