import Robins.Batcher.Conservation
import Mathlib.Order.Bounds.Defs

/-!
# What a flush of the due batches leaves

`flush_due` promises that no message it leaves is overdue, and that it answers how long the oldest
of them still has.  It looks at the first message of every batch it considers, and the first is
the one that was pushed first; how old a message is depends on its receive time, and pushes do not
come in that order: the wall clock may be set back between two receptions.

## The open batch

So the promise is kept or broken by one batch: the open one, which is what is left of the pending
messages when the batches closed by their number or their size are taken off the front
(`openBatch`).  Closed batches are flushed whatever their age.  Of the open batch `settle` says
what happens: all of it is flushed if its first message is overdue, and otherwise all of it stays
and the first message gives the answer.

That a whole flush comes to this (`settle_of_flushDue`) is an induction over its steps.  Each one
either takes the batch at the front, which leaves the same open batch, or ends the flush
(`Moves`); what `select` reports is described by `Selects`, without its loop.

## The promise

What is left to say is about two lists of ages.  The promise holds of what `settle` leaves exactly
if the open batch is punctual: its first message is overdue already, or no other is older
(`ageBounded_settle_iff`).  `flushDue_ageBounded_iff` puts the two together, for every store,
however the messages came to be in it.  Messages received in the order of their sequence numbers
are punctual; `setBack` has two that are not.
-/

namespace Robins
namespace Batcher

open BatchStore Protocol

/-! ## The open batch -/

section

variable (codecs : Codecs) (config : BatcherConfig)

/-- The length of the batch at the front, if its number or its size closes it. -/
def fullBatch (pending : List StoredMessage) : Option ℕ :=
  let selection := selectLoop codecs config (pending.take config.maxMessages) 0 0
  if selection.reason ≠ none ∨ selection.len = config.maxMessages then some selection.len
  else none

/-- Take full batches off the front, at most so many. -/
def dropFullBatches : ℕ → List StoredMessage → List StoredMessage
  | 0, pending => pending
  | n + 1, pending =>
    match fullBatch codecs config pending with
    | some len => dropFullBatches n (pending.drop len)
    | none => pending

/-- What is left when every full batch is taken off the front: no batch is empty, so there
are no more of them than messages. -/
def openBatch (pending : List StoredMessage) : List StoredMessage :=
  dropFullBatches codecs config pending.length pending

end

/-- What happens to an open batch at `now`: all of it is flushed if its first message is
overdue, and otherwise all of it stays and the first message gives the deadline. -/
def settle (config : BatcherConfig) (now : Timestamp) :
    List StoredMessage → List StoredMessage × Option Duration
  | [] => ([], none)
  | first :: rest =>
    if config.maxBatchAge ≤ first.receivedAt.elapsedUntil now then ([], none)
    else (first :: rest, some (config.maxBatchAge - first.receivedAt.elapsedUntil now))

/-! ## Selection

The loop of `select` adds up messages until one of the bounds is reached or the page is over.  For
what follows there are three outcomes (`Selects`): the first messages are a full batch, or they are
an open one that is due, or one that is not.  The loop is not mentioned any more. -/

section

variable {codecs : Codecs} {config : BatcherConfig}

variable (codecs config) in
theorem le_selectLoop_len (pending : List StoredMessage) (len size : ℕ) :
    len ≤ (selectLoop codecs config pending len size).len := by
  induction pending generalizing len size with
  | nil => exact le_rfl
  | cons m pending ih =>
    rw [selectLoop]
    split_ifs
    · exact le_rfl
    · exact le_rfl
    · exact (Nat.le_succ len).trans (ih (len + 1) _)
    · exact (Nat.le_succ len).trans (ih (len + 1) _)

/-- The first message is always taken, whatever its size. -/
theorem selectLoop_len_pos (hvalid : config.maxMessages ≠ 0) {pending : List StoredMessage}
    (hne : pending ≠ []) : 0 < (selectLoop codecs config pending 0 0).len := by
  obtain ⟨m, rest, rfl⟩ := List.exists_cons_of_ne_nil hne
  have hnext (size : ℕ) : 0 < (selectLoop codecs config rest (0 + 1) size).len :=
    le_selectLoop_len codecs config rest 1 size
  rw [selectLoop, if_neg hvalid.symm]
  split_ifs with _ hsize
  · exact absurd hsize.1 (lt_irrefl 0)
  · exact hnext _
  · exact hnext _

variable (codecs config) in
/-- Without a trigger everything is taken. -/
theorem selectLoop_len_of_reason (pending : List StoredMessage) (len size : ℕ)
    (h : (selectLoop codecs config pending len size).reason = none) :
    (selectLoop codecs config pending len size).len = len + pending.length := by
  induction pending generalizing len size with
  | nil => rfl
  | cons m pending ih =>
    rw [selectLoop] at h ⊢
    rw [List.length_cons]
    split_ifs at h ⊢
    · rw [ih _ _ h]
      omega
    · rw [ih _ _ h]
      omega

/-- What `select` says about the first page: a full batch, or the whole of an open one, with
the age of its first message as the trigger. -/
inductive Selects (codecs : Codecs) (config : BatcherConfig) (now : Timestamp)
    (first : StoredMessage) (rest : List StoredMessage) : Selection → Prop where
  | full {len : ℕ} (reason : FlushReason)
    (hfull : fullBatch codecs config (first :: rest) = some len)
      (hpos : 0 < len) (hle : len ≤ (first :: rest).length) :
      Selects codecs config now first rest ⟨len, some reason⟩
  | due (hfull : fullBatch codecs config (first :: rest) = none)
      (hdue : config.maxBatchAge ≤ first.receivedAt.elapsedUntil now) :
      Selects codecs config now first rest ⟨(first :: rest).length, some .age⟩
  | young (hfull : fullBatch codecs config (first :: rest) = none)
      (hyoung : first.receivedAt.elapsedUntil now < config.maxBatchAge) :
      Selects codecs config now first rest ⟨(first :: rest).length, none⟩

theorem fullBatch_nil (hvalid : config.maxMessages ≠ 0) : fullBatch codecs config [] = none := by
  rw [fullBatch, List.take_nil, selectLoop]
  exact if_neg (by simpa using hvalid.symm)

theorem dropFullBatches_of_none {pending : List StoredMessage}
    (hfull : fullBatch codecs config pending = none) (n : ℕ) :
    dropFullBatches codecs config n pending = pending := by
  cases n with
  | zero => rfl
  | succ n => rw [dropFullBatches, hfull]

theorem selects (hvalid : config.maxMessages ≠ 0) (now : Timestamp) (first : StoredMessage)
    (rest : List StoredMessage) :
    Selects codecs config now first rest
      (select codecs config ((first :: rest).take config.maxMessages) now) := by
  have hhead : ((first :: rest).take config.maxMessages).head? = some first := by
    rw [List.head?_take, if_neg hvalid]
    rfl
  have hne : (first :: rest).take config.maxMessages ≠ [] := by
    intro hnil
    rw [hnil] at hhead
    exact absurd hhead (by simp)
  have hpos : 0 < (selectLoop codecs config ((first :: rest).take config.maxMessages) 0 0).len :=
    selectLoop_len_pos hvalid hne
  have hle := selectLoop_len_le codecs config ((first :: rest).take config.maxMessages) 0 0
  have hnone := selectLoop_len_of_reason codecs config ((first :: rest).take config.maxMessages) 0 0
  rw [List.length_take] at hle hnone
  have hfull : fullBatch codecs config (first :: rest) =
      let selection := selectLoop codecs config ((first :: rest).take config.maxMessages) 0 0
      if selection.reason ≠ none ∨ selection.len = config.maxMessages then some selection.len
      else none := rfl
  unfold select
  dsimp only at hfull ⊢
  generalize selectLoop codecs config ((first :: rest).take config.maxMessages) 0 0 = selection
    at hpos hle hnone hfull ⊢
  obtain ⟨len, reason⟩ := selection
  dsimp only at hpos hle hnone hfull ⊢
  cases reason with
  | some reason =>
    rw [if_pos (.inl (by simp))] at hfull
    exact .full reason hfull hpos (by omega)
  | none =>
    by_cases hcount : len = config.maxMessages
    · rw [if_pos (.inr hcount)] at hfull
      dsimp only
      rw [if_pos hcount]
      exact .full .count hfull hpos (by omega)
    · rw [if_neg (by simp [hcount])] at hfull
      have hlen := hnone rfl
      have hall : len = (first :: rest).length := by omega
      dsimp only
      rw [if_neg hcount, hhead, hall]
      dsimp only
      split_ifs with hdue
      · exact .due hfull hdue
      · exact .young hfull (not_le.mp hdue)

/-! ## One step -/

/-- The first messages of a table can be removed, and the others are left. -/
theorem exists_removeConsumed_take (pending : OrderedTable ℕ Bytes) (n : ℕ) :
    ∃ pending', removeConsumed pending ((pending.entries.take n).map Prod.fst) = .ok pending' ∧
      pending'.entries = pending.entries.drop n := by
  have hnodup := pending.nodup_keys
  have hmem : ∀ id ∈ (pending.entries.take n).map Prod.fst,
      ∃ value, (id, value) ∈ pending.entries := by
    intro id hid
    obtain ⟨entry, hentry, rfl⟩ := List.mem_map.mp hid
    exact ⟨entry.2, List.mem_of_mem_take hentry⟩
  have htake : ((pending.entries.take n).map Prod.fst).Nodup := by
    rw [List.map_take]
    exact hnodup.sublist (List.take_sublist _ _)
  obtain ⟨pending', hremove, hentries⟩ := removeConsumed_eq hmem htake
  exact ⟨pending', hremove, hentries.trans (filter_notMem_take hnodup n)⟩

/-- A commit of the first messages leaves the others. -/
theorem pending_of_commitBatches {t t' : Tables} {msgs : List StoredMessage}
    (hpending : t.pendingMessages.entries = msgs.map StoredMessage.entry) {createdAt : Timestamp}
    {n : ℕ} {prepared : List PreparedBatch} {ids : List BatchId}
    (hcommit : commitBatches t createdAt ((msgs.take n).map StoredMessage.sequence) prepared =
      .ok (ids, t')) :
    t'.pendingMessages.entries = (msgs.drop n).map StoredMessage.entry := by
  have hkeys : t.pendingMessages.entries.map Prod.fst = msgs.map StoredMessage.sequence := by
    rw [hpending, List.map_map]
    rfl
  have hconsumed : (msgs.take n).map StoredMessage.sequence =
      (t.pendingMessages.entries.take n).map Prod.fst := by
    rw [List.map_take, List.map_take, hkeys]
  obtain ⟨pending', hremove, hentries⟩ := exists_removeConsumed_take t.pendingMessages n
  rw [commitBatches, hconsumed, hremove] at hcommit
  dsimp only at hcommit
  split at hcommit
  · exact absurd hcommit (by simp)
  · obtain ⟨-, rfl⟩ := Prod.mk.inj (Except.ok.inj hcommit)
    rw [List.map_drop, ← hpending]
    exact hentries

theorem pendingMessages_take {t : Tables} {msgs : List StoredMessage}
    (hpending : t.pendingMessages.entries = msgs.map StoredMessage.entry) (limit : ℕ) :
    BatchStore.pendingMessages t limit = .ok (msgs.take limit) := by
  rw [BatchStore.pendingMessages, hpending, ← List.map_take]
  exact mapM_entry_eq (fun m => decodeMessage_encodeMessage _ _ _) _

/-- What a step that is not forced does to the pending messages. -/
inductive Moves (codecs : Codecs) (config : BatcherConfig) (now : Timestamp) :
    List StoredMessage → Step → List StoredMessage → Prop where
  | idle : Moves codecs config now [] .idle []
  | full {msgs : List StoredMessage} {len : ℕ} (hfull : fullBatch codecs config msgs = some len)
      (hpos : 0 < len) (hle : len ≤ msgs.length) :
      Moves codecs config now msgs .flushed (msgs.drop len)
  | due {first : StoredMessage} {rest : List StoredMessage}
      (hfull : fullBatch codecs config (first :: rest) = none)
      (hdue : config.maxBatchAge ≤ first.receivedAt.elapsedUntil now) :
      Moves codecs config now (first :: rest) .flushed []
  | young {first : StoredMessage} {rest : List StoredMessage}
      (hfull : fullBatch codecs config (first :: rest) = none)
      (hyoung : first.receivedAt.elapsedUntil now < config.maxBatchAge) :
      Moves codecs config now (first :: rest)
        (.wait (config.maxBatchAge - first.receivedAt.elapsedUntil now)) (first :: rest)

/-- A step that selects the first messages for a flush takes them off the front. -/
theorem pending_of_flushed {t t' : Tables} {msgs : List StoredMessage}
    (hpending : t.pendingMessages.entries = msgs.map StoredMessage.entry)
    {now createdAt : Timestamp} {outcome : Step} {first : StoredMessage}
    {page : List StoredMessage} (hpage : msgs.take config.maxMessages = first :: page)
    {len : ℕ} {reason : FlushReason}
    (hselect : select codecs config (first :: page) now = ⟨len, some reason⟩)
    (hstep : step codecs config t now createdAt false = .ok (outcome, t')) :
    outcome = .flushed ∧
      t'.pendingMessages.entries = (msgs.drop len).map StoredMessage.entry := by
  have hle := select_len_le codecs config (first :: page) now
  have hcandidate : (first :: page).take len = msgs.take len := by
    rw [hselect, ← hpage, List.length_take] at hle
    rw [← hpage, List.take_take, min_eq_left (hle.trans (min_le_left _ _))]
  rw [step, pendingMessages_take hpending, hpage] at hstep
  simp only [plan, hselect, hcandidate] at hstep
  cases hplan : planFlush codecs config (msgs.take len) reason with
  | error err =>
    rw [hplan] at hstep
    exact absurd hstep (by simp)
  | ok p =>
    obtain ⟨flush, runs, rfl, hcovers⟩ := planFlush_spec hplan
    rw [hplan] at hstep
    simp only [hcovers.consumed_eq] at hstep
    split at hstep
    · exact absurd hstep (by simp)
    · next ids tables hcommit =>
      obtain ⟨rfl, rfl⟩ := Prod.mk.inj (Except.ok.inj hstep)
      exact ⟨rfl, pending_of_commitBatches hpending hcommit⟩

/-- **What one step does**: it takes the full batch at the front, flushes the open one because it
is due, or leaves it and says for how long. -/
theorem moves_of_step (hvalid : config.maxMessages ≠ 0) {t t' : Tables}
    {msgs : List StoredMessage}
    (hpending : t.pendingMessages.entries = msgs.map StoredMessage.entry)
    {now createdAt : Timestamp} {outcome : Step}
    (hstep : step codecs config t now createdAt false = .ok (outcome, t')) :
    ∃ msgs', Moves codecs config now msgs outcome msgs' ∧
      t'.pendingMessages.entries = msgs'.map StoredMessage.entry := by
  cases msgs with
  | nil =>
    rw [step, pendingMessages_take hpending, List.take_nil] at hstep
    obtain ⟨rfl, rfl⟩ := Prod.mk.inj (Except.ok.inj hstep)
    exact ⟨[], .idle, hpending⟩
  | cons first rest =>
    have hselects : Selects codecs config now first rest
        (select codecs config ((first :: rest).take config.maxMessages) now) :=
      selects hvalid now first rest
    obtain ⟨page, hpage⟩ : ∃ page, (first :: rest).take config.maxMessages = first :: page := by
      obtain ⟨k, hk⟩ := Nat.exists_eq_succ_of_ne_zero hvalid
      exact ⟨rest.take k, by rw [hk, List.take_succ_cons]⟩
    rw [hpage] at hselects
    generalize hselect : select codecs config (first :: page) now = selection at hselects
    cases hselects with
    | full reason hfull hpos hle =>
      obtain ⟨rfl, hentries⟩ := pending_of_flushed hpending hpage hselect hstep
      exact ⟨_, .full hfull hpos hle, hentries⟩
    | due hfull hdue =>
      obtain ⟨rfl, hentries⟩ := pending_of_flushed hpending hpage hselect hstep
      rw [List.drop_length] at hentries
      exact ⟨[], .due hfull hdue, hentries⟩
    | young hfull hyoung =>
      rw [step, pendingMessages_take hpending, hpage] at hstep
      simp only [plan, hselect] at hstep
      obtain ⟨rfl, rfl⟩ := Prod.mk.inj (Except.ok.inj hstep)
      exact ⟨_, .young hfull hyoung, hpending⟩

/-! ## All the steps -/

/-- **A flush of what is due** leaves what settles of the open batch.  Full batches are taken off
the front one step at a time, which does not change what is open behind them. -/
theorem settle_of_flushDue (hvalid : config.maxMessages ≠ 0) {now : Timestamp}
    {clock : List Timestamp} {r : Option Duration} {t t' : Tables} {msgs : List StoredMessage}
    {n : ℕ} (hn : msgs.length ≤ n)
    (hpending : t.pendingMessages.entries = msgs.map StoredMessage.entry)
    (hrun : flushDue codecs config now clock t = some (.ok r, t')) :
    ∃ rest, t'.pendingMessages.entries = rest.map StoredMessage.entry ∧
      settle config now (dropFullBatches codecs config n msgs) = (rest, r) := by
  induction clock generalizing t msgs n with
  | nil => exact absurd hrun (by simp [flushDue])
  | cons createdAt clock ih =>
    rw [flushDue] at hrun
    cases hstep : step codecs config t now createdAt false with
    | error err =>
      rw [hstep] at hrun
      exact absurd hrun (by simp)
    | ok p =>
      obtain ⟨outcome, tables⟩ := p
      obtain ⟨msgs', hmoves, hpending'⟩ := moves_of_step hvalid hpending hstep
      rw [hstep] at hrun
      cases hmoves with
      | idle =>
        obtain ⟨hr, rfl⟩ := Prod.mk.inj (Option.some.inj hrun)
        obtain rfl := Except.ok.inj hr
        refine ⟨[], hpending', ?_⟩
        rw [dropFullBatches_of_none (fullBatch_nil hvalid)]
        rfl
      | full hfull hpos hle =>
        -- one full batch less, and fewer messages
        obtain ⟨k, rfl⟩ : ∃ k, n = k + 1 := ⟨n - 1, by omega⟩
        rw [dropFullBatches, hfull]
        exact ih (by rw [List.length_drop]; omega) hpending' hrun
      | due hfull hdue =>
        rw [dropFullBatches_of_none hfull, settle, if_pos hdue]
        have hnil := ih (n := 0) le_rfl hpending' hrun
        exact hnil
      | young hfull hyoung =>
        obtain ⟨hr, rfl⟩ := Prod.mk.inj (Option.some.inj hrun)
        obtain rfl := Except.ok.inj hr
        refine ⟨_, hpending', ?_⟩
        rw [dropFullBatches_of_none hfull, settle, if_neg (not_le.mpr hyoung)]

end

/-! ## The promise -/

/-- What a flush of everything due promises about the messages it leaves and the time it
answers: no message is overdue, and the answer is the least time any of them has left. -/
structure AgeBounded (config : BatcherConfig) (now : Timestamp) (rest : List StoredMessage)
    (r : Option Duration) : Prop where
  young : ∀ m ∈ rest, ¬ config.maxBatchAge ≤ m.receivedAt.elapsedUntil now
  none_iff : r = none ↔ rest = []
  least : ∀ d, r = some d →
    IsLeast {d' | ∃ m ∈ rest, d' = config.maxBatchAge - m.receivedAt.elapsedUntil now} d

/-- The first message of the batch is overdue already, or no other is older at `now`. -/
def Punctual (config : BatcherConfig) (now : Timestamp) : List StoredMessage → Prop
  | [] => True
  | first :: rest => config.maxBatchAge ≤ first.receivedAt.elapsedUntil now ∨
      ∀ m ∈ rest, m.receivedAt.elapsedUntil now ≤ first.receivedAt.elapsedUntil now

/-- **The promise is kept exactly for a punctual open batch.**  If its first message is due nothing
is left; if not, the promise is about all its messages, and only the first was looked at. -/
theorem ageBounded_settle_iff (config : BatcherConfig) (now : Timestamp)
    (pending : List StoredMessage) :
    AgeBounded config now (settle config now pending).1 (settle config now pending).2 ↔
      Punctual config now pending := by
  have hnothing : AgeBounded config now [] none := ⟨by simp, by simp, by simp⟩
  cases pending with
  | nil => exact iff_of_true hnothing trivial
  | cons first rest =>
    by_cases hdue : config.maxBatchAge ≤ first.receivedAt.elapsedUntil now
    · rw [settle, if_pos hdue]
      exact iff_of_true hnothing (.inl hdue)
    · rw [settle, if_neg hdue]
      have hyoung := not_le.mp hdue
      constructor
      · intro h
        refine .inr fun m hm => ?_
        have hle : config.maxBatchAge - first.receivedAt.elapsedUntil now ≤
            config.maxBatchAge - m.receivedAt.elapsedUntil now :=
          (h.least _ rfl).2 ⟨m, List.mem_cons_of_mem first hm, rfl⟩
        unfold Duration at *
        omega
      · intro h
        have hfirst := h.resolve_left hdue
        have hall : ∀ m ∈ first :: rest,
            m.receivedAt.elapsedUntil now ≤ first.receivedAt.elapsedUntil now :=
          List.forall_mem_cons.mpr ⟨le_rfl, hfirst⟩
        refine ⟨fun m hm => not_le.mpr ((hall m hm).trans_lt hyoung), by simp, ?_⟩
        intro d hd
        obtain rfl := Option.some.inj hd
        refine ⟨⟨first, List.mem_cons_self, rfl⟩, ?_⟩
        rintro d' ⟨m, hm, rfl⟩
        exact Nat.sub_le_sub_left (hall m hm) _

/-- Messages received in the order of their sequence numbers are punctual. -/
theorem punctual_of_pairwise (config : BatcherConfig) (now : Timestamp)
    {pending : List StoredMessage}
    (hsorted : pending.Pairwise fun a b => a.receivedAt.asMillis ≤ b.receivedAt.asMillis) :
    Punctual config now pending := by
  cases pending with
  | nil => trivial
  | cons first rest =>
    refine .inr fun m hm => Nat.sub_le_sub_left ?_ _
    exact UInt64.le_iff_toNat_le.mp ((List.pairwise_cons.mp hsorted).1 m hm)

/-- **When the age bound holds.**  However the pending messages came to be stored, a flush
of what is due keeps its promise if and only if their open batch is punctual. -/
theorem flushDue_ageBounded_iff (codecs : Codecs) (config : BatcherConfig) (hvalid : config.Valid)
    (now : Timestamp) (clock : List Timestamp) (t t' : Tables) (msgs : List StoredMessage)
    (r : Option Duration) (hpending : t.pendingMessages.entries = msgs.map StoredMessage.entry)
    (hrun : flushDue codecs config now clock t = some (.ok r, t')) :
    ∃ rest, t'.pendingMessages.entries = rest.map StoredMessage.entry ∧
      (AgeBounded config now rest r ↔ Punctual config now (openBatch codecs config msgs)) := by
  obtain ⟨rest, hrest, hsettle⟩ :=
    settle_of_flushDue hvalid.maxMessages_ne_zero le_rfl hpending hrun
  have hiff := ageBounded_settle_iff config now (openBatch codecs config msgs)
  rw [openBatch, hsettle] at hiff
  exact ⟨rest, hrest, hiff⟩

/-- At most a hundred messages, none of them older than thirty seconds. -/
def deadlineConfig : BatcherConfig := ⟨30, 8192, 100, .none⟩

/-- The wall clock is set back by fifteen seconds between two receptions. -/
def setBack : List Event := [.push ⟨20000⟩ [10, 1, 7], .push ⟨5000⟩ [10, 1, 9]]

/-- The messages it stores. -/
def setBackMessages : List StoredMessage :=
  [⟨0, ⟨20000⟩, [10, 1, 7]⟩, ⟨1, ⟨5000⟩, [10, 1, 9]⟩]

/-- Twenty seconds after the first message, the second is stored as thirty-five seconds old;
it is left, with an answer of ten seconds. -/
theorem exec_setBack : ∃ s h t', (gateway plainCodecs).exec Gateway.fresh setBack = some (s, h) ∧
    s.tables.pendingMessages.entries = setBackMessages.map StoredMessage.entry ∧
    flushDue plainCodecs deadlineConfig ⟨40000⟩ [⟨40000⟩] s.tables = some (.ok (some 10000), t') ∧
    t'.pendingMessages.entries = setBackMessages.map StoredMessage.entry := by
  have hshown : ((gateway plainCodecs).exec Gateway.fresh setBack).bind (fun p =>
      (flushDue plainCodecs deadlineConfig ⟨40000⟩ [⟨40000⟩] p.1.tables).map fun q =>
        (p.1.tables.pendingMessages.entries, q.1.toOption, q.2.pendingMessages.entries)) =
      some (setBackMessages.map StoredMessage.entry, some (some 10000),
        setBackMessages.map StoredMessage.entry) := by
    decide +kernel
  obtain ⟨⟨s, h⟩, hrun, hflush⟩ := Option.bind_eq_some_iff.mp hshown
  obtain ⟨⟨r, t'⟩, hr, heq⟩ := Option.map_eq_some_iff.mp hflush
  obtain ⟨hbefore, hrest⟩ := Prod.mk.inj heq
  obtain ⟨hok, hafter⟩ := Prod.mk.inj hrest
  refine ⟨s, h, t', hrun, hbefore, ?_, hafter⟩
  cases r with
  | error err => exact absurd hok (by simp [Except.toOption])
  | ok r =>
    obtain rfl : r = some 10000 := Option.some.inj hok
    exact hr

theorem flushDue_ageBounded_iff_setBack :
    ∃ t t', flushDue plainCodecs deadlineConfig ⟨40000⟩ [⟨40000⟩] t = some (.ok (some 10000), t') ∧
      ∃ rest, t'.pendingMessages.entries = rest.map StoredMessage.entry ∧
        (AgeBounded deadlineConfig ⟨40000⟩ rest (some 10000) ↔
          Punctual deadlineConfig ⟨40000⟩
            (openBatch plainCodecs deadlineConfig setBackMessages)) := by
  obtain ⟨s, h, t', -, hbefore, hflush, -⟩ := exec_setBack
  exact ⟨s.tables, t', hflush, flushDue_ageBounded_iff plainCodecs deadlineConfig rfl ⟨40000⟩
    [⟨40000⟩] s.tables t' setBackMessages (some 10000) hbefore hflush⟩

/-- The promise is broken after the clock was set back. -/
theorem not_ageBounded_setBack : ∃ s h r t',
    (gateway plainCodecs).exec Gateway.fresh setBack = some (s, h) ∧
      flushDue plainCodecs deadlineConfig ⟨40000⟩ [⟨40000⟩] s.tables = some (.ok r, t') ∧
      ∃ rest, t'.pendingMessages.entries = rest.map StoredMessage.entry ∧
        ¬ AgeBounded deadlineConfig ⟨40000⟩ rest r := by
  obtain ⟨s, h, t', hrun, -, hflush, hafter⟩ := exec_setBack
  refine ⟨s, h, _, t', hrun, hflush, setBackMessages, hafter, fun hbounded => ?_⟩
  exact hbounded.young ⟨1, ⟨5000⟩, [10, 1, 9]⟩ (by simp [setBackMessages]) (by decide)

end Batcher
end Robins
