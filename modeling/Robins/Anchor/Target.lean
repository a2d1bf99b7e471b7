import Robins.Anchor.Worker
import Robins.Batcher.Config
import Robins.Chain.Registry
import Robins.Cps.Transaction

/-!
# The chain as the target of the anchor

`set_payload` takes a connection, builds the transaction, submits it and waits until it is
finalized.  An error of the client is retried or stops the anchor, as `classify` says.

A failed dispatch is a decision of the runtime about this payload, and trying again would not
change it; so it stops the anchor, and so it should be with nothing else
(`StopsForDispatchOnly`).  But the client turns any failure whose text quotes one of the names of
the runtime's errors into such an error before `classify` sees it.  A gateway that answers
`403 AccessDenied` then stops the anchor as a refusal of the runtime would.

`stopsForDispatchOnly_iff` says for each failure, whatever its text and wherever it happened,
whether it is told apart: exactly if the dispatch failed or the text does not quote the runtime.
-/

namespace Robins
namespace Anchor

open BatchStore Cps

set_option linter.dupNamespace false

/-- An error of the connection, as one of the anchor. -/
def AnchorError.ofChain : Chain.ChainError → AnchorError
  | .transient message => .transient message
  | .permanent message => .permanent message

/-- Split failures of the client into retryable and permanent ones. -/
def classify (error : Cps.Error) : AnchorError :=
  match error with
  | .connection _ | .rpc _ | .runtime _ | .transaction _ => .transient error.toText
  | _ => .permanent error.toText

/-- Refuse a payload that the runtime would. -/
def checkPayload (payload : Bytes) : Except Cps.Error Unit :=
  if payload.length > Batcher.maxPayloadSize then
    .error (.payloadTooLarge payload.length Batcher.maxPayloadSize)
  else .ok ()

/-- Write the payload of the node, with a connection that may not be there. -/
def setPayload {Block : Type} (texts : ErrorTexts) (chain : Except Chain.ChainError (Answers Block))
    (payload : Bytes) : Except AnchorError Block :=
  match chain with
  | .error error => .error (.ofChain error)
  | .ok answers =>
    match checkPayload payload with
    | .error error => .error (classify error)
    | .ok () =>
      match submitFinalized texts answers with
      | .error error => .error (classify error)
      | .ok block => .ok block

/-- Only a failed dispatch stops the anchor; after any other failure it tries again. -/
def StopsForDispatchOnly (failure : Failure) (error : AnchorError) : Prop :=
  (error.isTransient = false ↔ failure.Dispatched) ∧
    (¬ failure.Dispatched → ∀ (anchor : Anchor) (batch : StoredBatch) (rest : List StoredBatch)
      (attempt : UInt32), anchor.submissionFailed batch rest attempt error =
        (anchor.retryAfter (.submit batch rest) attempt, []))

section

variable {Block : Type} {texts : ErrorTexts} {answers : Answers Block}

theorem setPayload_ok {payload : Bytes}
    (hpayload : payload.length ≤ Batcher.maxPayloadSize) :
    setPayload texts (.ok answers) payload =
      (submitAnd texts answers .finalized).mapError classify := by
  rw [setPayload, checkPayload, if_neg (by omega)]
  dsimp only
  rw [submitFinalized]
  cases submitAnd texts answers .finalized with
  | error _ | ok _ => rfl

/-- Exactly the errors of delivery are transient. -/
theorem classify_ofTransaction (text : String) :
    (classify (.ofTransaction text)).isTransient = true ↔ ¬ NamesRuntime text := by
  constructor
  · intro htransient hnames
    obtain hdenied | ⟨reason, hreason⟩ := Cps.Error.ofTransaction_of_namesRuntime hnames
    · rw [hdenied] at htransient
      exact Bool.false_ne_true htransient
    · rw [hreason] at htransient
      exact Bool.false_ne_true htransient
  · intro hnames
    rw [Cps.Error.ofTransaction_of_not_namesRuntime hnames]
    rfl

theorem classify_dispatch (text : String) :
    (classify (Failure.dispatch text).error).isTransient = false := by
  show (classify (Cps.Error.outcome (.extrinsicFailed text))).isTransient = false
  unfold Cps.Error.outcome
  by_cases hnames : NamesRuntime text
  · obtain hdenied | ⟨reason, hreason⟩ := Cps.Error.ofTransaction_of_namesRuntime hnames
    · rw [TransactionEventsError.toText, hdenied]
      rfl
    · rw [TransactionEventsError.toText, hreason]
      rfl
  · rw [TransactionEventsError.toText, Cps.Error.ofTransaction_of_not_namesRuntime hnames]
    rfl

/-- **What stops the anchor.**  A failure is turned into an error that stops the anchor for a
failed dispatch only if and only if the dispatch failed or the text does not quote the
runtime. -/
theorem stopsForDispatchOnly_iff {wait : Wait} {failure : Failure}
    (h : Occurs texts answers wait failure) :
    ∃ error, submitAnd texts answers wait = .error error ∧
      (wait = .finalized → ∀ payload : Bytes, payload.length ≤ Batcher.maxPayloadSize →
        setPayload texts (.ok answers) payload = .error (classify error)) ∧
      (StopsForDispatchOnly failure (classify error) ↔
        failure.Dispatched ∨ ¬ NamesRuntime failure.text) := by
  have hreturned := submitAnd_of_occurs h
  refine ⟨failure.error, hreturned, ?_, ?_⟩
  · rintro rfl payload hpayload
    rw [setPayload_ok hpayload, hreturned]
    rfl
  · cases failure with
    | delivery text =>
      simp only [StopsForDispatchOnly, Failure.Dispatched, iff_false, Bool.not_eq_false,
        not_false_iff, true_implies, false_or]
      constructor
      · exact fun hstops => (classify_ofTransaction text).mp hstops.1
      · intro hnames
        have htransient := (classify_ofTransaction text).mpr hnames
        exact ⟨htransient, fun anchor batch rest attempt => if_pos htransient⟩
    | dispatch text =>
      have hpermanent := classify_dispatch text
      exact ⟨fun _ => .inl trivial,
        fun _ => ⟨iff_of_true hpermanent trivial, fun hnot => absurd trivial hnot⟩⟩

end

/-- The texts that the client library gives its errors. -/
def plainTexts : ErrorTexts where
  status
    | .error message => "Error handling transaction: " ++ message
    | .invalid message => "The transaction is not valid: " ++ message
    | .dropped message => "The transaction was dropped: " ++ message
  unexpectedEnd := "The transaction status stream unexpectedly ended"

/-- A transaction that the node drops. -/
def droppedByNode : Answers UInt64 where
  prepare := .ok ()
  submit := .ok ()
  finalized := .error "The transaction was dropped: pool is full"
  statuses := [.ok .broadcasted, .ok (.dropped "pool is full")]
  success _ := .ok ()

theorem stopsForDispatchOnly_droppedByNode :
    ∃ error, submitAnd plainTexts droppedByNode .finalized = .error error ∧
      setPayload plainTexts (.ok droppedByNode) [] = .error (classify error) ∧
      StopsForDispatchOnly (.delivery "The transaction was dropped: pool is full")
        (classify error) := by
  obtain ⟨error, hreturned, htarget, hstops⟩ := stopsForDispatchOnly_iff
    (.unfinalized ⟨rfl, rfl⟩ rfl : Occurs plainTexts droppedByNode .finalized
      (.delivery "The transaction was dropped: pool is full"))
  exact ⟨error, hreturned, htarget rfl [] (by decide), hstops.mpr (.inr (by decide))⟩

/-- A transaction that a gateway in front of the node refuses to pass on. -/
def refusedByGateway : Answers UInt64 where
  prepare := .ok ()
  submit := .error "RPC error: 403 AccessDenied"
  finalized := .error "RPC error: 403 AccessDenied"
  statuses := []
  success _ := .ok ()

/-- The events of a finalized transaction could not be fetched, and the text of the failure
quotes the name of a dispatch error. -/
theorem refusedByGateway_stops :
    Occurs plainTexts refusedByGateway .finalized (.delivery "RPC error: 403 AccessDenied") ∧
      setPayload plainTexts (.ok refusedByGateway) [] = .error (.permanent "access denied") ∧
      ¬ StopsForDispatchOnly (.delivery "RPC error: 403 AccessDenied")
        (.permanent "access denied") := by
  refine ⟨.unsubmitted rfl rfl, by decide, fun hstops => ?_⟩
  exact hstops.1.mp rfl

end Anchor
end Robins
