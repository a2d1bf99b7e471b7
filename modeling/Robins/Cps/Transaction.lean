import Robins.Basic
import Mathlib.Data.List.Infix

/-!
# Transactions of the chain client

A transaction is prepared and signed, submitted, and followed until a block includes it; the events
of that block say whether it was executed.  What the client library answers at each of these points
is given, `Answers`: of its errors the code reads the text, and of an error about events also
whether the dispatch failed.

## Failures

Each of these steps may fail, and the error that is returned does not always say which did.
`Occurs` says which failure a run meets, without the errors it is turned into: the first one, in
the order of the steps, with the text that the library gives it.  Every run that returns an error
has met exactly one failure (`occurs_of_submitAnd`), and a failure that is met is what the run
returns (`submitAnd_of_occurs`), as the error that `Failure.error` says.

Only that last step looks at texts.  An error that has the name of a runtime error in its text is
taken for a refusal of the runtime, wherever it came from; the others are told apart by where they
happened.  What this means for the anchor is said in `Anchor.Target`.
-/

namespace Robins
namespace Cps

/-! ## Errors -/

/-- Whether a name occurs in a text. -/
def occursIn (name : List Char) : List Char → Bool
  | [] => name.isEmpty
  | c :: rest => name.isPrefixOf (c :: rest) || occursIn name rest

/-- `str::contains`. -/
def contains (text name : String) : Bool := occursIn name.toList text.toList

/-- Reason the runtime rejected an identity operation. -/
inductive IdentityError where
  | alreadyInUse
  | notSet
  | permitRequired
  | permitExpired
  | permitTooLong
  | invalidPermit
  | rootIdentityMustBeCaller
  deriving DecidableEq, Repr

/-- The text of an error (its `Display`). -/
def IdentityError.toText : IdentityError → String
  | .alreadyInUse => "identity is already in use"
  | .notSet => "node has no identity"
  | .permitRequired => "permit required"
  | .permitExpired => "permit expired"
  | .permitTooLong => "permit valid for too long"
  | .invalidPermit => "invalid permit"
  | .rootIdentityMustBeCaller => "root identity must be the signer"

/-- The names of the pallet for these reasons. -/
def IdentityError.names : List (String × IdentityError) :=
  [("IdentityAlreadyInUse", .alreadyInUse),
    ("IdentityNotSet", .notSet),
    ("IdentityPermitRequired", .permitRequired),
    ("IdentityPermitExpired", .permitExpired),
    ("IdentityPermitTooLong", .permitTooLong),
    ("InvalidIdentityPermit", .invalidPermit),
    ("RootIdentityMustBeCaller", .rootIdentityMustBeCaller)]

/-- Recognize the pallet error named in a dispatch error text. -/
def IdentityError.classify (text : String) : Option IdentityError :=
  (names.find? fun entry => contains text entry.1).map Prod.snd

/-- Failure categories of the client. -/
inductive Error where
  | connection (source : String)
  | rpc (source : String)
  | runtime (source : String)
  | transaction (source : String)
  | dispatch (source : String)
  | nodeNotFound (node : UInt64)
  | metaTooLarge (actual max : ℕ)
  | payloadTooLarge (actual max : ℕ)
  | accessDenied
  | scopeAlreadyExists (node : UInt64)
  | identityNotFound (account : String)
  | missingProjectedIdentity
  | identity (reason : IdentityError)
  | crypto (reason : String)
  deriving DecidableEq, Repr

/-- The text of an error (its `Display`). -/
def Error.toText : Error → String
  | .connection source => "connection failed: " ++ source
  | .rpc source => "RPC request failed: " ++ source
  | .runtime source => "runtime query failed: " ++ source
  | .transaction source => "transaction failed: " ++ source
  | .dispatch source => "transaction dispatch failed: " ++ source
  | .nodeNotFound node => "node " ++ toString node.toNat ++ " not found"
  | .metaTooLarge actual max =>
    "metadata is " ++ toString actual ++ " bytes, the maximum is " ++ toString max
  | .payloadTooLarge actual max =>
    "payload is " ++ toString actual ++ " bytes, the maximum is " ++ toString max
  | .accessDenied => "access denied"
  | .scopeAlreadyExists node => "node " ++ toString node.toNat ++ " is already a scope root"
  | .identityNotFound account => "account " ++ account ++ " is not the identity of any node"
  | .missingProjectedIdentity => "a node in the result has no identity"
  | .identity reason => "identity operation rejected: " ++ reason.toText
  | .crypto reason => "crypto error: " ++ reason

/-- Classify a failed transaction, recognizing runtime authorization errors. -/
def Error.ofTransaction (text : String) : Error :=
  if contains text "AccessDenied" || contains text "NotScopeOwner" then .accessDenied
  else
    match IdentityError.classify text with
    | some reason => .identity reason
    | none => .transaction text

/-- An error about the events of a transaction, with its text. -/
inductive TransactionEventsError where
  | extrinsicFailed (text : String)
  | cannotDecodeDispatchError (text : String)
  /-- The block or its events cannot be read. -/
  | other (text : String)
  deriving DecidableEq, Repr

/-- The text of an error (its `Display`). -/
def TransactionEventsError.toText : TransactionEventsError → String
  | .extrinsicFailed text | .cannotDecodeDispatchError text | .other text => text

/-- Whether the extrinsic was executed and its dispatch failed. -/
def TransactionEventsError.dispatched : TransactionEventsError → Bool
  | .extrinsicFailed _ | .cannotDecodeDispatchError _ => true
  | .other _ => false

/-- Classify a failure while waiting for a transaction outcome. -/
def Error.outcome (error : TransactionEventsError) : Error :=
  match Error.ofTransaction error.toText, error.dispatched with
  | .transaction source, true => .dispatch source
  | other, _ => other

/-- The names of the runtime that a text is searched for. -/
def runtimeNames : List String :=
  "AccessDenied" :: "NotScopeOwner" :: IdentityError.names.map Prod.fst

/-- A text that quotes the runtime. -/
def NamesRuntime (text : String) : Prop := ∃ name ∈ runtimeNames, contains text name = true

instance (text : String) : Decidable (NamesRuntime text) :=
  inferInstanceAs (Decidable (∃ _ ∈ _, _))

theorem IdentityError.classify_eq_none_iff {text : String} :
    IdentityError.classify text = none ↔
      ∀ name ∈ IdentityError.names.map Prod.fst, contains text name = false := by
  unfold IdentityError.classify
  rw [Option.map_eq_none_iff, List.find?_eq_none, List.forall_mem_map]
  simp only [Bool.not_eq_true]

/-- A failed transaction stays one unless its text quotes the runtime. -/
theorem Error.ofTransaction_of_not_namesRuntime {text : String} (h : ¬ NamesRuntime text) :
    Error.ofTransaction text = .transaction text := by
  have hnames : ∀ name ∈ runtimeNames, contains text name = false := fun name hname => by
    by_contra hcontains
    exact h ⟨name, hname, by simpa using hcontains⟩
  obtain ⟨haccess, howner, hidentity⟩ := by
    simpa only [runtimeNames, List.forall_mem_cons] using hnames
  rw [Error.ofTransaction, haccess, howner, IdentityError.classify_eq_none_iff.mpr hidentity]
  rfl

/-- A text that quotes the runtime makes it a refusal. -/
theorem Error.ofTransaction_of_namesRuntime {text : String} (h : NamesRuntime text) :
    Error.ofTransaction text = .accessDenied ∨
      ∃ reason, Error.ofTransaction text = .identity reason := by
  unfold Error.ofTransaction
  split
  · exact .inl rfl
  · next hnone =>
    split
    · next reason hreason => exact .inr ⟨reason, rfl⟩
    · next hclassify =>
      obtain ⟨name, hname, hcontains⟩ := h
      have hidentity := IdentityError.classify_eq_none_iff.mp hclassify
      simp only [runtimeNames, List.mem_cons] at hname
      obtain rfl | rfl | hname := hname
      · simp [hcontains] at hnone
      · simp [hcontains] at hnone
      · simp [hidentity name hname] at hcontains

/-- An error about events that is not about the dispatch is like any other failure. -/
theorem Error.outcome_other (text : String) :
    Error.outcome (.other text) = Error.ofTransaction text := by
  unfold Error.outcome
  split
  · next hfalse => exact absurd hfalse (by simp [TransactionEventsError.dispatched])
  · rfl

/-! ## Following a transaction -/

/-- Where a followed transaction is. -/
inductive TransactionStatus (Block : Type) where
  | validated
  | broadcasted
  | noLongerInBestBlock
  | inBestBlock (block : Block)
  | inFinalizedBlock (block : Block)
  | error (message : String)
  | invalid (message : String)
  | dropped (message : String)
  deriving DecidableEq, Repr

/-- What the client library makes of a transaction that will not be included. -/
inductive TransactionStatusError where
  | error (message : String)
  | invalid (message : String)
  | dropped (message : String)
  deriving DecidableEq, Repr

/-- The texts of errors that the code makes itself. -/
structure ErrorTexts where
  status : TransactionStatusError → String
  /-- `UnexpectedEndOfTransactionStatusStream`. -/
  unexpectedEnd : String

/-- What the client library answers about one transaction. -/
structure Answers (Block : Type) where
  /-- The state needed to sign. -/
  prepare : Except String Unit
  submit : Except String Unit
  /-- `wait_for_finalized`. -/
  finalized : Except String Block
  /-- The items of the status stream, until it ends. -/
  statuses : List (Except String (TransactionStatus Block))
  /-- `wait_for_success`: the events of the block. -/
  success : Block → Except TransactionEventsError Unit

variable {Block : Type}

def submit (answers : Answers Block) : Except Error Unit :=
  match answers.prepare with
  | .error text => .error (.ofTransaction text)
  | .ok () =>
    match answers.submit with
    | .error text => .error (.ofTransaction text)
    | .ok () => .ok ()

/-- The block of a transaction included in it, once its events report success. -/
def receipt (answers : Answers Block) (block : Block) : Except Error Block :=
  match answers.success block with
  | .error error => .error (.outcome error)
  | .ok () => .ok block

/-- Wait until the transaction is finalized and successfully executed. -/
def waitFinalized (answers : Answers Block) : Except Error Block :=
  match answers.finalized with
  | .error text => .error (.ofTransaction text)
  | .ok block => receipt answers block

/-- The loop over the statuses, up to a block. -/
def untilBlock (texts : ErrorTexts) :
    List (Except String (TransactionStatus Block)) → Except Error Block
  | [] => .error (.ofTransaction texts.unexpectedEnd)
  | .error text :: _ => .error (.ofTransaction text)
  | .ok (.inBestBlock block) :: _ | .ok (.inFinalizedBlock block) :: _ => .ok block
  | .ok (.error message) :: _ => .error (.ofTransaction (texts.status (.error message)))
  | .ok (.invalid message) :: _ => .error (.ofTransaction (texts.status (.invalid message)))
  | .ok (.dropped message) :: _ => .error (.ofTransaction (texts.status (.dropped message)))
  | .ok .validated :: rest | .ok .broadcasted :: rest | .ok .noLongerInBestBlock :: rest =>
    untilBlock texts rest

/-- Wait until the transaction is in a best block and successfully executed. -/
def waitInBlock (texts : ErrorTexts) (answers : Answers Block) : Except Error Block :=
  match untilBlock texts answers.statuses with
  | .error error => .error error
  | .ok block => receipt answers block

/-- What is waited for. -/
inductive Wait where
  | finalized
  | inBlock
  deriving DecidableEq, Repr

/-- Wait for a submitted transaction. -/
def follow (texts : ErrorTexts) (answers : Answers Block) : Wait → Except Error Block
  | .finalized => waitFinalized answers
  | .inBlock => waitInBlock texts answers

def submitAnd (texts : ErrorTexts) (answers : Answers Block) (wait : Wait) : Except Error Block :=
  match submit answers with
  | .error error => .error error
  | .ok () => follow texts answers wait

/-- Sign, submit and wait until finalized and successfully executed. -/
def submitFinalized (texts : ErrorTexts) (answers : Answers Block) : Except Error Block :=
  submitAnd texts answers .finalized

/-! ## Failures -/

/-- How a transaction fails, with the text that is reported. -/
inductive Failure where
  /-- Nothing is known to have been executed. -/
  | delivery (text : String)
  /-- The extrinsic was executed and its dispatch failed. -/
  | dispatch (text : String)
  deriving DecidableEq, Repr

def Failure.text : Failure → String
  | .delivery text | .dispatch text => text

/-- The runtime executed the extrinsic. -/
def Failure.Dispatched : Failure → Prop
  | .delivery _ => False
  | .dispatch _ => True

instance (failure : Failure) : Decidable failure.Dispatched :=
  match failure with
  | .delivery _ => isFalse id
  | .dispatch _ => isTrue trivial

def TransactionStatus.Passing : TransactionStatus Block → Prop
  | .validated | .broadcasted | .noLongerInBestBlock => True
  | _ => False

/-- How the status stream ends the wait, if no block does. -/
inductive StreamFails (texts : ErrorTexts) :
    List (Except String (TransactionStatus Block)) → String → Prop
  | ended : StreamFails texts [] texts.unexpectedEnd
  | item {text rest} : StreamFails texts (.error text :: rest) text
  | error {message rest} :
    StreamFails texts (.ok (.error message) :: rest) (texts.status (.error message))
  | invalid {message rest} :
    StreamFails texts (.ok (.invalid message) :: rest) (texts.status (.invalid message))
  | dropped {message rest} :
    StreamFails texts (.ok (.dropped message) :: rest) (texts.status (.dropped message))
  | pass {status rest text} (hpass : status.Passing) (h : StreamFails texts rest text) :
    StreamFails texts (.ok status :: rest) text

/-- The block that the status stream names. -/
inductive StreamIncludes : List (Except String (TransactionStatus Block)) → Block → Prop
  | best {block rest} : StreamIncludes (.ok (.inBestBlock block) :: rest) block
  | finalized {block rest} : StreamIncludes (.ok (.inFinalizedBlock block) :: rest) block
  | pass {status rest block} (hpass : status.Passing) (h : StreamIncludes rest block) :
    StreamIncludes (.ok status :: rest) block

/-- The transaction was signed and submitted. -/
def Submitted (answers : Answers Block) : Prop :=
  answers.prepare = .ok () ∧ answers.submit = .ok ()

/-- The wait ends with this block. -/
def Included (answers : Answers Block) : Wait → Block → Prop
  | .finalized, block => answers.finalized = .ok block
  | .inBlock, block => StreamIncludes answers.statuses block

/-- The failure that a run meets. -/
inductive Occurs (texts : ErrorTexts) (answers : Answers Block) : Wait → Failure → Prop
  | unprepared {wait text} (h : answers.prepare = .error text) :
    Occurs texts answers wait (.delivery text)
  | unsubmitted {wait text} (hprepare : answers.prepare = .ok ())
    (h : answers.submit = .error text) : Occurs texts answers wait (.delivery text)
  | unfinalized {text} (hsubmitted : Submitted answers) (h : answers.finalized = .error text) :
    Occurs texts answers .finalized (.delivery text)
  | stream {text} (hsubmitted : Submitted answers) (h : StreamFails texts answers.statuses text) :
    Occurs texts answers .inBlock (.delivery text)
  | events {wait block text} (hsubmitted : Submitted answers)
    (hincluded : Included answers wait block) (h : answers.success block = .error (.other text)) :
    Occurs texts answers wait (.delivery text)
  | extrinsicFailed {wait block text} (hsubmitted : Submitted answers)
    (hincluded : Included answers wait block)
    (h : answers.success block = .error (.extrinsicFailed text)) :
    Occurs texts answers wait (.dispatch text)
  | cannotDecodeDispatchError {wait block text} (hsubmitted : Submitted answers)
    (hincluded : Included answers wait block)
    (h : answers.success block = .error (.cannotDecodeDispatchError text)) :
    Occurs texts answers wait (.dispatch text)

def Failure.error : Failure → Error
  | .delivery text => .ofTransaction text
  | .dispatch text => .outcome (.extrinsicFailed text)

section

variable {texts : ErrorTexts} {answers : Answers Block}

theorem untilBlock_pass {status : TransactionStatus Block} (hpass : status.Passing)
    (rest : List (Except String (TransactionStatus Block))) :
    untilBlock texts (.ok status :: rest) = untilBlock texts rest := by
  cases status with
  | validated | broadcasted | noLongerInBestBlock => rfl
  | inBestBlock _ | inFinalizedBlock _ | error _ | invalid _ | dropped _ => exact hpass.elim

theorem untilBlock_of_streamFails {statuses : List (Except String (TransactionStatus Block))}
    {text : String} (h : StreamFails texts statuses text) :
    untilBlock texts statuses = .error (.ofTransaction text) := by
  induction h with
  | ended | item | error | invalid | dropped => rfl
  | pass hpass _ ih => rw [untilBlock_pass hpass, ih]

theorem untilBlock_of_streamIncludes {statuses : List (Except String (TransactionStatus Block))}
    {block : Block} (h : StreamIncludes statuses block) :
    untilBlock texts statuses = .ok block := by
  induction h with
  | best | finalized => rfl
  | pass hpass _ ih => rw [untilBlock_pass hpass, ih]

/-- Every stream of statuses names a block or fails. -/
theorem streamFails_or_streamIncludes (texts : ErrorTexts)
    (statuses : List (Except String (TransactionStatus Block))) :
    (∃ text, StreamFails texts statuses text) ∨ ∃ block, StreamIncludes statuses block := by
  induction statuses with
  | nil => exact .inl ⟨_, .ended⟩
  | cons item rest ih =>
    have hpass : ∀ {status : TransactionStatus Block}, status.Passing →
        (∃ text, StreamFails texts (.ok status :: rest) text) ∨
          ∃ block, StreamIncludes (.ok status :: rest) block := fun hpass => by
      obtain ⟨text, h⟩ | ⟨block, h⟩ := ih
      · exact .inl ⟨text, .pass hpass h⟩
      · exact .inr ⟨block, .pass hpass h⟩
    cases item with
    | error text => exact .inl ⟨text, .item⟩
    | ok status =>
      cases status with
      | validated | broadcasted | noLongerInBestBlock => exact hpass trivial
      | inBestBlock block => exact .inr ⟨block, .best⟩
      | inFinalizedBlock block => exact .inr ⟨block, .finalized⟩
      | error message => exact .inl ⟨_, .error⟩
      | invalid message => exact .inl ⟨_, .invalid⟩
      | dropped message => exact .inl ⟨_, .dropped⟩

theorem submitAnd_of_submitted {wait : Wait} (h : Submitted answers) :
    submitAnd texts answers wait = follow texts answers wait := by
  rw [submitAnd, submit, h.1, h.2]

theorem submitAnd_of_included {wait : Wait} {block : Block} (hsubmitted : Submitted answers)
    (hincluded : Included answers wait block) :
    submitAnd texts answers wait = receipt answers block := by
  rw [submitAnd_of_submitted hsubmitted]
  cases wait with
  | finalized => rw [follow, waitFinalized, show answers.finalized = .ok block from hincluded]
  | inBlock => rw [follow, waitInBlock, untilBlock_of_streamIncludes hincluded]

/-- **A failure that a run meets is what the run returns.** -/
theorem submitAnd_of_occurs {wait : Wait} {failure : Failure}
    (h : Occurs texts answers wait failure) :
    submitAnd texts answers wait = .error failure.error := by
  cases h with
  | unprepared h => rw [submitAnd, submit, h]; rfl
  | unsubmitted hprepare h => rw [submitAnd, submit, hprepare, h]; rfl
  | unfinalized hsubmitted h =>
    rw [submitAnd_of_submitted hsubmitted, follow, waitFinalized, h]
    rfl
  | stream hsubmitted h =>
    rw [submitAnd_of_submitted hsubmitted, follow, waitInBlock, untilBlock_of_streamFails h]
    rfl
  | events hsubmitted hincluded h =>
    rw [submitAnd_of_included hsubmitted hincluded, receipt, h]
    exact congrArg Except.error (Error.outcome_other _)
  | extrinsicFailed hsubmitted hincluded h =>
    rw [submitAnd_of_included hsubmitted hincluded, receipt, h]
    rfl
  | cannotDecodeDispatchError hsubmitted hincluded h =>
    rw [submitAnd_of_included hsubmitted hincluded, receipt, h]
    rfl

/-- **A run that returns an error has met a failure.** -/
theorem occurs_of_submitAnd {wait : Wait} {error : Error}
    (h : submitAnd texts answers wait = .error error) :
    ∃ failure, Occurs texts answers wait failure := by
  cases hprepare : answers.prepare with
  | error text => exact ⟨_, .unprepared hprepare⟩
  | ok _ =>
    cases hsubmit : answers.submit with
    | error text => exact ⟨_, .unsubmitted hprepare hsubmit⟩
    | ok _ =>
      have hsubmitted : Submitted answers := ⟨hprepare, hsubmit⟩
      have hblock : ∀ {block : Block}, Included answers wait block →
          ∃ failure, Occurs texts answers wait failure := fun {block} hincluded => by
        rw [submitAnd_of_included hsubmitted hincluded, receipt] at h
        cases hsuccess : answers.success block with
        | ok _ => simp [hsuccess] at h
        | error events =>
          cases events with
          | extrinsicFailed text => exact ⟨_, .extrinsicFailed hsubmitted hincluded hsuccess⟩
          | cannotDecodeDispatchError text =>
            exact ⟨_, .cannotDecodeDispatchError hsubmitted hincluded hsuccess⟩
          | other text => exact ⟨_, .events hsubmitted hincluded hsuccess⟩
      cases wait with
      | finalized =>
        cases hfinalized : answers.finalized with
        | error text => exact ⟨_, .unfinalized hsubmitted hfinalized⟩
        | ok block => exact hblock hfinalized
      | inBlock =>
        obtain ⟨text, hfails⟩ | ⟨block, hincludes⟩ :=
          streamFails_or_streamIncludes texts answers.statuses
        · exact ⟨_, .stream hsubmitted hfails⟩
        · exact hblock hincludes

end

end Cps
end Robins
