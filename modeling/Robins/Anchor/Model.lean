import Robins.BatchStore.Redb

/-!
# Transactions of the anchor

The errors of anchoring, the delay between attempts, and the one call that reaches
the chain.
-/

namespace Robins
namespace Anchor

open BatchStore

set_option linter.dupNamespace false

/-- Proof that a transaction was finalized and executed. -/
structure Confirmation where
  extrinsicHash : String
  blockHash : String
  deriving DecidableEq, Repr

inductive AnchorError where
  | transient (reason : String)
  | permanent (reason : String)
  | store (error : StoreError)
  deriving DecidableEq, Repr

/-- The text of an error (its `Display`). -/
def AnchorError.toText : AnchorError → String
  | .transient reason => "transient chain error: " ++ reason
  | .permanent reason => "permanent anchoring error: " ++ reason
  | .store error => error.toText

/-- Whether the operation should be retried. -/
def AnchorError.isTransient : AnchorError → Bool
  | .transient _ | .store _ => true
  | .permanent _ => false

/-- The longest span of time, `Duration::MAX`. -/
def durationMax : Duration := (2 ^ 64 - 1) * 1000 + 999

/-- Exponential back-off between attempts. -/
structure RetryPolicy where
  min : Duration
  max : Duration
  deriving DecidableEq, Repr

/-- The back-off used where none is given. -/
def RetryPolicy.default : RetryPolicy := ⟨Duration.ofSecs 1, Duration.ofSecs 60⟩

/-- Delay before a retry, counted from zero. -/
def RetryPolicy.delay (retry : RetryPolicy) (attempt : UInt32) : Duration :=
  -- at most 16, so that `checked_shl` always succeeds
  let factor := (1 : UInt32) <<< (Min.min attempt 16)
  Min.min (Min.min (retry.min * factor.toNat) durationMax) retry.max

/-- What an anchor is made of, apart from the store and the target. -/
structure Anchor where
  retry : RetryPolicy
  maxPayload : ℕ
  deriving DecidableEq, Repr

/-- The check before a stored batch is submitted: an oversized one is refused. -/
def Anchor.refuse (anchor : Anchor) (batch : StoredBatch) : Option AnchorError :=
  if batch.payload.length > anchor.maxPayload then
    some (.permanent ("batch " ++ toString batch.id ++ " payload is " ++
      toString batch.payload.length ++ " bytes, above the " ++ toString anchor.maxPayload ++
      " byte limit"))
  else none

theorem Anchor.refuse_permanent {anchor : Anchor} {batch : StoredBatch} {error : AnchorError}
    (h : anchor.refuse batch = some error) : error.isTransient = false := by
  unfold Anchor.refuse at h
  split_ifs at h
  obtain rfl := Option.some.inj h
  rfl

end Anchor
end Robins
