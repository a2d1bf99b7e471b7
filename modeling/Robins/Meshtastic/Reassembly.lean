import Robins.Meshtastic.Frame
import Mathlib.Data.List.AList

/-!
# Fragment reassembly

The receiver keeps one assembly for each sender and message id, and a count of assemblies for each
sender.  A fragment starts an assembly, advances it, repeats what it already has, or ends it --- by
completing it, by contradicting it, or by exceeding a limit.  Assemblies also end when they expire
and when the session is lost.

Two fragments of one key contradict each other when they disagree about the number of fragments, or
when they have the same position and different bodies.  The whole assembly is given up then, as
there is no telling which of them is right; and a payload whose digest does not begin with the
message id it was sent under is given up as well.

Indexing the fragments of an assembly out of bounds is a panic, and `accept` returns `none` for it.
The branches of `complete` for an assembly that is gone or still has an empty slot are kept as the
code has them.
-/

namespace Robins
namespace Meshtastic

/-- Limits of the reassembler. -/
structure ReassemblerConfig where
  maxReassembledBytes : ℕ
  maxFragments : ℕ
  maxPending : ℕ
  maxPendingPerSender : ℕ
  idleTimeout : ℕ
  absoluteTimeout : ℕ
  deriving DecidableEq, Repr

/-- Why a fragment, or the payload it completes, is rejected. -/
inductive RejectReason where
  | tooManyFragments
  | pendingLimitGlobal
  | pendingLimitPerSender
  | oversize
  | messageIdMismatch
  deriving DecidableEq, Repr

/-- What became of a fragment. -/
inductive Outcome where
  | progress
  | complete (payload : Bytes)
  | duplicateIgnored
  | conflict
  | rejected (reason : RejectReason)
  deriving DecidableEq, Repr

/-- What an assembly is filed under. -/
structure Key where
  sender : UInt32
  messageId : MessageId
  deriving DecidableEq

structure Assembly where
  count : UInt8
  fragments : List (Option Bytes)
  received : ℕ
  totalBytes : ℕ
  createdAt : Instant
  lastProgress : Instant
  deriving DecidableEq, Repr

structure Reassembler where
  config : ReassemblerConfig
  assemblies : AList fun _ : Key => Assembly
  pendingPerSender : AList fun _ : UInt32 => ℕ

def Reassembler.new (config : ReassemblerConfig) : Reassembler := ⟨config, ∅, ∅⟩

def Reassembler.pendingLen (r : Reassembler) : ℕ := r.assemblies.keys.length

/-- One assembly less for a sender; the entry goes when none is left. -/
def release (pendingPerSender : AList fun _ : UInt32 => ℕ) (sender : UInt32) :
    AList fun _ : UInt32 => ℕ :=
  match pendingPerSender.lookup sender with
  | none => pendingPerSender
  | some count =>
    if count - 1 = 0 then pendingPerSender.erase sender
    else pendingPerSender.insert sender (count - 1)

/-- Remove an assembly and release its place. -/
def discard (r : Reassembler) (key : Key) : Reassembler :=
  match r.assemblies.lookup key with
  | none => r
  | some _ =>
    { r with
      assemblies := r.assemblies.erase key
      pendingPerSender := release r.pendingPerSender key.sender }

/-- The concatenation of the fragments, if no slot is empty. -/
def joinFragments : List (Option Bytes) → Option Bytes
  | [] => some []
  | none :: _ => none
  | some bytes :: rest => (joinFragments rest).map fun buf => bytes ++ buf

section

variable (sha256 : Sha256)

/-- Concatenate an assembly, check its message id, and remove it. -/
def complete (r : Reassembler) (key : Key) : Outcome × Reassembler :=
  match r.assemblies.lookup key with
  | none => (.conflict, r)
  | some assembly =>
    match joinFragments assembly.fragments with
    | none => (.conflict, discard r key)
    | some buf =>
      if messageId sha256 buf ≠ key.messageId then (.rejected .messageIdMismatch, discard r key)
      else (.complete buf, discard r key)

/-- Feed one parsed fragment; `none` is an index out of bounds. -/
def accept (r : Reassembler) (now : Instant) (meshSender : UInt32) (frame : FragmentFrame) :
    Option (Outcome × Reassembler) :=
  let key : Key := ⟨meshSender, frame.messageId⟩
  match r.assemblies.lookup key with
  | some assembly =>
    if assembly.count ≠ frame.count then some (.conflict, discard r key)
    else
      match assembly.fragments[frame.index.toNat]? with
      | none => none
      | some (some existing) =>
        if existing = frame.body then some (.duplicateIgnored, r)
        else some (.conflict, discard r key)
      | some none =>
        if assembly.totalBytes + frame.body.length > r.config.maxReassembledBytes then
          some (.rejected .oversize, discard r key)
        else
          let advanced : Assembly := { assembly with
            totalBytes := assembly.totalBytes + frame.body.length
            fragments := assembly.fragments.set frame.index.toNat (some frame.body)
            received := assembly.received + 1
            lastProgress := now }
          let r := { r with assemblies := r.assemblies.insert key advanced }
          if advanced.received = advanced.count.toNat then some (complete sha256 r key)
          else some (.progress, r)
  | none =>
    if frame.count.toNat > r.config.maxFragments then
      some (.rejected .tooManyFragments, r)
    else if r.assemblies.keys.length ≥ r.config.maxPending then
      some (.rejected .pendingLimitGlobal, r)
    else
      let senderPending := (r.pendingPerSender.lookup meshSender).getD 0
      if senderPending ≥ r.config.maxPendingPerSender then
        some (.rejected .pendingLimitPerSender, r)
      else if frame.body.length > r.config.maxReassembledBytes then
        some (.rejected .oversize, r)
      else
        let fragments : List (Option Bytes) := List.replicate frame.count.toNat none
        if frame.index.toNat < fragments.length then
          let begun : Assembly := {
            count := frame.count
            fragments := fragments.set frame.index.toNat (some frame.body)
            received := 1
            totalBytes := frame.body.length
            createdAt := now
            lastProgress := now }
          let r := { r with
            assemblies := r.assemblies.insert key begun
            pendingPerSender := r.pendingPerSender.insert meshSender (senderPending + 1) }
          if frame.count = 1 then some (complete sha256 r key) else some (.progress, r)
        else none

end

/-- An assembly whose idle or absolute lifetime is over. -/
def expired (config : ReassemblerConfig) (now : Instant) (assembly : Assembly) : Bool :=
  now - assembly.lastProgress ≥ config.idleTimeout ∨
    now - assembly.createdAt ≥ config.absoluteTimeout

/-- The keys of the expired assemblies.  The code collects them in the arbitrary
order of its map; they are discarded one by one, and distinct keys in any order
give the same result. -/
def expiredKeys (r : Reassembler) (now : Instant) : List Key :=
  (r.assemblies.entries.filter fun entry => expired r.config now entry.2).map Sigma.fst

/-- Discard the expired assemblies; returns how many there were. -/
def sweepExpired (r : Reassembler) (now : Instant) : ℕ × Reassembler :=
  let keys := expiredKeys r now
  (keys.length, keys.foldl discard r)

/-- Forget everything. -/
def clear (r : Reassembler) : Reassembler := { r with assemblies := ∅, pendingPerSender := ∅ }

end Meshtastic
end Robins
