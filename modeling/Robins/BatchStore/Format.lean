import Robins.BatchStore.Redb
import Robins.Lib.Utf8

/-!
# The recorded payload format

The metadata table holds the payload format under four keys, as text.  A daemon compares it with
its configuration before it starts to batch: the recorded format is replaced only while no ready
batch depends on it.

`reconcileFormat` reads the descriptor, looks whether there are ready batches, and writes the new
descriptor.  The three operations of the store that it calls may fail; which of them do, and how,
is an argument.  `Reconciled` says all that can come of it, whatever fails: the tables stay as
they are, with an error or because they already have the configured format, or the configured
format is recorded where no ready batch needs another one.

The version is stored as text too, and read back by a parser of decimal numbers that also takes a
plus sign; `formatDescriptor_setFormatDescriptor` is the round trip.  The last section says that
the transactions of the two queues leave the format alone, so that over a run the recorded format
is changed by reconciling only.
-/

namespace Robins
namespace BatchStore

/-! ## Numbers as text -/

/-- Digits without the plus sign that may stand before them. -/
def withoutPlus : List Char → List Char
  | '+' :: digits => digits
  | digits => digits

/-- `str::parse::<u32>`: decimal digits, after an optional plus sign. -/
def parseU32 (text : String) : Option UInt32 :=
  let digits := withoutPlus text.toList
  if digits ≠ [] ∧ digits.all Char.isDigit ∧ Nat.ofDigitChars 10 digits 0 < 2 ^ 32 then
    some (UInt32.ofNat (Nat.ofDigitChars 10 digits 0))
  else none

@[simp] theorem parseU32_repr (n : UInt32) : parseU32 n.toNat.repr = some n := by
  have hdigit : ∀ c ∈ Nat.toDigits 10 n.toNat, c.isDigit = true := fun c hc =>
    Nat.isDigit_of_mem_toDigits (by decide) (by decide) hc
  have hplus : withoutPlus (Nat.toDigits 10 n.toNat) = Nat.toDigits 10 n.toNat := by
    unfold withoutPlus
    split
    · next digits heq =>
      have hsign := hdigit '+' (by rw [heq]; exact List.mem_cons_self)
      exact absurd hsign (by decide)
    · rfl
  have hvalue : Nat.ofDigitChars 10 (Nat.toDigits 10 n.toNat) 0 = n.toNat :=
    Nat.ofDigitChars_ten_toDigits
  have hall : (Nat.toDigits 10 n.toNat).all Char.isDigit = true := List.all_eq_true.mpr hdigit
  rw [parseU32, Nat.toList_repr, hplus, hvalue, if_pos ⟨Nat.toDigits_ne_nil, hall, n.toNat_lt⟩,
    UInt32.ofNat_toNat]

/-! ## Reading and writing the descriptor -/

/-- The text under a key of the metadata. -/
def readText (metadata : Metadata) (key : MetaKey) : Except StoreError (Option String) :=
  match metadata key with
  | none => .ok none
  | some value =>
    match Utf8.decode value with
    | some text => .ok (some text)
    | none => .error (.corrupt ("metadata key " ++ key.asStr ++ " is not UTF-8"))

/-- The payload format the stored batches were prepared with, if recorded. -/
def formatDescriptor (t : Tables) : Except StoreError (Option FormatDescriptor) := do
  let schema ← readText t.storeMetadata .payloadSchema
  let version ← readText t.storeMetadata .payloadSchemaVersion
  let encoding ← readText t.storeMetadata .payloadEncoding
  let compression ← readText t.storeMetadata .payloadCompression
  match schema, version, encoding, compression with
  | some schema, some version, some encoding, some compression =>
    match parseU32 version with
    | some schemaVersion => .ok (some ⟨schema, schemaVersion, encoding, compression⟩)
    | none => .error (.corrupt
        ("invalid " ++ MetaKey.payloadSchemaVersion.asStr ++ ": " ++ version))
  | _, _, _, _ => .ok none

/-- The text a descriptor has under each key. -/
def FormatDescriptor.text (d : FormatDescriptor) : MetaKey → Option String
  | .payloadSchema => some d.schema
  | .payloadSchemaVersion => some (toString d.schemaVersion.toNat)
  | .payloadEncoding => some d.encoding
  | .payloadCompression => some d.compression
  | .nextSequence | .nextBatchId => none

/-- Record the payload format used for newly prepared batches. -/
def setFormatDescriptor (t : Tables) (d : FormatDescriptor) : Tables :=
  { t with storeMetadata := fun key =>
      match d.text key with
      | some text => some (Utf8.encode text)
      | none => t.storeMetadata key }

/-- Only the four keys of the format matter to the descriptor. -/
theorem formatDescriptor_congr {t t' : Tables}
    (h : ∀ key, key ≠ .nextSequence → key ≠ .nextBatchId →
      t'.storeMetadata key = t.storeMetadata key) :
    formatDescriptor t' = formatDescriptor t := by
  simp only [formatDescriptor, readText, h _ (by decide : MetaKey.payloadSchema ≠ _)
    (by decide), h _ (by decide : MetaKey.payloadSchemaVersion ≠ _) (by decide),
    h _ (by decide : MetaKey.payloadEncoding ≠ _) (by decide),
    h _ (by decide : MetaKey.payloadCompression ≠ _) (by decide)]

/-- **What was recorded is read back.** -/
@[simp] theorem formatDescriptor_setFormatDescriptor (t : Tables) (d : FormatDescriptor) :
    formatDescriptor (setFormatDescriptor t d) = .ok (some d) := by
  simp [formatDescriptor, setFormatDescriptor, readText, FormatDescriptor.text, bind, Except.bind]

/-! ## Reconciling -/

/-- What reconciling did. -/
inductive FormatOutcome where
  | unchanged
  /-- No descriptor was recorded yet. -/
  | recorded
  /-- No ready batch needed the previous format. -/
  | updated (previous : FormatDescriptor)
  deriving DecidableEq, Repr

/-- A payload-format change that cannot be applied safely. -/
inductive FormatError where
  | incompatible (stored configured : FormatDescriptor) (readyBatches : ℕ)
  | store (error : StoreError)
  deriving DecidableEq, Repr

/-- The operations of the store that reconciling calls. -/
inductive StoreCall where
  | formatDescriptor
  | counts
  | setFormatDescriptor
  deriving DecidableEq, Repr

section

variable (faults : StoreCall → Option StoreError) (t : Tables) (configured : FormatDescriptor)

/-- Record the configured descriptor, unless the store fails. -/
def recordFormat (outcome : FormatOutcome) : Except FormatError FormatOutcome × Tables :=
  match faults .setFormatDescriptor with
  | some error => (.error (.store error), t)
  | none => (.ok outcome, setFormatDescriptor t configured)

/-- Compare the configured payload format with the recorded one. -/
def reconcileFormat : Except FormatError FormatOutcome × Tables :=
  match faults .formatDescriptor with
  | some error => (.error (.store error), t)
  | none =>
    match formatDescriptor t with
    | .error error => (.error (.store error), t)
    | .ok none => recordFormat faults t configured .recorded
    | .ok (some stored) =>
      if stored = configured then (.ok .unchanged, t)
      else
        match faults .counts with
        | some error => (.error (.store error), t)
        | none =>
          if 0 < (counts t).readyBatches then
            (.error (.incompatible stored configured (counts t).readyBatches), t)
          else recordFormat faults t configured (.updated stored)

end

variable {faults : StoreCall → Option StoreError} {t t' : Tables} {configured : FormatDescriptor}

/-- What reconciling can do to the tables: leave them as they are, with an error or because
they already have the configured format, or record it where no ready batch needs another. -/
inductive Reconciled (t : Tables) (configured : FormatDescriptor) :
    Except FormatError FormatOutcome → Tables → Prop
  | failed (error : FormatError) : Reconciled t configured (.error error) t
  | unchanged (h : formatDescriptor t = .ok (some configured)) :
    Reconciled t configured (.ok .unchanged) t
  | recorded (h : formatDescriptor t = .ok none) :
    Reconciled t configured (.ok .recorded) (setFormatDescriptor t configured)
  | updated {previous : FormatDescriptor} (h : t.readyBatches.entries = []) :
    Reconciled t configured (.ok (.updated previous)) (setFormatDescriptor t configured)

/-- **Reconciling does one of these**, whichever of the calls of the store fail. -/
theorem reconciled_of_reconcileFormat {result : Except FormatError FormatOutcome}
    (h : reconcileFormat faults t configured = (result, t')) :
    Reconciled t configured result t' := by
  have hrecord : ∀ {outcome : FormatOutcome},
      Reconciled t configured (.ok outcome) (setFormatDescriptor t configured) →
      recordFormat faults t configured outcome = (result, t') →
      Reconciled t configured result t' := by
    intro outcome hok hset
    unfold recordFormat at hset
    split at hset
    · obtain ⟨rfl, rfl⟩ := Prod.mk.inj hset
      exact .failed _
    · obtain ⟨rfl, rfl⟩ := Prod.mk.inj hset
      exact hok
  unfold reconcileFormat at h
  split at h
  · obtain ⟨rfl, rfl⟩ := Prod.mk.inj h
    exact .failed _
  split at h
  · obtain ⟨rfl, rfl⟩ := Prod.mk.inj h
    exact .failed _
  · next hnone => exact hrecord (.recorded hnone) h
  · next stored hstored =>
    by_cases hsame : stored = configured
    · rw [if_pos hsame] at h
      obtain ⟨rfl, rfl⟩ := Prod.mk.inj h
      exact .unchanged (hsame ▸ hstored)
    · rw [if_neg hsame] at h
      split at h
      · obtain ⟨rfl, rfl⟩ := Prod.mk.inj h
        exact .failed _
      · split_ifs at h with hready
        · obtain ⟨rfl, rfl⟩ := Prod.mk.inj h
          exact .failed _
        · refine hrecord (.updated (List.length_eq_zero_iff.mp ?_)) h
          exact Nat.eq_zero_of_not_pos hready

/-! ## Transactions and the format

The transactions of the two queues write no key of the format, and a batch in the table
after a commit was there before or is one of those committed. -/

theorem nextCounter_other {metadata metadata' : Metadata} {key other : MetaKey} {n : ℕ}
    (h : nextCounter metadata key = .ok (n, metadata')) (hne : other ≠ key) :
    metadata' other = metadata other := by
  unfold nextCounter at h
  split at h
  · split_ifs at h
    obtain ⟨-, rfl⟩ := Prod.mk.inj (Except.ok.inj h)
    exact Function.update_of_ne hne _ _
  · obtain ⟨-, rfl⟩ := Prod.mk.inj (Except.ok.inj h)
    exact Function.update_of_ne hne _ _

theorem formatDescriptor_pushMessage {receivedAt : Timestamp} {envelope : Bytes}
    {sequence : MessageId} (h : pushMessage t receivedAt envelope = .ok (sequence, t')) :
    formatDescriptor t' = formatDescriptor t ∧ t'.readyBatches = t.readyBatches := by
  unfold pushMessage at h
  split at h
  · exact absurd h (by simp)
  · next sequence' metadata hcounter =>
    obtain ⟨-, rfl⟩ := Prod.mk.inj (Except.ok.inj h)
    exact ⟨formatDescriptor_congr fun key hkey _ => nextCounter_other hcounter hkey, rfl⟩

/-- What inserting batches does to the two tables it writes. -/
theorem insertBatches_other {createdAt : Timestamp} {prepared : List PreparedBatch}
    {metadata metadata' : Metadata} {ready ready' : OrderedTable ℕ Bytes} {ids : List BatchId}
    (h : insertBatches createdAt metadata ready prepared = .ok (ids, metadata', ready')) :
    (∀ key, key ≠ .nextBatchId → metadata' key = metadata key) ∧
      ∀ entry ∈ ready'.entries, entry ∈ ready.entries ∨
        ∃ p ∈ ids.zip prepared, entry = (p.1, encodeBatch createdAt p.2) := by
  induction prepared generalizing metadata ready ids with
  | nil =>
    obtain ⟨rfl, hrest⟩ := Prod.mk.inj (Except.ok.inj h)
    obtain ⟨rfl, rfl⟩ := Prod.mk.inj hrest
    exact ⟨fun _ _ => rfl, fun _ hentry => .inl hentry⟩
  | cons batch prepared ih =>
    rw [insertBatches] at h
    split at h
    · exact absurd h (by simp)
    · next id metadata₁ hcounter =>
      split at h
      · exact absurd h (by simp)
      · next ids' rest hrest =>
        obtain ⟨rfl, rfl⟩ := Prod.mk.inj (Except.ok.inj h)
        obtain ⟨hkeys, hentries⟩ := ih hrest
        refine ⟨fun key hkey => ?_, fun entry hentry => ?_⟩
        · rw [hkeys key hkey, nextCounter_other hcounter hkey]
        · rw [List.zip_cons_cons]
          rcases hentries entry hentry with hold | ⟨p, hp, heq⟩
          · rcases OrderedTable.mem_of_mem_insert hold with heq | hold
            · exact .inr ⟨(id, batch), List.mem_cons_self, heq⟩
            · exact .inl hold
          · exact .inr ⟨p, List.mem_cons_of_mem _ hp, heq⟩

/-- What a commit leaves of the format, and what it adds to the ready batches. -/
theorem formatDescriptor_commitBatches {createdAt : Timestamp} {consumed : List MessageId}
    {prepared : List PreparedBatch} {ids : List BatchId}
    (h : commitBatches t createdAt consumed prepared = .ok (ids, t')) :
    formatDescriptor t' = formatDescriptor t ∧
      ∀ entry ∈ t'.readyBatches.entries, entry ∈ t.readyBatches.entries ∨
        ∃ p ∈ ids.zip prepared, entry = (p.1, encodeBatch createdAt p.2) := by
  unfold commitBatches at h
  split at h
  · exact absurd h (by simp)
  · split at h
    · exact absurd h (by simp)
    · next ids' metadata ready hinsert =>
      obtain ⟨rfl, rfl⟩ := Prod.mk.inj (Except.ok.inj h)
      obtain ⟨hkeys, hentries⟩ := insertBatches_other hinsert
      exact ⟨formatDescriptor_congr fun key _ hkey => hkeys key hkey, hentries⟩

end BatchStore
end Robins
