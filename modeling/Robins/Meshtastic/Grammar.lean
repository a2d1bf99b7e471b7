import Robins.Meshtastic.Frame

/-!
# The grammar of frames

What `parseFrame` accepts, as a set of byte strings: a single frame is its control byte and a body;
a fragment is its control byte, six bytes of a message id, a descriptor made of two nibbles, and a
body that only the last fragment may have short.

The parser accepts exactly these.  Nothing is lost in parsing, so the bytes can be built again from
the fields (`rebuild_of_parseFrame`), and two different byte strings never parse to the same frame.
A control byte says version and type at once, and of the 256 values two are parsed further
(`control_cases`); the others are refused for their version or else for their type.

Nor does the parser ever panic: `parseFrameChecked` takes every slice, index, sum and difference of
the code as one that may be out of bounds, and none is (`parseFrameChecked_eq`).  The
slices are within the length that was tested before; the count is a nibble and one more, so the sum
does not overflow and one can be taken off again.
-/

namespace Robins
namespace Meshtastic

/-! ## The grammar -/

/-- A single frame: `0x01` and a body of 1 to 218 bytes. -/
def IsSingle (s : Bytes) : Prop :=
  ∃ body : Bytes, s = 0x01 :: body ∧ 1 ≤ body.length ∧ body.length ≤ 218

/-- A fragment: `0x41`, six bytes, a descriptor with the count less one and the index, and a
body of 1 to 211 bytes, which is full unless the fragment is the last. -/
def IsFragment (s : Bytes) : Prop :=
  ∃ (id : Bytes) (descriptor : UInt8) (body : Bytes) (c i : ℕ),
    s = 0x41 :: (id ++ descriptor :: body) ∧ id.length = 6 ∧
    descriptor.toNat / 16 = c - 1 ∧ descriptor.toNat % 16 = i ∧
    2 ≤ c ∧ c ≤ 16 ∧ i < c ∧
    1 ≤ body.length ∧ body.length ≤ 211 ∧ (i < c - 1 → body.length = 211)

/-- The bytes a frame is written as. -/
def Frame.rebuild : Frame → Bytes
  | .single body => singleControl :: body
  | .fragment f => encodeFragment f.messageId f.count f.index.toNat f.body

/-! ## Bytes, by cases -/

/-- The version and the type in a control byte leave two that are parsed further. -/
theorem control_cases (control : UInt8) :
    ((control &&& 0x3f = transportVersion ∧ control >>> 6 = 0b00) ↔ control = singleControl) ∧
    ((control &&& 0x3f = transportVersion ∧ control >>> 6 = 0b01) ↔
      control = fragmentControl) := by
  have hall : ∀ n : Fin 256,
      ((UInt8.ofNat n &&& 0x3f = transportVersion ∧ UInt8.ofNat n >>> 6 = 0b00) ↔
        UInt8.ofNat n = singleControl) ∧
      ((UInt8.ofNat n &&& 0x3f = transportVersion ∧ UInt8.ofNat n >>> 6 = 0b01) ↔
        UInt8.ofNat n = fragmentControl) := by
    decide +kernel
  have h := hall ⟨control.toNat, control.toNat_lt⟩
  rwa [UInt8.ofNat_toNat] at h

/-- The nibbles of a descriptor, as numbers, and the descriptor made of them again. -/
theorem nibbles (descriptor : UInt8) :
    (((descriptor >>> 4) &&& 0x0f) + 1).toNat = descriptor.toNat / 16 + 1 ∧
    (descriptor &&& 0x0f).toNat = descriptor.toNat % 16 ∧
    ((((descriptor >>> 4) &&& 0x0f) + 1 - 1) <<< 4) |||
      UInt8.ofNat (descriptor &&& 0x0f).toNat = descriptor := by
  have hall : ∀ n : Fin 256,
      (((UInt8.ofNat n >>> 4) &&& 0x0f) + 1).toNat = (UInt8.ofNat n).toNat / 16 + 1 ∧
      (UInt8.ofNat n &&& 0x0f).toNat = (UInt8.ofNat n).toNat % 16 ∧
      ((((UInt8.ofNat n >>> 4) &&& 0x0f) + 1 - 1) <<< 4) |||
        UInt8.ofNat (UInt8.ofNat n &&& 0x0f).toNat = UInt8.ofNat n := by
    decide +kernel
  have h := hall ⟨descriptor.toNat, descriptor.toNat_lt⟩
  rwa [UInt8.ofNat_toNat] at h

/-- A byte string with a whole header is an id, a descriptor and a body. -/
theorem exists_header {rest : Bytes} (h : messageIdLen + 1 ≤ rest.length) :
    ∃ (id : MessageId) (descriptor : UInt8) (body : Bytes), rest = id.1 ++ descriptor :: body := by
  have htake : (rest.take messageIdLen).length = messageIdLen := by
    rw [List.length_take]
    omega
  obtain ⟨descriptor, body, hdrop⟩ := List.exists_cons_of_length_pos
    (l := rest.drop messageIdLen) (by rw [List.length_drop]; omega)
  refine ⟨⟨rest.take messageIdLen, htake⟩, descriptor, body, ?_⟩
  rw [← hdrop, List.take_append_drop]

/-! ## What is accepted -/

theorem parseFrame_cons (control : UInt8) (rest : Bytes) {f : Frame} :
    parseFrame (control :: rest) = .ok f ↔
      (control = singleControl ∧ parseSingle (control :: rest) = .ok f) ∨
        (control = fragmentControl ∧ parseFragment (control :: rest) = .ok f) := by
  obtain ⟨hsingle, hfragment⟩ := control_cases control
  rw [← hsingle, ← hfragment, parseFrame]
  by_cases hversion : control &&& 0x3f = transportVersion
  · rw [if_neg (not_not.mpr hversion)]
    by_cases hzero : control >>> 6 = 0b00
    · rw [if_pos hzero, hzero]
      simp [hversion]
    · rw [if_neg hzero]
      by_cases hone : control >>> 6 = 0b01
      · rw [if_pos hone, hone]
        simp [hversion]
      · rw [if_neg hone]
        simp [hzero, hone]
  · rw [if_pos hversion]
    simp [hversion]

/-- A single frame is accepted for the length of its body. -/
theorem parseSingle_eq_ok_iff (control : UInt8) (body : Bytes) {f : Frame} :
    parseSingle (control :: body) = .ok f ↔
      1 ≤ body.length ∧ body.length ≤ 218 ∧ f = .single body := by
  rw [parseSingle, List.drop_one, List.tail_cons]
  by_cases hne : body = []
  · rw [if_pos hne, hne]
    simp
  · have hpos := List.length_pos_of_ne_nil hne
    rw [if_neg hne]
    by_cases hlen : body.length > maxSingleBody
    · rw [if_pos hlen]
      unfold maxSingleBody at hlen
      refine iff_of_false (by simp) ?_
      rintro ⟨-, hle, -⟩
      omega
    · rw [if_neg hlen]
      unfold maxSingleBody at hlen
      rw [Except.ok.injEq, eq_comm]
      exact ⟨fun h => ⟨by omega, by omega, h⟩, fun h => h.2.2⟩

/-- A fragment is accepted for its nibbles and the length of its body. -/
theorem parseFragment_eq_ok_iff (control : UInt8) (id : MessageId) (descriptor : UInt8)
    (body : Bytes) {f : Frame} :
    parseFragment (control :: (id.1 ++ descriptor :: body)) = .ok f ↔
      1 ≤ descriptor.toNat / 16 ∧ descriptor.toNat % 16 ≤ descriptor.toNat / 16 ∧
      1 ≤ body.length ∧ body.length ≤ 211 ∧
      (descriptor.toNat % 16 < descriptor.toNat / 16 → body.length = 211) ∧
      f = .fragment ⟨id, descriptor &&& 0x0f, ((descriptor >>> 4) &&& 0x0f) + 1, body⟩ := by
  obtain ⟨hcount, hindex, -⟩ := nibbles descriptor
  have hbyte := descriptor.toNat_lt
  rw [parseFragment_eq]
  dsimp only
  generalize hc : ((descriptor >>> 4) &&& 0x0f) + 1 = count at *
  generalize hi : descriptor &&& 0x0f = index at *
  have hmin : minFragmentCount ≤ count ↔ 2 ≤ count.toNat := UInt8.le_iff_toNat_le
  have hmax : count ≤ UInt8.ofNat maxFragmentCount ↔ count.toNat ≤ 16 := UInt8.le_iff_toNat_le
  have hge : index ≥ count ↔ count.toNat ≤ index.toNat := UInt8.le_iff_toNat_le
  have hshort : index < count - 1 ↔ index.toNat + 1 < count.toNat :=
    lt_sub_one_iff (by omega)
  have hempty : body = [] ↔ body.length = 0 := List.length_eq_zero_iff.symm
  simp only [hmin, hmax, hge, hshort, hempty, maxFragmentBody]
  by_cases htwo : 2 ≤ count.toNat ∧ count.toNat ≤ 16
  · rw [if_neg (not_not.mpr htwo)]
    by_cases hout : count.toNat ≤ index.toNat
    · rw [if_pos hout]
      exact iff_of_false (by simp) (by rintro ⟨-, h, -⟩; omega)
    · rw [if_neg hout]
      by_cases hbody : body.length = 0 ∨ body.length > 211
      · rw [if_pos hbody]
        exact iff_of_false (by simp) (by rintro ⟨-, -, h, h', -⟩; omega)
      · rw [if_neg hbody]
        by_cases hnonfinal : index.toNat + 1 < count.toNat ∧ body.length ≠ 211
        · rw [if_pos hnonfinal]
          exact iff_of_false (by simp) (by rintro ⟨-, -, -, -, h, -⟩; omega)
        · rw [if_neg hnonfinal, Except.ok.injEq, eq_comm]
          exact ⟨fun h => ⟨by omega, by omega, by omega, by omega, by omega, h⟩,
            fun h => h.2.2.2.2.2⟩
  · rw [if_pos htwo]
    exact iff_of_false (by simp) (by rintro ⟨h, -⟩; omega)

/-- What is accepted as a fragment has a whole header. -/
theorem exists_header_of_parseFragment {control : UInt8} {rest : Bytes} {f : Frame}
    (h : parseFragment (control :: rest) = .ok f) :
    ∃ (id : MessageId) (descriptor : UInt8) (body : Bytes), rest = id.1 ++ descriptor :: body := by
  unfold parseFragment at h
  split at h
  · exact absurd h (by simp)
  · next hlen =>
    refine exists_header ?_
    unfold fragmentHeaderLen at hlen
    rw [List.length_cons] at hlen
    unfold messageIdLen
    omega

/-- **Building the bytes again.**  A control byte that is accepted is the only one of its type,
and a descriptor is made of its two nibbles, so the fields have all there was. -/
theorem rebuild_of_parseFrame {s : Bytes} {f : Frame} (h : parseFrame s = .ok f) :
    f.rebuild = s := by
  cases s with
  | nil => exact absurd h (by simp [parseFrame])
  | cons control rest =>
    rcases (parseFrame_cons control rest).mp h with ⟨rfl, h⟩ | ⟨rfl, h⟩
    · obtain ⟨-, -, rfl⟩ := (parseSingle_eq_ok_iff _ _).mp h
      rfl
    · obtain ⟨id, descriptor, body, rfl⟩ := exists_header_of_parseFragment h
      obtain ⟨-, -, -, -, -, rfl⟩ := (parseFragment_eq_ok_iff _ _ _ _).mp h
      rw [Frame.rebuild, encodeFragment]
      dsimp only
      rw [(nibbles descriptor).2.2]

/-- **What is accepted** is a single frame or a fragment of the grammar, by the control byte. -/
theorem exists_parseFrame_iff (s : Bytes) :
    (∃ f, parseFrame s = .ok f) ↔ IsSingle s ∨ IsFragment s := by
  constructor
  · rintro ⟨f, h⟩
    cases s with
    | nil => exact absurd h (by simp [parseFrame])
    | cons control rest =>
      rcases (parseFrame_cons control rest).mp h with ⟨rfl, h⟩ | ⟨rfl, h⟩
      · obtain ⟨hpos, hle, -⟩ := (parseSingle_eq_ok_iff _ _).mp h
        exact .inl ⟨rest, rfl, hpos, hle⟩
      · obtain ⟨id, descriptor, body, rfl⟩ := exists_header_of_parseFragment h
        obtain ⟨hcount, hindex, hpos, hle, hfull, -⟩ := (parseFragment_eq_ok_iff _ _ _ _).mp h
        have hbyte := descriptor.toNat_lt
        exact .inr ⟨id.1, descriptor, body, descriptor.toNat / 16 + 1, descriptor.toNat % 16,
          rfl, id.2, by omega, rfl, by omega, by omega, by omega, hpos, hle,
          fun hlt => hfull (by omega)⟩
  · rintro (⟨body, rfl, hpos, hle⟩ | ⟨id, descriptor, body, c, i, rfl, hid, hc, hi, htwo, hmax,
      hlt, hpos, hle, hfull⟩)
    · exact ⟨.single body, (parseFrame_cons _ _).mpr
        (.inl ⟨rfl, (parseSingle_eq_ok_iff _ _).mpr ⟨hpos, hle, rfl⟩⟩)⟩
    · refine ⟨_, (parseFrame_cons _ _).mpr (.inr ⟨rfl, (parseFragment_eq_ok_iff _ ⟨id, hid⟩ _ _).mpr
        ⟨by omega, by omega, hpos, hle, fun h => hfull (by omega), rfl⟩⟩)⟩

/-! ## No panic -/

/-- `bytes.slice(start..)` -/
def sliceFrom (b : Bytes) (start : ℕ) : Option Bytes :=
  if start ≤ b.length then some (b.drop start) else none

/-- `&bytes[start..stop]` -/
def subslice (b : Bytes) (start stop : ℕ) : Option Bytes :=
  if start ≤ stop ∧ stop ≤ b.length then some ((b.drop start).take (stop - start)) else none

/-- Addition of bytes that must not overflow. -/
def checkedAdd (a b : UInt8) : Option UInt8 :=
  if a.toNat + b.toNat < 256 then some (a + b) else none

/-- Subtraction of bytes that must not overflow. -/
def checkedSub (a b : UInt8) : Option UInt8 :=
  if b.toNat ≤ a.toNat then some (a - b) else none

/-- `parse_single`, where `none` is a panic. -/
def parseSingleChecked (payload : Bytes) : Option (Except FrameError Frame) := do
  let body ← sliceFrom payload 1
  if body = [] then return .error .emptySingleBody
  else if body.length > maxSingleBody then return .error (.singleBodyTooLarge body.length)
  else return .ok (.single body)

/-- `parse_fragment`, where `none` is a panic. -/
def parseFragmentChecked (payload : Bytes) : Option (Except FrameError Frame) := do
  if payload.length < fragmentHeaderLen then
    return .error (.truncatedFragmentHeader payload.length)
  else
    let header ← subslice payload 1 (1 + messageIdLen)
    let messageId ← FixedBytes.ofSlice messageIdLen header
    let descriptor ← payload[1 + messageIdLen]?
    let count ← checkedAdd ((descriptor >>> 4) &&& 0x0f) 1
    let index := descriptor &&& 0x0f
    if ¬ (minFragmentCount ≤ count ∧ count ≤ UInt8.ofNat maxFragmentCount) then
      return .error (.invalidFragmentCount count)
    else if index ≥ count then
      return .error (.fragmentIndexOutOfBounds index count)
    else
      let body ← sliceFrom payload fragmentHeaderLen
      if body = [] ∨ body.length > maxFragmentBody then
        return .error (.fragmentBodyOutOfBounds body.length)
      else
        let last ← checkedSub count 1
        if index < last ∧ body.length ≠ maxFragmentBody then
          return .error (.nonFinalFragmentShort index count body.length)
        else
          return .ok (.fragment ⟨messageId, index, count, body⟩)

/-- `parse_frame`, where `none` is a panic. -/
def parseFrameChecked (payload : Bytes) : Option (Except FrameError Frame) :=
  match payload with
  | [] => some (.error .emptyPayload)
  | control :: _ =>
    let version := control &&& 0x3f
    let frameType := control >>> 6
    if version ≠ transportVersion then some (.error (.unsupportedVersion version))
    else if frameType = 0b00 then parseSingleChecked payload
    else if frameType = 0b01 then parseFragmentChecked payload
    else some (.error .reservedFrameType)

theorem parseSingleChecked_eq (control : UInt8) (rest : Bytes) :
    parseSingleChecked (control :: rest) = some (parseSingle (control :: rest)) := by
  have hslice : sliceFrom (control :: rest) 1 = some ((control :: rest).drop 1) :=
    if_pos (by rw [List.length_cons]; omega)
  simp only [parseSingleChecked, hslice, parseSingle, Option.bind_eq_bind, Option.bind_some]
  split_ifs <;> rfl

theorem parseFragmentChecked_eq (control : UInt8) (rest : Bytes) :
    parseFragmentChecked (control :: rest) = some (parseFragment (control :: rest)) := by
  by_cases hlen : (control :: rest).length < fragmentHeaderLen
  · rw [parseFragmentChecked, parseFragment, if_pos hlen, dif_pos hlen]
    rfl
  · have hrest : messageIdLen + 1 ≤ rest.length := by
      unfold fragmentHeaderLen at hlen
      rw [List.length_cons] at hlen
      unfold messageIdLen
      omega
    obtain ⟨id, descriptor, body, rfl⟩ := exists_header hrest
    have hid := id.2
    have hheader : subslice (control :: (id.1 ++ descriptor :: body)) 1 (1 + messageIdLen) =
        some id.1 := by
      have hbounds : 1 ≤ 1 + messageIdLen ∧
          1 + messageIdLen ≤ (control :: (id.1 ++ descriptor :: body)).length := by
        rw [List.length_cons]
        omega
      rw [subslice, if_pos hbounds, Nat.add_sub_cancel_left, List.drop_one, List.tail_cons,
        List.take_left' hid]
    have hmessageId : FixedBytes.ofSlice messageIdLen id.1 = some id :=
      FixedBytes.ofSlice_eq_some_iff.mpr rfl
    have hdescriptor : (control :: (id.1 ++ descriptor :: body))[1 + messageIdLen]? =
        some descriptor := by
      rw [Nat.add_comm, List.getElem?_cons_succ, List.getElem?_append_right hid.le, hid,
        Nat.sub_self, List.getElem?_cons_zero]
    have hbody : sliceFrom (control :: (id.1 ++ descriptor :: body)) fragmentHeaderLen =
        some body := by
      have hsplit : control :: (id.1 ++ descriptor :: body) =
          (control :: (id.1 ++ [descriptor])) ++ body := by simp
      have hlength : (control :: (id.1 ++ [descriptor])).length = fragmentHeaderLen := by
        rw [List.length_cons, List.length_append, hid]
        rfl
      rw [sliceFrom, if_pos (Nat.not_lt.mp hlen), hsplit, List.drop_left' hlength]
    obtain ⟨hcountNat, -, -⟩ := nibbles descriptor
    have hbyte := descriptor.toNat_lt
    have hcount : checkedAdd ((descriptor >>> 4) &&& 0x0f) 1 =
        some (((descriptor >>> 4) &&& 0x0f) + 1) := by
      refine if_pos ?_
      have hnibble : ((descriptor >>> 4) &&& 0x0f).toNat ≤ 15 := by
        rw [UInt8.toNat_and]
        exact Nat.and_le_right
      have hone : (1 : UInt8).toNat = 1 := rfl
      omega
    have hlast : checkedSub (((descriptor >>> 4) &&& 0x0f) + 1) 1 =
        some (((descriptor >>> 4) &&& 0x0f) + 1 - 1) := by
      refine if_pos ?_
      have hone : (1 : UInt8).toNat = 1 := rfl
      omega
    rw [parseFragmentChecked, if_neg hlen, parseFragment_eq]
    simp only [hheader, hmessageId, hdescriptor, hcount, hbody, hlast, Option.bind_eq_bind,
      Option.bind_some]
    split_ifs <;> rfl

/-- **The parser never panics**: with every operation checked it does the same. -/
theorem parseFrameChecked_eq (s : Bytes) : parseFrameChecked s = some (parseFrame s) := by
  cases s with
  | nil => rfl
  | cons control rest =>
    rw [parseFrameChecked, parseFrame, parseSingleChecked_eq, parseFragmentChecked_eq]
    split_ifs <;> rfl

/-- **The parser accepts exactly the grammar.**  The bytes are known from the frame, so nothing
is lost and no two byte strings parse alike; and no index, slice, sum or difference is out of
bounds. -/
theorem parseFrame_grammar :
    (∀ s : Bytes, (∃ f, parseFrame s = .ok f) ↔ IsSingle s ∨ IsFragment s) ∧
    (∀ (s : Bytes) (f : Frame), parseFrame s = .ok f → f.rebuild = s) ∧
    (∀ (s s' : Bytes) (f : Frame), parseFrame s = .ok f → parseFrame s' = .ok f → s = s') ∧
    (∀ s : Bytes, parseFrameChecked s = some (parseFrame s)) := by
  refine ⟨exists_parseFrame_iff, fun s f h => rebuild_of_parseFrame h, ?_, parseFrameChecked_eq⟩
  intro s s' f h h'
  exact (rebuild_of_parseFrame h).symm.trans (rebuild_of_parseFrame h')

/-- The second of two fragments, with one byte of body. -/
def lastFragment : Bytes := [0x41, 1, 2, 3, 4, 5, 6, 0x11, 9]

theorem parseFrame_grammar_lastFragment :
    ∃ f, parseFrame lastFragment = .ok f ∧ f.rebuild = lastFragment := by
  have haccepted : IsFragment lastFragment :=
    ⟨[1, 2, 3, 4, 5, 6], 0x11, [9], 2, 1, rfl, rfl, rfl, rfl, by decide, by decide, by decide,
      by decide, by decide, by decide⟩
  obtain ⟨f, hf⟩ := (parseFrame_grammar.1 lastFragment).mpr (.inr haccepted)
  exact ⟨f, hf, parseFrame_grammar.2.1 lastFragment f hf⟩

end Meshtastic
end Robins
