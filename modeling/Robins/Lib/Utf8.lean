import Mathlib.Data.List.Basic

/-!
# Text as bytes

A string and its UTF-8 bytes, as a list.  `decode` accepts exactly the lists that
`encode` produces, so the two are inverse to each other wherever they are defined.

Bytes that are not text are made text by `lossy`, which puts the replacement character for
each sequence that is broken off.  What counts as one sequence is decided by its first byte
and by how many of the bytes that follow continue it.
-/

namespace Utf8

/-- The UTF-8 bytes of a string. -/
def encode (s : String) : List UInt8 := s.toByteArray.data.toList

/-- The string of which these are the UTF-8 bytes. -/
def decode (b : List UInt8) : Option String := String.fromUTF8? ⟨b.toArray⟩

theorem decode_eq_some_iff {b : List UInt8} {s : String} : decode b = some s ↔ encode s = b := by
  unfold decode String.fromUTF8?
  constructor
  · intro h
    split_ifs at h with hvalid
    rw [← Option.some.inj h]
    rfl
  · rintro rfl
    have hbytes : (⟨(encode s).toArray⟩ : ByteArray) = s.toByteArray := by
      rw [encode, Array.toArray_toList]
    have hvalid : ByteArray.IsValidUTF8 ⟨(encode s).toArray⟩ := by
      rw [hbytes]
      exact s.isValidUTF8
    rw [dif_pos hvalid, Option.some.injEq]
    exact String.toByteArray_inj.mp hbytes

@[simp] theorem decode_encode (s : String) : decode (encode s) = some s :=
  decode_eq_some_iff.mpr rfl

theorem encode_append (s t : String) : encode (s ++ t) = encode s ++ encode t := by
  rw [encode, encode, encode, String.toByteArray_append, ByteArray.data_append,
    Array.toList_append]

/-! ## ASCII -/

/-- The text of bytes below 128. -/
def ascii (b : List UInt8) : String := String.ofList (b.map fun x => Char.ofNat x.toNat)

theorem utf8EncodeChar_ascii {x : UInt8} (h : x.toNat < 128) :
    String.utf8EncodeChar (Char.ofNat x.toNat) = [x] := by
  have hval : (Char.ofNat x.toNat).val.toNat = x.toNat := by
    rw [Char.ofNat, dif_pos (Or.inl (by omega))]
    rfl
  rw [String.utf8EncodeChar, hval, if_pos (by omega), UInt8.ofNat_toNat]

theorem encode_ascii {b : List UInt8} (h : ∀ x ∈ b, x.toNat < 128) : encode (ascii b) = b := by
  rw [encode, ascii, String.toByteArray_ofList]
  induction b with
  | nil => rfl
  | cons x b ih =>
    obtain ⟨hx, hb⟩ := List.forall_mem_cons.mp h
    rw [List.map_cons, List.utf8Encode_cons, ByteArray.data_append, Array.toList_append, ih hb,
      List.utf8Encode_singleton, utf8EncodeChar_ascii hx]
    rfl

/-! ## Bytes that are not text -/

/-- How long the sequence is that this byte begins; zero if it begins none. -/
def width (lead : UInt8) : ℕ :=
  if lead < 0x80 then 1
  else if lead < 0xC2 then 0
  else if lead < 0xE0 then 2
  else if lead < 0xF0 then 3
  else if lead < 0xF5 then 4
  else 0

/-- The byte may be the second of a sequence with this first byte.  Overlong forms,
surrogates and what lies past the last code point are excluded here. -/
def isSecond (lead b : UInt8) : Bool :=
  (if lead = 0xE0 then 0xA0 else if lead = 0xF0 then 0x90 else 0x80) ≤ b &&
    b ≤ (if lead = 0xED then 0x9F else if lead = 0xF4 then 0x8F else 0xBF)

/-- The byte continues a sequence. -/
def isContinuation (b : UInt8) : Bool := 0x80 ≤ b && b ≤ 0xBF

/-- How many of these bytes continue the sequence with this first byte. -/
def continued (lead : UInt8) : List UInt8 → ℕ
  | [] => 0
  | b :: rest =>
    if 2 ≤ width lead && isSecond lead b then
      1 + ((rest.take (width lead - 2)).takeWhile isContinuation).length
    else 0

/-- Copy the sequences that are complete, and put the replacement character for each that
is broken off; `fuel` bounds the number of sequences. -/
def replaceBroken : ℕ → List UInt8 → List UInt8
  | 0, b => b
  | _ + 1, [] => []
  | fuel + 1, lead :: rest =>
    let more := continued lead rest
    (if 1 + more = width lead then lead :: rest.take more else [0xEF, 0xBF, 0xBD]) ++
      replaceBroken fuel (rest.drop more)

/-- `String::from_utf8_lossy`, as bytes. -/
def lossy (b : List UInt8) : List UInt8 :=
  match decode b with
  | some _ => b
  | none => replaceBroken b.length b

theorem lossy_of_decode {b : List UInt8} {s : String} (h : decode b = some s) : lossy b = b := by
  rw [lossy, h]

/-- Where the text breaks off, from this index on, and how many bytes are broken; none if the
text is only cut short. -/
def findBroken : ℕ → ℕ → List UInt8 → ℕ × Option ℕ
  | 0, index, _ => (index, none)
  | _ + 1, index, [] => (index, none)
  | fuel + 1, index, lead :: rest =>
    let more := continued lead rest
    if 1 + more = width lead then findBroken fuel (index + 1 + more) (rest.drop more)
    else (index, if more = rest.length ∧ 1 + more < width lead then none else some (1 + more))

/-- The text of a `FromUtf8Error` (its `Display`). -/
def errorText (b : List UInt8) : String :=
  match findBroken b.length 0 b with
  | (index, some broken) =>
    "invalid utf-8 sequence of " ++ toString broken ++ " bytes from index " ++ toString index
  | (index, none) => "incomplete utf-8 byte sequence from index " ++ toString index

/-- A byte that begins nothing, an incomplete sequence, and a surrogate. -/
example : replaceBroken 8 [0x66, 0xFF, 0xE2, 0x82, 0x6F, 0xED, 0xA0, 0x80] =
    encode "f\uFFFD\uFFFDo\uFFFD\uFFFD\uFFFD" := by
  decide +kernel

end Utf8
