import Mathlib.Data.List.Basic
import Mathlib.Tactic.Ring

/-!
# The protocol buffer wire format

A message on the wire is a sequence of fields, each a key --- field number and
wire type in one varint --- followed by a body whose extent the wire type
determines.  `parseFields` reads a whole buffer into such a sequence and
`encodeFields` writes it; which numbers mean what is left to the schema.

## Groups

The deprecated wire types 3 and 4 open and close a group, which is a sequence of
fields without a length in front: only by passing over the fields does a reader
find its end.  No schema here has a group, but a reader must get past one that it
does not know, and groups may be nested, so `skipField` counts down the levels it
may still open.  A group is handed on as the bytes it took, and is never written.

## Main results

The round trip is `parseFields_encodeFields`, for fields that satisfy the limits of
the format.  In the other direction there is none, since a varint may be padded and
a group has no other form than its bytes; what remains is that writing never takes
more room than reading did.  `length_encodeFields_le_of_reads` says this of any reader
that takes its fields off the buffer one after another, whatever it skips on the
way, and `totalSize_le_of_parseFields` that the bodies read from a buffer are
together no longer than the buffer.
-/

namespace ProtoWire

/-! ## Varints -/

/-- Base-128 little-endian encoding: seven bits a byte, the high bit set on every
byte but the last. -/
def encodeVarint (n : ℕ) : List UInt8 :=
  if n < 128 then [UInt8.ofNat n] else UInt8.ofNat (n % 128 + 128) :: encodeVarint (n / 128)
termination_by n

/-- Read a varint of at most the given number of bytes. -/
def readVarint : ℕ → List UInt8 → Option (ℕ × List UInt8)
  | 0, _ => none
  | _ + 1, [] => none
  | k + 1, b :: bs =>
    if b.toNat < 128 then some (b.toNat, bs)
    else (readVarint k bs).map fun p => (b.toNat - 128 + 128 * p.1, p.2)

/-- Read a varint: at most ten bytes, and a value of at most 64 bits. -/
def decodeVarint (bs : List UInt8) : Option (ℕ × List UInt8) :=
  (readVarint 10 bs).filter fun p => p.1 < 2 ^ 64

theorem encodeVarint_ne_nil (n : ℕ) : encodeVarint n ≠ [] := by
  rw [encodeVarint]
  split <;> simp

/-- Seven bits a byte. -/
theorem length_encodeVarint_le {k n : ℕ} (h : n < 128 ^ k) (hk : k ≠ 0) :
    (encodeVarint n).length ≤ k := by
  induction k generalizing n with
  | zero => exact absurd rfl hk
  | succ k ih =>
    rw [encodeVarint]
    by_cases hn : n < 128
    · rw [if_pos hn, List.length_singleton]
      omega
    · have hpow : n < 128 ^ k * 128 := by rwa [pow_succ] at h
      have hk' : k ≠ 0 := by
        rintro rfl
        omega
      have hdiv : n / 128 < 128 ^ k := Nat.div_lt_of_lt_mul (by omega)
      have := ih hdiv hk'
      rw [if_neg hn, List.length_cons]
      omega

theorem readVarint_encodeVarint {k n : ℕ} (h : n < 128 ^ k) (hk : k ≠ 0) (rest : List UInt8) :
    readVarint k (encodeVarint n ++ rest) = some (n, rest) := by
  induction k generalizing n with
  | zero => exact absurd rfl hk
  | succ k ih =>
    rw [encodeVarint]
    by_cases hn : n < 128
    · have hbyte : (UInt8.ofNat n).toNat = n := by
        rw [UInt8.toNat_ofNat']
        omega
      rw [if_pos hn, List.singleton_append, readVarint, if_pos (by omega), hbyte]
    · have hbyte : (UInt8.ofNat (n % 128 + 128)).toNat = n % 128 + 128 := by
        rw [UInt8.toNat_ofNat']
        omega
      have hpow : n < 128 ^ k * 128 := by rwa [pow_succ] at h
      have hdiv : n / 128 < 128 ^ k := Nat.div_lt_of_lt_mul (by omega)
      have hk' : k ≠ 0 := by
        rintro rfl
        omega
      rw [if_neg hn, List.cons_append, readVarint, if_neg (by omega), ih hdiv hk', hbyte,
        Option.map_some]
      simp only [Option.some.injEq, Prod.mk.injEq, and_true]
      omega

theorem decodeVarint_encodeVarint {n : ℕ} (h : n < 2 ^ 64) (rest : List UInt8) :
    decodeVarint (encodeVarint n ++ rest) = some (n, rest) := by
  have hread := readVarint_encodeVarint (k := 10) (n := n) (by omega) (by omega) rest
  rw [decodeVarint, hread, Option.filter_some, if_pos (by simpa using h)]

/-! ## Fields -/

/-- The body of a field, by wire type; of a group, all bytes up to and with the key
that closes it. -/
inductive Value where
  | varint (n : ℕ)
  | fixed64 (bytes : List UInt8)
  | lengthDelimited (bytes : List UInt8)
  | group (bytes : List UInt8)
  | fixed32 (bytes : List UInt8)
  deriving DecidableEq, Repr

/-- A field: its number in the schema and its body. -/
structure Field where
  number : ℕ
  value : Value
  deriving DecidableEq, Repr

def Value.wireType : Value → ℕ
  | .varint _ => 0
  | .fixed64 _ => 1
  | .lengthDelimited _ => 2
  | .group _ => 3
  | .fixed32 _ => 5

/-- The limits of what is written: 64-bit varints and lengths, fixed widths, no groups. -/
def Value.Valid : Value → Prop
  | .varint n => n < 2 ^ 64
  | .fixed64 b => b.length = 8
  | .lengthDelimited b => b.length < 2 ^ 64
  | .group _ => False
  | .fixed32 b => b.length = 4

/-- A field the format can carry: a 29-bit number from 1, and a valid body. -/
structure Field.Valid (f : Field) : Prop where
  number_pos : 0 < f.number
  number_lt : f.number < 2 ^ 29
  value : f.value.Valid

/-- The bytes of a field's body that belong to the schema. -/
def Value.size : Value → ℕ
  | .varint _ => 0
  | .fixed64 b => b.length
  | .lengthDelimited b => b.length
  | .group _ => 0
  | .fixed32 b => b.length

def Value.encode : Value → List UInt8
  | .varint n => encodeVarint n
  | .fixed64 b => b
  | .lengthDelimited b => encodeVarint b.length ++ b
  | .group b => b
  | .fixed32 b => b

/-- Key and body. -/
def Field.encode (f : Field) : List UInt8 :=
  encodeVarint (f.number * 8 + f.value.wireType) ++ f.value.encode

/-- Write a sequence of fields. -/
def encodeFields (fs : List Field) : List UInt8 :=
  fs.flatMap Field.encode

theorem encodeFields_cons (f : Field) (fs : List Field) :
    encodeFields (f :: fs) = f.encode ++ encodeFields fs := List.flatMap_cons

/-- Take exactly `n` bytes off a buffer. -/
def takeBytes (n : ℕ) (bs : List UInt8) : Option (List UInt8 × List UInt8) :=
  if n ≤ bs.length then some (bs.take n, bs.drop n) else none

/-- Read a key, field number and wire type.  It has at most 32 bits, and field number 0
is refused. -/
def decodeKey (bs : List UInt8) : Option ((ℕ × ℕ) × List UInt8) :=
  (decodeVarint bs).bind fun p =>
    if p.1 < 2 ^ 32 ∧ 0 < p.1 / 8 then some ((p.1 / 8, p.1 % 8), p.2) else none

/-- Read the body of a field that is no group. -/
def parseScalar (wireType : ℕ) (bs : List UInt8) : Option (Value × List UInt8) :=
  match wireType with
  | 0 => (decodeVarint bs).map fun p => (.varint p.1, p.2)
  | 1 => (takeBytes 8 bs).map fun p => (.fixed64 p.1, p.2)
  | 2 => (decodeVarint bs).bind fun p =>
      (takeBytes p.1 p.2).map fun q => (.lengthDelimited q.1, q.2)
  | 5 => (takeBytes 4 bs).map fun p => (.fixed32 p.1, p.2)
  | _ => none

/-- Pass over the fields of a group, and the key that closes it.  Every field takes at
least one byte, so the length of the buffer bounds their number. -/
def skipGroup (skip : ℕ → ℕ → List UInt8 → Option (List UInt8)) (number : ℕ) :
    ℕ → List UInt8 → Option (List UInt8)
  | 0, _ => none
  | k + 1, bs => (decodeKey bs).bind fun p =>
    -- the key that closes a group has the number of the one that opened it
    if p.1.2 = 4 then if p.1.1 = number then some p.2 else none
    else (skip p.1.1 p.1.2 p.2).bind (skipGroup skip number k)

/-- Pass over the body of a field, with so many levels left. -/
def skipField : ℕ → ℕ → ℕ → List UInt8 → Option (List UInt8)
  | 0, _, _, _ => none
  | limit + 1, number, wireType, bs =>
    if wireType = 3 then skipGroup (skipField limit) number bs.length bs
    else (parseScalar wireType bs).map Prod.snd

/-- Read the body of a field; in a group so many levels may be opened. -/
def parseValue (limit number wireType : ℕ) (bs : List UInt8) : Option (Value × List UInt8) :=
  if wireType = 3 then
    (skipField limit number wireType bs).map fun rest =>
      (.group (bs.take (bs.length - rest.length)), rest)
  else parseScalar wireType bs

def parseField (limit : ℕ) (bs : List UInt8) : Option (Field × List UInt8) :=
  (decodeKey bs).bind fun p =>
    (parseValue limit p.1.1 p.1.2 p.2).map fun q => (⟨p.1.1, q.1⟩, q.2)

/-- Read fields until the buffer is empty.  Every field takes at least one byte,
so the length of the buffer bounds their number. -/
def parseFieldsFrom (limit : ℕ) : ℕ → List UInt8 → Option (List Field)
  | _, [] => some []
  | 0, _ :: _ => none
  | k + 1, b :: bs =>
    (parseField limit (b :: bs)).bind fun p =>
      (parseFieldsFrom limit k p.2).map fun fs => p.1 :: fs

/-- Read a whole buffer as a sequence of fields. -/
def parseFields (limit : ℕ) (bs : List UInt8) : Option (List Field) :=
  parseFieldsFrom limit bs.length bs

/-! ## The round trip

What is written has shortest varints and no groups, and is read back whatever follows it and at
whatever level.  The reader of a whole buffer goes on while there are bytes; as each field has at
least one, the length of the buffer is enough fuel for it. -/

theorem takeBytes_append {n : ℕ} {b : List UInt8} (rest : List UInt8) (h : b.length = n) :
    takeBytes n (b ++ rest) = some (b, rest) := by
  have hle : n ≤ (b ++ rest).length := by
    rw [List.length_append]
    omega
  rw [takeBytes, if_pos hle, List.take_left' h, List.drop_left' h]

theorem parseScalar_encode {v : Value} (hv : v.Valid) (rest : List UInt8) :
    parseScalar v.wireType (v.encode ++ rest) = some (v, rest) := by
  cases v with
  | varint n =>
    have hn := decodeVarint_encodeVarint hv rest
    simp only [Value.wireType, Value.encode, parseScalar, hn, Option.map_some]
  | fixed64 b =>
    have hb := takeBytes_append rest hv
    simp only [Value.wireType, Value.encode, parseScalar, hb, Option.map_some]
  | lengthDelimited b =>
    have hlen := decodeVarint_encodeVarint hv (b ++ rest)
    have hb := takeBytes_append (b := b) rest rfl
    simp only [Value.wireType, Value.encode, parseScalar, List.append_assoc, hlen,
      Option.bind_some, hb, Option.map_some]
  | group b => exact hv.elim
  | fixed32 b =>
    have hb := takeBytes_append rest hv
    simp only [Value.wireType, Value.encode, parseScalar, hb, Option.map_some]

theorem parseValue_encode {v : Value} (hv : v.Valid) (limit number : ℕ) (rest : List UInt8) :
    parseValue limit number v.wireType (v.encode ++ rest) = some (v, rest) := by
  have hgroup : v.wireType ≠ 3 := by
    cases v with
    | group b => exact hv.elim
    | varint n | fixed64 b | lengthDelimited b | fixed32 b => simp [Value.wireType]
  rw [parseValue, if_neg hgroup, parseScalar_encode hv]

theorem Value.wireType_lt (v : Value) : v.wireType < 8 := by
  cases v <;> simp [Value.wireType]

theorem parseField_encode {f : Field} (hf : f.Valid) (limit : ℕ) (rest : List UInt8) :
    parseField limit (f.encode ++ rest) = some (f, rest) := by
  have hpos := hf.number_pos
  have hlt := hf.number_lt
  have hw := f.value.wireType_lt
  have hkey := decodeVarint_encodeVarint (n := f.number * 8 + f.value.wireType) (by omega)
    (f.value.encode ++ rest)
  have hnumber : (f.number * 8 + f.value.wireType) / 8 = f.number := by omega
  have htype : (f.number * 8 + f.value.wireType) % 8 = f.value.wireType := by omega
  rw [parseField, decodeKey, Field.encode, List.append_assoc, hkey, Option.bind_some, hnumber,
    htype, if_pos ⟨by omega, hpos⟩, Option.bind_some, parseValue_encode hf.value, Option.map_some]

theorem Field.encode_ne_nil (f : Field) : f.encode ≠ [] := by
  intro h
  exact encodeVarint_ne_nil _ (List.append_eq_nil_iff.mp h).1

theorem parseFieldsFrom_encodeFields {fs : List Field} (hfs : ∀ f ∈ fs, f.Valid) (limit : ℕ)
    {k : ℕ} (hk : fs.length ≤ k) : parseFieldsFrom limit k (encodeFields fs) = some fs := by
  induction fs generalizing k with
  | nil =>
    cases k <;> rfl
  | cons f fs ih =>
    obtain ⟨hf, hrest⟩ := List.forall_mem_cons.mp hfs
    obtain ⟨j, rfl⟩ : ∃ j, k = j + 1 := ⟨k - 1, by rw [List.length_cons] at hk; omega⟩
    have hj : fs.length ≤ j := by rw [List.length_cons] at hk; omega
    have hparse := parseField_encode hf limit (encodeFields fs)
    rw [encodeFields_cons]
    -- a field is never empty, so the buffer is a cons and the loop goes round once more
    cases hcons : f.encode ++ encodeFields fs with
    | nil => exact absurd (List.append_eq_nil_iff.mp hcons).1 f.encode_ne_nil
    | cons b bs =>
      rw [parseFieldsFrom, ← hcons, hparse, Option.bind_some, ih hrest hj, Option.map_some]

theorem length_le_length_encodeFields (fs : List Field) :
    fs.length ≤ (encodeFields fs).length := by
  induction fs with
  | nil => exact le_rfl
  | cons f fs ih =>
    have hf : 0 < f.encode.length := List.length_pos_of_ne_nil f.encode_ne_nil
    rw [encodeFields_cons, List.length_append, List.length_cons]
    omega

/-- **Round trip.**  Fields within the limits of the format are read back as they
were written. -/
theorem parseFields_encodeFields {fs : List Field} (hfs : ∀ f ∈ fs, f.Valid) (limit : ℕ) :
    parseFields limit (encodeFields fs) = some fs :=
  parseFieldsFrom_encodeFields hfs limit (length_le_length_encodeFields fs)

/-! ## The writer is shortest

A reader accepts more than the writer makes: a varint may end in bytes that add nothing, and what is
skipped is not written at all.  So a field that was read is written in no more bytes than it was
read from, and a whole buffer too.  Nothing is assumed about who wrote the buffer. -/

theorem length_encodeVarint_pos (n : ℕ) : 0 < (encodeVarint n).length :=
  List.length_pos_of_ne_nil (encodeVarint_ne_nil n)

theorem length_encodeVarint_mono {m n : ℕ} (h : m ≤ n) :
    (encodeVarint m).length ≤ (encodeVarint n).length := by
  induction n using Nat.strong_induction_on generalizing m with
  | _ n ih =>
    by_cases hm : m < 128
    · rw [encodeVarint, if_pos hm, List.length_singleton]
      exact length_encodeVarint_pos n
    · have hn : ¬ n < 128 := by omega
      have hdiv := ih (n / 128) (by omega) (Nat.div_le_div_right (c := 128) h)
      rw [encodeVarint.eq_def m, encodeVarint.eq_def n, if_neg hm, if_neg hn, List.length_cons,
        List.length_cons]
      omega

/-- A varint may be padded, and the writer does not pad. -/
theorem length_encodeVarint_le_of_readVarint {k : ℕ} {bs rest : List UInt8} {n : ℕ}
    (h : readVarint k bs = some (n, rest)) :
    (encodeVarint n).length + rest.length ≤ bs.length := by
  induction k generalizing bs n with
  | zero => exact absurd h (by simp [readVarint])
  | succ k ih =>
    cases bs with
    | nil => exact absurd h (by simp [readVarint])
    | cons b bs =>
      rw [readVarint] at h
      split at h
      · next hb =>
        obtain ⟨rfl, rfl⟩ := Prod.mk.inj (Option.some.inj h)
        rw [encodeVarint, if_pos hb, List.length_singleton, List.length_cons]
        omega
      · next hb =>
        obtain ⟨⟨m, r⟩, hread, heq⟩ := Option.map_eq_some_iff.mp h
        obtain ⟨rfl, rfl⟩ := Prod.mk.inj heq
        have htail := ih hread
        have hbyte := b.toNat_lt
        have hm := length_encodeVarint_pos m
        rw [encodeVarint, List.length_cons]
        split
        · rw [List.length_singleton]
          omega
        · have hdiv : (b.toNat - 128 + 128 * m) / 128 = m := by omega
          rw [hdiv, List.length_cons]
          omega

theorem length_encodeVarint_le_of_decodeVarint {bs rest : List UInt8} {n : ℕ}
    (h : decodeVarint bs = some (n, rest)) :
    (encodeVarint n).length + rest.length ≤ bs.length :=
  length_encodeVarint_le_of_readVarint (Option.filter_eq_some_iff.mp h).1

theorem length_of_takeBytes {n : ℕ} {bs b rest : List UInt8}
    (h : takeBytes n bs = some (b, rest)) : b.length + rest.length = bs.length := by
  unfold takeBytes at h
  split at h
  · next hn =>
    obtain ⟨rfl, rfl⟩ := Prod.mk.inj (Option.some.inj h)
    rw [← List.length_append, List.take_append_drop]
  · exact absurd h (by simp)

theorem length_eq_of_takeBytes {n : ℕ} {bs b rest : List UInt8}
    (h : takeBytes n bs = some (b, rest)) : b.length = n := by
  unfold takeBytes at h
  split at h
  · next hn =>
    obtain ⟨rfl, rfl⟩ := Prod.mk.inj (Option.some.inj h)
    exact List.length_take_of_le hn
  · exact absurd h (by simp)

/-- A body is written in no more bytes than it was read from. -/
theorem length_encode_le_of_parseScalar {w : ℕ} {bs rest : List UInt8} {v : Value}
    (h : parseScalar w bs = some (v, rest)) :
    v.wireType = w ∧ v.encode.length + rest.length ≤ bs.length := by
  unfold parseScalar at h
  split at h
  · obtain ⟨⟨n, r⟩, hn, heq⟩ := Option.map_eq_some_iff.mp h
    obtain ⟨rfl, rfl⟩ := Prod.mk.inj heq
    exact ⟨rfl, length_encodeVarint_le_of_decodeVarint hn⟩
  · obtain ⟨⟨b, r⟩, hb, heq⟩ := Option.map_eq_some_iff.mp h
    obtain ⟨rfl, rfl⟩ := Prod.mk.inj heq
    exact ⟨rfl, (length_of_takeBytes hb).le⟩
  · obtain ⟨⟨n, r⟩, hn, htake⟩ := Option.bind_eq_some_iff.mp h
    obtain ⟨⟨b, r'⟩, hb, heq⟩ := Option.map_eq_some_iff.mp htake
    obtain ⟨rfl, rfl⟩ := Prod.mk.inj heq
    have hread := length_encodeVarint_le_of_decodeVarint hn
    have hlen : b.length = n := length_eq_of_takeBytes hb
    have hsum := length_of_takeBytes hb
    refine ⟨rfl, ?_⟩
    rw [Value.encode, List.length_append, hlen]
    dsimp only at hlen hsum ⊢
    omega
  · obtain ⟨⟨b, r⟩, hb, heq⟩ := Option.map_eq_some_iff.mp h
    obtain ⟨rfl, rfl⟩ := Prod.mk.inj heq
    exact ⟨rfl, (length_of_takeBytes hb).le⟩
  · exact absurd h (by simp)

theorem length_encodeVarint_le_of_decodeKey {bs rest : List UInt8} {number wireType : ℕ}
    (h : decodeKey bs = some ((number, wireType), rest)) :
    (encodeVarint (number * 8 + wireType)).length + rest.length ≤ bs.length := by
  obtain ⟨⟨key, r⟩, hkey, hbody⟩ := Option.bind_eq_some_iff.mp h
  dsimp only at hbody
  split at hbody
  · obtain ⟨hfields, rfl⟩ := Prod.mk.inj (Option.some.inj hbody)
    obtain ⟨rfl, rfl⟩ := Prod.mk.inj hfields
    rw [Nat.div_add_mod' key 8]
    exact length_encodeVarint_le_of_decodeVarint hkey
  · exact absurd hbody (by simp)

theorem length_le_of_skipGroup {skip : ℕ → ℕ → List UInt8 → Option (List UInt8)}
    (hskip : ∀ {number wireType bs rest}, skip number wireType bs = some rest →
      rest.length ≤ bs.length) {number k : ℕ} {bs rest : List UInt8}
    (h : skipGroup skip number k bs = some rest) : rest.length ≤ bs.length := by
  induction k generalizing bs with
  | zero => exact absurd h (by simp [skipGroup])
  | succ k ih =>
    obtain ⟨⟨⟨inner, wireType⟩, r⟩, hkey, hbody⟩ := Option.bind_eq_some_iff.mp h
    have hread := length_encodeVarint_le_of_decodeKey hkey
    dsimp only at hbody
    split at hbody
    · split at hbody
      · obtain rfl := Option.some.inj hbody
        omega
      · exact absurd hbody (by simp)
    · obtain ⟨r', hr', hrest⟩ := Option.bind_eq_some_iff.mp hbody
      have hbody' := hskip hr'
      have htail := ih hrest
      omega

/-- What is passed over is part of the buffer, at every level. -/
theorem length_le_of_skipField {limit number wireType : ℕ} {bs rest : List UInt8}
    (h : skipField limit number wireType bs = some rest) : rest.length ≤ bs.length := by
  induction limit generalizing number wireType bs rest with
  | zero => exact absurd h (by simp [skipField])
  | succ limit ih =>
    rw [skipField] at h
    split at h
    · exact length_le_of_skipGroup ih h
    · obtain ⟨⟨v, r⟩, hv, rfl⟩ := Option.map_eq_some_iff.mp h
      have hscalar := (length_encode_le_of_parseScalar hv).2
      dsimp only at hscalar ⊢
      omega

theorem length_encode_le_of_parseValue {limit number w : ℕ} {bs rest : List UInt8} {v : Value}
    (h : parseValue limit number w bs = some (v, rest)) :
    v.wireType = w ∧ v.encode.length + rest.length ≤ bs.length := by
  unfold parseValue at h
  split at h
  · next hw =>
    obtain ⟨r, hr, heq⟩ := Option.map_eq_some_iff.mp h
    obtain ⟨rfl, rfl⟩ := Prod.mk.inj heq
    have hle := length_le_of_skipField hr
    refine ⟨hw.symm, ?_⟩
    rw [Value.encode, List.length_take]
    omega
  · exact length_encode_le_of_parseScalar h

theorem length_encode_le_of_parseField {limit : ℕ} {bs rest : List UInt8} {f : Field}
    (h : parseField limit bs = some (f, rest)) : f.encode.length + rest.length ≤ bs.length := by
  obtain ⟨⟨⟨number, wireType⟩, r⟩, hkey, hbody⟩ := Option.bind_eq_some_iff.mp h
  obtain ⟨⟨v, r'⟩, hv, heq⟩ := Option.map_eq_some_iff.mp hbody
  obtain ⟨rfl, rfl⟩ := Prod.mk.inj heq
  obtain ⟨rfl, hvalue⟩ := length_encode_le_of_parseValue hv
  have hread := length_encodeVarint_le_of_decodeKey hkey
  rw [Field.encode, List.length_append]
  dsimp only at hvalue hread ⊢
  omega

/-- The fields a reader hands on from a buffer: they are read one after another, and
between them the reader may skip bytes. -/
inductive Reads : List UInt8 → List Field → Prop where
  | nil : Reads [] []
  | skip {bs : List UInt8} {fs : List Field} (skipped : List UInt8) (hrest : Reads bs fs) :
      Reads (skipped ++ bs) fs
  | field {limit : ℕ} {bs rest : List UInt8} {f : Field} {fs : List Field}
      (hfield : parseField limit bs = some (f, rest)) (hrest : Reads rest fs) : Reads bs (f :: fs)

/-- **What a reader finds in a buffer is written back in no more bytes.** -/
theorem length_encodeFields_le_of_reads {bs : List UInt8} {fs : List Field} (h : Reads bs fs) :
    (encodeFields fs).length ≤ bs.length := by
  induction h with
  | nil => exact le_rfl
  | skip skipped hrest ih =>
    rw [List.length_append]
    omega
  | @field limit bs rest f fs hfield hrest ih =>
    have hhead := length_encode_le_of_parseField hfield
    rw [encodeFields_cons, List.length_append]
    omega

theorem reads_of_parseFieldsFrom {limit k : ℕ} {bs : List UInt8} {fs : List Field}
    (h : parseFieldsFrom limit k bs = some fs) : Reads bs fs := by
  induction k generalizing bs fs with
  | zero =>
    cases bs with
    | nil =>
      obtain rfl := Option.some.inj h
      exact .nil
    | cons b bs => exact absurd h (by simp [parseFieldsFrom])
  | succ k ih =>
    cases bs with
    | nil =>
      obtain rfl := Option.some.inj h
      exact .nil
    | cons b bs =>
      obtain ⟨⟨f, r⟩, hf, hrest⟩ := Option.bind_eq_some_iff.mp h
      obtain ⟨gs, hgs, rfl⟩ := Option.map_eq_some_iff.mp hrest
      exact .field hf (ih hgs)

/-- This reader hands on every field, groups too, and skips nothing. -/
theorem reads_of_parseFields {limit : ℕ} {bs : List UInt8} {fs : List Field}
    (h : parseFields limit bs = some fs) : Reads bs fs :=
  reads_of_parseFieldsFrom h

/-! ## Sizes -/

/-- The bodies of a sequence of fields, together. -/
def totalSize (fs : List Field) : ℕ :=
  (fs.map fun f => f.value.size).sum

theorem Value.size_le_length_encode (v : Value) : v.size ≤ v.encode.length := by
  cases v with
  | varint n => exact Nat.zero_le _
  | fixed64 b => exact le_rfl
  | lengthDelimited b =>
    show b.length ≤ (encodeVarint b.length ++ b).length
    rw [List.length_append]
    exact Nat.le_add_left _ _
  | group b => exact Nat.zero_le _
  | fixed32 b => exact le_rfl

theorem totalSize_le_length_encodeFields (fs : List Field) :
    totalSize fs ≤ (encodeFields fs).length := by
  induction fs with
  | nil => exact le_rfl
  | cons f fs ih =>
    have hbody := f.value.size_le_length_encode
    have hsum : totalSize (f :: fs) = f.value.size + totalSize fs := by
      rw [totalSize, totalSize, List.map_cons, List.sum_cons]
    rw [hsum, encodeFields_cons, List.length_append, Field.encode, List.length_append]
    omega

/-- **The bodies read from a buffer fit in the buffer**, as they fit in what they are written
back to. -/
theorem totalSize_le_of_parseFields {limit : ℕ} {bs : List UInt8} {fs : List Field}
    (h : parseFields limit bs = some fs) : totalSize fs ≤ bs.length :=
  (totalSize_le_length_encodeFields fs).trans
    (length_encodeFields_le_of_reads (reads_of_parseFields h))

end ProtoWire
