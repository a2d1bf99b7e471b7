import Robins.Lib.Base64
import Robins.Protocol.Keys
import Robins.Protocol.WireSize

/-!
# Wire bytes on the command line

Wire bytes are written raw, as base64 or as hex, and read back in a format that is forced or
sniffed from the content.  Sniffing looks at the input without the white space around it: hex
first, then base64, else raw.

Sniffing can be wrong about arbitrary bytes: raw bytes may happen to be digits, and a line of hex
is a line of letters that base64 has too.  It is right about envelopes, for reasons that have to
be collected from three places.

* The hex line begins with a prefix that has a digit and a letter, and is looked for first.
* An envelope begins with two bytes that are white space, the tag of its sensor id being a line
  feed and its length a space.  So base64 of it does not begin as hex does.
* The tag of its signature is in neither alphabet and is no white space, so its raw bytes are
  taken for raw bytes.

`sniffed_renderings` has all three, for every envelope that passed its checks.
-/

namespace Robins
namespace Cli

open Protocol

/-! ## Input -/

/-- Error of a command: the exit code of the process, and a message. -/
structure CliError where
  code : UInt8
  message : String
  deriving DecidableEq, Repr

def CliError.runtime (message : String) : CliError := ⟨1, message⟩

/-- Usage or configuration error. -/
def CliError.usage (message : String) : CliError := ⟨2, message⟩

/-- Wire representation for raw byte payloads. -/
inductive ByteFormat where
  | binary
  | base64
  | hex
  deriving DecidableEq, Repr

/-- The crates for base64 and hex. -/
structure ByteCrates where
  base64Encode : Bytes → String
  base64Decode : Bytes → Except String Bytes
  hexDecode : String → Except String Bytes

/-- What is documented of them: the standard alphabet with padding, and each decoder reads what
its encoder writes. -/
structure ByteCrates.Lawful (crates : ByteCrates) : Prop where
  base64Encode (b : Bytes) : Utf8.encode (crates.base64Encode b) = Base64.encode b
  base64Decode (b : Bytes) : crates.base64Decode (Base64.encode b) = .ok b
  hexDecode (b : Bytes) : crates.hexDecode (hexEncode b) = .ok b

/-- `u8::is_ascii_whitespace`. -/
def isAsciiWhitespace (b : UInt8) : Bool := b = 32 || b = 9 || b = 10 || b = 12 || b = 13

/-- `u8::is_ascii_hexdigit`. -/
def isAsciiHexdigit (b : UInt8) : Bool :=
  (48 ≤ b && b ≤ 57) || (65 ≤ b && b ≤ 70) || (97 ≤ b && b ≤ 102)

/-- `u8::is_ascii_alphanumeric`. -/
def isAsciiAlphanumeric (b : UInt8) : Bool :=
  (48 ≤ b && b ≤ 57) || (65 ≤ b && b ≤ 90) || (97 ≤ b && b ≤ 122)

/-- The characters of base64 with its padding. -/
def isBase64 (b : UInt8) : Bool := isAsciiAlphanumeric b || b = 43 || b = 47 || b = 61

def trimmed (raw : Bytes) : Bytes := Trim.trim isAsciiWhitespace raw

/-- Interpret raw bytes as wire bytes. -/
def wireFromInput (crates : ByteCrates) (raw : Bytes) (format : ByteFormat) :
    Except CliError Bytes :=
  match format with
  | .binary => .ok raw
  | .base64 =>
    match crates.base64Decode (trimmed raw) with
    | .ok wire => .ok wire
    | .error reason => .error ⟨3, "invalid base64 input: " ++ reason⟩
  | .hex =>
    match Utf8.decode (trimmed raw) with
    | none => .error ⟨3, "invalid hex input: not valid UTF-8"⟩
    | some text =>
      match strip0x text with
      | .error error => .error ⟨3, "invalid hex input: " ++ error.toText⟩
      | .ok digits =>
        match crates.hexDecode digits with
        | .ok wire => .ok wire
        | .error reason => .error ⟨3, "invalid hex input: " ++ reason⟩

/-- Strict hex: the prefix and an even, positive number of digits. -/
def isHex : Bytes → Bool
  | 48 :: 120 :: digits =>
    !digits.isEmpty && digits.length % 2 = 0 && digits.all isAsciiHexdigit
  | _ => false

/-- Sniff which format raw bytes are encoded in. -/
def sniffByteFormat (crates : ByteCrates) (raw : Bytes) : ByteFormat :=
  let t := trimmed raw
  if isHex t then .hex
  else if (!t.isEmpty && t.all isBase64) && (crates.base64Decode t).isOk then .base64
  else .binary

/-! ## Output -/

/-- Representation of structured messages. -/
inductive ReprFormat where
  | binary
  | base64
  | hex
  | text
  deriving DecidableEq, Repr

/-- How text is coloured, if it is. -/
structure Style where
  bold : String → String
  branch : String → String
  tagLabel : String → String

/-- A bold heading line. -/
def heading (style : Style) (tag title : String) : String :=
  style.tagLabel ("[" ++ tag ++ "]") ++ " " ++ style.bold title ++ "\n"

/-- One line of the tree. -/
def line (style : Style) (indent : ℕ) (isLast : Bool) (tag text : String) : String :=
  String.join (List.replicate indent "    ") ++ style.branch (if isLast then "`--" else "|--") ++
    " " ++ style.tagLabel ("[" ++ tag ++ "]") ++ " " ++ text ++ "\n"

/-- What an envelope is written as. -/
def writeRepr (crates : ByteCrates) (style : Style) (env : SignedEnvelope) (wire : Bytes) :
    ReprFormat → Bytes
  | .binary => wire
  | .base64 => Utf8.encode (crates.base64Encode wire ++ "\n")
  | .hex => Utf8.encode ("0x" ++ hexEncode wire ++ "\n")
  | .text =>
    Utf8.encode (heading style "E" "SignedEnvelope" ++
      line style 0 false "#" ("sensor_id:  0x" ++ hexEncode env.sensorId) ++
      line style 0 false "N" ("nonce:      0x" ++ hexEncode env.nonce) ++
      line style 0 false "M" ("message:    0x" ++ hexEncode env.message) ++
      line style 0 true "S" ("signature:  0x" ++ hexEncode env.signature))

/-! ## Sniffing what was written -/

theorem isAsciiAlphanumeric_of_isAsciiHexdigit {b : UInt8} (h : isAsciiHexdigit b = true) :
    isAsciiAlphanumeric b = true := by
  simp only [isAsciiHexdigit, isAsciiAlphanumeric, Bool.or_eq_true, Bool.and_eq_true,
    decide_eq_true_eq] at h ⊢
  obtain (h | ⟨hlow, hhigh⟩) | ⟨hlow, hhigh⟩ := h
  · exact .inl (.inl h)
  · exact .inl (.inr ⟨hlow, UInt8.le_trans hhigh (by decide)⟩)
  · exact .inr ⟨hlow, UInt8.le_trans hhigh (by decide)⟩

theorem isAsciiAlphanumeric_of_isHex {t : Bytes} (h : isHex t = true) {b : UInt8} (hb : b ∈ t) :
    isAsciiAlphanumeric b = true := by
  unfold isHex at h
  split at h
  · next digits =>
    rw [Bool.and_eq_true, List.all_eq_true] at h
    simp only [List.mem_cons] at hb
    obtain rfl | rfl | hb := hb
    · decide
    · decide
    · exact isAsciiAlphanumeric_of_isAsciiHexdigit (h.2 b hb)
  · exact absurd h (by simp)

/-- A byte that is in neither alphabet and is no white space makes the input raw. -/
theorem sniffByteFormat_of_mem (crates : ByteCrates) {raw : Bytes} {b : UInt8} (hb : b ∈ raw)
    (hspace : isAsciiWhitespace b = false) (halphabet : isBase64 b = false) :
    sniffByteFormat crates raw = .binary := by
  have hkept : b ∈ trimmed raw := Trim.mem_trim hb hspace
  have hhex : isHex (trimmed raw) = false := by
    by_contra h
    have halnum := isAsciiAlphanumeric_of_isHex (by simpa using h) hkept
    rw [isBase64, halnum] at halphabet
    exact Bool.false_ne_true halphabet.symm
  have hbase64 : (trimmed raw).all isBase64 = false :=
    List.all_eq_false.mpr ⟨b, hkept, by simp [halphabet]⟩
  unfold sniffByteFormat
  dsimp only
  rw [hhex, hbase64]
  simp

/-- A line without white space is trimmed to its text. -/
theorem trimmed_line {b : Bytes} (h : ∀ x ∈ b, isAsciiWhitespace x = false) :
    trimmed (b ++ Utf8.encode "\n") = b := by
  have hline : Utf8.encode "\n" = [10] := by decide
  refine Trim.trim_append h fun x hx => ?_
  rw [hline, List.mem_singleton] at hx
  rw [hx]
  decide

theorem isBase64_of_mem_encode {wire : Bytes} {x : UInt8} (h : x ∈ Base64.encode wire) :
    isBase64 x = true ∧ isAsciiWhitespace x = false := by
  have hsymbol : ∀ n < 64, isBase64 (Base64.symbol n) = true ∧
      isAsciiWhitespace (Base64.symbol n) = false := by decide
  obtain rfl | ⟨n, hn, rfl⟩ := Base64.symbol_or_pad_of_mem_encode h
  · decide
  · exact hsymbol n hn

theorem isAsciiHexdigit_of_mem_encode {wire : Bytes} {x : UInt8} (h : x ∈ Hex.encode wire) :
    isAsciiHexdigit x = true ∧ isAsciiWhitespace x = false := by
  have hdigit : ∀ n < 16, isAsciiHexdigit (Hex.digit n) = true ∧
      isAsciiWhitespace (Hex.digit n) = false := by decide
  obtain ⟨n, hn, rfl⟩ := Hex.exists_digit_of_mem_encode h
  exact hdigit n hn

section

variable {crates : ByteCrates} {style : Style} {env : SignedEnvelope} {wire : Bytes}

/-- Base64 of bytes that begin with a line feed, as an envelope does, is taken for base64. -/
theorem wireFromInput_base64 (hcrates : crates.Lawful) (hwire : wire.head? = some 10) :
    let r := writeRepr crates style env wire .base64
    wireFromInput crates r (sniffByteFormat crates r) = .ok wire := by
  have htrimmed : trimmed (writeRepr crates style env wire .base64) = Base64.encode wire := by
    show trimmed (Utf8.encode (crates.base64Encode wire ++ "\n")) = Base64.encode wire
    rw [Utf8.encode_append, hcrates.base64Encode]
    exact trimmed_line fun x hx => (isBase64_of_mem_encode hx).2
  obtain ⟨rest, rfl⟩ : ∃ rest, wire = 10 :: rest := by
    cases wire with
    | nil => cases hwire
    | cons b rest => exact ⟨rest, by rw [Option.some.inj hwire]⟩
  obtain ⟨text, htext⟩ : ∃ text, Base64.encode (10 :: rest) = 67 :: text := by
    have hhead := Base64.head?_encode_cons 10 rest
    cases hencode : Base64.encode (10 :: rest) with
    | nil => simp [hencode] at hhead
    | cons c text =>
      rw [hencode] at hhead
      exact ⟨text, by rw [Option.some.inj hhead]; rfl⟩
  have hhex : isHex (Base64.encode (10 :: rest)) = false := by
    rw [htext]
    rfl
  have hempty : (Base64.encode (10 :: rest)).isEmpty = false := by
    rw [htext]
    rfl
  have hall : (Base64.encode (10 :: rest)).all isBase64 = true :=
    List.all_eq_true.mpr fun x hx => (isBase64_of_mem_encode hx).1
  have hsniff : sniffByteFormat crates (writeRepr crates style env (10 :: rest) .base64) =
      .base64 := by
    unfold sniffByteFormat
    rw [htrimmed]
    dsimp only
    rw [hhex, hempty, hall, hcrates.base64Decode]
    rfl
  dsimp only
  rw [hsniff, wireFromInput, htrimmed, hcrates.base64Decode]

/-- Hex of any bytes is taken for hex, if there are any. -/
theorem wireFromInput_hex (hcrates : crates.Lawful) (hwire : wire ≠ []) :
    let r := writeRepr crates style env wire .hex
    wireFromInput crates r (sniffByteFormat crates r) = .ok wire := by
  have htext : Utf8.encode ("0x" ++ hexEncode wire) = 48 :: 120 :: Hex.encode wire := by
    rw [Utf8.encode_append, encode_hexEncode]
    rfl
  have htrimmed : trimmed (writeRepr crates style env wire .hex) =
      48 :: 120 :: Hex.encode wire := by
    show trimmed (Utf8.encode ("0x" ++ hexEncode wire ++ "\n")) = _
    rw [Utf8.encode_append, htext]
    refine trimmed_line fun x hx => ?_
    simp only [List.mem_cons] at hx
    obtain rfl | rfl | hx := hx
    · decide
    · decide
    · exact (isAsciiHexdigit_of_mem_encode hx).2
  have hempty : (Hex.encode wire).isEmpty = false := by
    have hlength := Hex.length_encode wire
    have hpos := List.length_pos_iff.mpr hwire
    rw [List.isEmpty_eq_false_iff, ← List.length_pos_iff]
    omega
  have hall : (Hex.encode wire).all isAsciiHexdigit = true :=
    List.all_eq_true.mpr fun x hx => (isAsciiHexdigit_of_mem_encode hx).1
  have hsniff : sniffByteFormat crates (writeRepr crates style env wire .hex) = .hex := by
    unfold sniffByteFormat
    rw [htrimmed]
    dsimp only
    rw [isHex, hempty, hall, Hex.length_encode, Nat.mul_mod_right]
    rfl
  dsimp only
  rw [hsniff, wireFromInput, htrimmed, ← htext, Utf8.decode_encode]
  dsimp only
  rw [strip0x, stripPrefix_append]
  dsimp only
  rw [hcrates.hexDecode]

end

/-- An envelope begins with a line feed. -/
theorem head?_encodeEnvelope {e : SignedEnvelope} (h : e.sensorId ≠ []) :
    (Wire.encodeEnvelope e).head? = some 10 := by
  have htag : ProtoWire.encodeVarint (1 * 8 + 2) = [10] := by
    rw [ProtoWire.encodeVarint]
    rfl
  rw [Wire.encodeEnvelope, Wire.envelopeFields, Wire.bytesField, if_neg h, ProtoWire.encodeFields]
  simp only [List.append_assoc, List.flatMap_cons, ProtoWire.Field.encode,
    ProtoWire.Value.wireType, htag, List.cons_append, List.head?_cons]

theorem tag_mem_encodeEnvelope {e : SignedEnvelope} (h : e.signature ≠ []) :
    34 ∈ Wire.encodeEnvelope e := by
  have htag : ProtoWire.encodeVarint (4 * 8 + 2) = [34] := by
    rw [ProtoWire.encodeVarint]
    rfl
  have hslot : Wire.bytesField 4 e.signature = [⟨4, .lengthDelimited e.signature⟩] := by
    rw [Wire.bytesField, if_neg h]
  have hfield : ⟨4, .lengthDelimited e.signature⟩ ∈ Wire.envelopeFields e := by
    rw [Wire.envelopeFields, List.mem_append, hslot]
    exact .inr List.mem_cons_self
  refine List.mem_flatMap.mpr ⟨_, hfield, ?_⟩
  simp [ProtoWire.Field.encode, ProtoWire.Value.wireType, htag]

/-- **Sniffing undoes every rendering.**  Of an envelope that passed its checks, the raw bytes,
the base64 line and the hex line are each recognized for what they are, and read as the bytes
of the envelope. -/
theorem sniffed_renderings {crates : ByteCrates} (hcrates : crates.Lawful) {prost : Prost}
    (hprost : ∀ e, prost.encodeEnvelope e = Wire.encodeEnvelope e) (style : Style)
    {e : SignedEnvelope} {sensorId : SensorId} (he : validateEnvelope e = .ok sensorId)
    {format : ReprFormat} (hformat : format ≠ .text) :
    let w := prost.encodeEnvelope e
    let r := writeRepr crates style e w format
    wireFromInput crates r (sniffByteFormat crates r) = .ok w := by
  obtain ⟨hwell, -⟩ := validateEnvelope_eq_ok_iff.mp he
  have hsensorId : e.sensorId ≠ [] := fun hnil => by
    have hlength := hwell.sensorId_length
    rw [hnil] at hlength
    cases hlength
  have hsignature : e.signature ≠ [] := fun hnil => by
    have hlength := hwell.signature_length
    rw [hnil] at hlength
    cases hlength
  dsimp only
  rw [hprost]
  have hhead := head?_encodeEnvelope hsensorId
  cases format with
  | binary =>
    show wireFromInput crates (Wire.encodeEnvelope e)
      (sniffByteFormat crates (Wire.encodeEnvelope e)) = _
    rw [sniffByteFormat_of_mem crates (tag_mem_encodeEnvelope hsignature) (by decide) (by decide)]
    rfl
  | base64 => exact wireFromInput_base64 hcrates hhead
  | hex => exact wireFromInput_hex hcrates fun hnil => by simp [hnil] at hhead
  | text => exact absurd rfl hformat

/-- Crates that do what is documented of them. -/
def plainByteCrates : ByteCrates where
  base64Encode b := Utf8.ascii (Base64.encode b)
  base64Decode b := (Base64.decode b).elim (.error "Invalid padding") .ok
  hexDecode text := (Hex.decode (Utf8.encode text)).elim (.error "Odd number of digits") .ok

theorem plainByteCrates_lawful : plainByteCrates.Lawful where
  base64Encode b := Utf8.encode_ascii fun x hx => by
    have hsymbol : ∀ n < 64, (Base64.symbol n).toNat < 128 := by decide
    obtain rfl | ⟨n, hn, rfl⟩ := Base64.symbol_or_pad_of_mem_encode hx
    · decide
    · exact hsymbol n hn
  base64Decode b := by
    show (Base64.decode (Base64.encode b)).elim _ _ = _
    rw [Base64.decode_encode]
    rfl
  hexDecode b := by
    show (Hex.decode (Utf8.encode (hexEncode b))).elim _ _ = _
    rw [encode_hexEncode, Hex.decode_encode]
    rfl

/-- Text without colour. -/
def plainStyle : Style := ⟨id, id, id⟩

/-- A signed envelope whose message is white space. -/
def blankEnvelope : SignedEnvelope :=
  ⟨List.replicate 32 0x20, List.replicate 16 0x0A, [0x20], List.replicate 64 0x20⟩

theorem sniffed_renderings_blankEnvelope :
    wireFromInput plainByteCrates
      (writeRepr plainByteCrates plainStyle blankEnvelope (Wire.wire.encodeEnvelope blankEnvelope)
        .binary)
      (sniffByteFormat plainByteCrates
        (writeRepr plainByteCrates plainStyle blankEnvelope
          (Wire.wire.encodeEnvelope blankEnvelope) .binary)) =
      .ok (Wire.wire.encodeEnvelope blankEnvelope) :=
  have hvalid : validateEnvelope blankEnvelope = .ok ⟨FixedBytes.replicate 32 0x20⟩ := by decide
  sniffed_renderings plainByteCrates_lawful (fun _ => rfl) plainStyle hvalid (by decide)

end Cli
end Robins
