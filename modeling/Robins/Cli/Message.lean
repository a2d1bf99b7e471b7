import Robins.Cli.Format
import Robins.Crypto.Cipher
import Robins.Protocol.SensorCodec

/-!
# Sensor messages as text

A decoded message is printed as a tree: what it is about, then its readings, first those in the
clear, then one line for each private entry, with its readings below it where it could be
decrypted.  An entry that cannot be decrypted is reported on `stderr`, and the printing goes on
with the next.

The line of a private entry has the address of its sender, and the address is made of 32 bytes.
The decoder does not ask for 32 bytes, so a message may be decoded that has an entry with another
number of them; printing it panics, whether or not anything is to be decrypted.

A panic ends the printing, so here there is no result where the source panics, and `renders_iff`
says when there is one: exactly if every private entry names its sender with 32 bytes.  It also
says what is then on `stderr`: the warnings about the entries that could not be opened, in their
order, and nothing else.
-/

namespace Robins
namespace Cli

open Protocol Crypto

/-! ## Readings -/

/-- What text is made with. -/
structure Printer (F : Type) where
  style : Style
  floats : Floats F
  toSs58 : SensorId → String
  /-- `{:?}` of a string. -/
  debugText : String → String

variable {F : Type}

section

variable (floats : Floats F)

def centiToF64 (value : Int32) : F := floats.div (floats.ofInt32 value) (floats.ofNat 100)

def centiuToF64 (value : UInt32) : F := floats.div (floats.ofUInt32 value) (floats.ofNat 100)

def deciToF64 (value : UInt32) : F := floats.div (floats.ofUInt32 value) (floats.ofNat 10)

def formatGps (g : Gps F) : String :=
  "gps lat=" ++ floats.toFixed 5 g.lat ++ " lon=" ++ floats.toFixed 5 g.lon ++ " height_m=" ++
    floats.toFixed 1 g.heightM

def formatTemperature (t : Temperature) : String :=
  "temperature=" ++ floats.toFixed 2 (centiToF64 floats t.centiCelsius) ++ "°C"

def formatHumidity (h : Humidity) : String :=
  "humidity=" ++ floats.toFixed 2 (centiuToF64 floats h.centiPercent) ++ "%"

/-- `format_bme280` and `format_bme680`. -/
def formatBme : Option BmeMeasurement → String
  | some (.temperature t) => formatTemperature floats t
  | some (.humidity h) => formatHumidity floats h
  | some (.pressure p) => "pressure=" ++ floats.toFixed 2 (deciToF64 floats p.deciPascal) ++ "Pa"
  | none => "(unset)"

def formatScd41 (s : Scd41) : String :=
  match s.measurement with
  | some (.co2 c) => "co2=" ++ toString c.ppm.toNat ++ "ppm"
  | some (.temperature t) => formatTemperature floats t
  | some (.humidity h) => formatHumidity floats h
  | none => "(unset)"

def formatSds011 (s : Sds011) : String :=
  match s.measurement with
  | some (.pm25 p) => "pm25=" ++ floats.toFixed 1 (deciToF64 floats p.deciUgM3) ++ "ug/m3"
  | some (.pm10 p) => "pm10=" ++ floats.toFixed 1 (deciToF64 floats p.deciUgM3) ++ "ug/m3"
  | none => "(unset)"

def formatIcs43434 (i : Ics43434) : String :=
  match i.measurement with
  | some (.noiseMax n) => "noise_max=" ++ toString n.db.toNat ++ "dB"
  | some (.noiseAvg n) => "noise_avg=" ++ toString n.db.toNat ++ "dB"
  | none => "(unset)"

/-- Render one reading of the `urban` board. -/
def formatUrbanSensor (s : UrbanSensor F) : String :=
  match s.sensor with
  | some (.gps g) => formatGps floats g
  | some (.bme280 b) => "bme280 " ++ formatBme floats b.measurement
  | some (.sds011 s) => "sds011 " ++ formatSds011 floats s
  | some (.ics43434 i) => "ics43434 " ++ formatIcs43434 i
  | none => "(unset)"

/-- Render one reading of the `insight` board. -/
def formatInsightSensor (s : InsightSensor F) : String :=
  match s.sensor with
  | some (.gps g) => formatGps floats g
  | some (.bme680 b) => "bme680 " ++ formatBme floats b.measurement
  | some (.scd41 s) => "scd41 " ++ formatScd41 floats s
  | none => "(unset)"

end

/-! ## Private entries -/

/-- Decrypt the ciphertext of an entry with a key given by its secret URI. -/
def decryptCiphertext (crates : Crates) (entry : Encrypted) (suri : String) :
    Except CliError Bytes :=
  match EncryptionAlgorithm.fromStr entry.algorithm with
  | .error reason =>
    .error (.runtime ("unsupported encryption algorithm `" ++ entry.algorithm ++ "`: " ++ reason))
  | .ok algorithm =>
    match FixedBytes.ofSlice 32 entry.sender with
    | none => .error ⟨3, "private entry `from` must be 32 bytes"⟩
    | some sender =>
      match Signer.fromSuri crates .ed25519 suri with
      | .error reason => .error (.runtime ("failed to initialise cipher: " ++ reason))
      | .ok keypair =>
        match keypair.decrypt crates (.v1 algorithm sender entry.nonce entry.ciphertext) none with
        | .error reason => .error (.runtime ("decryption failed: " ++ reason))
        | .ok plaintext => .ok plaintext

/-- Decrypt an entry and decode the readings in it. -/
def decryptEntry {Sensor : Type} (crates : Crates)
    (decode : Bytes → Except String (List Sensor)) (entry : Encrypted) (suri : String) :
    Except CliError (List Sensor) :=
  match decryptCiphertext crates entry suri with
  | .error error => .error error
  | .ok plaintext =>
    match decode plaintext with
    | .error reason => .error ⟨3, "invalid decrypted payload: " ++ reason⟩
    | .ok sensors => .ok sensors

/-! ## Printing -/

/-- What is printed, on `stdout` or on `stderr`. -/
inductive Printed where
  | out (text : String)
  | err (text : String)
  deriving DecidableEq, Repr

/-- The lines of the readings of an entry. -/
def decryptedLines {Sensor : Type} (printer : Printer F) (isLast : Bool)
    (format : Sensor → String) (sensors : List Sensor) : List Printed :=
  sensors.mapIdx fun i sensor =>
    .out (line printer.style 1 (isLast && i + 1 == sensors.length) "D"
      ("decrypted: " ++ format sensor))

/-- The warning about an entry. -/
def decryptWarning (printer : Printer F) (entry : Encrypted) (error : CliError) : Printed :=
  .err ("warning: failed to decrypt private entry from 0x" ++ hexEncode entry.sender ++
    ": CliError \x7b code: " ++ toString error.code.toNat ++ ", message: " ++
    printer.debugText error.message ++ " \x7d\n")

/-- Print a private entry.  There is no result when it panics. -/
def printPrivateEntry {Sensor : Type} (printer : Printer F) (crates : Crates)
    (decode : Bytes → Except String (List Sensor)) (format : Sensor → String) (isLast : Bool)
    (entry : Encrypted) (decryptSuri : Option String) : Option (List Printed) :=
  let decrypted := decryptSuri.map (decryptEntry crates decode entry)
  match SensorId.fromSlice entry.sender with
  -- `expect` of the address
  | .error _ => none
  | .ok sender =>
    let head := Printed.out (line printer.style 0 (isLast && decrypted.isNone) "E"
      ("private: from=" ++ printer.toSs58 sender ++ " algorithm=" ++ entry.algorithm))
    some (head :: match decrypted with
      | some (.ok sensors) => decryptedLines printer isLast format sensors
      | some (.error error) => [decryptWarning printer entry error]
      | none => [])

/-- The lines of the readings in the clear, of so many lines in all. -/
def publicLines {Sensor : Type} (printer : Printer F) (format : Sensor → String) (total : ℕ)
    (sensors : List Sensor) : List Printed :=
  sensors.mapIdx fun i sensor =>
    .out (line printer.style 0 (i + 1 == total) "S" ("public:  " ++ format sensor))

/-- Print the private entries after so many lines. -/
def printPrivateEntries {Sensor : Type} (printer : Printer F) (crates : Crates)
    (decode : Bytes → Except String (List Sensor)) (format : Sensor → String)
    (decryptSuri : Option String) (total : ℕ) : ℕ → List Encrypted → Option (List Printed)
  | _, [] => some []
  | n, entry :: rest =>
    match printPrivateEntry printer crates decode format (n + 1 == total) entry decryptSuri with
    | none => none
    | some lines =>
      (printPrivateEntries printer crates decode format decryptSuri total (n + 1) rest).map
        (lines ++ ·)

def printReadings {Sensor : Type} (printer : Printer F) (crates : Crates)
    (decode : Bytes → Except String (List Sensor)) (format : Sensor → String)
    (readings : Readings Sensor) (decryptSuri : Option String) : Option (List Printed) :=
  let total := readings.publicReadings.length + readings.privateReadings.length
  (printPrivateEntries printer crates decode format decryptSuri total
    readings.publicReadings.length readings.privateReadings).map
      (publicLines printer format total readings.publicReadings ++ ·)

section

variable (printer : Printer F) (crates : Crates) (prost : SensorProst F)

/-- Print the readings of the `urban` board. -/
def printUrban (urban : Readings (UrbanSensor F)) (decryptSuri : Option String) :
    Option (List Printed) :=
  printReadings printer crates prost.decodeEncryptedUrban (formatUrbanSensor printer.floats) urban
    decryptSuri

/-- Print the readings of the `insight` board. -/
def printInsight (insight : Readings (InsightSensor F)) (decryptSuri : Option String) :
    Option (List Printed) :=
  printReadings printer crates prost.decodeEncryptedInsight (formatInsightSensor printer.floats)
    insight decryptSuri

def metaLines (metadata : Option Meta) : List Printed :=
  match metadata with
  | none => []
  | some m =>
    [.out (line printer.style 0 false "#" ("node_id:   " ++ toString m.nodeId.toNat)),
      .out (line printer.style 0 false "T" ("timestamp: " ++ toString m.timestamp.toNat))]

def printMessage (message : Message F) (decryptSuri : Option String) : Option (List Printed) :=
  let head := .out (heading printer.style "M" "Message") :: metaLines printer message.metadata
  match message.payload with
  | some (.urban urban) => (printUrban printer crates prost urban decryptSuri).map (head ++ ·)
  | some (.insight insight) =>
    (printInsight printer crates prost insight decryptSuri).map (head ++ ·)
  | none => some (head ++ [.out (line printer.style 0 true "P" "(no payload)")])

/-- Write wire bytes as text: an error, or what is printed, unless it panics. -/
def writeText (wire : Bytes) (decryptSuri : Option String) :
    Except ProtocolError (Option (List Printed)) :=
  (decodeSensorMessage prost wire).map fun message =>
    printMessage printer crates prost message decryptSuri

end

/-! ## Warnings -/

/-- Whether it is printed on `stderr`. -/
def Printed.isErr : Printed → Bool
  | .out _ => false
  | .err _ => true

/-- The warning about an entry that is to be decrypted and cannot be. -/
def entryWarning {Sensor : Type} (printer : Printer F) (crates : Crates)
    (decode : Bytes → Except String (List Sensor)) (decryptSuri : Option String)
    (entry : Encrypted) : Option Printed :=
  match decryptSuri.map (decryptEntry crates decode entry) with
  | some (.error error) => some (decryptWarning printer entry error)
  | _ => none

/-- The warnings about the entries of a message. -/
def messageWarnings (printer : Printer F) (crates : Crates) (prost : SensorProst F)
    (message : Message F) (decryptSuri : Option String) : List Printed :=
  match message.payload with
  | some (.urban urban) =>
    urban.privateReadings.filterMap
      (entryWarning printer crates prost.decodeEncryptedUrban decryptSuri)
  | some (.insight insight) =>
    insight.privateReadings.filterMap
      (entryWarning printer crates prost.decodeEncryptedInsight decryptSuri)
  | none => []

section

variable {printer : Printer F} {crates : Crates} {prost : SensorProst F} {Sensor : Type}
  {decode : Bytes → Except String (List Sensor)} {format : Sensor → String}
  {decryptSuri : Option String}

theorem filter_isErr_out {α : Type} (f : ℕ → α → String) (l : List α) :
    (l.mapIdx fun i a => Printed.out (f i a)).filter Printed.isErr = [] := by
  rw [List.filter_eq_nil_iff]
  intro printed hprinted
  obtain ⟨i, hi, rfl⟩ := List.mem_mapIdx.mp hprinted
  exact Bool.false_ne_true

/-- An entry with the address of a sender is printed, with its warning if there is one. -/
theorem printPrivateEntry_of_length {entry : Encrypted} (isLast : Bool)
    (h : entry.sender.length = 32) :
    ∃ lines, printPrivateEntry printer crates decode format isLast entry decryptSuri =
        some lines ∧
      lines.filter Printed.isErr =
        (entryWarning printer crates decode decryptSuri entry).toList := by
  have hsender : SensorId.fromSlice entry.sender = .ok ⟨⟨entry.sender, h⟩⟩ :=
    SensorId.fromSlice_eq_ok_iff.mpr rfl
  unfold printPrivateEntry entryWarning
  rw [hsender]
  refine ⟨_, rfl, ?_⟩
  rw [List.filter_cons_of_neg Bool.false_ne_true]
  cases decryptSuri.map (decryptEntry crates decode entry) with
  | none => rfl
  | some decrypted =>
    cases decrypted with
    | error error => rfl
    | ok sensors => exact filter_isErr_out _ sensors

/-- Any other entry panics. -/
theorem printPrivateEntry_of_length_ne {entry : Encrypted} (isLast : Bool)
    (h : entry.sender.length ≠ 32) :
    printPrivateEntry printer crates decode format isLast entry decryptSuri = none := by
  unfold printPrivateEntry
  cases hsender : SensorId.fromSlice entry.sender with
  | error error => rfl
  | ok sender =>
    have hlength := sender.bytes.2
    rw [SensorId.fromSlice_eq_ok_iff.mp hsender] at hlength
    exact absurd hlength h

/-- The entries are printed one after another, each with its warning. -/
theorem printPrivateEntries_of_length {total n : ℕ} {entries : List Encrypted}
    (h : ∀ entry ∈ entries, entry.sender.length = 32) :
    ∃ lines, printPrivateEntries printer crates decode format decryptSuri total n entries =
        some lines ∧
      lines.filter Printed.isErr =
        entries.filterMap (entryWarning printer crates decode decryptSuri) := by
  induction entries generalizing n with
  | nil => exact ⟨[], rfl, rfl⟩
  | cons entry rest ih =>
    obtain ⟨hentry, hrest⟩ := List.forall_mem_cons.mp h
    obtain ⟨lines, hlines, hwarning⟩ : ∃ lines, printPrivateEntry printer crates decode format
        (n + 1 == total) entry decryptSuri = some lines ∧ _ :=
      printPrivateEntry_of_length _ hentry
    obtain ⟨after, hafter, hwarnings⟩ := ih (n := n + 1) hrest
    refine ⟨lines ++ after, ?_, ?_⟩
    · rw [printPrivateEntries, hlines, hafter]
      rfl
    · rw [List.filter_append, hwarning, hwarnings]
      cases hwarned : entryWarning printer crates decode decryptSuri entry with
      | none => rw [List.filterMap_cons_none hwarned]; rfl
      | some warning => rw [List.filterMap_cons_some hwarned]; rfl

/-- Printing the entries gets past all of them only if each has the address of a sender. -/
theorem length_of_printPrivateEntries {total n : ℕ} {entries : List Encrypted}
    {lines : List Printed}
    (h : printPrivateEntries printer crates decode format decryptSuri total n entries =
      some lines) : ∀ entry ∈ entries, entry.sender.length = 32 := by
  induction entries generalizing n lines with
  | nil => simp
  | cons entry rest ih =>
    rw [printPrivateEntries] at h
    by_cases hentry : entry.sender.length = 32
    · obtain ⟨_, hlines, -⟩ : ∃ lines, printPrivateEntry printer crates decode format
          (n + 1 == total) entry decryptSuri = some lines ∧ _ :=
        printPrivateEntry_of_length _ hentry
      rw [hlines] at h
      obtain ⟨after, hafter, -⟩ := Option.map_eq_some_iff.mp h
      exact List.forall_mem_cons.mpr ⟨hentry, ih hafter⟩
    · rw [printPrivateEntry_of_length_ne _ hentry] at h
      cases h

/-- The readings of a board are printed, after other lines, exactly if each private entry has the
address of a sender. -/
theorem printReadings_iff {readings : Readings Sensor} {head : List Printed}
    (hhead : head.filter Printed.isErr = []) :
    (∃ printed, (printReadings printer crates decode format readings decryptSuri).map
        (head ++ ·) = some printed ∧
        printed.filter Printed.isErr = readings.privateReadings.filterMap
          (entryWarning printer crates decode decryptSuri)) ↔
      ∀ entry ∈ readings.privateReadings, entry.sender.length = 32 := by
  unfold printReadings
  rw [Option.map_map]
  constructor
  · rintro ⟨lines, hlines, -⟩
    obtain ⟨after, hafter, -⟩ := Option.map_eq_some_iff.mp hlines
    exact length_of_printPrivateEntries hafter
  · intro h
    obtain ⟨after, hafter, hwarnings⟩ := printPrivateEntries_of_length h
    refine ⟨_, Option.map_eq_some_iff.mpr ⟨after, hafter, rfl⟩, ?_⟩
    have hpublic := filter_isErr_out (fun i sensor => line printer.style 0
      (i + 1 == readings.publicReadings.length + readings.privateReadings.length) "S"
        ("public:  " ++ format sensor)) readings.publicReadings
    show (head ++ (publicLines printer format _ _ ++ after)).filter Printed.isErr = _
    rw [List.filter_append, List.filter_append, hhead, hwarnings]
    exact congrArg (· ++ _) hpublic

/-- Nothing is a warning above the readings. -/
theorem filter_isErr_metaLines (metadata : Option Meta) :
    (.out (heading printer.style "M" "Message") :: metaLines printer metadata :
      List Printed).filter Printed.isErr = [] := by
  cases metadata with
  | none => rfl
  | some m => rfl

/-- **When a message is printed.**  A message that was decoded is printed without panicking,
and each private entry that cannot be opened is a warning and nothing else, if and only if
every private entry names its sender with 32 bytes. -/
theorem renders_iff (printer : Printer F) (crates : Crates) (prost : SensorProst F) {wire : Bytes}
    {message : Message F} (hdecode : decodeSensorMessage prost wire = .ok message)
    (decryptSuri : Option String) :
    (∃ printed, writeText printer crates prost wire decryptSuri = .ok (some printed) ∧
        printed.filter Printed.isErr =
          messageWarnings printer crates prost message decryptSuri) ↔
      ∀ entry ∈ message.privateReadings, entry.sender.length = 32 := by
  have hwrite : ∀ printed, writeText printer crates prost wire decryptSuri = .ok (some printed) ↔
      printMessage printer crates prost message decryptSuri = some printed := fun printed => by
    rw [writeText, hdecode]
    exact ⟨Except.ok.inj, congrArg Except.ok⟩
  simp only [hwrite]
  obtain ⟨metadata, _ | urban | insight⟩ := message
  · refine iff_of_true ⟨_, rfl, ?_⟩ fun entry hentry => absurd hentry List.not_mem_nil
    rw [List.filter_append, filter_isErr_metaLines]
    rfl
  · exact printReadings_iff (filter_isErr_metaLines metadata)
  · exact printReadings_iff (filter_isErr_metaLines metadata)

end

/-- Numbers as their bits, for messages without coordinates. -/
def bitFloats : Floats UInt64 where
  parse _ := .error "invalid float literal"
  toFixed _ x := toString x.toNat
  ofBits := id
  toBits := id
  isZero x := x = 0 || x = 0x8000000000000000
  ofNat := UInt64.ofNat
  ofInt32 x := UInt64.ofInt x.toInt
  ofUInt32 x := x.toUInt64
  toInt32 x := Int32.ofNat x.toNat
  toUInt32 x := x.toUInt32
  mul := (· * ·)
  div := (· / ·)
  max := Max.max
  round := id

/-- Text for messages whose sender is zero. -/
def plainPrinter : Printer UInt64 where
  style := plainStyle
  floats := bitFloats
  toSs58 _ := "4CC7GkKuJJzFzswqz39m5qWbgXaQks9f36jCgsadpN2c1X6t"
  debugText text := "\"" ++ text ++ "\""

/-- A message with one private entry, whose sender is so many zeros. -/
def sentByZeros (n : UInt8) : Bytes :=
  [0x12, n + 4, 0x12, n + 2, 0x1A, n] ++ List.replicate n.toNat 0

theorem decode_sentByZeros_32 :
    decodeSensorMessage (Wire.sensorWire bitFloats) (sentByZeros 32) =
      .ok ⟨none, some (.urban ⟨[], [⟨0, "", List.replicate 32 0, [], []⟩]⟩)⟩ := by
  decide

theorem decode_sentByZeros_0 :
    decodeSensorMessage (Wire.sensorWire bitFloats) (sentByZeros 0) =
      .ok ⟨none, some (.urban ⟨[], [⟨0, "", [], [], []⟩]⟩)⟩ := by
  decide

theorem renders_sentByZeros :
    ∃ printed, writeText plainPrinter (devCrates []) (Wire.sensorWire bitFloats) (sentByZeros 32)
      (some "//Bob") = .ok (some printed) ∧
        printed.filter Printed.isErr = messageWarnings plainPrinter (devCrates [])
          (Wire.sensorWire bitFloats) ⟨none, some (.urban ⟨[],
            [⟨0, "", List.replicate 32 0, [], []⟩]⟩)⟩ (some "//Bob") :=
  (renders_iff plainPrinter (devCrates []) _ decode_sentByZeros_32 _).mpr (by decide)

/-- A sender of no bytes. -/
theorem writeText_panics :
    writeText plainPrinter (devCrates []) (Wire.sensorWire bitFloats) (sentByZeros 0) none =
      .ok none := by
  rw [writeText, decode_sentByZeros_0]
  rfl

end Cli
end Robins
