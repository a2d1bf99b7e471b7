import Robins.Cli.Message
import Robins.Lib.Grouping

/-!
# Compact measurements

A message is written on the command line as one item for each measurement, for everyone or, after
`private:` and a recipient, for one party.  Private measurements of one recipient are encrypted
together.

## Groups and keys

The groups are made by the text of the recipient, and the text is resolved to a key only when a
group is encrypted.  One key has several texts: an address or hex digits, in either case, with
white space around.  So there is one ciphertext for each text.  `eq_of_parseReadings` says this of
every list of items that is accepted, with the readings of each group and the order of the groups.

Whether there is one for each key is then a question about a list of texts and what they stand
for, and not about encryption.  `Grouping` answers it: if no two texts stand for one key, grouping
by text and grouping by key give the same groups in the same order; if two do, there are fewer
keys than texts, and so too many ciphertexts.  `oneCiphertextPerRecipient_iff` is this for either
board.

## Keys and readings of a board

`Side` has what the two boards do not share: their readings, how these are built from an item and
encoded, and where they stand in the message.  All that follows is stated once, with a side as a
parameter.
-/

namespace Robins
namespace Cli

open Protocol Crypto

/-! ## Items -/

inductive Board where
  | urban
  | insight
  deriving DecidableEq, Repr

/-- The source device of a measurement. -/
inductive SensorKind where
  | gps
  | bme280
  | bme680
  | scd41
  | sds011
  | ics43434
  deriving DecidableEq, Repr

namespace SensorKind

/-- The kinds that produce scalar measurements. -/
def scalarSensors : List SensorKind := [bme280, bme680, scd41, sds011, ics43434]

def parse (s : String) : Option SensorKind :=
  match s with
  | "bme280" => some bme280
  | "bme680" => some bme680
  | "scd41" => some scd41
  | "sds011" => some sds011
  | "ics43434" => some ics43434
  | _ => none

/-- The board this kind belongs to; for `gps`, which is on both, this is not asked. -/
def board : SensorKind → Option Board
  | bme280 | sds011 | ics43434 => some .urban
  | bme680 | scd41 => some .insight
  | gps => none

/-- The names of the measurements this kind can produce. -/
def measurements : SensorKind → List String
  | bme280 | bme680 => ["temperature", "humidity", "pressure"]
  | scd41 => ["co2", "temperature", "humidity"]
  | sds011 => ["pm25", "pm10"]
  | ics43434 => ["noise_max", "noise_avg"]
  | gps => []

/-- `sensor_name` -/
def name : SensorKind → String
  | gps => "gps"
  | bme280 => "bme280"
  | bme680 => "bme680"
  | scd41 => "scd41"
  | sds011 => "sds011"
  | ics43434 => "ics43434"

end SensorKind

/-- `board_name` -/
def Board.name : Board → String
  | urban => "urban"
  | insight => "insight"

/-- Resolve a short measurement alias. -/
def canonicalMeasurement (name : String) : String :=
  match name with
  | "temp" => "temperature"
  | other => other

/-- A resolved value. -/
inductive Value (F : Type) where
  | measurement (name : String) (value : F)
  | gps (lat lon heightM : F)
  deriving DecidableEq, Repr

structure Item (F : Type) where
  recipient : Option String
  kind : SensorKind
  value : Value F
  deriving DecidableEq, Repr

/-- `str::split_once` -/
def splitOnce (sep : Char) (s : String) : Option (String × String) :=
  match s.toList.dropWhile (· ≠ sep) with
  | [] => none
  | _ :: rest => some (String.ofList (s.toList.takeWhile (· ≠ sep)), String.ofList rest)

/-- `str::split`, on characters. -/
def splitAll (sep : Char) : List Char → List (List Char)
  | [] => [[]]
  | c :: rest =>
    match splitAll sep rest with
    | [] => [[]]
    | part :: parts => if c = sep then [] :: part :: parts else (c :: part) :: parts

variable {F : Type}

section

variable (floats : Floats F)

/-- The recipient of an item and the rest of its left side. -/
def parseRecipient (lhs : String) : Except String (Option String × String) :=
  match stripPrefix "private:" lhs with
  | none => .ok (none, lhs)
  | some rest =>
    match splitOnce '/' rest with
    | none => .error "`private:` requires `<recipient>/<measurement>`"
    | some (recipient, tag) => .ok (some recipient, tag)

def parseCoordinate (s : String) : Except String F :=
  match floats.parse s with
  | .ok x => .ok x
  | .error reason => .error ("invalid gps coordinate `" ++ s ++ "`: " ++ reason)

/-- Parse the value of `gps`: two or three coordinates. -/
def parseGps (text : String) : Except String (Value F) :=
  let coords := (splitAll ',' text.toList).map fun part => trimText (String.ofList part)
  match coords with
  | [lat, lon] => do
    return .gps (← parseCoordinate floats lat) (← parseCoordinate floats lon)
      (← parseCoordinate floats "0")
  | [lat, lon, heightM] => do
    return .gps (← parseCoordinate floats lat) (← parseCoordinate floats lon)
      (← parseCoordinate floats heightM)
  | _ => .error "`gps` expects `lat,lon[,height_m]`"

/-- The sensor a tag names, if it does, and the measurement. -/
def parseHint (tag : String) : Except String (Option SensorKind × String) :=
  match splitOnce '.' tag with
  | none => .ok (none, tag)
  | some (sensor, measurement) =>
    match SensorKind.parse sensor with
    | none => .error ("unknown sensor `" ++ sensor ++ "`")
    | some kind => .ok (some kind, measurement)

/-- The sensors of a board that produce a measurement. -/
def candidates (board : Board) (hint : Option SensorKind) (measurement : String) :
    List SensorKind :=
  SensorKind.scalarSensors.filter fun kind =>
    kind.board == some board && hint.all (· == kind) && kind.measurements.contains measurement

/-- The sensor of a measurement. -/
def resolveKind (board : Board) (hint : Option SensorKind) (measurement : String) :
    Except String SensorKind :=
  match candidates board hint measurement with
  | [kind] => .ok kind
  | [] =>
    .error ("no sensor produces measurement `" ++ measurement ++ "` on the " ++ board.name ++
      " board")
  | many =>
    .error ("ambiguous measurement `" ++ measurement ++ "` on " ++ board.name ++
      " board; specify " ++ " or ".intercalate
        (many.map fun kind => "`" ++ kind.name ++ "." ++ measurement ++ "`"))

def parseItem (board : Board) (raw : String) : Except String (Item F) :=
  match splitOnce '=' raw with
  | none => .error "expected `<measurement>=<value>`"
  | some (lhs, text) => do
    let (recipient, tag) ← parseRecipient lhs
    if tag = "gps" then
      return ⟨recipient, .gps, ← parseGps floats text⟩
    let (hint, short) ← parseHint tag
    let measurement := canonicalMeasurement short
    let value ← match floats.parse (trimText text) with
      | .ok x => .ok x
      | .error reason => .error ("invalid value `" ++ text ++ "`: " ++ reason)
    if hint.any (·.board ≠ some board) then
      throw ("sensor `" ++ ((splitOnce '.' tag).map Prod.fst).getD "" ++
        "` does not belong to the " ++ board.name ++ " board")
    return ⟨recipient, ← resolveKind board hint measurement, .measurement measurement value⟩

/-! ## Readings of a board -/

def f64ToCenti (value : F) : Int32 :=
  floats.toInt32 (floats.round (floats.mul value (floats.ofNat 100)))

def f64ToCentiu (value : F) : UInt32 :=
  floats.toUInt32 (floats.max (floats.round (floats.mul value (floats.ofNat 100))) (floats.ofNat 0))

def f64ToDeciu (value : F) : UInt32 :=
  floats.toUInt32 (floats.max (floats.round (floats.mul value (floats.ofNat 10))) (floats.ofNat 0))

def f64ToU32 (value : F) : UInt32 :=
  floats.toUInt32 (floats.max (floats.round value) (floats.ofNat 0))

/-- `bme280_measurement` and `bme680_measurement`. -/
def bmeMeasurement (kind : SensorKind) (name : String) (value : F) :
    Except CliError BmeMeasurement :=
  match name with
  | "temperature" => .ok (.temperature ⟨f64ToCenti floats value⟩)
  | "humidity" => .ok (.humidity ⟨f64ToCentiu floats value⟩)
  | "pressure" => .ok (.pressure ⟨f64ToDeciu floats value⟩)
  | other => .error (.usage (kind.name ++ " has no measurement `" ++ other ++ "`"))

def scd41Measurement (name : String) (value : F) : Except CliError Scd41 :=
  match name with
  | "co2" => .ok ⟨some (.co2 ⟨f64ToU32 floats value⟩)⟩
  | "temperature" => .ok ⟨some (.temperature ⟨f64ToCenti floats value⟩)⟩
  | "humidity" => .ok ⟨some (.humidity ⟨f64ToCentiu floats value⟩)⟩
  | other => .error (.usage ("scd41 has no measurement `" ++ other ++ "`"))

def sds011Measurement (name : String) (value : F) : Except CliError Sds011 :=
  match name with
  | "pm25" => .ok ⟨some (.pm25 ⟨f64ToDeciu floats value⟩)⟩
  | "pm10" => .ok ⟨some (.pm10 ⟨f64ToDeciu floats value⟩)⟩
  | other => .error (.usage ("sds011 has no measurement `" ++ other ++ "`"))

def ics43434Measurement (name : String) (value : F) : Except CliError Ics43434 :=
  match name with
  | "noise_max" => .ok ⟨some (.noiseMax ⟨f64ToU32 floats value⟩)⟩
  | "noise_avg" => .ok ⟨some (.noiseAvg ⟨f64ToU32 floats value⟩)⟩
  | other => .error (.usage ("ics43434 has no measurement `" ++ other ++ "`"))

def buildUrban (kind : SensorKind) (value : Value F) : Except CliError (UrbanSensor F) :=
  match kind, value with
  | .gps, .gps lat lon heightM => .ok ⟨some (.gps ⟨lat, lon, heightM⟩)⟩
  | .bme280, .measurement name x =>
    (bmeMeasurement floats .bme280 name x).map fun m => ⟨some (.bme280 ⟨some m⟩)⟩
  | .sds011, .measurement name x =>
    (sds011Measurement floats name x).map fun s => ⟨some (.sds011 s)⟩
  | .ics43434, .measurement name x =>
    (ics43434Measurement floats name x).map fun i => ⟨some (.ics43434 i)⟩
  | _, _ => .error (.usage "sensor/value mismatch for urban board")

def buildInsight (kind : SensorKind) (value : Value F) : Except CliError (InsightSensor F) :=
  match kind, value with
  | .gps, .gps lat lon heightM => .ok ⟨some (.gps ⟨lat, lon, heightM⟩)⟩
  | .bme680, .measurement name x =>
    (bmeMeasurement floats .bme680 name x).map fun m => ⟨some (.bme680 ⟨some m⟩)⟩
  | .scd41, .measurement name x =>
    (scd41Measurement floats name x).map fun s => ⟨some (.scd41 s)⟩
  | _, _ => .error (.usage "sensor/value mismatch for insight board")

end

/-- What is particular to a board. -/
structure Side (F Sensor : Type) where
  board : Board
  build : SensorKind → Value F → Except CliError Sensor
  encode : List Sensor → Bytes
  payload : Readings Sensor → Payload F

/-- The `urban` board. -/
def urbanSide (floats : Floats F) (prost : SensorProst F) : Side F (UrbanSensor F) :=
  ⟨.urban, buildUrban floats, prost.encodeEncryptedUrban, .urban⟩

/-- The `insight` board. -/
def insightSide (floats : Floats F) (prost : SensorProst F) : Side F (InsightSensor F) :=
  ⟨.insight, buildInsight floats, prost.encodeEncryptedInsight, .insight⟩

/-! ## Encryption -/

/-- What recipients and the sender are read with, and the cipher. -/
structure SealCrates where
  keys : KeyCrates
  cipher : Crates
  /-- The seed of the Ed25519 keypair of a secret URI. -/
  seedFromSuri : String → Except String (FixedBytes 32)

/-- Resolve a recipient to its public key. -/
def resolveRecipient (keys : KeyCrates) (recipient : String) : Except CliError (FixedBytes 32) :=
  match SensorId.fromSs58 keys recipient with
  | .ok id => .ok id.bytes
  | .error _ =>
    match SensorId.fromHex keys recipient with
    | .ok id => .ok id.bytes
    | .error error =>
      .error (.usage ("invalid recipient `" ++ recipient ++ "`: " ++ error.toText))

/-- A nonce of XChaCha20-Poly1305. -/
abbrev Nonce := FixedBytes EncryptionAlgorithm.xChaCha20Poly1305.nonceSize

section

variable (crates : SealCrates)

/-- The seed of the sender. -/
def identityFromSuri (suri : String) : Except ProtocolError (FixedBytes 32) :=
  match crates.seedFromSuri (trimText suri) with
  | .ok seed => .ok seed
  | .error reason => .error (.hex ("invalid SURI: " ++ reason))

/-- Encrypt one recipient's plaintext, with this nonce. -/
def encryptGroup (identity : FixedBytes 32) (nonce : Nonce) (recipient : String)
    (plaintext : Bytes) : Except CliError Encrypted :=
  match resolveRecipient crates.keys recipient with
  | .error error => .error error
  | .ok receiver =>
    match Signer.fromSuri crates.cipher .ed25519 ("0x" ++ hexEncode identity.1) with
    | .error reason => .error (.runtime ("failed to initialise cipher: " ++ reason))
    | .ok cipher =>
      match cipher.encrypt crates.cipher plaintext receiver .xChaCha20Poly1305 nonce with
      | .error reason =>
        .error (.runtime ("encryption failed for `" ++ recipient ++ "`: " ++ reason))
      | .ok (.v1 _ sender nonce ciphertext) =>
        .ok ⟨1, "xchacha20", sender.1, nonce, ciphertext⟩

/-- Encrypt the groups one after another, each with the next nonce. -/
def encryptGroups {Sensor : Type} (encode : List Sensor → Bytes) (identity : FixedBytes 32)
    (nonces : ℕ → Nonce) :
    ℕ → List (String × List Sensor) → Except CliError (List Encrypted)
  | _, [] => .ok []
  | n, (recipient, sensors) :: groups =>
    match encryptGroup crates identity (nonces n) recipient (encode sensors) with
    | .error error => .error error
    | .ok entry => (encryptGroups encode identity nonces (n + 1) groups).map (entry :: ·)

end

/-! ## Messages -/

/-- What was read so far: the readings for everyone, and the others by recipient. -/
structure Collected (Sensor : Type) where
  publicReadings : List Sensor
  groups : List (String × List Sensor)
  deriving DecidableEq, Repr

def Collected.add {Sensor : Type} (c : Collected Sensor) (recipient : Option String)
    (sensor : Sensor) : Collected Sensor :=
  match recipient with
  | none => { c with publicReadings := c.publicReadings ++ [sensor] }
  | some recipient => { c with groups := Grouping.push recipient sensor c.groups }

section

variable {Sensor : Type} (floats : Floats F) (side : Side F Sensor)

def readItem (raw : String) : Except CliError (Option String × Sensor) :=
  match parseItem floats side.board raw with
  | .error reason => .error (.usage ("invalid measurement `" ++ raw ++ "`: " ++ reason))
  | .ok item => (side.build item.kind item.value).map fun sensor => (item.recipient, sensor)

/-- Read the items one after another. -/
def collect : Collected Sensor → List String → Except CliError (Collected Sensor)
  | c, [] => .ok c
  | c, raw :: values =>
    match readItem floats side raw with
    | .error error => .error error
    | .ok (recipient, sensor) => collect (c.add recipient sensor) values

variable (crates : SealCrates)

/-- The identity of the sender, where there is something to encrypt. -/
def senderIdentity (groups : List (String × List Sensor)) (suri : Option String) :
    Except CliError (Option (FixedBytes 32)) :=
  if groups.isEmpty then .ok none
  else
    match suri with
    | none => .error (.usage "`--suri` is required to encrypt `private:` measurements")
    | some suri =>
      match identityFromSuri crates suri with
      | .error error => .error (.usage ("invalid --suri: " ++ error.toText))
      | .ok identity => .ok (some identity)

/-- Parse the items of a board and encrypt the private ones. -/
def parseReadings (nonces : ℕ → Nonce) (values : List String) (suri : Option String) :
    Except CliError (Message F) :=
  if values.isEmpty then .error (.usage "no measurements provided")
  else
    match collect floats side ⟨[], []⟩ values with
    | .error error => .error error
    | .ok c =>
      match senderIdentity crates c.groups suri with
      | .error error => .error error
      | .ok none => .ok ⟨none, some (side.payload ⟨c.publicReadings, []⟩)⟩
      | .ok (some identity) =>
        match encryptGroups crates side.encode identity nonces 0 c.groups with
        | .error error => .error error
        | .ok entries => .ok ⟨none, some (side.payload ⟨c.publicReadings, entries⟩)⟩

end

/-- `compact::parse`, with the nonces it will draw. -/
def parseCompact (floats : Floats F) (prost : SensorProst F) (crates : SealCrates)
    (nonces : ℕ → Nonce) (board : Board) (values : List String)
    (suri : Option String) : Except CliError (Message F) :=
  match board with
  | .urban => parseReadings floats (urbanSide floats prost) crates nonces values suri
  | .insight => parseReadings floats (insightSide floats prost) crates nonces values suri

/-! ## What an accepted list becomes

The loop over the items collects them in two places and may stop at any of them.  `Reads` relates a
list that was read to its end with its readings, so that what follows speaks of the whole list at
once; encrypting the groups is then a function of that list. -/

def publicItems {Sensor : Type} (items : List (Option String × Sensor)) : List Sensor :=
  items.filterMap fun p => if p.1 = none then some p.2 else none

/-- The readings for a recipient, each with its recipient. -/
def privateItems {Sensor : Type} (items : List (Option String × Sensor)) :
    List (String × Sensor) :=
  items.filterMap fun p => p.1.map fun recipient => (recipient, p.2)

/-- The recipients that the items of a board name. -/
def recipients (floats : Floats F) (board : Board) (values : List String) : List String :=
  values.filterMap fun raw => (parseItem floats board raw).toOption.bind Item.recipient

/-- The public key that a recipient stands for. -/
def publicKey (keys : KeyCrates) (recipient : String) : Option (FixedBytes 32) :=
  (resolveRecipient keys recipient).toOption

/-- The entry is this plaintext, encrypted by the sender for the key. -/
def SealedFor (crates : SealCrates) (suri : Option String) (key : FixedBytes 32)
    (plaintext : Bytes) (entry : Encrypted) : Prop :=
  ∃ s identity cipher nonce ciphertext, suri = some s ∧ identityFromSuri crates s = .ok identity ∧
    Signer.fromSuri crates.cipher .ed25519 ("0x" ++ hexEncode identity.1) = .ok cipher ∧
    cipher.encrypt crates.cipher plaintext key .xChaCha20Poly1305 nonce =
      .ok (.v1 .xChaCha20Poly1305 cipher.pair.publicKey nonce.1 ciphertext) ∧
    entry = ⟨1, "xchacha20", cipher.pair.publicKey.1, nonce.1, ciphertext⟩

section

variable {Sensor : Type} (floats : Floats F) (side : Side F Sensor) (crates : SealCrates)

def Reads (values : List String) (items : List (Option String × Sensor)) : Prop :=
  List.Forall₂ (fun raw item => readItem floats side raw = .ok item) values items

/-- The readings for recipients, under the keys they stand for. -/
def keyedItems (items : List (Option String × Sensor)) :
    List (Option (FixedBytes 32) × Sensor) :=
  (privateItems items).map fun p => (publicKey crates.keys p.1, p.2)

/-- The message has the other items in the clear, and one ciphertext for each public key, in the
order in which the keys are first named, of the readings for that key. -/
def OnePerKey (values : List String) (suri : Option String) (message : Message F) : Prop :=
  ∃ items readings, Reads floats side values items ∧
    message.payload = some (side.payload readings) ∧
    readings.publicReadings = publicItems items ∧
    List.Forall₂ (fun key entry => ∃ k, key = some k ∧ SealedFor crates suri k
        (side.encode (Grouping.valuesOf key (keyedItems crates items))) entry)
      (Grouping.firstSeen ((keyedItems crates items).map Prod.fst)) readings.privateReadings

def OneCiphertextPerRecipient (prost : SensorProst F) (board : Board) (values : List String)
    (suri : Option String) (message : Message F) : Prop :=
  match board with
  | .urban => OnePerKey floats (urbanSide floats prost) crates values suri message
  | .insight => OnePerKey floats (insightSide floats prost) crates values suri message

/-- Two items write one public key in two ways. -/
def SpelledTwice (board : Board) (values : List String) : Prop :=
  ∃ r ∈ recipients floats board values, ∃ r' ∈ recipients floats board values,
    r ≠ r' ∧ publicKey crates.keys r = publicKey crates.keys r'

end

section

variable {Sensor : Type} {floats : Floats F} {side : Side F Sensor} {crates : SealCrates}
  {values : List String} {items : List (Option String × Sensor)} {suri : Option String}

theorem reads_of_collect {c c' : Collected Sensor} (h : collect floats side c values = .ok c') :
    ∃ items, Reads floats side values items ∧ c' = items.foldl (fun c p => c.add p.1 p.2) c := by
  induction values generalizing c with
  | nil => exact ⟨[], .nil, (Except.ok.inj h).symm⟩
  | cons raw values ih =>
    rw [collect] at h
    cases hraw : readItem floats side raw with
    | error error => simp [hraw] at h
    | ok item =>
      rw [hraw] at h
      obtain ⟨items, hitems, rfl⟩ := ih h
      exact ⟨item :: items, .cons hraw hitems, rfl⟩

theorem Reads.collect (h : Reads floats side values items) (c : Collected Sensor) :
    collect floats side c values = .ok (items.foldl (fun c p => c.add p.1 p.2) c) := by
  induction h generalizing c with
  | nil => rfl
  | cons hraw _ ih =>
    rw [Cli.collect, hraw]
    exact ih _

theorem readItem_of_parseItem {raw : String} {recipient : Option String} {kind : SensorKind}
    {value : Value F} {sensor : Sensor}
    (hitem : parseItem floats side.board raw = .ok ⟨recipient, kind, value⟩)
    (hbuild : side.build kind value = .ok sensor) :
    readItem floats side raw = .ok (recipient, sensor) := by
  rw [readItem, hitem]
  show (side.build kind value).map _ = _
  rw [hbuild]
  rfl

theorem Reads.unique {items' : List (Option String × Sensor)} (h : Reads floats side values items)
    (h' : Reads floats side values items') : items = items' := by
  induction h generalizing items' with
  | nil =>
    cases h'
    rfl
  | cons hraw _ ih =>
    cases h' with
    | cons hraw' hrest' =>
      rw [Except.ok.inj (hraw.symm.trans hraw'), ih hrest']

/-- The recipients do not depend on what is made of the readings. -/
theorem Reads.recipients (h : Reads floats side values items) :
    recipients floats side.board values = (privateItems items).map Prod.fst := by
  induction h with
  | nil => rfl
  | @cons raw item values items hraw _ ih =>
    obtain ⟨recipient, sensor⟩ := item
    have hrecipient : (parseItem floats side.board raw).toOption.bind Item.recipient =
        recipient := by
      unfold readItem at hraw
      cases hparse : parseItem floats side.board raw with
      | error reason => simp [hparse] at hraw
      | ok item =>
        rw [hparse] at hraw
        cases hbuild : side.build item.kind item.value with
        | error error => simp [hbuild, Except.map] at hraw
        | ok s =>
          simp only [hbuild, Except.map, Except.ok.injEq, Prod.mk.injEq] at hraw
          exact hraw.1
    rw [Cli.recipients, List.filterMap_cons, hrecipient]
    cases recipient with
    | none => exact ih
    | some recipient => exact congrArg (recipient :: ·) ih

theorem foldl_add (items : List (Option String × Sensor)) :
    items.foldl (fun c p => c.add p.1 p.2) (⟨[], []⟩ : Collected Sensor) =
      ⟨publicItems items, Grouping.group (privateItems items)⟩ := by
  induction items using List.reverseRecOn with
  | nil => rfl
  | append_singleton items p ih =>
    obtain ⟨recipient, sensor⟩ := p
    rw [List.foldl_append, ih]
    cases recipient with
    | none => simp [Collected.add, publicItems, privateItems]
    | some recipient => simp [Collected.add, publicItems, privateItems, Grouping.group_snoc]

/-- An entry is sealed for the key of its recipient. -/
theorem sealedFor_of_encryptGroup {s : String} {identity : FixedBytes 32}
    {nonce : Nonce} {recipient : String} {plaintext : Bytes} {entry : Encrypted}
    (hidentity : identityFromSuri crates s = .ok identity)
    (h : encryptGroup crates identity nonce recipient plaintext = .ok entry) :
    ∃ k, publicKey crates.keys recipient = some k ∧
      SealedFor crates (some s) k plaintext entry := by
  unfold encryptGroup at h
  cases hkey : resolveRecipient crates.keys recipient with
  | error error => simp [hkey] at h
  | ok k =>
    cases hcipher : Signer.fromSuri crates.cipher .ed25519 ("0x" ++ hexEncode identity.1) with
    | error reason => simp [hkey, hcipher] at h
    | ok cipher =>
      cases hmessage : cipher.encrypt crates.cipher plaintext k .xChaCha20Poly1305 nonce with
      | error reason => simp [hkey, hcipher, hmessage] at h
      | ok message =>
        obtain ⟨shared, ciphertext, -, -, rfl⟩ := Signer.encrypt_eq_ok_iff.mp hmessage
        simp only [hkey, hcipher, hmessage, Except.ok.injEq] at h
        exact ⟨k, by rw [publicKey, hkey]; rfl, s, identity, cipher, nonce, ciphertext, rfl,
          hidentity, hcipher, hmessage, h.symm⟩

theorem sealed_of_encryptGroups {s : String} {identity : FixedBytes 32}
    {nonces : ℕ → Nonce} {n : ℕ} {groups : List (String × List Sensor)}
    {entries : List Encrypted} (hidentity : identityFromSuri crates s = .ok identity)
    (h : encryptGroups crates side.encode identity nonces n groups = .ok entries) :
    List.Forall₂ (fun g entry => ∃ k, publicKey crates.keys g.1 = some k ∧
      SealedFor crates (some s) k (side.encode g.2) entry) groups entries := by
  induction groups generalizing n entries with
  | nil =>
    obtain rfl := Except.ok.inj h
    exact .nil
  | cons g groups ih =>
    obtain ⟨recipient, sensors⟩ := g
    rw [encryptGroups] at h
    cases hentry : encryptGroup crates identity (nonces n) recipient (side.encode sensors) with
    | error error => simp [hentry] at h
    | ok entry =>
      rw [hentry] at h
      cases hrest : encryptGroups crates side.encode identity nonces (n + 1) groups with
      | error error => simp [hrest, Except.map] at h
      | ok rest =>
        simp only [hrest, Except.map, Except.ok.injEq] at h
        subst h
        exact .cons (sealedFor_of_encryptGroup hidentity hentry) (ih hrest)

/-- There is no sender where there is nothing to encrypt. -/
theorem eq_nil_of_senderIdentity {groups : List (String × List Sensor)}
    (h : senderIdentity crates groups suri = .ok none) : groups = [] := by
  unfold senderIdentity at h
  split at h
  · next hempty => exact List.isEmpty_iff.mp hempty
  · split at h
    · cases h
    · split at h <;> cases h

/-- A sender is the one of the secret URI. -/
theorem suri_of_senderIdentity {groups : List (String × List Sensor)} {identity : FixedBytes 32}
    (h : senderIdentity crates groups suri = .ok (some identity)) :
    ∃ s, suri = some s ∧ identityFromSuri crates s = .ok identity := by
  unfold senderIdentity at h
  split at h
  · cases h
  · split at h
    · cases h
    · next s =>
      split at h
      · cases h
      · next hidentity =>
        obtain rfl := Option.some.inj (Except.ok.inj h)
        exact ⟨s, rfl, hidentity⟩

/-- What an accepted list becomes: one ciphertext for each text of a recipient. -/
theorem eq_of_parseReadings {nonces : ℕ → Nonce} {message : Message F}
    (h : parseReadings floats side crates nonces values suri = .ok message) :
    ∃ items entries, Reads floats side values items ∧
      message = ⟨none, some (side.payload ⟨publicItems items, entries⟩)⟩ ∧
      List.Forall₂ (fun r entry => ∃ k, publicKey crates.keys r = some k ∧
          SealedFor crates suri k (side.encode (Grouping.valuesOf r (privateItems items))) entry)
        (Grouping.firstSeen ((privateItems items).map Prod.fst)) entries := by
  rw [parseReadings] at h
  split at h
  · cases h
  cases hcollect : collect floats side ⟨[], []⟩ values with
  | error error => simp [hcollect] at h
  | ok c =>
    obtain ⟨items, hitems, rfl⟩ := reads_of_collect hcollect
    simp only [hcollect, foldl_add] at h
    cases hsender : senderIdentity crates (Grouping.group (privateItems items)) suri with
    | error error => simp [hsender] at h
    | ok sender =>
      simp only [hsender] at h
      cases sender with
      | none =>
        have hgroups := eq_nil_of_senderIdentity hsender
        rw [Grouping.group_eq, List.map_eq_nil_iff] at hgroups
        refine ⟨items, [], hitems, (Except.ok.inj h).symm, ?_⟩
        rw [hgroups]
        exact .nil
      | some identity =>
        obtain ⟨s, rfl, hidentity⟩ := suri_of_senderIdentity hsender
        cases hentries : encryptGroups crates side.encode identity nonces 0
            (Grouping.group (privateItems items)) with
        | error error => simp [hentries] at h
        | ok entries =>
          simp only [hentries, Except.ok.injEq] at h
          have hsealed := sealed_of_encryptGroups hidentity hentries
          rw [Grouping.group_eq, List.forall₂_map_left_iff] at hsealed
          exact ⟨items, entries, hitems, h.symm, hsealed⟩

/-- Items that can be read are accepted, if the sender is known and all groups can be encrypted. -/
theorem parseReadings_of_reads {nonces : ℕ → Nonce} {s : String} {identity : FixedBytes 32}
    {entries : List Encrypted} (hvalues : values ≠ []) (h : Reads floats side values items)
    (hidentity : identityFromSuri crates s = .ok identity)
    (hentries : encryptGroups crates side.encode identity nonces 0
      (Grouping.group (privateItems items)) = .ok entries) :
    parseReadings floats side crates nonces values (some s) =
      .ok ⟨none, some (side.payload ⟨publicItems items, entries⟩)⟩ := by
  have hnonempty : ¬ values.isEmpty = true := fun hempty =>
    hvalues (List.isEmpty_iff.mp hempty)
  rw [parseReadings, if_neg hnonempty, h.collect, foldl_add]
  cases hgroups : Grouping.group (privateItems items) with
  | nil =>
    rw [hgroups] at hentries
    obtain rfl := Except.ok.inj hentries
    rfl
  | cons g groups =>
    rw [hgroups] at hentries
    simp [senderIdentity, hidentity, hentries]

/-- There is one ciphertext for each key if each key has one text, and only then. -/
theorem onePerKey_iff {nonces : ℕ → Nonce} {message : Message F}
    (hpayload : Function.Injective side.payload)
    (h : parseReadings floats side crates nonces values suri = .ok message) :
    OnePerKey floats side crates values suri message ↔
      ¬ SpelledTwice floats crates side.board values := by
  obtain ⟨items, entries, hitems, rfl, hentries⟩ := eq_of_parseReadings h
  have hrecipients := hitems.recipients
  have hkeys : (keyedItems crates items).map Prod.fst =
      ((privateItems items).map Prod.fst).map (publicKey crates.keys) := by
    simp [keyedItems]
  constructor
  · rintro ⟨items', readings, hitems', hmessage, -, hsealed⟩ ⟨r, hr, r', hr', hne, heq⟩
    obtain rfl := hitems.unique hitems'
    obtain rfl := hpayload (Option.some.inj hmessage)
    -- one entry for each key and one for each text, so no two texts have one key
    have hlength := hsealed.length_eq.trans hentries.length_eq.symm
    rw [hkeys] at hlength
    rw [hrecipients] at hr hr'
    exact hne (Grouping.injOn_of_length_firstSeen hlength r hr r' hr' heq)
  · intro hspelled
    have hinj : ∀ r ∈ (privateItems items).map Prod.fst,
        ∀ r' ∈ (privateItems items).map Prod.fst,
          publicKey crates.keys r = publicKey crates.keys r' → r = r' := by
      intro r hr r' hr' heq
      rw [← hrecipients] at hr hr'
      by_contra hne
      exact hspelled ⟨r, hr, r', hr', hne, heq⟩
    refine ⟨items, _, hitems, rfl, rfl, ?_⟩
    rw [hkeys, Grouping.firstSeen_map hinj, List.forall₂_map_left_iff]
    have hmem := (List.forall₂_and_left _ _).mpr
      ⟨fun r hr => Grouping.mem_firstSeen.mp hr, hentries⟩
    refine hmem.imp fun r entry hentry => ?_
    obtain ⟨hr, k, hk, hsealed⟩ := hentry
    have hvalues := Grouping.valuesOf_map (f := publicKey crates.keys) (l := privateItems items)
      fun p hp heq => hinj p.1 (List.mem_map_of_mem hp) r hr heq
    rw [keyedItems, hvalues]
    exact ⟨k, hk, hsealed⟩

/-- **One ciphertext for each recipient**, in the order in which they are first named, with the
readings for that recipient: this holds if no public key is written in two ways, and only then. -/
theorem oneCiphertextPerRecipient_iff {prost : SensorProst F} {nonces : ℕ → Nonce} {board : Board}
    {message : Message F}
    (h : parseCompact floats prost crates nonces board values suri = .ok message) :
    OneCiphertextPerRecipient floats crates prost board values suri message ↔
      ¬ SpelledTwice floats crates board values := by
  cases board with
  | urban => exact onePerKey_iff (fun _ _ heq => Payload.urban.inj heq) h
  | insight => exact onePerKey_iff (fun _ _ heq => Payload.insight.inj heq) h

end

/-- Numbers that are whole. -/
def wholeFloats : Floats UInt64 :=
  { bitFloats with
    parse := fun s =>
      match s with
      | "20" => .ok 20
      | "40" => .ok 40
      | _ => .error "invalid float literal" }

/-- Alice's key, as an address and in digits. -/
def aliceAddress : String := "4FHZCUoTq7LqeeaVhgmk3WfwL4wAtRfM45aUV11XeARGeEju"

def aliceDigits : String := "88dc3417d5058ec4b4503e0c12ea1a0a89be200fe98922423d4334014fa6b0ee"

def aliceHex : String := "0x" ++ aliceDigits

def hexDecode (s : String) : Except String Bytes :=
  match Hex.decode (Utf8.encode s) with
  | some bytes => .ok bytes
  | none => .error "Invalid character"

/-- A temperature and a humidity as Bob seals them for Alice: one by one with the first two
nonces, and together with the first. -/
def sealedReadings : List SealedText :=
  let key := ofDigits 32 "daddc0d8167a0d6647147b3d2e391371b495d6c27345a4865c394cc9a9aefc57"
  [⟨.xChaCha20Poly1305, key, (padTo 24 [0]).1, (ofDigits 9 "0a0712050a0308a01f").1,
      (ofDigits 25 "67d21ce322f427ca4f6bbdffc03d5e828363b484302587918f").1⟩,
    ⟨.xChaCha20Poly1305, key, (padTo 24 [1]).1, (ofDigits 9 "0a071205120308a01f").1,
      (ofDigits 25 "36389b63820e13fee3b4340bd15acae94528a20b3f5a7671c7").1⟩,
    ⟨.xChaCha20Poly1305, key, (padTo 24 [0]).1,
      (ofDigits 18 "0a0712050a0308a01f0a071205120308a01f").1,
      (ofDigits 34 "67d21ce322f427ca4f8b4d59d8a3ed2215a3d1fbd2877c5b7551184cd42e733904c8").1⟩]

/-- Keys in hex and the address of Alice, the seed of Bob, and what he seals for her. -/
def devSeals : SealCrates where
  keys :=
    ⟨hexDecode, fun address =>
      if address = aliceAddress then .ok ((alicePair .ed25519).publicKey, sensorSs58Prefix)
      else .error "Base 58 requirement is violated"⟩
  cipher := devCrates sealedReadings
  seedFromSuri suri :=
    if suri = "//Bob" then .ok (bobPair .ed25519).secret else .error "InvalidFormat"

def countedNonces (n : ℕ) : Nonce := padTo _ [UInt8.ofNat n]

def privateItem (r tag text : String) : String :=
  "private:" ++ (r ++ (String.ofList ['/'] ++ tag)) ++ (String.ofList ['='] ++ text)

/-- A temperature for one recipient and a humidity for another. -/
def privateValues (r r' : String) : List String :=
  [privateItem r "temp" "20", privateItem r' "humidity" "40"]

theorem splitOnce_append {sep : Char} {s : String} (t : String) (h : sep ∉ s.toList) :
    splitOnce sep (s ++ (String.ofList [sep] ++ t)) = some (s, t) := by
  have hbefore : ∀ c ∈ s.toList, decide (c ≠ sep) = true := fun c hc =>
    decide_eq_true (ne_of_mem_of_not_mem hc h)
  have hdrop : (s.toList ++ sep :: t.toList).dropWhile (fun c => decide (c ≠ sep)) =
      sep :: t.toList := by
    rw [List.dropWhile_append_of_pos hbefore, List.dropWhile_cons_of_neg (by simp)]
  have htake : (s.toList ++ sep :: t.toList).takeWhile (fun c => decide (c ≠ sep)) = s.toList := by
    rw [List.takeWhile_append_of_pos hbefore, List.takeWhile_cons_of_neg (by simp),
      List.append_nil]
  have hchars : (s ++ (String.ofList [sep] ++ t)).toList = s.toList ++ sep :: t.toList := by
    simp [String.toList_append]
  simp only [splitOnce, hchars, hdrop, htake, String.ofList_toList]

/-- A measurement that names no sensor, for a recipient. -/
theorem parseItem_privateItem {floats : Floats F} {board : Board} {r tag text : String}
    {kind : SensorKind} {x : F} (hslash : '/' ∉ r.toList) (hsign : '=' ∉ r.toList)
    (htag : '=' ∉ tag.toList) (hgps : tag ≠ "gps") (hhint : parseHint tag = .ok (none, tag))
    (hparse : floats.parse (trimText text) = .ok x)
    (hkind : resolveKind board none (canonicalMeasurement tag) = .ok kind) :
    parseItem floats board (privateItem r tag text) =
      .ok ⟨some r, kind, .measurement (canonicalMeasurement tag) x⟩ := by
  have hsplit : splitOnce '=' (privateItem r tag text) =
      some ("private:" ++ (r ++ (String.ofList ['/'] ++ tag)), text) := by
    refine splitOnce_append _ ?_
    simp [String.toList_append, hsign, htag]
  have hrecipient : parseRecipient ("private:" ++ (r ++ (String.ofList ['/'] ++ tag))) =
      .ok (some r, tag) := by
    rw [parseRecipient, stripPrefix_append]
    simp only [splitOnce_append _ hslash]
  simp only [parseItem, hsplit, hrecipient]
  show (if tag = "gps" then _ else _) = _
  rw [if_neg hgps, hhint]
  show (match floats.parse (trimText text) with | .ok x => _ | .error reason => _) = _
  rw [hparse]
  show (resolveKind board none (canonicalMeasurement tag)).map _ = _
  rw [hkind]
  rfl

/-- The urban board, on the wire. -/
def plainSide : Side UInt64 (UrbanSensor UInt64) :=
  urbanSide wholeFloats (Wire.sensorWire wholeFloats)

def plainTemp : UrbanSensor UInt64 := ⟨some (.bme280 ⟨some (.temperature ⟨2000⟩)⟩)⟩

def plainHumidity : UrbanSensor UInt64 := ⟨some (.bme280 ⟨some (.humidity ⟨4000⟩)⟩)⟩

/-- A recipient that can be written in an item, and has a key. -/
def Writable (r : String) : Prop :=
  '/' ∉ r.toList ∧ '=' ∉ r.toList ∧ (publicKey devSeals.keys r).isSome = true

instance (r : String) : Decidable (Writable r) := inferInstanceAs (Decidable (_ ∧ _ ∧ _))

theorem writable_aliceAddress : Writable aliceAddress := by decide +kernel

theorem writable_aliceHex : Writable aliceHex := by decide +kernel

theorem reads_privateValues {r r' : String} (hr : Writable r) (hr' : Writable r') :
    Reads wholeFloats plainSide (privateValues r r')
      [(some r, plainTemp), (some r', plainHumidity)] := by
  have htemp : parseItem wholeFloats .urban (privateItem r "temp" "20") =
      .ok ⟨some r, .bme280, .measurement "temperature" 20⟩ :=
    parseItem_privateItem hr.1 hr.2.1 (by decide) (by decide) (by decide) (by decide) (by decide)
  have hhumidity : parseItem wholeFloats .urban (privateItem r' "humidity" "40") =
      .ok ⟨some r', .bme280, .measurement "humidity" 40⟩ :=
    parseItem_privateItem hr'.1 hr'.2.1 (by decide) (by decide) (by decide) (by decide) (by decide)
  have hfirst : readItem wholeFloats plainSide (privateItem r "temp" "20") =
      .ok (some r, plainTemp) := readItem_of_parseItem htemp (by decide)
  have hsecond : readItem wholeFloats plainSide (privateItem r' "humidity" "40") =
      .ok (some r', plainHumidity) := readItem_of_parseItem hhumidity (by decide)
  exact .cons hfirst (.cons hsecond .nil)

/-- The items become a message if the groups can be encrypted. -/
theorem exists_parseCompact {r r' : String} (hr : Writable r) (hr' : Writable r')
    (hentries : (encryptGroups devSeals plainSide.encode (bobPair .ed25519).secret countedNonces 0
      (Grouping.group
        (privateItems [(some r, plainTemp), (some r', plainHumidity)]))).toOption.isSome = true) :
    ∃ message, parseCompact wholeFloats (Wire.sensorWire wholeFloats) devSeals countedNonces
      .urban (privateValues r r') (some "//Bob") = .ok message := by
  cases hgroups : encryptGroups devSeals plainSide.encode (bobPair .ed25519).secret countedNonces 0
      (Grouping.group (privateItems [(some r, plainTemp), (some r', plainHumidity)])) with
  | error error => simp [hgroups, Except.toOption] at hentries
  | ok entries =>
    have hidentity : identityFromSuri devSeals "//Bob" = .ok (bobPair .ed25519).secret := by
      decide +kernel
    exact ⟨_, parseReadings_of_reads (List.cons_ne_nil _ _) (reads_privateValues hr hr') hidentity
      hgroups⟩

theorem recipients_privateValues {r r' : String} (hr : Writable r) (hr' : Writable r') :
    recipients wholeFloats .urban (privateValues r r') = [r, r'] :=
  (reads_privateValues hr hr').recipients

theorem oneCiphertextPerRecipient_address :
    ∃ message, parseCompact wholeFloats (Wire.sensorWire wholeFloats) devSeals countedNonces
        .urban (privateValues aliceAddress aliceAddress) (some "//Bob") = .ok message ∧
      OneCiphertextPerRecipient wholeFloats devSeals (Wire.sensorWire wholeFloats) .urban
        (privateValues aliceAddress aliceAddress) (some "//Bob") message := by
  have hwritable := writable_aliceAddress
  obtain ⟨message, hmessage⟩ := exists_parseCompact hwritable hwritable (by decide +kernel)
  refine ⟨message, hmessage, (oneCiphertextPerRecipient_iff hmessage).mpr ?_⟩
  rintro ⟨r, hr, r', hr', hne, -⟩
  rw [recipients_privateValues hwritable hwritable, List.mem_pair, or_self] at hr hr'
  exact hne (hr.trans hr'.symm)

/-- One key by its address and in hex has two ciphertexts. -/
theorem parseCompact_sealsTwice :
    ∃ message, parseCompact wholeFloats (Wire.sensorWire wholeFloats) devSeals countedNonces
        .urban (privateValues aliceAddress aliceHex) (some "//Bob") = .ok message ∧
      ¬ OneCiphertextPerRecipient wholeFloats devSeals (Wire.sensorWire wholeFloats) .urban
        (privateValues aliceAddress aliceHex) (some "//Bob") message := by
  obtain ⟨message, hmessage⟩ :=
    exists_parseCompact writable_aliceAddress writable_aliceHex (by decide +kernel)
  have hspelled : SpelledTwice wholeFloats devSeals .urban
      (privateValues aliceAddress aliceHex) := by
    rw [SpelledTwice, recipients_privateValues writable_aliceAddress writable_aliceHex]
    exact ⟨aliceAddress, List.mem_cons_self, aliceHex, List.mem_cons_of_mem _ List.mem_cons_self,
      by decide +kernel, by decide +kernel⟩
  have hread : parseReadings wholeFloats plainSide devSeals countedNonces
      (privateValues aliceAddress aliceHex) (some "//Bob") = .ok message := hmessage
  refine ⟨message, hmessage, fun hone => ?_⟩
  exact (onePerKey_iff (fun _ _ heq => Payload.urban.inj heq) hread).mp hone hspelled

end Cli
end Robins
