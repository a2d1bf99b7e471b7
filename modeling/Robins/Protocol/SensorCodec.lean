import Robins.Protocol.SensorMessage

/-!
# The schema of sensor messages on the wire

The readers and writers `prost` generates from the schema of telemetry, over the wire format of
`ProtoWire`.  A message inside a message is read into what is already there, so that fields may
come in several pieces; a repeated field takes every occurrence as a new element.  The level at
which a message is read is handed to the readers of the messages inside it.
-/

namespace Robins
namespace Protocol
namespace Wire

open ProtoWire LittleEndian

/-! ## Reading -/

/-- The body of an integer field. -/
def expectVarint : Value → Except String ℕ
  | .varint n => .ok n
  | _ => .error "failed to decode Protobuf message: invalid wire type"

/-- The body of a `double` field. -/
def expectDouble {F : Type} (floats : Floats F) : Value → Except String F
  | .fixed64 b => .ok (floats.ofBits (UInt64.ofNat (leNat b)))
  | _ => .error "failed to decode Protobuf message: invalid wire type"

/-- The body of a `string` field. -/
def expectText (value : Value) : Except String String :=
  (expectBytes value).bind fun bytes =>
    match Utf8.decode bytes with
    | some text => .ok text
    | none => .error "failed to decode Protobuf message: invalid string value"

/-- The number a zigzag integer stands for (`sint32`). -/
def zigzag (n : ℕ) : Int32 :=
  let v := n % 2 ^ 32
  if v % 2 = 0 then Int32.ofNat (v / 2) else Int32.ofInt (-(v / 2 : ℕ) - 1)

def mergeTemperature (t : Temperature) (f : Field) : Except String Temperature :=
  match f.number with
  | 1 => (expectVarint f.value).map fun n => ⟨zigzag n⟩
  | _ => .ok t

/-- Read a field of a message whose only field is a `uint32`. -/
def mergeUInt32 {α : Type} (make : UInt32 → α) (a : α) (f : Field) : Except String α :=
  match f.number with
  | 1 => (expectVarint f.value).map fun n => make (UInt32.ofNat n)
  | _ => .ok a

def mergePressure : Pressure → Field → Except String Pressure := mergeUInt32 .mk

def mergeHumidity : Humidity → Field → Except String Humidity := mergeUInt32 .mk

def mergeCo2 : Co2 → Field → Except String Co2 := mergeUInt32 .mk

def mergePm25 : Pm25 → Field → Except String Pm25 := mergeUInt32 .mk

def mergePm10 : Pm10 → Field → Except String Pm10 := mergeUInt32 .mk

def mergeNoiseLevel : NoiseLevel → Field → Except String NoiseLevel := mergeUInt32 .mk

/-- Read a variant of a `oneof`: into the value of that variant, if it is the one set. -/
def mergeVariant {α β : Type} (merge : ℕ → α → Field → Except String α) (limit : ℕ)
    (make : α → β) (fresh : α) (set : Option α) (value : Value) : Except String (Option β) :=
  (mergeInto merge limit (set.getD fresh) value).map fun a => some (make a)

def mergeBmeMeasurement (limit : ℕ) (m : Option BmeMeasurement) (f : Field) :
    Except String (Option BmeMeasurement) :=
  match f.number with
  | 1 =>
    mergeVariant (fun _ => mergeTemperature) limit .temperature ⟨0⟩
      (m.bind fun | .temperature t => some t | _ => none) f.value
  | 2 =>
    mergeVariant (fun _ => mergeHumidity) limit .humidity ⟨0⟩
      (m.bind fun | .humidity h => some h | _ => none) f.value
  | 3 =>
    mergeVariant (fun _ => mergePressure) limit .pressure ⟨0⟩
      (m.bind fun | .pressure p => some p | _ => none) f.value
  | _ => .ok m

def mergeBme280 (limit : ℕ) (b : Bme280) (f : Field) : Except String Bme280 :=
  (mergeBmeMeasurement limit b.measurement f).map .mk

def mergeBme680 (limit : ℕ) (b : Bme680) (f : Field) : Except String Bme680 :=
  (mergeBmeMeasurement limit b.measurement f).map .mk

def mergeScd41 (limit : ℕ) (s : Scd41) (f : Field) : Except String Scd41 :=
  match f.number with
  | 1 =>
    (mergeVariant (fun _ => mergeCo2) limit .co2 ⟨0⟩
      (s.measurement.bind fun | .co2 c => some c | _ => none) f.value).map .mk
  | 2 =>
    (mergeVariant (fun _ => mergeTemperature) limit .temperature ⟨0⟩
      (s.measurement.bind fun | .temperature t => some t | _ => none) f.value).map .mk
  | 3 =>
    (mergeVariant (fun _ => mergeHumidity) limit .humidity ⟨0⟩
      (s.measurement.bind fun | .humidity h => some h | _ => none) f.value).map .mk
  | _ => .ok s

def mergeSds011 (limit : ℕ) (s : Sds011) (f : Field) : Except String Sds011 :=
  match f.number with
  | 1 =>
    (mergeVariant (fun _ => mergePm25) limit .pm25 ⟨0⟩
      (s.measurement.bind fun | .pm25 p => some p | _ => none) f.value).map .mk
  | 2 =>
    (mergeVariant (fun _ => mergePm10) limit .pm10 ⟨0⟩
      (s.measurement.bind fun | .pm10 p => some p | _ => none) f.value).map .mk
  | _ => .ok s

def mergeIcs43434 (limit : ℕ) (i : Ics43434) (f : Field) : Except String Ics43434 :=
  match f.number with
  | 1 =>
    (mergeVariant (fun _ => mergeNoiseLevel) limit .noiseMax ⟨0⟩
      (i.measurement.bind fun | .noiseMax n => some n | _ => none) f.value).map .mk
  | 2 =>
    (mergeVariant (fun _ => mergeNoiseLevel) limit .noiseAvg ⟨0⟩
      (i.measurement.bind fun | .noiseAvg n => some n | _ => none) f.value).map .mk
  | _ => .ok i

section

variable {F : Type} (floats : Floats F)

def mergeGps (g : Gps F) (f : Field) : Except String (Gps F) :=
  match f.number with
  | 1 => (expectDouble floats f.value).map fun x => { g with lat := x }
  | 2 => (expectDouble floats f.value).map fun x => { g with lon := x }
  | 3 => (expectDouble floats f.value).map fun x => { g with heightM := x }
  | _ => .ok g

/-- Coordinates that are not set. -/
def freshGps : Gps F := ⟨floats.ofNat 0, floats.ofNat 0, floats.ofNat 0⟩

def mergeUrbanSensor (limit : ℕ) (u : UrbanSensor F) (f : Field) : Except String (UrbanSensor F) :=
  match f.number with
  | 1 =>
    (mergeVariant (fun _ => mergeGps floats) limit .gps (freshGps floats)
      (u.sensor.bind fun | .gps g => some g | _ => none) f.value).map .mk
  | 2 =>
    (mergeVariant mergeBme280 limit .bme280 ⟨none⟩
      (u.sensor.bind fun | .bme280 b => some b | _ => none) f.value).map .mk
  | 3 =>
    (mergeVariant mergeSds011 limit .sds011 ⟨none⟩
      (u.sensor.bind fun | .sds011 s => some s | _ => none) f.value).map .mk
  | 4 =>
    (mergeVariant mergeIcs43434 limit .ics43434 ⟨none⟩
      (u.sensor.bind fun | .ics43434 i => some i | _ => none) f.value).map .mk
  | _ => .ok u

def mergeInsightSensor (limit : ℕ) (i : InsightSensor F) (f : Field) :
    Except String (InsightSensor F) :=
  match f.number with
  | 1 =>
    (mergeVariant (fun _ => mergeGps floats) limit .gps (freshGps floats)
      (i.sensor.bind fun | .gps g => some g | _ => none) f.value).map .mk
  | 2 =>
    (mergeVariant mergeBme680 limit .bme680 ⟨none⟩
      (i.sensor.bind fun | .bme680 b => some b | _ => none) f.value).map .mk
  | 3 =>
    (mergeVariant mergeScd41 limit .scd41 ⟨none⟩
      (i.sensor.bind fun | .scd41 s => some s | _ => none) f.value).map .mk
  | _ => .ok i

end

def mergeEncrypted (e : Encrypted) (f : Field) : Except String Encrypted :=
  match f.number with
  | 1 => (expectVarint f.value).map fun n => { e with version := UInt32.ofNat n }
  | 2 => (expectText f.value).map fun text => { e with algorithm := text }
  | 3 => (expectBytes f.value).map fun b => { e with sender := b }
  | 4 => (expectBytes f.value).map fun b => { e with nonce := b }
  | 5 => (expectBytes f.value).map fun b => { e with ciphertext := b }
  | _ => .ok e

/-- Read a field of a board. -/
def mergeReadings {Sensor : Type} (merge : ℕ → Sensor → Field → Except String Sensor)
    (fresh : Sensor) (limit : ℕ) (r : Readings Sensor) (f : Field) :
    Except String (Readings Sensor) :=
  match f.number with
  | 1 =>
    (mergeInto merge limit fresh f.value).map fun s =>
      { r with publicReadings := r.publicReadings ++ [s] }
  | 2 =>
    (mergeInto (fun _ => mergeEncrypted) limit ⟨0, "", [], [], []⟩ f.value).map fun e =>
      { r with privateReadings := r.privateReadings ++ [e] }
  | _ => .ok r

/-- Read a field of the wrapper of private readings. -/
def mergeSensors {Sensor : Type} (merge : ℕ → Sensor → Field → Except String Sensor)
    (fresh : Sensor) (limit : ℕ) (sensors : List Sensor) (f : Field) :
    Except String (List Sensor) :=
  match f.number with
  | 1 => (mergeInto merge limit fresh f.value).map fun s => sensors ++ [s]
  | _ => .ok sensors

def mergeMeta (m : Meta) (f : Field) : Except String Meta :=
  match f.number with
  | 1 => (expectVarint f.value).map fun n => { m with nodeId := UInt64.ofNat n }
  | 2 => (expectVarint f.value).map fun n => { m with timestamp := UInt64.ofNat n }
  | _ => .ok m

section

variable {F : Type} (floats : Floats F)

def mergeMessage (limit : ℕ) (m : Message F) (f : Field) : Except String (Message F) :=
  match f.number with
  | 1 =>
    (mergeInto (fun _ => mergeMeta) limit (m.metadata.getD ⟨0, 0⟩) f.value).map fun x =>
      { m with metadata := some x }
  | 2 =>
    (mergeVariant (mergeReadings (mergeUrbanSensor floats) ⟨none⟩) limit .urban ⟨[], []⟩
      (m.payload.bind fun | .urban u => some u | _ => none) f.value).map fun p =>
        { m with payload := p }
  | 3 =>
    (mergeVariant (mergeReadings (mergeInsightSensor floats) ⟨none⟩) limit .insight ⟨[], []⟩
      (m.payload.bind fun | .insight i => some i | _ => none) f.value).map fun p =>
        { m with payload := p }
  | _ => .ok m

/-! ## Writing -/

/-- The zigzag form of a number. -/
def zagzig (n : Int32) : ℕ :=
  if n.toInt < 0 then (-(2 * n.toInt) - 1).toNat else (2 * n.toInt).toNat

/-- An integer field: left out when zero. -/
def varintField (number n : ℕ) : List Field := if n = 0 then [] else [⟨number, .varint n⟩]

/-- A `double` field: left out when zero. -/
def doubleField (number : ℕ) (x : F) : List Field :=
  if floats.isZero x then [] else [⟨number, .fixed64 (leBytes 8 (floats.toBits x).toNat)⟩]

def messageField (number : ℕ) (fs : List Field) : Field :=
  ⟨number, .lengthDelimited (encodeFields fs)⟩

def temperatureField (number : ℕ) (t : Temperature) : Field :=
  messageField number (varintField 1 (zagzig t.centiCelsius))

/-- A field with a message whose only field is a `uint32`. -/
def uint32Field (number : ℕ) (n : UInt32) : Field :=
  messageField number (varintField 1 n.toNat)

def bmeField : BmeMeasurement → Field
  | .temperature t => temperatureField 1 t
  | .humidity h => uint32Field 2 h.centiPercent
  | .pressure p => uint32Field 3 p.deciPascal

def scd41Field : Scd41Measurement → Field
  | .co2 c => uint32Field 1 c.ppm
  | .temperature t => temperatureField 2 t
  | .humidity h => uint32Field 3 h.centiPercent

def sds011Field : Sds011Measurement → Field
  | .pm25 p => uint32Field 1 p.deciUgM3
  | .pm10 p => uint32Field 2 p.deciUgM3

def ics43434Field : Ics43434Measurement → Field
  | .noiseMax n => uint32Field 1 n.db
  | .noiseAvg n => uint32Field 2 n.db

def gpsFields (g : Gps F) : List Field :=
  doubleField floats 1 g.lat ++ doubleField floats 2 g.lon ++ doubleField floats 3 g.heightM

def urbanField : UrbanReading F → Field
  | .gps g => messageField 1 (gpsFields floats g)
  | .bme280 b => messageField 2 (b.measurement.map bmeField).toList
  | .sds011 s => messageField 3 (s.measurement.map sds011Field).toList
  | .ics43434 i => messageField 4 (i.measurement.map ics43434Field).toList

def insightField : InsightReading F → Field
  | .gps g => messageField 1 (gpsFields floats g)
  | .bme680 b => messageField 2 (b.measurement.map bmeField).toList
  | .scd41 s => messageField 3 (s.measurement.map scd41Field).toList

/-- Read a whole buffer as a message. -/
def decodeAs {α : Type} (merge : ℕ → α → Field → Except String α) (fresh : α) (bytes : Bytes) :
    Except String α :=
  (fieldsOf recursionLimit bytes).bind (mergeFields (merge recursionLimit) fresh)

/-- The generated code. -/
def sensorWire : SensorProst F where
  decodeMessage bytes := decodeAs (mergeMessage floats) ⟨none, none⟩ bytes
  decodeEncryptedUrban bytes := decodeAs (mergeSensors (mergeUrbanSensor floats) ⟨none⟩) [] bytes
  decodeEncryptedInsight bytes :=
    decodeAs (mergeSensors (mergeInsightSensor floats) ⟨none⟩) [] bytes
  encodeEncryptedUrban sensors :=
    encodeFields (sensors.map fun s => messageField 1 (s.sensor.map (urbanField floats)).toList)
  encodeEncryptedInsight sensors :=
    encodeFields (sensors.map fun s => messageField 1 (s.sensor.map (insightField floats)).toList)

end

end Wire
end Protocol
end Robins
