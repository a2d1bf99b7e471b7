import Robins.Protocol.WireCodec
import Robins.Lib.LittleEndian
import Robins.Lib.Utf8

/-!
# Sensor messages

The telemetry inside an envelope: readings of one board, in the clear or encrypted for a
recipient.  The types are those generated from the schema; a floating-point number is of
any type `F`, with the operations of `Floats`.

The decoder is the one `prost` generates from the schema: an absent field has its default, the
last occurrence of a field wins, an occurrence of a field with a message goes into the message
that is there, and nothing is asked of the length of a byte field.
-/

namespace Robins
namespace Protocol

/-! ## Types -/

/-- The arithmetic of a floating-point type, with its reading and writing. -/
structure Floats (F : Type) where
  parse : String → Except String F
  /-- `{:.n}` -/
  toFixed : ℕ → F → String
  ofBits : UInt64 → F
  toBits : F → UInt64
  isZero : F → Bool
  ofNat : ℕ → F
  ofInt32 : Int32 → F
  ofUInt32 : UInt32 → F
  toInt32 : F → Int32
  toUInt32 : F → UInt32
  mul : F → F → F
  div : F → F → F
  max : F → F → F
  round : F → F

structure Temperature where
  centiCelsius : Int32
  deriving DecidableEq, Repr

structure Pressure where
  deciPascal : UInt32
  deriving DecidableEq, Repr

structure Humidity where
  centiPercent : UInt32
  deriving DecidableEq, Repr

structure Co2 where
  ppm : UInt32
  deriving DecidableEq, Repr

structure Pm25 where
  deciUgM3 : UInt32
  deriving DecidableEq, Repr

structure Pm10 where
  deciUgM3 : UInt32
  deriving DecidableEq, Repr

structure NoiseLevel where
  db : UInt32
  deriving DecidableEq, Repr

/-- What a BME280 or a BME680 measures. -/
inductive BmeMeasurement where
  | temperature (t : Temperature)
  | humidity (h : Humidity)
  | pressure (p : Pressure)
  deriving DecidableEq, Repr

inductive Scd41Measurement where
  | co2 (c : Co2)
  | temperature (t : Temperature)
  | humidity (h : Humidity)
  deriving DecidableEq, Repr

inductive Sds011Measurement where
  | pm25 (p : Pm25)
  | pm10 (p : Pm10)
  deriving DecidableEq, Repr

inductive Ics43434Measurement where
  | noiseMax (n : NoiseLevel)
  | noiseAvg (n : NoiseLevel)
  deriving DecidableEq, Repr

structure Bme280 where
  measurement : Option BmeMeasurement
  deriving DecidableEq, Repr

structure Bme680 where
  measurement : Option BmeMeasurement
  deriving DecidableEq, Repr

structure Scd41 where
  measurement : Option Scd41Measurement
  deriving DecidableEq, Repr

structure Sds011 where
  measurement : Option Sds011Measurement
  deriving DecidableEq, Repr

structure Ics43434 where
  measurement : Option Ics43434Measurement
  deriving DecidableEq, Repr

structure Gps (F : Type) where
  lat : F
  lon : F
  heightM : F
  deriving DecidableEq, Repr

inductive UrbanReading (F : Type) where
  | gps (g : Gps F)
  | bme280 (b : Bme280)
  | sds011 (s : Sds011)
  | ics43434 (i : Ics43434)
  deriving DecidableEq, Repr

structure UrbanSensor (F : Type) where
  sensor : Option (UrbanReading F)
  deriving DecidableEq, Repr

inductive InsightReading (F : Type) where
  | gps (g : Gps F)
  | bme680 (b : Bme680)
  | scd41 (s : Scd41)
  deriving DecidableEq, Repr

structure InsightSensor (F : Type) where
  sensor : Option (InsightReading F)
  deriving DecidableEq, Repr

/-- Readings that only the recipient can open.  `sender` is the field `from`. -/
structure Encrypted where
  version : UInt32
  algorithm : String
  sender : Bytes
  nonce : Bytes
  ciphertext : Bytes
  deriving DecidableEq, Repr

/-- The readings of a board, `Urban` or `Insight`. -/
structure Readings (Sensor : Type) where
  publicReadings : List Sensor
  privateReadings : List Encrypted
  deriving DecidableEq, Repr

structure Meta where
  nodeId : UInt64
  timestamp : UInt64
  deriving DecidableEq, Repr

inductive Payload (F : Type) where
  | urban (u : Readings (UrbanSensor F))
  | insight (i : Readings (InsightSensor F))
  deriving DecidableEq, Repr

/-- The telemetry of a device. -/
structure Message (F : Type) where
  metadata : Option Meta
  payload : Option (Payload F)
  deriving DecidableEq, Repr

def Payload.privateReadings {F : Type} : Payload F → List Encrypted
  | .urban u => u.privateReadings
  | .insight i => i.privateReadings

def Message.privateReadings {F : Type} (message : Message F) : List Encrypted :=
  (message.payload.map Payload.privateReadings).getD []

/-- What `prost` generates for these types. -/
structure SensorProst (F : Type) where
  decodeMessage : Bytes → Except String (Message F)
  /-- `EncryptedUrban`: its sensors. -/
  decodeEncryptedUrban : Bytes → Except String (List (UrbanSensor F))
  /-- `EncryptedInsight`: its sensors. -/
  decodeEncryptedInsight : Bytes → Except String (List (InsightSensor F))
  encodeEncryptedUrban : List (UrbanSensor F) → Bytes
  encodeEncryptedInsight : List (InsightSensor F) → Bytes

def decodeSensorMessage {F : Type} (prost : SensorProst F) (bytes : Bytes) :
    Except ProtocolError (Message F) :=
  match prost.decodeMessage bytes with
  | .ok message => .ok message
  | .error reason => .error (.decode reason)

end Protocol
end Robins
