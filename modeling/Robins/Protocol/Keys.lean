import Robins.Lib.Trim
import Robins.Protocol.Envelope

/-!
# Spellings of a public key

A key is written as an SS58 address or as hex digits after `0x`.  The hex digits and the
address check are other crates', given as functions.
-/

namespace Robins
namespace Protocol

/-- The characters that Unicode counts as white space. -/
def isWhitespace (c : Char) : Bool :=
  let n := c.toNat
  (9 ≤ n && n ≤ 13) || n = 0x20 || n = 0x85 || n = 0xA0 || n = 0x1680 ||
    (0x2000 ≤ n && n ≤ 0x200A) || n = 0x2028 || n = 0x2029 || n = 0x202F || n = 0x205F ||
    n = 0x3000

/-- `str::trim`. -/
def trimText (s : String) : String := String.ofList (Trim.trim isWhitespace s.toList)

/-- `str::strip_prefix`. -/
def stripPrefix (start s : String) : Option String :=
  if start.toList.isPrefixOf s.toList then some (String.ofList (s.toList.drop start.length))
  else none

theorem stripPrefix_append (start s : String) : stripPrefix start (start ++ s) = some s := by
  have hprefix : start.toList.isPrefixOf (start ++ s).toList = true := by
    rw [List.isPrefixOf_iff_prefix, String.toList_append]
    exact List.prefix_append _ _
  rw [stripPrefix, if_pos hprefix, String.toList_append, ← String.length_toList, List.drop_left,
    String.ofList_toList]

/-- Strip the mandatory `0x` prefix. -/
def strip0x (s : String) : Except ProtocolError String :=
  match stripPrefix "0x" s with
  | some digits => .ok digits
  | none => .error (.hex ("hex value must be `0x`-prefixed, got: " ++ s))

/-- The network prefix of the addresses of sensors. -/
def sensorSs58Prefix : ℕ := 32

/-- What reads a key: hex digits, and an address as an account and its network prefix. -/
structure KeyCrates where
  hexDecode : String → Except String Bytes
  fromSs58check : String → Except String (FixedBytes sensorIdLen × ℕ)

def SensorId.fromHex (crates : KeyCrates) (s : String) : Except ProtocolError SensorId :=
  match strip0x (trimText s) with
  | .error error => .error error
  | .ok digits =>
    match crates.hexDecode digits with
    | .error reason => .error (.hex reason)
    | .ok bytes => SensorId.fromSlice bytes

/-- Parse a key from its address. -/
def SensorId.fromSs58 (crates : KeyCrates) (address : String) : Except ProtocolError SensorId :=
  match crates.fromSs58check (trimText address) with
  | .error reason => .error (.hex ("invalid ss58 address: " ++ reason))
  | .ok (account, format) =>
    if format ≠ sensorSs58Prefix then
      .error (.hex ("unexpected ss58 prefix: expected " ++ toString sensorSs58Prefix ++
        ", got Ss58AddressFormat \x7b prefix: " ++ toString format ++ " \x7d"))
    else .ok ⟨account⟩

end Protocol
end Robins
