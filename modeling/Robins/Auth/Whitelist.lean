import Mathlib.Data.Finset.Insert
import Robins.Auth.Policy
import Robins.Protocol.Keys

/-!
# The whitelist

A file lists the sensors that are allowed, one a line, as an address or in hex.  What follows a
number sign is a comment, and a line with nothing else on it is skipped.  A line that is neither
blank nor a sensor makes the whole file worthless, and the error says which line it is.

## Reading

What a file means is said line by line, without the loop: a line names a sensor (`Names`), or it
is malformed (`Malformed`), or neither.  `Parsed` is the relation between the lines and what the
loop has made of them, up to their end or to the first malformed one, and `parsed_readLines` is
the induction.  A file that is loaded lets in exactly the sensors that its lines name.

## Writing

The other direction starts from sensors.  Any list of lines, each with a sensor in either spelling
or none and perhaps a comment, can be written to a file, and the file is read as those sensors
(`fromStrLines_written`).  What is needed of the crates that write and read addresses is
`WritesKeys`: they read what they write, an address consists of letters and digits, and no text
with the prefix of a hex key is an address.  That the text is cut where it was joined needs a
little care at its end, since a line feed ends the last line and does not begin another.
-/

namespace Robins
namespace Auth

open Protocol

/-! ## The file -/

/-- `str::lines`: a line ends with a line feed, perhaps after a carriage return. -/
def textLines (contents : String) : List (List Char) :=
  let parts := contents.toList.splitOn '\n'
  parts.dropLast.map (fun line => if line.getLast? = some '\r' then line.dropLast else line) ++
    (parts.getLast?.filter (· ≠ [])).toList

/-- What a line has before its comment, without the white space around it. -/
def lineEntry (raw : List Char) : List Char :=
  Trim.trim isWhitespace (raw.takeWhile (· ≠ '#'))

/-- Parse an entry as an address, falling back to hex. -/
def parseSensorId (crates : KeyCrates) (entry : List Char) : Except String SensorId :=
  match SensorId.fromSs58 crates (String.ofList entry) with
  | .ok id => .ok id
  | .error _ =>
    match SensorId.fromHex crates (String.ofList entry) with
    | .ok id => .ok id
    | .error err => .error ("not a valid ss58 or hex sensor_id (" ++ err.toText ++ ")")

/-- A fixed set of sensors. -/
structure Whitelist where
  allowed : Finset SensorId
  deriving DecidableEq

/-- Read the lines from one on, into the sensors read before. -/
def readLines (crates : KeyCrates) : ℕ → List (List Char) → Finset SensorId →
    Except String (Finset SensorId)
  | _, [], allowed => .ok allowed
  | index, raw :: lines, allowed =>
    if lineEntry raw = [] then readLines crates (index + 1) lines allowed
    else
      match parseSensorId crates (lineEntry raw) with
      | .error err => .error ("line " ++ toString (index + 1) ++ ": " ++ err)
      | .ok id => readLines crates (index + 1) lines (insert id allowed)

/-- Parse a whitelist from the contents of a file. -/
def Whitelist.fromStrLines (crates : KeyCrates) (contents : String) : Except String Whitelist :=
  (readLines crates 0 (textLines contents) ∅).map Whitelist.mk

/-- Load a whitelist from a file. -/
def Whitelist.fromFile (crates : KeyCrates) (path : String) (contents : Except String String) :
    Except String Whitelist :=
  match contents with
  | .error error => .error error
  | .ok contents =>
    match Whitelist.fromStrLines crates contents with
    | .error err => .error ("invalid whitelist " ++ path ++ ": " ++ err)
    | .ok list => .ok list

/-! ## The policy -/

/-- Whether a sensor is allowed, which is always known. -/
def Whitelist.tryAuthorize (list : Whitelist) (sensorId : SensorId) : Option Bool :=
  some (decide (sensorId ∈ list.allowed))

def Whitelist.authorize (list : Whitelist) (sensorId : SensorId) : Decision :=
  .ok (decide (sensorId ∈ list.allowed))

/-! ## What is read -/

section

variable {crates : KeyCrates}

variable (crates) in
def Names (line : List Char) (id : SensorId) : Prop :=
  lineEntry line ≠ [] ∧ parseSensorId crates (lineEntry line) = .ok id

variable (crates) in
/-- The line is neither blank nor the name of a sensor. -/
def Malformed (line : List Char) (err : String) : Prop :=
  lineEntry line ≠ [] ∧ parseSensorId crates (lineEntry line) = .error err

variable (crates) in
/-- The lines from one on are read to their end, or to the first that is malformed. -/
def Parsed (index : ℕ) (lines : List (List Char)) (allowed : Finset SensorId)
    (r : Except String (Finset SensorId)) : Prop :=
  (∃ all, r = .ok all ∧ (∀ line ∈ lines, ∀ err, ¬ Malformed crates line err) ∧
    ∀ id, id ∈ all ↔ id ∈ allowed ∨ ∃ line ∈ lines, Names crates line id) ∨
  ∃ before line after err, lines = before ++ line :: after ∧
    (∀ line ∈ before, ∀ err, ¬ Malformed crates line err) ∧ Malformed crates line err ∧
    r = .error ("line " ++ toString (index + before.length + 1) ++ ": " ++ err)

/-- A line that is fine is followed by the others. -/
theorem Parsed.cons {index : ℕ} {raw : List Char} {lines : List (List Char)}
    {allowed allowed' : Finset SensorId} {r : Except String (Finset SensorId)}
    (h : Parsed crates (index + 1) lines allowed' r) (hraw : ∀ err, ¬ Malformed crates raw err)
    (hallowed : ∀ id, id ∈ allowed' ↔ id ∈ allowed ∨ Names crates raw id) :
    Parsed crates index (raw :: lines) allowed r := by
  rcases h with ⟨all, hr, hfine, hmem⟩ | ⟨before, line, after, err, rfl, hfine, hline, hr⟩
  · refine .inl ⟨all, hr, List.forall_mem_cons.mpr ⟨hraw, hfine⟩, fun id => ?_⟩
    rw [hmem, hallowed, or_assoc]
    simp
  · refine .inr ⟨raw :: before, line, after, err, rfl, List.forall_mem_cons.mpr ⟨hraw, hfine⟩,
      hline, ?_⟩
    rw [hr, List.length_cons, Nat.add_right_comm index 1 before.length, ← Nat.add_assoc]

variable (crates) in
theorem parsed_readLines (index : ℕ) (lines : List (List Char)) (allowed : Finset SensorId) :
    Parsed crates index lines allowed (readLines crates index lines allowed) := by
  induction lines generalizing index allowed with
  | nil => exact .inl ⟨allowed, rfl, fun _ h => absurd h List.not_mem_nil, by simp⟩
  | cons raw lines ih =>
    rw [readLines]
    split_ifs with hblank
    · exact (ih (index + 1) allowed).cons (fun _ h => h.1 hblank) fun id =>
        ⟨.inl, fun h => h.elim (·) fun h => absurd hblank h.1⟩
    · cases hparse : parseSensorId crates (lineEntry raw) with
      | ok id =>
        refine (ih (index + 1) (insert id allowed)).cons
          (fun err h => absurd (hparse.symm.trans h.2) (by simp)) fun id' => ?_
        rw [Finset.mem_insert, or_comm, Names, hparse]
        simp [hblank, eq_comm]
      | error err =>
        exact .inr ⟨[], raw, lines, err, rfl, fun _ h => absurd h List.not_mem_nil,
          ⟨hblank, hparse⟩, rfl⟩

/-- A file that is loaded lets in the sensors that its lines name. -/
theorem mem_allowed_iff {contents : String} {list : Whitelist}
    (h : Whitelist.fromStrLines crates contents = .ok list) (id : SensorId) :
    id ∈ list.allowed ↔ ∃ line ∈ textLines contents, Names crates line id := by
  rcases parsed_readLines crates 0 (textLines contents) ∅ with
    ⟨all, hall, -, hnamed⟩ | ⟨before, line, after, err, -, -, -, hr⟩
  · rw [Whitelist.fromStrLines, hall] at h
    obtain rfl := Except.ok.inj h
    refine (hnamed id).trans ?_
    simp
  · rw [Whitelist.fromStrLines, hr] at h
    exact absurd h (by simp [Except.map])

theorem fromFile_eq_ok_iff {path contents : String} {list : Whitelist} :
    Whitelist.fromFile crates path (.ok contents) = .ok list ↔
      Whitelist.fromStrLines crates contents = .ok list := by
  rw [Whitelist.fromFile]
  cases Whitelist.fromStrLines crates contents with
  | ok list => rfl
  | error err => simp

theorem fromFile_eq_error_iff {path contents reason : String} :
    Whitelist.fromFile crates path (.ok contents) = .error reason ↔
      ∃ err, Whitelist.fromStrLines crates contents = .error err ∧
        "invalid whitelist " ++ path ++ ": " ++ err = reason := by
  rw [Whitelist.fromFile]
  cases Whitelist.fromStrLines crates contents with
  | ok list => simp
  | error err => simp

theorem tryAuthorize_eq_some_true_iff (list : Whitelist) (id : SensorId) :
    list.tryAuthorize id = some true ↔ id ∈ list.allowed := by
  rw [Whitelist.tryAuthorize, Option.some_inj, decide_eq_true_eq]

/-! ## What is written -/

/-- How a sensor is written. -/
inductive Spelling where
  | ss58
  | hex

/-- A line of a file: perhaps a sensor, and perhaps a comment. -/
structure ListLine where
  sensor : Option (Spelling × SensorId)
  comment : Option (List Char)

variable {toSs58 : SensorId → String}

/-- The text of a sensor. -/
def spelled (toSs58 : SensorId → String) : Spelling × SensorId → List Char
  | (.ss58, id) => (toSs58 id).toList
  | (.hex, id) => ("0x" ++ hexEncode id.bytes.1).toList

def ListLine.toText (toSs58 : SensorId → String) (line : ListLine) : List Char :=
  line.sensor.elim [] (spelled toSs58) ++ line.comment.elim [] fun comment => ' ' :: '#' :: comment

def fileText (toSs58 : SensorId → String) (lines : List ListLine) : String :=
  String.ofList (['\n'].intercalate (lines.map (ListLine.toText toSs58)))

/-- The crates read what they write, and an address has no zero in it. -/
structure WritesKeys (crates : KeyCrates) (toSs58 : SensorId → String) : Prop where
  alphanum : ∀ id, ∀ c ∈ (toSs58 id).toList, c.isAlphanum = true
  nonempty : ∀ id, toSs58 id ≠ ""
  ss58 : ∀ id, crates.fromSs58check (toSs58 id) = .ok (id.bytes, sensorSs58Prefix)
  notSs58 : ∀ text, ∃ reason, crates.fromSs58check ("0x" ++ text) = .error reason
  hex : ∀ bytes, crates.hexDecode (hexEncode bytes) = .ok bytes

theorem range_of_isAlphanum {c : Char} (h : c.isAlphanum = true) :
    48 ≤ c.toNat ∧ c.toNat ≤ 122 := by
  have hranges : (decide (c.val ≥ 'A'.val ∧ c.val ≤ 'Z'.val) ||
      (decide (c.val ≥ 'a'.val) && decide (c.val ≤ 'z'.val)) ||
      (decide (c.val ≥ '0'.val) && decide (c.val ≤ '9'.val))) = true := h
  simp only [Bool.or_eq_true, Bool.and_eq_true, decide_eq_true_eq, ge_iff_le,
    UInt32.le_iff_toNat_le] at hranges
  show 48 ≤ c.val.toNat ∧ c.val.toNat ≤ 122
  have hbounds : '0'.val.toNat = 48 ∧ '9'.val.toNat = 57 ∧ 'A'.val.toNat = 65 ∧
      'Z'.val.toNat = 90 ∧ 'a'.val.toNat = 97 ∧ 'z'.val.toNat = 122 :=
    ⟨rfl, rfl, rfl, rfl, rfl, rfl⟩
  omega

theorem isWhitespace_of_isAlphanum {c : Char} (h : c.isAlphanum = true) :
    isWhitespace c = false := by
  obtain ⟨hlow, hhigh⟩ := range_of_isAlphanum h
  simp only [isWhitespace, Bool.or_eq_false_iff, Bool.and_eq_false_iff, decide_eq_false_iff_not]
  omega

theorem ne_of_isAlphanum {c d : Char} (h : c.isAlphanum = true) (hd : d.isAlphanum = false) :
    c ≠ d := by
  rintro rfl
  exact absurd (h.symm.trans hd) (by decide)

theorem alphanum_hexEncode (b : Bytes) : ∀ c ∈ (hexEncode b).toList, c.isAlphanum = true := by
  have hdigit : ∀ n < 16, (Nat.digitChar n).isAlphanum = true := by decide +kernel
  intro c hc
  rw [hexEncode, String.toList_ofList] at hc
  obtain ⟨x, -, hx⟩ := List.mem_flatMap.mp hc
  have hlt : x.toNat < 256 := x.toNat_lt
  rcases List.mem_cons.mp hx with rfl | hx
  · exact hdigit _ (by omega)
  · obtain rfl := List.mem_singleton.mp hx
    exact hdigit _ (by omega)

theorem alphanum_spelled (h : WritesKeys crates toSs58) (sensor : Spelling × SensorId) :
    ∀ c ∈ spelled toSs58 sensor, c.isAlphanum = true := by
  obtain ⟨_ | _, id⟩ := sensor
  · exact h.alphanum id
  · intro c hc
    rw [spelled, String.toList_append] at hc
    rcases List.mem_append.mp hc with hc | hc
    · exact List.all_eq_true.mp (show ['0', 'x'].all Char.isAlphanum = true from rfl) c hc
    · exact alphanum_hexEncode _ c hc

theorem spelled_ne_nil (h : WritesKeys crates toSs58) (sensor : Spelling × SensorId) :
    spelled toSs58 sensor ≠ [] := by
  obtain ⟨_ | _, id⟩ := sensor
  · exact fun hnil => h.nonempty id (String.toList_eq_nil_iff.mp hnil)
  · simp [spelled]

/-- The entry of a written line is the text of its sensor. -/
theorem lineEntry_toText (h : WritesKeys crates toSs58) (line : ListLine) :
    lineEntry (line.toText toSs58) = line.sensor.elim [] (spelled toSs58) := by
  have hplain : ∀ c ∈ line.sensor.elim [] (spelled toSs58), c.isAlphanum = true := by
    cases line.sensor with
    | none => exact fun c hc => absurd hc List.not_mem_nil
    | some sensor => exact alphanum_spelled h sensor
  have hkept : ∀ c ∈ line.sensor.elim [] (spelled toSs58), decide (c ≠ '#') = true := fun c hc =>
    decide_eq_true (ne_of_isAlphanum (hplain c hc) (by decide))
  have hspace : ∀ c ∈ line.sensor.elim [] (spelled toSs58), isWhitespace c = false := fun c hc =>
    isWhitespace_of_isAlphanum (hplain c hc)
  rw [lineEntry, ListLine.toText, List.takeWhile_append_of_pos hkept]
  cases line.comment with
  | none => exact Trim.trim_append hspace fun c hc => absurd hc List.not_mem_nil
  | some comment =>
    have hblank : ∀ c ∈ [' '], isWhitespace c = true :=
      List.forall_mem_singleton.mpr rfl
    exact Trim.trim_append hspace hblank

theorem parseSensorId_spelled (h : WritesKeys crates toSs58) (sensor : Spelling × SensorId) :
    parseSensorId crates (spelled toSs58 sensor) = .ok sensor.2 := by
  have htrim : trimText (String.ofList (spelled toSs58 sensor)) =
      String.ofList (spelled toSs58 sensor) := by
    have hself : Trim.trim isWhitespace (spelled toSs58 sensor ++ []) = spelled toSs58 sensor :=
      Trim.trim_append (fun c hc => isWhitespace_of_isAlphanum (alphanum_spelled h sensor c hc))
        fun c hc => absurd hc List.not_mem_nil
    rw [List.append_nil] at hself
    rw [trimText, String.toList_ofList, hself]
  rw [parseSensorId]
  obtain ⟨_ | _, id⟩ := sensor
  · have haddress : SensorId.fromSs58 crates (String.ofList (spelled toSs58 (.ss58, id))) =
        .ok id := by
      rw [SensorId.fromSs58, htrim, spelled, String.ofList_toList, h.ss58]
      rfl
    rw [haddress]
  · obtain ⟨reason, hreason⟩ := h.notSs58 (hexEncode id.bytes.1)
    have haddress : SensorId.fromSs58 crates (String.ofList (spelled toSs58 (.hex, id))) =
        .error (.hex ("invalid ss58 address: " ++ reason)) := by
      rw [SensorId.fromSs58, htrim, spelled, String.ofList_toList, hreason]
    have hhex : SensorId.fromHex crates (String.ofList (spelled toSs58 (.hex, id))) = .ok id := by
      rw [SensorId.fromHex, htrim, spelled, String.ofList_toList, strip0x, stripPrefix_append]
      dsimp only
      rw [h.hex]
      exact SensorId.fromSlice_eq_ok_iff.mpr rfl
    rw [haddress, hhex]

/-- The lines of a text that was joined from them, except for an empty one at its end. -/
theorem mem_textLines {lines : List (List Char)} (hne : lines ≠ [])
    (hplain : ∀ line ∈ lines, '\n' ∉ line ∧ '\r' ∉ line) {line : List Char} (hline : line ≠ []) :
    line ∈ textLines (String.ofList (['\n'].intercalate lines)) ↔ line ∈ lines := by
  have hparts : (['\n'].intercalate lines).splitOn '\n' = lines :=
    List.splitOn_intercalate '\n' (fun l hl => (hplain l hl).1) hne
  have hsame : lines.dropLast.map
      (fun line => if line.getLast? = some '\r' then line.dropLast else line) = lines.dropLast := by
    refine (List.map_congr_left fun l hl => if_neg fun hlast => ?_).trans (List.map_id _)
    exact (hplain l (List.dropLast_subset _ hl)).2 (List.mem_of_getLast? hlast)
  rw [textLines, String.toList_ofList, hparts, hsame, List.getLast?_eq_some_getLast hne]
  conv_rhs => rw [← List.dropLast_append_getLast hne]
  rw [List.mem_append, List.mem_append, List.mem_singleton]
  refine or_congr_right ?_
  rw [Option.filter_some]
  split_ifs with hlast
  · simp
  · have hnil : lines.getLast hne = [] := by simpa using hlast
    simp [hnil, hline]

theorem names_toText (h : WritesKeys crates toSs58) (line : ListLine) (id : SensorId) :
    Names crates (line.toText toSs58) id ↔ ∃ spelling, line.sensor = some (spelling, id) := by
  rw [Names, lineEntry_toText h]
  cases hsensor : line.sensor with
  | none => simp
  | some sensor =>
    rw [Option.elim_some, parseSensorId_spelled h]
    constructor
    · rintro ⟨-, heq⟩
      exact ⟨sensor.1, by rw [← Except.ok.inj heq]⟩
    · rintro ⟨spelling, heq⟩
      obtain rfl := Option.some.inj heq
      exact ⟨spelled_ne_nil h _, rfl⟩

theorem not_malformed_toText (h : WritesKeys crates toSs58) (line : ListLine) (err : String) :
    ¬ Malformed crates (line.toText toSs58) err := by
  rw [Malformed, lineEntry_toText h]
  cases line.sensor with
  | none => exact fun hm => hm.1 rfl
  | some sensor =>
    rw [Option.elim_some, parseSensorId_spelled h]
    exact fun hm => absurd hm.2 (by simp)

/-- A comment stays on its line. -/
def ListLine.OneLine (line : ListLine) : Prop :=
  ∀ comment, line.comment = some comment → '\n' ∉ comment ∧ '\r' ∉ comment

theorem ListLine.OneLine.toText (h : WritesKeys crates toSs58) {line : ListLine}
    (hline : line.OneLine) : '\n' ∉ line.toText toSs58 ∧ '\r' ∉ line.toText toSs58 := by
  have hsensor : ∀ d : Char, d.isAlphanum = false → d ∉ line.sensor.elim [] (spelled toSs58) := by
    intro d hd hmem
    cases hs : line.sensor with
    | none =>
      rw [hs] at hmem
      exact absurd hmem List.not_mem_nil
    | some sensor =>
      rw [hs] at hmem
      exact ne_of_isAlphanum (alphanum_spelled h sensor d hmem) hd rfl
  rw [ListLine.toText, List.mem_append, List.mem_append]
  cases hc : line.comment with
  | none => exact ⟨by simp [hsensor '\n' (by decide)], by simp [hsensor '\r' (by decide)]⟩
  | some comment =>
    obtain ⟨hfeed, hreturn⟩ := hline comment hc
    exact ⟨by simp [hsensor '\n' (by decide), hfeed],
      by simp [hsensor '\r' (by decide), hreturn]⟩

/-- The entries in the text of a file are on its lines. -/
theorem mem_fileText (h : WritesKeys crates toSs58) {lines : List ListLine} (hne : lines ≠ [])
    (hlines : ∀ line ∈ lines, line.OneLine) {text : List Char} (hentry : lineEntry text ≠ []) :
    text ∈ textLines (fileText toSs58 lines) ↔ ∃ line ∈ lines, line.toText toSs58 = text := by
  have hplain : ∀ text ∈ lines.map (ListLine.toText toSs58), '\n' ∉ text ∧ '\r' ∉ text := by
    intro text htext
    obtain ⟨line, hline, rfl⟩ := List.mem_map.mp htext
    exact (hlines line hline).toText h
  have htext : text ≠ [] := by
    rintro rfl
    exact hentry rfl
  rw [fileText, mem_textLines (by simpa using hne) hplain htext, List.mem_map]

/-- A file of written lines is read as the sensors on them. -/
theorem fromStrLines_written (h : WritesKeys crates toSs58) {lines : List ListLine}
    (hne : lines ≠ []) (hlines : ∀ line ∈ lines, line.OneLine) :
    ∃ list, Whitelist.fromStrLines crates (fileText toSs58 lines) = .ok list ∧
      ∀ id, id ∈ list.allowed ↔ ∃ line ∈ lines, ∃ spelling, line.sensor = some (spelling, id) := by
  rcases parsed_readLines crates 0 (textLines (fileText toSs58 lines)) ∅ with
    ⟨all, hall, -, -⟩ | ⟨before, bad, after, err, heq, -, hbad, -⟩
  · have hloaded : Whitelist.fromStrLines crates (fileText toSs58 lines) = .ok ⟨all⟩ := by
      rw [Whitelist.fromStrLines, hall]
      rfl
    refine ⟨⟨all⟩, hloaded, fun id => (mem_allowed_iff hloaded id).trans ?_⟩
    constructor
    · rintro ⟨text, htext, hname⟩
      obtain ⟨line, hline, rfl⟩ := (mem_fileText h hne hlines hname.1).mp htext
      exact ⟨line, hline, (names_toText h line id).mp hname⟩
    · rintro ⟨line, hline, hsensor⟩
      have hname := (names_toText h line id).mpr hsensor
      exact ⟨_, (mem_fileText h hne hlines hname.1).mpr ⟨line, hline, rfl⟩, hname⟩
  · have hin : bad ∈ textLines (fileText toSs58 lines) := by
      rw [heq]
      exact List.mem_append_right _ List.mem_cons_self
    obtain ⟨line, -, rfl⟩ := (mem_fileText h hne hlines hbad.1).mp hin
    exact absurd hbad (not_malformed_toText h line err)

variable (crates) in
/-- What a file means as a whitelist: it is good if each of its lines is, it lets in the sensors
that its lines name, and otherwise its first bad line is said.  A file that was written line by
line lets in the sensors on the lines, in either spelling. -/
structure Enlists (path contents : String) : Prop where
  loaded : (∃ list, Whitelist.fromFile crates path (.ok contents) = .ok list) ↔
    ∀ line ∈ textLines contents, ∀ err, ¬ Malformed crates line err
  admits : ∀ list, Whitelist.fromFile crates path (.ok contents) = .ok list → ∀ id,
    (list.tryAuthorize id = some true ↔ ∃ line ∈ textLines contents, Names crates line id) ∧
      some (list.authorize id) = (list.tryAuthorize id).map .ok
  fails : ∀ reason, Whitelist.fromFile crates path (.ok contents) = .error reason →
    ∃ before line after err, textLines contents = before ++ line :: after ∧
      (∀ line ∈ before, ∀ err, ¬ Malformed crates line err) ∧ Malformed crates line err ∧
      reason = "invalid whitelist " ++ path ++ ": " ++
        ("line " ++ toString (before.length + 1) ++ ": " ++ err)
  written : ∀ toSs58, WritesKeys crates toSs58 → ∀ lines : List ListLine, lines ≠ [] →
    (∀ line ∈ lines, line.OneLine) → contents = fileText toSs58 lines →
    ∃ list, Whitelist.fromFile crates path (.ok contents) = .ok list ∧ ∀ id,
      list.tryAuthorize id = some true ↔
        ∃ line ∈ lines, ∃ spelling, line.sensor = some (spelling, id)

/-- **A whitelist lets in whom it names.**  For every text of a file: it loads exactly if each of
its lines is blank, a comment or a sensor, and the error of one that does not is about the first
line that is none of these; a loaded list lets in exactly the sensors on its lines, at once and
after a lookup alike; and a file written line by line, in either spelling, lets in those it was
written for. -/
theorem whitelist_enlists (crates : KeyCrates) (path contents : String) :
    Enlists crates path contents := by
  have hadmits : ∀ list, Whitelist.fromFile crates path (.ok contents) = .ok list → ∀ id,
      (list.tryAuthorize id = some true ↔ ∃ line ∈ textLines contents, Names crates line id) ∧
        some (list.authorize id) = (list.tryAuthorize id).map .ok := fun list h id =>
    ⟨(tryAuthorize_eq_some_true_iff list id).trans (mem_allowed_iff (fromFile_eq_ok_iff.mp h) id),
      rfl⟩
  have hwritten : ∀ toSs58, WritesKeys crates toSs58 → ∀ lines : List ListLine, lines ≠ [] →
      (∀ line ∈ lines, line.OneLine) → contents = fileText toSs58 lines →
      ∃ list, Whitelist.fromFile crates path (.ok contents) = .ok list ∧ ∀ id,
        list.tryAuthorize id = some true ↔
          ∃ line ∈ lines, ∃ spelling, line.sensor = some (spelling, id) := by
    rintro toSs58 h lines hne hlines rfl
    obtain ⟨list, hlist, hallowed⟩ := fromStrLines_written h hne hlines
    exact ⟨list, fromFile_eq_ok_iff.mpr hlist, fun id =>
      (tryAuthorize_eq_some_true_iff list id).trans (hallowed id)⟩
  rcases parsed_readLines crates 0 (textLines contents) ∅ with
    ⟨all, hall, hfine, -⟩ | ⟨before, line, after, err, hlines, hfine, hline, hr⟩
  · have hlist : Whitelist.fromFile crates path (.ok contents) = .ok ⟨all⟩ := by
      rw [fromFile_eq_ok_iff, Whitelist.fromStrLines, hall]
      rfl
    exact ⟨⟨fun _ => hfine, fun _ => ⟨_, hlist⟩⟩, hadmits,
      fun reason h => absurd (hlist.symm.trans h) (by simp), hwritten⟩
  · have herror : Whitelist.fromFile crates path (.ok contents) =
        .error ("invalid whitelist " ++ path ++ ": " ++
          ("line " ++ toString (before.length + 1) ++ ": " ++ err)) := by
      refine fromFile_eq_error_iff.mpr ⟨_, ?_, rfl⟩
      rw [Whitelist.fromStrLines, hr, Nat.zero_add]
      rfl
    refine ⟨⟨fun ⟨list, h⟩ => absurd (herror.symm.trans h) (by simp), fun h => ?_⟩, hadmits,
      fun reason h => ⟨before, line, after, err, hlines, hfine, hline,
        (Except.error.inj (herror.symm.trans h)).symm⟩, hwritten⟩
    exact absurd hline (h line (hlines ▸ List.mem_append_right _ List.mem_cons_self) err)

end

/-- The ED25519 keys of `//Alice` and `//Bob`. -/
def aliceSensor : SensorId :=
  ⟨⟨[136, 220, 52, 23, 213, 5, 142, 196, 180, 80, 62, 12, 18, 234, 26, 10, 137, 190, 32, 15, 233,
    137, 34, 66, 61, 67, 52, 1, 79, 166, 176, 238], rfl⟩⟩

def bobSensor : SensorId :=
  ⟨⟨[209, 124, 45, 120, 35, 235, 242, 96, 253, 19, 143, 45, 126, 39, 209, 20, 192, 20, 93, 150, 139,
    95, 245, 0, 97, 37, 242, 65, 79, 173, 174, 105], rfl⟩⟩

/-- The address of Alice. -/
def aliceText : String := "4FHZCUoTq7LqeeaVhgmk3WfwL4wAtRfM45aUV11XeARGeEju"

/-- Addresses that are right for Alice, and tell the other sensors apart. -/
def sensorAddress (id : SensorId) : String :=
  if id = aliceSensor then aliceText else "5" ++ hexEncode id.bytes.1

/-- Keys read from hex digits and from these addresses. -/
def sensorKeys : KeyCrates where
  hexDecode digits := (Hex.decode (Utf8.encode digits)).elim (.error "Invalid character") .ok
  fromSs58check address :=
    if address = aliceText then .ok (aliceSensor.bytes, sensorSs58Prefix)
    else
      match (stripPrefix "5" address).bind fun digits => Hex.decode (Utf8.encode digits) with
      | some bytes =>
        if hlength : bytes.length = sensorIdLen then .ok (⟨bytes, hlength⟩, sensorSs58Prefix)
        else .error "Length is bad"
      | none => .error "Base 58 requirement is violated"

/-- Alice's address begins in no other way than with a four. -/
theorem append_ne_aliceText {start : String} (text : String)
    (hstart : stripPrefix start aliceText = none) : start ++ text ≠ aliceText := by
  intro heq
  have hsome := stripPrefix_append start text
  rw [heq, hstart] at hsome
  exact absurd hsome (by simp)

theorem sensorKeys_writes : WritesKeys sensorKeys sensorAddress where
  alphanum id c hc := by
    unfold sensorAddress at hc
    split at hc
    · exact List.all_eq_true.mp (show aliceText.toList.all Char.isAlphanum = true from rfl) c hc
    · rw [String.toList_append] at hc
      rcases List.mem_append.mp hc with hc | hc
      · exact List.all_eq_true.mp (show ['5'].all Char.isAlphanum = true from rfl) c hc
      · exact alphanum_hexEncode _ c hc
  nonempty id h := by
    unfold sensorAddress at h
    split at h
    · exact absurd h (by decide)
    · have hchars := congrArg String.toList h
      simp at hchars
  ss58 id := by
    unfold sensorAddress
    split
    · next hid =>
      subst hid
      simp only [sensorKeys, if_true]
    · have hbytes : ((stripPrefix "5" ("5" ++ hexEncode id.bytes.1)).bind fun digits =>
          Hex.decode (Utf8.encode digits)) = some id.bytes.1 := by
        rw [stripPrefix_append]
        show Hex.decode (Utf8.encode (hexEncode id.bytes.1)) = _
        rw [encode_hexEncode, Hex.decode_encode]
      have hne : "5" ++ hexEncode id.bytes.1 ≠ aliceText :=
        append_ne_aliceText _ (by decide +kernel)
      simp only [sensorKeys, if_neg hne, hbytes]
      exact dif_pos id.bytes.2
  notSs58 text := by
    have hprefix : stripPrefix "5" ("0x" ++ text) = none := by
      simp [stripPrefix, String.toList_append]
    have hne : "0x" ++ text ≠ aliceText := append_ne_aliceText _ (by decide +kernel)
    refine ⟨"Base 58 requirement is violated", ?_⟩
    simp only [sensorKeys, if_neg hne, hprefix, Option.bind_none]
  hex bytes := by
    show (Hex.decode (Utf8.encode (hexEncode bytes))).elim _ _ = _
    rw [encode_hexEncode, Hex.decode_encode]
    rfl

/-- A heading, a sensor by its address, and one in hex with a remark. -/
def sensorLines : List ListLine :=
  [⟨none, some ['s', 'e', 'n', 's', 'o', 'r', 's']⟩,
    ⟨some (.ss58, aliceSensor), none⟩,
    ⟨some (.hex, bobSensor), some ['s', 'p', 'a', 'r', 'e']⟩]

theorem whitelist_enlists_sensorLines :
    ∃ list, Whitelist.fromFile sensorKeys "sensors.txt" (.ok (fileText sensorAddress sensorLines)) =
        .ok list ∧
      list.tryAuthorize aliceSensor = some true ∧
      list.tryAuthorize bobSensor = some true ∧
      list.tryAuthorize ⟨FixedBytes.replicate 32 3⟩ ≠ some true := by
  obtain ⟨list, hlist, hsensors⟩ := (whitelist_enlists sensorKeys _ _).written sensorAddress
    sensorKeys_writes sensorLines (by decide) (by simp [sensorLines, ListLine.OneLine]) rfl
  refine ⟨list, hlist, (hsensors _).mpr ⟨_, List.mem_cons_of_mem _ List.mem_cons_self, .ss58, rfl⟩,
    (hsensors _).mpr ⟨_, List.mem_cons_of_mem _ (List.mem_cons_of_mem _ List.mem_cons_self),
      .hex, rfl⟩, fun h => ?_⟩
  obtain ⟨line, hline, spelling, hsensor⟩ := (hsensors _).mp h
  have hother : ∀ line ∈ sensorLines, ∀ sensor, line.sensor = some sensor →
      sensor.2 ≠ ⟨FixedBytes.replicate 32 3⟩ := by
    intro line hline sensor hs
    simp only [sensorLines, List.mem_cons, List.not_mem_nil, or_false] at hline
    rcases hline with rfl | rfl | rfl
    · cases hs
    · obtain rfl := Option.some.inj hs
      decide
    · obtain rfl := Option.some.inj hs
      decide
  exact hother line hline _ hsensor rfl

end Auth
end Robins
