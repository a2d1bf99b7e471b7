import Robins.BatchStore.Format
import Robins.Cps.Tree
import Robins.Lib.Outline

/-!
# Targets and trees as text

A target is written as a number or as an account, and read with or without a word that says which
of them it is.  A tree is drawn with the target of each node behind the branch that leads to it.

## A target is read back

Without the word the number is tried first, so no account may be written as one.  An address is a
long text of letters and digits without a zero; a text that is read as a number of 64 bits has
only digits, and does not begin with a zero unless it is short.  Twenty-one digits that do not
begin with a zero are too large (`pow_le_ofDigitChars`).

## A tree is known from its drawing

Each line of a drawing consists of stems, a branch, and the text of a target, and no target has a
stem or a branch in it.  `Outline` has what follows for any such drawing: two forests drawn alike
are the same.  Here it is said what the stems and branches are (`pen`), that the rendering is a
drawing with them (`toList_render`), and that targets are told apart by their texts.

So what is shown is unambiguous: nobody can be shown one tree for another.
-/

namespace Robins
namespace Cps

open BatchStore (withoutPlus)

/-! ## Targets -/

/-- `str::parse::<u64>`: decimal digits, after an optional plus sign. -/
def parseU64 (text : String) : Option UInt64 :=
  let digits := withoutPlus text.toList
  if digits ≠ [] ∧ digits.all Char.isDigit ∧ Nat.ofDigitChars 10 digits 0 < 2 ^ 64 then
    some (UInt64.ofNat (Nat.ofDigitChars 10 digits 0))
  else none

/-- What stands after some text, if a text begins with it. -/
def stripPrefix (start text : String) : Option String :=
  if start.toList.isPrefixOf text.toList then
    some (String.ofList (text.toList.drop start.length))
  else none

def invalidTarget (text expected : String) : String :=
  "invalid target `" ++ text ++ "`: expected " ++ expected

section

variable (ss58 : Ss58)

/-- Detection order: explicit prefix, then a node id, then an account. -/
def Target.fromStr (text : String) : Except String Target :=
  match stripPrefix "node:" text with
  | some rest =>
    (parseU64 rest).elim (.error (invalidTarget text "a numeric node id")) fun id => .ok (.node id)
  | none =>
    match stripPrefix "addr:" text with
    | some rest =>
      (ss58.fromStr rest).elim (.error (invalidTarget text "an SS58 account")) fun account =>
        .ok (.address account)
    | none =>
      match parseU64 text with
      | some id => .ok (.node id)
      | none =>
        (ss58.fromStr text).elim (.error (invalidTarget text "a node id or an SS58 account"))
          fun account => .ok (.address account)

/-- The text of a target (its `Display`). -/
def Target.toText : Target → String
  | .node id => toString id.toNat
  | .address account => ss58.toText account

/-! ## Trees -/

mutual
/-- One child, behind the prefix of its siblings. -/
def renderChild : Tree → Bool → String → String → String
  | .node target children, last, indent, out =>
    renderChildren children (indent ++ if last then "    " else "│   ")
      (out ++ ("\n" ++ indent ++ (if last then "└──" else "├──") ++ " " ++ target.toText ss58))

/-- The children of a node, one under the other. -/
def renderChildren : List Tree → String → String → String
  | [], _, out => out
  | child :: children, indent, out =>
    renderChildren children indent (renderChild child children.isEmpty indent out)
end

/-- Box-drawing rendering. -/
def render : Tree → String
  | .node target children => renderChildren ss58 children "" (target.toText ss58)

end

/-- What the address format promises: an account is read back from its text, which is longer than
any node id, and has letters and the digits from one to nine only. -/
structure Ss58.Lawful (ss58 : Ss58) : Prop where
  fromStr_toText : ∀ account, ss58.fromStr (ss58.toText account) = some account
  long : ∀ account, 20 < (ss58.toText account).toList.length
  base58 : ∀ account, ∀ c ∈ (ss58.toText account).toList, c.isAlphanum = true ∧ c ≠ '0'

/-! ## A target is read back -/

section

theorem stripPrefix_eq_none {start text : String} (hstart : ':' ∈ start.toList)
    (htext : ∀ c ∈ text.toList, c.isAlphanum = true) : stripPrefix start text = none := by
  rw [stripPrefix, if_neg]
  intro hprefix
  have hmem := (List.isPrefixOf_iff_prefix.mp hprefix).subset hstart
  exact absurd (htext _ hmem) (by decide)

theorem withoutPlus_of_alphanum {text : List Char} (h : ∀ c ∈ text, c.isAlphanum = true) :
    withoutPlus text = text := by
  unfold withoutPlus
  split
  · exact absurd (h '+' List.mem_cons_self) (by decide)
  · rfl

theorem isAlphanum_of_isDigit {c : Char} (h : c.isDigit = true) : c.isAlphanum = true := by
  rw [Char.isAlphanum, h, Bool.or_true]

theorem isDigit_of_mem_toDigits {n : ℕ} {c : Char} (hc : c ∈ Nat.toDigits 10 n) :
    c.isDigit = true := Nat.isDigit_of_mem_toDigits (by decide) (by decide) hc

@[simp] theorem parseU64_repr (n : UInt64) : parseU64 n.toNat.repr = some n := by
  have hvalue : Nat.ofDigitChars 10 (Nat.toDigits 10 n.toNat) 0 = n.toNat :=
    Nat.ofDigitChars_ten_toDigits
  have hall : (Nat.toDigits 10 n.toNat).all Char.isDigit = true :=
    List.all_eq_true.mpr fun c hc => isDigit_of_mem_toDigits hc
  rw [parseU64, Nat.toList_repr,
    withoutPlus_of_alphanum fun c hc => isAlphanum_of_isDigit (isDigit_of_mem_toDigits hc), hvalue,
    if_pos ⟨Nat.toDigits_ne_nil, hall, n.toNat_lt⟩, UInt64.ofNat_toNat]

/-- A number that does not begin with a zero is as large as its length tells. -/
theorem pow_le_ofDigitChars {c : Char} (cs : List Char) (hc : c.isDigit = true) (hzero : c ≠ '0') :
    10 ^ cs.length ≤ Nat.ofDigitChars 10 (c :: cs) 0 := by
  have hpos : 0 < c.toNat - '0'.toNat := by
    obtain ⟨hle, -⟩ : '0'.toNat ≤ c.toNat ∧ c.toNat ≤ '9'.toNat := by
      simpa [Char.isDigit, UInt32.le_iff_toNat_le] using hc
    have hne : c.toNat ≠ '0'.toNat := fun heq => hzero (Char.toNat_inj.mp heq)
    omega
  rw [Nat.ofDigitChars_cons, Nat.ofDigitChars_eq_ofDigitChars_zero, Nat.mul_zero, Nat.zero_add]
  calc 10 ^ cs.length = 10 ^ cs.length * 1 := (Nat.mul_one _).symm
    _ ≤ 10 ^ cs.length * (c.toNat - '0'.toNat) := Nat.mul_le_mul_left _ hpos
    _ ≤ _ := Nat.le_add_right _ _

/-- No account is written as a node id. -/
theorem Ss58.Lawful.parseU64_toText {ss58 : Ss58} (h : ss58.Lawful) (account : AccountId) :
    parseU64 (ss58.toText account) = none := by
  have hbase := h.base58 account
  have hlong := h.long account
  rw [parseU64, withoutPlus_of_alphanum fun c hc => (hbase c hc).1, if_neg]
  rintro ⟨-, hall, hlt⟩
  cases htext : (ss58.toText account).toList with
  | nil => rw [htext] at hlong; exact absurd hlong (by decide)
  | cons c cs =>
    rw [htext] at hbase hlong hall hlt
    have hdigit := List.all_eq_true.mp hall c List.mem_cons_self
    have hlarge := pow_le_ofDigitChars cs hdigit (hbase c List.mem_cons_self).2
    have hlength : 10 ^ 20 ≤ 10 ^ cs.length :=
      Nat.pow_le_pow_right (by decide) (Nat.lt_succ_iff.mp hlong)
    omega

theorem Target.isAlphanum_of_mem_toText {ss58 : Ss58} (h : ss58.Lawful) (target : Target) :
    ∀ c ∈ (target.toText ss58).toList, c.isAlphanum = true := by
  cases target with
  | node id =>
    intro c hc
    rw [Target.toText, show toString id.toNat = id.toNat.repr from rfl, Nat.toList_repr] at hc
    exact isAlphanum_of_isDigit (isDigit_of_mem_toDigits hc)
  | address account => exact fun c hc => (h.base58 account c hc).1

theorem Target.fromStr_toText {ss58 : Ss58} (h : ss58.Lawful) (target : Target) :
    Target.fromStr ss58 (target.toText ss58) = .ok target := by
  have htext := target.isAlphanum_of_mem_toText h
  rw [Target.fromStr, stripPrefix_eq_none (by decide) htext, stripPrefix_eq_none (by decide) htext]
  cases target with
  | node id =>
    have hid : parseU64 (toString id.toNat) = some id := parseU64_repr id
    rw [Target.toText, hid]
  | address account => rw [Target.toText, h.parseU64_toText, h.fromStr_toText]; rfl

theorem Target.toText_injective {ss58 : Ss58} (h : ss58.Lawful) :
    Function.Injective fun target : Target => (target.toText ss58).toList := by
  intro target target' heq
  have hok := target.fromStr_toText h
  rw [String.toList_injective heq, target'.fromStr_toText h] at hok
  exact (Except.ok.inj hok).symm

/-! ## A tree is known from its drawing -/

/-- The branches and stems of the drawing. -/
def pen : RoseTree.Pen Char where
  branch last := (if last then "└── " else "├── ").toList
  stem last := (if last then "    " else "│   ").toList

def beginsBranch (line : List Char) : Bool := line.head? = some '└' || line.head? = some '├'

theorem legible_pen : pen.Legible beginsBranch where
  branch last line := by cases last <;> rfl
  stem last line := by cases last <;> rfl
  branch_inj last last' line line' h := by
    cases last <;> cases last'
    · exact ⟨rfl, List.append_cancel_left h⟩
    · exact absurd (congrArg List.head? h) (by simp [pen])
    · exact absurd (congrArg List.head? h) (by simp [pen])
    · exact ⟨rfl, List.append_cancel_left h⟩

/-- Lines on a page, each after a line break. -/
def written (lines : List (List Char)) : List Char := lines.flatMap ('\n' :: ·)

theorem written_append (lines lines' : List (List Char)) :
    written (lines ++ lines') = written lines ++ written lines' := List.flatMap_append

theorem intercalate_cons_eq (line : List Char) (lines : List (List Char)) :
    ['\n'].intercalate (line :: lines) = line ++ written lines := by
  induction lines generalizing line with
  | nil => simp [written]
  | cons next lines ih =>
    rw [List.intercalate_cons_cons, ih]
    simp [written]

variable (ss58 : Ss58)

/-- The text of a target, as it stands in the drawing. -/
def label (target : Target) : List Char := (target.toText ss58).toList

theorem toList_renderChildren {children : List Tree}
    (h : ∀ child ∈ children, ∀ last indent out, (renderChild ss58 child last indent out).toList =
      out.toList ++ written ((pen.hang last (RoseTree.lines pen (label ss58) child)).map
        (indent.toList ++ ·))) (indent out : String) :
    (renderChildren ss58 children indent out).toList =
      out.toList ++ written ((RoseTree.blocks pen (label ss58) children).map
        (indent.toList ++ ·)) := by
  induction children generalizing out with
  | nil => simp [renderChildren, RoseTree.blocks, written]
  | cons child children ih =>
    rw [renderChildren, ih fun child hc => h child (List.mem_cons_of_mem _ hc),
      h child List.mem_cons_self, RoseTree.blocks, List.map_append, written_append,
      List.append_assoc]

theorem toList_renderChild (tree : Tree) : ∀ last indent out,
    (renderChild ss58 tree last indent out).toList =
      out.toList ++ written ((pen.hang last (RoseTree.lines pen (label ss58) tree)).map
        (indent.toList ++ ·)) := by
  induction tree using RoseTree.induction with
  | hnode target children ih =>
    intro last indent out
    rw [renderChild, toList_renderChildren ss58 ih, RoseTree.lines, RoseTree.Pen.hang,
      List.map_cons, List.map_map]
    cases last <;> simp [written, pen, label, Function.comp_def]

theorem toList_render (tree : Tree) :
    (render ss58 tree).toList = ['\n'].intercalate (RoseTree.lines pen (label ss58) tree) := by
  cases tree with
  | node target children =>
    rw [render, toList_renderChildren ss58 fun child _ => toList_renderChild ss58 child,
      RoseTree.lines, intercalate_cons_eq]
    simp [label]

variable {ss58}

/-- **What is shown is unambiguous.**  A target is read back from its text, and no two trees are
drawn alike: the branches tell where a line belongs, and no text of a target contains one. -/
theorem rendering_unambiguous (ss58 : Ss58) (h : ss58.Lawful) :
    (∀ target, Target.fromStr ss58 (target.toText ss58) = .ok target) ∧
      Function.Injective (render ss58) := by
  refine ⟨Target.fromStr_toText h, fun tree tree' heq => ?_⟩
  have hlines := congrArg String.toList heq
  rw [toList_render, toList_render] at hlines
  refine RoseTree.intercalate_lines_injective legible_pen (fun last => ?_) (fun last => ?_)
    (Target.toText_injective h) (fun target hbreak => ?_) hlines
  · cases last <;> decide
  · cases last <;> decide
  · exact absurd (target.isAlphanum_of_mem_toText h _ hbreak) (by decide)

/-! ## Addresses of one account -/

/-- An account that everybody knows. -/
def alice : AccountId :=
  ⟨[212, 53, 147, 199, 21, 253, 211, 28, 97, 20, 26, 189, 4, 169, 159, 214, 130, 44, 133, 88, 133,
    76, 205, 227, 154, 86, 132, 231, 165, 109, 162, 125], rfl⟩

/-- Its address. -/
def aliceText : String := "5GrwvaEF5zXb26Fz9rcQpDWS57CtERHpNehXCPcNoHGKutQY"

/-- Letters for hexadecimal digits. -/
def letters (bytes : Bytes) : List Char :=
  (Hex.encode bytes).map fun digit => Char.ofNat (digit.toNat + 17)

/-- Addresses that are right for one account, and tell the others apart. -/
def aliceSs58 : Ss58 where
  toText account := if account = alice then aliceText else String.ofList (letters account.val)
  fromStr text :=
    if text = aliceText then some alice
    else (Hex.decode (text.toList.map fun c => UInt8.ofNat (c.toNat - 17))).bind
      (FixedBytes.ofSlice 32)

theorem toText_aliceSs58 (account : AccountId) : aliceSs58.toText account =
    if account = alice then aliceText else String.ofList (letters account.val) := rfl

theorem fromStr_aliceSs58 (text : String) : aliceSs58.fromStr text =
    if text = aliceText then some alice
    else (Hex.decode (text.toList.map fun c => UInt8.ofNat (c.toNat - 17))).bind
      (FixedBytes.ofSlice 32) := rfl

theorem letter_of_digit : ∀ n < 16,
    (Char.ofNat ((Hex.digit n).toNat + 17)).isAlphanum = true ∧
      Char.ofNat ((Hex.digit n).toNat + 17) ≠ '0' ∧
      UInt8.ofNat ((Char.ofNat ((Hex.digit n).toNat + 17)).toNat - 17) = Hex.digit n := by
  decide

theorem letter_of_mem {c : Char} {bytes : Bytes} (h : c ∈ letters bytes) :
    c.isAlphanum = true ∧ c ≠ '0' := by
  obtain ⟨digit, hdigit, rfl⟩ := List.mem_map.mp h
  obtain ⟨n, hn, rfl⟩ := Hex.exists_digit_of_mem_encode hdigit
  exact ⟨(letter_of_digit n hn).1, (letter_of_digit n hn).2.1⟩

theorem decode_letters (bytes : Bytes) :
    Hex.decode ((letters bytes).map fun c => UInt8.ofNat (c.toNat - 17)) = some bytes := by
  have hsame : ((letters bytes).map fun c => UInt8.ofNat (c.toNat - 17)) = Hex.encode bytes := by
    rw [letters, List.map_map]
    refine (List.map_congr_left fun digit hdigit => ?_).trans (List.map_id _)
    obtain ⟨n, hn, rfl⟩ := Hex.exists_digit_of_mem_encode hdigit
    exact (letter_of_digit n hn).2.2
  rw [hsame, Hex.decode_encode]

theorem length_letters (account : AccountId) : (letters account.val).length = 64 := by
  rw [letters, List.length_map, Hex.length_encode, account.property]

theorem lawful_aliceSs58 : aliceSs58.Lawful where
  fromStr_toText account := by
    by_cases h : account = alice
    · rw [toText_aliceSs58, if_pos h, fromStr_aliceSs58, if_pos rfl, h]
    · have hne : String.ofList (letters account.val) ≠ aliceText := fun heq => by
        have hlength := congrArg (fun text => text.toList.length) heq
        rw [String.toList_ofList, length_letters] at hlength
        exact absurd hlength (by decide)
      rw [toText_aliceSs58, if_neg h, fromStr_aliceSs58, if_neg hne, String.toList_ofList,
        decode_letters]
      exact FixedBytes.ofSlice_eq_some_iff.mpr rfl
  long account := by
    rw [toText_aliceSs58]
    split
    · decide
    · rw [String.toList_ofList, length_letters]
      decide
  base58 account c hc := by
    rw [toText_aliceSs58] at hc
    split at hc
    · have hall : aliceText.toList.all (fun c => c.isAlphanum && c != '0') = true := by
        decide +kernel
      have hboth := List.all_eq_true.mp hall c hc
      rwa [Bool.and_eq_true, bne_iff_ne] at hboth
    · rw [String.toList_ofList] at hc
      exact letter_of_mem hc

theorem rendering_unambiguous_alice :
    Target.fromStr aliceSs58 aliceText = .ok (.address alice) ∧
      ∀ tree, render aliceSs58 tree = "7\n└── " ++ aliceText →
        tree = .node (.node 7) [.node (.address alice) []] := by
  refine ⟨(rendering_unambiguous aliceSs58 lawful_aliceSs58).1 (.address alice), fun tree h => ?_⟩
  refine (rendering_unambiguous aliceSs58 lawful_aliceSs58).2 (h.trans ?_)
  decide

end

end Cps
end Robins
