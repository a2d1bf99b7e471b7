import Mathlib.Data.List.Basic

/-!
# Base64

Three bytes as four characters of the standard alphabet, in ASCII, with padding: what is left at
the end is one or two bytes, written with two or one padding characters.  The reader is strict:
padding is required, and the bits it leaves over must be zero.

So every text that is read has one form, and every list of bytes is read back from its text
(`decode_encode`).  Besides the round trip there are two facts about the text itself, for programs
that look at a text before they read it: which characters are in it, and what the first one is.
-/

namespace Base64

/-- The padding character. -/
def pad : UInt8 := 61

/-- The character of a number below sixty-four. -/
def symbol (n : ℕ) : UInt8 :=
  if n < 26 then UInt8.ofNat (65 + n)
  else if n < 52 then UInt8.ofNat (71 + n)
  else if n < 62 then UInt8.ofNat (n - 4)
  else if n = 62 then 43
  else 47

/-- The number a character stands for. -/
def value (c : UInt8) : Option ℕ :=
  if 65 ≤ c ∧ c ≤ 90 then some (c.toNat - 65)
  else if 97 ≤ c ∧ c ≤ 122 then some (c.toNat - 71)
  else if 48 ≤ c ∧ c ≤ 57 then some (c.toNat + 4)
  else if c = 43 then some 62
  else if c = 47 then some 63
  else none

/-- Four characters for three bytes. -/
def encode : List UInt8 → List UInt8
  | [] => []
  | [a] => [symbol (a.toNat / 4), symbol (a.toNat % 4 * 16), pad, pad]
  | [a, b] =>
    [symbol (a.toNat / 4), symbol (a.toNat % 4 * 16 + b.toNat / 16), symbol (b.toNat % 16 * 4), pad]
  | a :: b :: c :: rest =>
    symbol (a.toNat / 4) :: symbol (a.toNat % 4 * 16 + b.toNat / 16) ::
      symbol (b.toNat % 16 * 4 + c.toNat / 64) :: symbol (c.toNat % 64) :: encode rest

/-- The byte of two characters. -/
def one (w x : UInt8) : Option (List UInt8) :=
  match value w, value x with
  | some w, some x => if x % 16 = 0 then some [UInt8.ofNat (w * 4 + x / 16)] else none
  | _, _ => none

/-- The bytes of three characters. -/
def two (w x y : UInt8) : Option (List UInt8) :=
  match value w, value x, value y with
  | some w, some x, some y =>
    if y % 4 = 0 then
      some [UInt8.ofNat (w * 4 + x / 16), UInt8.ofNat (x % 16 * 16 + y / 4)]
    else none
  | _, _, _ => none

/-- The bytes of four characters. -/
def three (w x y z : UInt8) : Option (List UInt8) :=
  match value w, value x, value y, value z with
  | some w, some x, some y, some z =>
    some [UInt8.ofNat (w * 4 + x / 16), UInt8.ofNat (x % 16 * 16 + y / 4),
      UInt8.ofNat (y % 4 * 64 + z)]
  | _, _, _, _ => none

/-- Read groups of four characters. -/
def decode : List UInt8 → Option (List UInt8)
  | [] => some []
  | w :: x :: y :: z :: rest =>
    if z = pad then
      if rest ≠ [] then none
      else if y = pad then one w x
      else two w x y
    else
      match three w x y z, decode rest with
      | some front, some back => some (front ++ back)
      | _, _ => none
  | _ => none

theorem value_symbol {n : ℕ} (h : n < 64) : value (symbol n) = some n := by
  revert h
  revert n
  decide

theorem symbol_ne_pad {n : ℕ} (h : n < 64) : symbol n ≠ pad := by
  revert h
  revert n
  decide

/-- **What is written is read.** -/
theorem decode_encode (b : List UInt8) : decode (encode b) = some b := by
  induction b using encode.induct with
  | case1 => rfl
  | case2 a =>
    have ha := a.toNat_lt
    rw [encode, decode, if_pos rfl, if_neg (not_not.mpr rfl), if_pos rfl, one,
      value_symbol (by omega), value_symbol (by omega)]
    dsimp only
    rw [if_pos (by omega), show a.toNat / 4 * 4 + a.toNat % 4 * 16 / 16 = a.toNat by omega,
      UInt8.ofNat_toNat]
  | case3 a b =>
    have ha := a.toNat_lt
    have hb := b.toNat_lt
    rw [encode, decode, if_pos rfl, if_neg (not_not.mpr rfl), if_neg (symbol_ne_pad (by omega)),
      two, value_symbol (by omega), value_symbol (by omega), value_symbol (by omega)]
    dsimp only
    rw [if_pos (by omega),
      show a.toNat / 4 * 4 + (a.toNat % 4 * 16 + b.toNat / 16) / 16 = a.toNat by omega,
      show (a.toNat % 4 * 16 + b.toNat / 16) % 16 * 16 + b.toNat % 16 * 4 / 4 = b.toNat by omega,
      UInt8.ofNat_toNat, UInt8.ofNat_toNat]
  | case4 a b c rest ih =>
    have ha := a.toNat_lt
    have hb := b.toNat_lt
    have hc := c.toNat_lt
    rw [encode, decode, if_neg (symbol_ne_pad (by omega)), ih, three, value_symbol (by omega),
      value_symbol (by omega), value_symbol (by omega), value_symbol (by omega)]
    dsimp only
    rw [show a.toNat / 4 * 4 + (a.toNat % 4 * 16 + b.toNat / 16) / 16 = a.toNat by omega,
      show (a.toNat % 4 * 16 + b.toNat / 16) % 16 * 16 + (b.toNat % 16 * 4 + c.toNat / 64) / 4 =
        b.toNat by omega,
      show (b.toNat % 16 * 4 + c.toNat / 64) % 4 * 64 + c.toNat % 64 = c.toNat by omega,
      UInt8.ofNat_toNat, UInt8.ofNat_toNat, UInt8.ofNat_toNat]
    rfl

theorem symbol_or_pad_of_mem_encode {x : UInt8} {b : List UInt8} (h : x ∈ encode b) :
    x = pad ∨ ∃ n < 64, x = symbol n := by
  have hsymbol : ∀ n, n < 64 → symbol n = pad ∨ ∃ m < 64, symbol n = symbol m :=
    fun n hn => .inr ⟨n, hn, rfl⟩
  induction b using encode.induct with
  | case1 => cases h
  | case2 a =>
    have ha := a.toNat_lt
    simp only [encode, List.mem_cons, List.not_mem_nil, or_false] at h
    obtain rfl | rfl | rfl | rfl := h
    · exact hsymbol _ (by omega)
    · exact hsymbol _ (by omega)
    · exact .inl rfl
    · exact .inl rfl
  | case3 a b =>
    have ha := a.toNat_lt
    have hb := b.toNat_lt
    simp only [encode, List.mem_cons, List.not_mem_nil, or_false] at h
    obtain rfl | rfl | rfl | rfl := h
    · exact hsymbol _ (by omega)
    · exact hsymbol _ (by omega)
    · exact hsymbol _ (by omega)
    · exact .inl rfl
  | case4 a b c rest ih =>
    have ha := a.toNat_lt
    have hb := b.toNat_lt
    have hc := c.toNat_lt
    simp only [encode, List.mem_cons] at h
    obtain rfl | rfl | rfl | rfl | h := h
    · exact hsymbol _ (by omega)
    · exact hsymbol _ (by omega)
    · exact hsymbol _ (by omega)
    · exact hsymbol _ (by omega)
    · exact ih h

/-- The first character has the upper bits of the first byte. -/
theorem head?_encode_cons (a : UInt8) (b : List UInt8) :
    (encode (a :: b)).head? = some (symbol (a.toNat / 4)) := by
  obtain _ | ⟨b, _ | ⟨c, rest⟩⟩ := b
  · rfl
  · rfl
  · rfl

end Base64
