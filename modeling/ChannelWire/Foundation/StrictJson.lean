import ChannelWire.Foundation.JsonText
import Mathlib.Data.Rat.Cast.Order
import Mathlib.Algebra.Order.Field.Power

/-!
# JSON texts of JavaScript

`JSON.parse` has no `NaN` and no infinities, which are the only values of `loads` with an `N` or an
`I` outside of strings (`parse`); the value of a number is that of its decimal spelling
(`decimal`); and `JSON.stringify` escapes what a string may not contain (`stringified`).

The parts of an object are read one by one: a member whose value is a string (`members_string`) or
a natural number (`members_step`), and the capitals they add (`noCapitals_quoted`,
`noCapitals_numeral`).
-/

namespace JsonText

open Utf8

/-! ## Parsing -/

/-- Where a text goes on: outside of strings, inside of one, or behind a backslash there. -/
inductive Place where
  | outside | inside | escape

/-- No `N` and no `I` outside of strings. -/
def noCapitals : Place → Text → Bool
  | _, [] => true
  | .outside, c :: s =>
    if c = ch '"' then noCapitals .inside s
    else c ≠ ch 'N' && c ≠ ch 'I' && noCapitals .outside s
  | .inside, c :: s =>
    if c = ch '"' then noCapitals .outside s
    else if c = ch '\\' then noCapitals .escape s
    else noCapitals .inside s
  | .escape, _ :: s => noCapitals .inside s

/-- `JSON.parse`. -/
def parse (s : Text) : Option Json := if noCapitals .outside s then loads s else none

/-- The number that digits spell. -/
def digitsValue (s : Text) : ℕ := s.foldl (fun n c => 10 * n + (c.val - 0x30)) 0

/-- The value of a number, exactly. -/
def decimal (literal : Text) : ℚ :=
  let (negative, s) := match literal with
    | [] => (false, [])
    | c :: s => if c = ch '-' then (true, s) else (false, c :: s)
  let (int, s) := digits s
  let (frac, s) := match s with
    | [] => ([], [])
    | c :: s => if c = ch '.' then digits s else ([], c :: s)
  let exp : ℤ := match s with
    | [] => 0
    | _ :: s =>
      match sign s with
      | ([], s) => digitsValue s
      | (c :: _, s) => if c = ch '-' then -digitsValue s else digitsValue s
  let size : ℚ := digitsValue (int ++ frac) * 10 ^ (exp - frac.length)
  if negative then -size else size

/-! ## Writing -/

/-- The lower case digit of a number below 16. -/
def hexSymbol (n : ℕ) : CodePoint := ch (Nat.digitChar n)

/-- A code point as `\uXXXX`. -/
def unicodeText (c : CodePoint) : Text :=
  [ch '\\', ch 'u', hexSymbol (c.val / 4096 % 16), hexSymbol (c.val / 256 % 16),
    hexSymbol (c.val / 16 % 16), hexSymbol (c.val % 16)]

/-- A code point in a string of `JSON.stringify`. -/
def escaped (c : CodePoint) : Text :=
  if c = ch '"' ∨ c = ch '\\' then [ch '\\', c]
  else if c.val = 0x8 then [ch '\\', ch 'b']
  else if c.val = 0x9 then [ch '\\', ch 't']
  else if c.val = 0xA then [ch '\\', ch 'n']
  else if c.val = 0xC then [ch '\\', ch 'f']
  else if c.val = 0xD then [ch '\\', ch 'r']
  else if c.val ≤ 0x1F ∨ (0xD800 ≤ c.val ∧ c.val < 0xE000) then unicodeText c
  else [c]

/-- `JSON.stringify` of a string. -/
def stringified (s : Text) : Text := quoted (s.flatMap escaped)

variable {s t key : Text} {c e : CodePoint} {n : ℕ}

/-! ## Strings -/

theorem escaped_of_plain (hc : IsPlain c) (hascii : c.val < 0x80) : escaped c = [c] := by
  obtain ⟨hquote, hslash, hcontrol⟩ := hc
  have h1 : ¬ (c = ch '"' ∨ c = ch '\\') := not_or.mpr ⟨hquote, hslash⟩
  have h2 : ¬ (c.val ≤ 0x1F ∨ (0xD800 ≤ c.val ∧ c.val < 0xE000)) := by omega
  rw [escaped, if_neg h1, if_neg (by omega), if_neg (by omega), if_neg (by omega),
    if_neg (by omega), if_neg (by omega), if_neg h2]

/-- A plain ASCII string is written as it is. -/
theorem stringified_plain (hs : ∀ c ∈ s, IsPlain c ∧ c.val < 0x80) : stringified s = quoted s := by
  have hsame : s.flatMap escaped = s := by
    induction s with
    | nil => rfl
    | cons c s ih =>
      obtain ⟨hc, hascii⟩ := hs c List.mem_cons_self
      rw [List.flatMap_cons, escaped_of_plain hc hascii,
        ih fun d hd => hs d (List.mem_cons_of_mem c hd)]
      rfl
  rw [stringified, hsame]

theorem noCapitals_plain (hs : ∀ c ∈ s, IsPlain c) (t : Text) :
    noCapitals .inside (s ++ ch '"' :: t) = noCapitals .outside t := by
  induction s with
  | nil => rfl
  | cons c s ih =>
    obtain ⟨hquote, hslash, -⟩ := hs c List.mem_cons_self
    rw [List.cons_append, noCapitals, if_neg hquote, if_neg hslash]
    exact ih fun d hd => hs d (List.mem_cons_of_mem c hd)

/-- A code point outside of strings that begins no string and no word with a capital. -/
theorem noCapitals_cons (hc : c ≠ ch '"' ∧ c ≠ ch 'N' ∧ c ≠ ch 'I') (s : Text) :
    noCapitals .outside (c :: s) = noCapitals .outside s := by
  obtain ⟨hquote, hN, hI⟩ := hc
  rw [noCapitals, if_neg hquote, decide_eq_true hN, decide_eq_true hI]
  rfl

theorem quoted_append (s t : Text) : quoted s ++ t = ch '"' :: (s ++ ch '"' :: t) := by
  rw [quoted]
  simp

theorem noCapitals_quoted (hs : ∀ c ∈ s, IsPlain c) (t : Text) :
    noCapitals .outside (quoted s ++ t) = noCapitals .outside t := by
  rw [quoted_append]
  exact noCapitals_plain hs t

theorem skipBlanks_quoted (s t : Text) : skipBlanks (quoted s ++ t) = quoted s ++ t := by
  rw [quoted_append]
  exact skipBlanks_of_not (by decide) _

/-- A string is read as a value. -/
theorem value_quoted (hs : ∀ c ∈ s, IsPlain c) (n : ℕ) (t : Text) :
    value (n + 1) (quoted s ++ t) = some (.string s, t) := by
  have hstring : string (s ++ ch '"' :: t).length (s ++ ch '"' :: t) = some (s, t) := by
    refine string_plain hs t ?_
    rw [List.length_append, List.length_cons]
    omega
  rw [quoted_append, value, if_pos rfl, hstring]
  rfl

/-- One member with a string, up to the comma or the brace behind it. -/
theorem members_string (hkey : ∀ c ∈ key, IsPlain c) (hs : ∀ c ∈ s, IsPlain c)
    (fields : List (Text × Json)) (n : ℕ) (he : EndsNumber e) (t : Text) :
    members (n + 2) fields (quoted key ++ ch ':' :: (quoted s ++ e :: t)) =
      if e = ch '\x7d' then some (setItem fields key (.string s), t)
      else members (n + 1) (setItem fields key (.string s)) (skipBlanks t) := by
  let rest := ch ':' :: (quoted s ++ e :: t)
  have hstring : string (key ++ ch '"' :: rest).length (key ++ ch '"' :: rest) =
      some (key, rest) := by
    refine string_plain hkey _ ?_
    rw [List.length_append, List.length_cons]
    omega
  have hblank : isBlank e = false := by
    rcases he with rfl | rfl <;> decide
  show members (n + 2) fields (quoted key ++ rest) = _
  rw [quoted_append, members, if_pos rfl, hstring]
  simp only
  rw [skipBlanks_of_not (by decide)]
  simp only [if_true]
  rw [skipBlanks_quoted, value_quoted hs n]
  simp only
  rw [skipBlanks_of_not hblank]
  simp only
  rcases he with rfl | rfl
  · rw [if_neg (by decide), if_pos rfl, if_neg (by decide)]
  · rw [if_pos rfl, if_pos rfl]

/-- The members of an object, in braces and with nothing behind them. -/
theorem loads_members {fields : List (Text × Json)}
    (hs : ∀ m, n ≤ m → members m [] (quoted key ++ s) = some (fields, []))
    (hn : n ≤ 2 * (quoted key ++ s).length) :
    loads (ch '\x7b' :: (quoted key ++ s)) = some (.object fields) := by
  have hhead : (quoted key ++ s).head? ≠ some (ch '\x7d') := by
    rw [quoted_append, List.head?_cons]
    decide
  have hvalue : value (2 * (ch '\x7b' :: (quoted key ++ s)).length + 1)
      (ch '\x7b' :: (quoted key ++ s)) = some (.object fields, []) := by
    rw [value, if_neg (by decide), if_pos rfl, skipBlanks_quoted]
    simp only
    rw [if_neg hhead, hs _ (by rw [List.length_cons]; omega)]
    rfl
  rw [loads, skipBlanks_of_not (by decide), hvalue]
  exact if_pos rfl

/-! ## Numbers -/

theorem noCapitals_numeral (n : ℕ) (t : Text) :
    noCapitals .outside (numeral n ++ t) = noCapitals .outside t := by
  have hdigit : ∀ c ∈ numeral n, isDigit c = true := fun c hc => isDigit_of_mem_numeral hc
  generalize numeral n = digits at hdigit ⊢
  induction digits with
  | nil => rfl
  | cons c s ih =>
    have hc := hdigit c List.mem_cons_self
    have hne : ∀ d : CodePoint, isDigit d = false → c ≠ d := by
      rintro d hd rfl
      rw [hc] at hd
      cases hd
    rw [List.cons_append,
      noCapitals_cons ⟨hne _ (by decide), hne _ (by decide), hne _ (by decide)⟩]
    exact ih fun d hd => hdigit d (List.mem_cons_of_mem c hd)

theorem digitsValue_numeral (n : ℕ) : digitsValue (numeral n) = n := by
  have hchar : ∀ c ∈ Nat.toDigits 10 n, (ch c).val - 0x30 = c.toNat - '0'.toNat := by
    intro c hc
    obtain ⟨hmin, hmax⟩ := Char.isDigit_iff_toNat.mp
      (Nat.isDigit_of_mem_toDigits (by decide) (by decide) hc)
    have hval : (ch c).val = c.toNat := by
      show c.toNat % 0x110000 = c.toNat
      have : '9'.toNat = 57 := rfl
      omega
    rw [hval]
    rfl
  rw [digitsValue, numeral, List.foldl_map]
  refine (List.foldl_ext _ _ 0 fun m c hc => ?_).trans
    (Nat.ofDigitChars_eq_foldl.symm.trans Nat.ofDigitChars_ten_toDigits)
  rw [hchar c hc]

/-- **The value of the numeral of a number is the number.** -/
theorem decimal_numeral (n : ℕ) : decimal (numeral n) = n := by
  have hdigit : ∀ c ∈ numeral n, isDigit c = true := fun c hc => isDigit_of_mem_numeral hc
  have hdigits : digits (numeral n) = (numeral n, []) := by
    have h := digits_append hdigit (t := []) (by rintro _ ⟨⟩)
    rwa [List.append_nil] at h
  have hvalue := digitsValue_numeral n
  obtain ⟨d, s, hn, -⟩ := exists_digitChar_numeral n
  have hne : ch (Nat.digitChar d) ≠ ch '-' := by
    intro h
    have hfirst := hdigit _ (hn ▸ List.mem_cons_self)
    rw [h] at hfirst
    exact absurd hfirst (by decide)
  rw [hn] at hdigits hvalue ⊢
  unfold decimal
  simp only [if_neg hne, hdigits, List.append_nil, hvalue]
  simp

end JsonText
