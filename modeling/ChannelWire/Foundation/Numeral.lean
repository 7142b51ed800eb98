import Mathlib.Data.Int.Basic
import Mathlib.Data.List.TakeWhile

/-!
# Decimal numerals with a sign

A text denotes an integer if it is made of white space, a sign or none, and decimal digits, at least
one (`Denotes`).  `scan` finds these pieces in front of a text as the C library does.  A text
denotes an integer exactly if the scan finds digits and nothing is left behind them
(`denotes_iff`), so it denotes one at most (`Denotes.unique`).
-/

namespace Numeral

/-- White space in the C locale. -/
def isSpace (c : UInt8) : Bool := c == 32 || (9 ≤ c && c ≤ 13)

/-- A decimal digit. -/
def isDigit (c : UInt8) : Bool := 48 ≤ c && c ≤ 57

/-- The number that digits spell. -/
def value (digits : List UInt8) : ℕ := digits.foldl (fun n c => n * 10 + (c.toNat - 48)) 0

/-- A number with its sign. -/
def signed (negative : Bool) (n : ℕ) : ℤ := if negative then -n else n

/-- A sign, or none. -/
inductive IsSign : List UInt8 → Bool → Prop where
  | none : IsSign [] false
  | plus : IsSign [0x2B] false
  | minus : IsSign [0x2D] true

/-- The text is a numeral of `z`. -/
def Denotes (s : List UInt8) (z : ℤ) : Prop :=
  ∃ spaces sign negative digits, s = spaces ++ (sign ++ digits) ∧ IsSign sign negative ∧
    (∀ c ∈ spaces, isSpace c = true) ∧ (∀ c ∈ digits, isDigit c = true) ∧ digits ≠ [] ∧
    z = signed negative (value digits)

/-- Whether there is a minus sign in front, and the text behind the sign. -/
def takeSign : List UInt8 → Bool × List UInt8
  | [] => (false, [])
  | c :: s => if c = 0x2D then (true, s) else if c = 0x2B then (false, s) else (false, c :: s)

/-- The pieces of a numeral in front of a text, and the text behind them. -/
structure Scan where
  negative : Bool
  digits : List UInt8
  rest : List UInt8

/-- The numeral in front of a text. -/
def scan (s : List UInt8) : Scan :=
  let (negative, s) := takeSign (s.dropWhile isSpace)
  ⟨negative, s.takeWhile isDigit, s.dropWhile isDigit⟩

variable {s digits : List UInt8} {c : UInt8}

/-- A digit is neither white space nor a sign. -/
theorem of_isDigit (h : isDigit c = true) : isSpace c = false ∧ c ≠ 0x2D ∧ c ≠ 0x2B := by
  have hc : 48 ≤ c.toNat ∧ c.toNat ≤ 57 := by
    simpa only [isDigit, Bool.and_eq_true, decide_eq_true_eq, UInt8.le_iff_toNat_le,
      UInt8.reduceToNat] using h
  refine ⟨?_, ?_, ?_⟩
  · simp only [isSpace, Bool.or_eq_false_iff, Bool.and_eq_false_iff, decide_eq_false_iff_not,
      beq_eq_false_iff_ne, ne_eq, ← UInt8.toNat_inj, UInt8.le_iff_toNat_le]
    simp only [UInt8.reduceToNat]
    omega
  · rintro rfl
    exact absurd hc.1 (by decide)
  · rintro rfl
    exact absurd hc.1 (by decide)

theorem takeSign_digits (h : ∀ c ∈ digits, isDigit c = true) :
    takeSign digits = (false, digits) := by
  cases digits with
  | nil => rfl
  | cons c digits =>
    obtain ⟨-, hminus, hplus⟩ := of_isDigit (h c List.mem_cons_self)
    rw [takeSign, if_neg hminus, if_neg hplus]

/-- The sign in front of digits is taken. -/
theorem takeSign_append {sign : List UInt8} {negative : Bool} (hsign : IsSign sign negative)
    (h : ∀ c ∈ digits, isDigit c = true) : takeSign (sign ++ digits) = (negative, digits) := by
  cases hsign with
  | none => exact takeSign_digits h
  | plus => rfl
  | minus => rfl

/-- What is taken is a sign. -/
theorem exists_of_takeSign (s : List UInt8) :
    ∃ sign, IsSign sign (takeSign s).1 ∧ s = sign ++ (takeSign s).2 := by
  cases s with
  | nil => exact ⟨[], .none, rfl⟩
  | cons c s =>
    rw [takeSign]
    split_ifs with hminus hplus
    · exact ⟨[0x2D], .minus, by rw [hminus]; rfl⟩
    · exact ⟨[0x2B], .plus, by rw [hplus]; rfl⟩
    · exact ⟨[], .none, rfl⟩

/-- A text with a sign and digits does not start with white space. -/
theorem dropWhile_isSpace {sign : List UInt8} {negative : Bool} (hsign : IsSign sign negative)
    (h : ∀ c ∈ digits, isDigit c = true) (hne : digits ≠ []) :
    (sign ++ digits).dropWhile isSpace = sign ++ digits := by
  cases hsign with
  | none =>
    obtain ⟨c, rest, rfl⟩ := List.exists_cons_of_ne_nil hne
    exact List.dropWhile_cons_of_neg (Bool.eq_false_iff.mp (of_isDigit (h c List.mem_cons_self)).1)
  | plus => rfl
  | minus => rfl

/-- **A text is a numeral if the scan leaves nothing behind.** -/
theorem denotes_iff {z : ℤ} : Denotes s z ↔
    (scan s).digits ≠ [] ∧ (scan s).rest = [] ∧
      z = signed (scan s).negative (value (scan s).digits) := by
  constructor
  · rintro ⟨spaces, sign, negative, digits, rfl, hsign, hspaces, hdigits, hne, rfl⟩
    have hscan : scan (spaces ++ (sign ++ digits)) = ⟨negative, digits, []⟩ := by
      have hdrop : (spaces ++ (sign ++ digits)).dropWhile isSpace = sign ++ digits := by
        rw [List.dropWhile_append_of_pos hspaces, dropWhile_isSpace hsign hdigits hne]
      rw [scan, hdrop, takeSign_append hsign hdigits]
      simp only
      rw [List.takeWhile_eq_self_iff.mpr hdigits, List.dropWhile_eq_nil_iff.mpr hdigits]
    rw [hscan]
    exact ⟨hne, rfl, rfl⟩
  · rintro ⟨hne, hrest, rfl⟩
    obtain ⟨sign, hsign, hs⟩ := exists_of_takeSign (s.dropWhile isSpace)
    have hdigits : (takeSign (s.dropWhile isSpace)).2 = (scan s).digits := by
      have hsplit : (scan s).digits ++ (scan s).rest = (takeSign (s.dropWhile isSpace)).2 :=
        List.takeWhile_append_dropWhile
      rw [← hsplit, hrest, List.append_nil]
    refine ⟨s.takeWhile isSpace, sign, _, (scan s).digits, ?_, hsign, ?_, ?_, hne, rfl⟩
    · rw [← hdigits, ← hs, List.takeWhile_append_dropWhile]
    · exact fun c hc => List.mem_takeWhile_imp hc
    · exact fun c hc => List.mem_takeWhile_imp hc

/-- **A text denotes one integer at most.** -/
theorem Denotes.unique {z z' : ℤ} (h : Denotes s z) (h' : Denotes s z') : z = z' :=
  (denotes_iff.mp h).2.2.trans (denotes_iff.mp h').2.2.symm

/-- Nothing is denoted without digits. -/
theorem not_denotes_nil (z : ℤ) : ¬ Denotes [] z := fun h => (denotes_iff.mp h).1 rfl

end Numeral
