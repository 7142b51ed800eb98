import Mathlib.Data.UInt
import Mathlib.Tactic.IntervalCases

/-!
# Base64

The encoding of RFC 4648 with padding, and the lenient decoder that is usual for it: it skips what
is not in the alphabet, stops at a complete padding, and fails if the symbols end inside a group.

`encode` writes every three bytes as four symbols, and `decodeLoop` reads symbol by symbol and keeps
what is left of the last one.  Decoding is the inverse of encoding (`decode_encode`).
-/

namespace Base64

/-- The symbol of a number below 64. -/
def symbol (v : ℕ) : UInt8 :=
  if v < 26 then .ofNat (0x41 + v)
  else if v < 52 then .ofNat (0x61 + (v - 26))
  else if v < 62 then .ofNat (0x30 + (v - 52))
  else if v = 62 then 0x2B
  else 0x2F

/-- The number of a symbol. -/
def value (c : UInt8) : Option ℕ :=
  let n := c.toNat
  if 0x41 ≤ n ∧ n ≤ 0x5A then some (n - 0x41)
  else if 0x61 ≤ n ∧ n ≤ 0x7A then some (n - 0x61 + 26)
  else if 0x30 ≤ n ∧ n ≤ 0x39 then some (n - 0x30 + 52)
  else if n = 0x2B then some 62
  else if n = 0x2F then some 63
  else none

/-- The padding symbol. -/
def pad : UInt8 := 0x3D

/-- The symbols of a sequence of bytes. -/
def encode : List UInt8 → List UInt8
  | a :: b :: c :: rest =>
    symbol (a.toNat / 4) :: symbol (a.toNat % 4 * 16 + b.toNat / 16) ::
      symbol (b.toNat % 16 * 4 + c.toNat / 64) :: symbol (c.toNat % 64) :: encode rest
  | [a, b] =>
    [symbol (a.toNat / 4), symbol (a.toNat % 4 * 16 + b.toNat / 16), symbol (b.toNat % 16 * 4), pad]
  | [a] => [symbol (a.toNat / 4), symbol (a.toNat % 4 * 16), pad, pad]
  | [] => []

/-- The bytes of a sequence of symbols, inside a group: `quad` symbols of it were read, `left` is
what the last one has left, and `pads` paddings followed it. -/
def decodeLoop : List UInt8 → ℕ → ℕ → ℕ → Option (List UInt8)
  | [], quad, _, _ => if quad = 0 then some [] else none
  | c :: rest, quad, left, pads =>
    if c = pad then
      if 2 ≤ quad then
        if 4 ≤ quad + (pads + 1) then some [] else decodeLoop rest quad left (pads + 1)
      else decodeLoop rest quad left pads
    else
      match value c with
      | none => decodeLoop rest quad left pads
      | some v =>
        match quad with
        | 0 => decodeLoop rest 1 v 0
        | 1 => (decodeLoop rest 2 (v % 16) 0).map (.ofNat (left * 4 + v / 16) :: ·)
        | 2 => (decodeLoop rest 3 (v % 4) 0).map (.ofNat (left * 16 + v / 4) :: ·)
        | _ => (decodeLoop rest 0 0 0).map (.ofNat (left * 64 + v) :: ·)

/-- The bytes of a sequence of symbols. -/
def decode (symbols : List UInt8) : Option (List UInt8) := decodeLoop symbols 0 0 0

/-! ## Symbols -/

variable {v left pads : ℕ} {rest : List UInt8}

theorem symbol_spec : ∀ v < 64, symbol v ≠ pad ∧ value (symbol v) = some v := by decide +kernel

/-- The symbols of `encode` are letters, digits, `+`, `/` and the padding. -/
def IsSymbol (c : UInt8) : Prop := c = pad ∨ (value c).isSome = true

instance (c : UInt8) : Decidable (IsSymbol c) := inferInstanceAs (Decidable (_ ∨ _))

theorem isSymbol_symbol (h : v < 64) : IsSymbol (symbol v) :=
  .inr (Option.isSome_of_eq_some (symbol_spec v h).2)

/-- The symbols are ASCII. -/
theorem IsSymbol.lt {c : UInt8} (h : IsSymbol c) : c.toNat < 0x80 := by
  rcases h with rfl | h
  · decide
  · by_contra hlarge
    have hnone : value c = none := by
      unfold value
      simp only
      split_ifs <;> first | rfl | omega
    rw [hnone] at h
    cases h

theorem isSymbol_of_mem_encode {c : UInt8} {bytes : List UInt8} (h : c ∈ encode bytes) :
    IsSymbol c := by
  induction bytes using encode.induct with
  | case1 a b c' rest ih =>
    have ha := a.toNat_lt
    have hb := b.toNat_lt
    have hc := c'.toNat_lt
    rw [encode] at h
    simp only [List.mem_cons] at h
    rcases h with rfl | rfl | rfl | rfl | h
    · exact isSymbol_symbol (by omega)
    · exact isSymbol_symbol (by omega)
    · exact isSymbol_symbol (by omega)
    · exact isSymbol_symbol (by omega)
    · exact ih h
  | case2 a b =>
    have ha := a.toNat_lt
    have hb := b.toNat_lt
    simp only [encode, List.mem_cons, List.not_mem_nil, or_false] at h
    rcases h with rfl | rfl | rfl | rfl
    · exact isSymbol_symbol (by omega)
    · exact isSymbol_symbol (by omega)
    · exact isSymbol_symbol (by omega)
    · exact .inl rfl
  | case3 a =>
    have ha := a.toNat_lt
    simp only [encode, List.mem_cons, List.not_mem_nil, or_false] at h
    rcases h with rfl | rfl | rfl | rfl
    · exact isSymbol_symbol (by omega)
    · exact isSymbol_symbol (by omega)
    · exact .inl rfl
    · exact .inl rfl
  | case4 => cases h

/-! ## Decoding -/

theorem decodeLoop_first (h : v < 64) (left : ℕ) :
    decodeLoop (symbol v :: rest) 0 left pads = decodeLoop rest 1 v 0 := by
  rw [decodeLoop, if_neg (symbol_spec v h).1, (symbol_spec v h).2]
  rfl

theorem decodeLoop_second (h : v < 64) : decodeLoop (symbol v :: rest) 1 left pads =
    (decodeLoop rest 2 (v % 16) 0).map (.ofNat (left * 4 + v / 16) :: ·) := by
  rw [decodeLoop, if_neg (symbol_spec v h).1, (symbol_spec v h).2]
  rfl

theorem decodeLoop_third (h : v < 64) : decodeLoop (symbol v :: rest) 2 left pads =
    (decodeLoop rest 3 (v % 4) 0).map (.ofNat (left * 16 + v / 4) :: ·) := by
  rw [decodeLoop, if_neg (symbol_spec v h).1, (symbol_spec v h).2]
  rfl

theorem decodeLoop_fourth (h : v < 64) : decodeLoop (symbol v :: rest) 3 left pads =
    (decodeLoop rest 0 0 0).map (.ofNat (left * 64 + v) :: ·) := by
  rw [decodeLoop, if_neg (symbol_spec v h).1, (symbol_spec v h).2]
  rfl

theorem ofNat_of_eq {a : UInt8} {n : ℕ} (h : n = a.toNat) : UInt8.ofNat n = a := by
  rw [h, UInt8.ofNat_toNat]

/-- **Decoding is the inverse of encoding.** -/
theorem decode_encode (bytes : List UInt8) : decode (encode bytes) = some bytes := by
  induction bytes using encode.induct with
  | case1 a b c rest ih =>
    have ha := a.toNat_lt
    have hb := b.toNat_lt
    have hc := c.toNat_lt
    rw [decode] at ih ⊢
    rw [encode, decodeLoop_first (by omega), decodeLoop_second (by omega),
      decodeLoop_third (by omega), decodeLoop_fourth (by omega), ih, Option.map_some,
      Option.map_some, Option.map_some, ofNat_of_eq (a := a) (by omega),
      ofNat_of_eq (a := b) (by omega), ofNat_of_eq (a := c) (by omega)]
  | case2 a b =>
    have ha := a.toNat_lt
    have hb := b.toNat_lt
    rw [decode, encode, decodeLoop_first (by omega), decodeLoop_second (by omega),
      decodeLoop_third (by omega), ofNat_of_eq (a := a) (by omega),
      ofNat_of_eq (a := b) (by omega)]
    rfl
  | case3 a =>
    have ha := a.toNat_lt
    rw [decode, encode, decodeLoop_first (by omega), decodeLoop_second (by omega),
      ofNat_of_eq (a := a) (by omega)]
    rfl
  | case4 => rfl

end Base64
