import Mathlib.Data.List.TakeWhile
import Mathlib.Order.Basic

/-!
# Byte strings

What the wire format is made of: texts as bytes, C strings inside byte buffers, and unsigned
numbers in network byte order.

* `ascii`: a literal of the source as bytes.
* `cstr`: the C string at the front of a buffer, up to its first zero byte.
* `be16`, `be32`, `fromBe`: `htons`, `htonl` and back, with `fromBe_be16` and `fromBe_be32`.
-/

namespace ChannelWire

/-- A byte string. -/
abbrev Bytes := List UInt8

/-- A text literal of the source, one byte a character. -/
def ascii (s : String) : Bytes := s.toList.map fun c => UInt8.ofNat c.toNat

/-! ## C strings -/

/-- The C string a buffer holds: its bytes up to the first zero byte. -/
def cstr (b : Bytes) : Bytes := b.takeWhile (· ≠ 0)

@[simp] theorem cstr_nil : cstr [] = [] := rfl

theorem length_cstr_le (b : Bytes) : (cstr b).length ≤ b.length :=
  (List.takeWhile_prefix _).length_le

/-- A buffer without a zero byte is a C string as it stands. -/
theorem cstr_of_zero_notMem {b : Bytes} (h : (0 : UInt8) ∉ b) : cstr b = b := by
  refine List.takeWhile_eq_self_iff.mpr fun x hx => ?_
  have hne : x ≠ 0 := by
    rintro rfl
    exact h hx
  simpa using hne

/-! ## Network byte order -/

/-- `htons`: two bytes, the high one first. -/
def be16 (n : ℕ) : Bytes := [UInt8.ofNat (n / 256), UInt8.ofNat n]

/-- `htonl`: four bytes, the highest one first. -/
def be32 (n : ℕ) : Bytes :=
  [UInt8.ofNat (n / 16777216), UInt8.ofNat (n / 65536), UInt8.ofNat (n / 256), UInt8.ofNat n]

/-- `ntohs` and `ntohl`: the number a byte string spells, the first byte the highest. -/
def fromBe (b : Bytes) : ℕ := b.foldl (fun n x => n * 256 + x.toNat) 0

@[simp] theorem length_be16 (n : ℕ) : (be16 n).length = 2 := rfl

@[simp] theorem length_be32 (n : ℕ) : (be32 n).length = 4 := rfl

theorem fromBe_be16 {n : ℕ} (h : n < 65536) : fromBe (be16 n) = n := by
  simp only [fromBe, be16, List.foldl_cons, List.foldl_nil, UInt8.toNat_ofNat']
  omega

theorem fromBe_be32 {n : ℕ} (h : n < 4294967296) : fromBe (be32 n) = n := by
  simp only [fromBe, be32, List.foldl_cons, List.foldl_nil, UInt8.toNat_ofNat']
  omega

/-- Two bytes are the network order of the number they spell. -/
theorem be16_fromBe (x y : UInt8) : be16 (fromBe [x, y]) = [x, y] := by
  have hx := x.toNat_lt
  have hy := y.toNat_lt
  have h1 : (x.toNat * 256 + y.toNat) / 256 = x.toNat := by omega
  have h2 : UInt8.ofNat (x.toNat * 256 + y.toNat) = y := by
    apply UInt8.toNat_inj.mp
    rw [UInt8.toNat_ofNat']
    omega
  simp only [fromBe, be16, List.foldl_cons, List.foldl_nil, Nat.zero_mul, Nat.zero_add, h1, h2,
    UInt8.ofNat_toNat]

/-- Four bytes are the network order of the number they spell. -/
theorem be32_fromBe (x y z w : UInt8) : be32 (fromBe [x, y, z, w]) = [x, y, z, w] := by
  have hx := x.toNat_lt
  have hy := y.toNat_lt
  have hz := z.toNat_lt
  have hw := w.toNat_lt
  have hbyte : ∀ {n : ℕ} {b : UInt8}, n % 256 = b.toNat → UInt8.ofNat n = b := by
    intro n b hn
    apply UInt8.toNat_inj.mp
    rw [UInt8.toNat_ofNat']
    omega
  simp only [fromBe, be32, List.foldl_cons, List.foldl_nil]
  rw [hbyte (b := x) (by omega), hbyte (b := y) (by omega), hbyte (b := z) (by omega),
    hbyte (b := w) (by omega)]

theorem fromBe_pair_lt (x y : UInt8) : fromBe [x, y] < 65536 := by
  have hx := x.toNat_lt
  have hy := y.toNat_lt
  simp only [fromBe, List.foldl_cons, List.foldl_nil]
  omega

theorem fromBe_quad_lt (x y z w : UInt8) : fromBe [x, y, z, w] < 4294967296 := by
  have hx := x.toNat_lt
  have hy := y.toNat_lt
  have hz := z.toNat_lt
  have hw := w.toNat_lt
  simp only [fromBe, List.foldl_cons, List.foldl_nil]
  omega

end ChannelWire
