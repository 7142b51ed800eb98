import ChannelWire.Foundation.Utf8
import ChannelWire.Protocol.Wire

/-!
# The strings of the gateway

A Python `str` is a list of code points; `json.loads` can produce lone surrogates, so it is not a
list of `Char`.  `encode("utf-8")` and `decode("utf-8")` are those of `Utf8`.

The gateway checks names twice, in the field `username` of `TokenRequest` and in the target of a
`dm`, and both checks accept the same strings (`isName`).  A `Username` is such a string: the
subject of every token that `create_token` signs.  Its bytes are the name the core knows
(`Username.bytes`).
-/

namespace ChannelWire
namespace Gateway

open Utf8

/-- A Python `str`. -/
abbrev PyStr := List CodePoint

/-- A string literal of the source. -/
def py (s : String) : PyStr := s.toList.map fun c => Fin.ofNat _ c.toNat

/-- `str.isspace`, on one code point. -/
def isSpace (c : CodePoint) : Bool :=
  let n := c.val
  (0x9 ≤ n && n ≤ 0xD) || (0x1C ≤ n && n ≤ 0x20) || n == 0x85 || n == 0xA0 || n == 0x1680 ||
    (0x2000 ≤ n && n ≤ 0x200A) || n == 0x2028 || n == 0x2029 || n == 0x202F || n == 0x205F ||
    n == 0x3000

/-- `str.strip`. -/
def strip (s : PyStr) : PyStr :=
  ((s.dropWhile isSpace).reverse.dropWhile isSpace).reverse

/-- `str.lower`, as far as ASCII comes out of it: the capital letters, `K` for kelvin and the
dotted capital `I`.  Any other code point with a lower case has one beyond ASCII and may stay as
it is where the result is compared with an ASCII text. -/
def lower (s : PyStr) : PyStr :=
  s.flatMap fun c =>
    if 0x41 ≤ c.val ∧ c.val ≤ 0x5A then [c + 0x20]
    else if c.val = 0x130 then [0x69, 0x307]
    else if c.val = 0x212A then [0x6B]
    else [c]

/-- The class `[A-Za-z0-9_.-]`. -/
def isNameChar (c : CodePoint) : Bool :=
  let n := c.val
  (0x41 ≤ n && n ≤ 0x5A) || (0x61 ≤ n && n ≤ 0x7A) || (0x30 ≤ n && n ≤ 0x39) || n == 0x5F ||
    n == 0x2E || n == 0x2D

/-- `[A-Za-z0-9_.-]{1,32}`, matched against the whole string. -/
def isName (s : PyStr) : Bool := 1 ≤ s.length && s.length ≤ 32 && s.all isNameChar

/-- The field `username` of `TokenRequest`: `^[A-Za-z0-9_.-]+$` and a length from 1 to 32. -/
def tokenUsername (s : PyStr) : Bool := isName s

/-- The `re.fullmatch` on the target of a `dm`. -/
def dmTarget (s : PyStr) : Bool := isName s

/-- The subject of a token: a user name that `TokenRequest` accepted. -/
structure Username where
  name : PyStr
  valid : tokenUsername name = true
  deriving DecidableEq

theorem isNameChar_lt {c : CodePoint} (h : isNameChar c = true) : c.val < 0x80 := by
  simp only [isNameChar, Bool.or_eq_true, Bool.and_eq_true, decide_eq_true_eq, beq_iff_eq] at h
  omega

/-- The two classes of name characters agree on ASCII. -/
theorem isNameByte_ofNat {c : CodePoint} (h : isNameChar c = true) :
    isNameByte (UInt8.ofNat c.val) = true := by
  have hval : (UInt8.ofNat c.val).toNat = c.val := toNat_ofNat_of_lt (by
    have := isNameChar_lt h
    omega)
  simp only [isNameChar, Bool.or_eq_true, Bool.and_eq_true, decide_eq_true_eq, beq_iff_eq] at h
  simp only [isNameByte, Bool.or_eq_true, Bool.and_eq_true, decide_eq_true_eq, beq_iff_eq,
    UInt8.le_iff_toNat_le, ← UInt8.toNat_inj, hval]
  simp only [UInt8.reduceToNat]
  omega

namespace Username

/-- The name as the core stores it. -/
def bytes (u : Username) : Bytes := u.name.map fun c => UInt8.ofNat c.val

theorem spec (u : Username) :
    1 ≤ u.name.length ∧ u.name.length ≤ 32 ∧ ∀ c ∈ u.name, isNameChar c = true := by
  have h := u.valid
  simpa only [tokenUsername, isName, Bool.and_eq_true, decide_eq_true_eq, List.all_eq_true,
    and_assoc] using h

theorem ofByte_bytes (u : Username) : u.bytes.map ofByte = u.name := by
  rw [bytes, List.map_map]
  refine (List.map_congr_left fun c hc => ?_).trans (List.map_id _)
  have hlt := isNameChar_lt (u.spec.2.2 c hc)
  refine Fin.ext ?_
  show (ofByte (UInt8.ofNat c.val)).val = c.val
  rw [val_ofByte, toNat_ofNat_of_lt (by omega)]

theorem lt_of_mem_bytes (u : Username) : ∀ b ∈ u.bytes, b.toNat < 0x80 := by
  intro b hb
  obtain ⟨c, hc, rfl⟩ := List.mem_map.mp hb
  have hlt := isNameChar_lt (u.spec.2.2 c hc)
  rw [toNat_ofNat_of_lt (by omega)]
  exact hlt

/-- The bytes are the UTF-8 encoding of the name. -/
theorem encode_name (u : Username) : encode u.name = some u.bytes := by
  have h := encode_map_ofByte u.lt_of_mem_bytes
  rwa [ofByte_bytes] at h

theorem decode_bytes (u : Username) : decode u.bytes = some u.name :=
  encode_eq_some_iff.mp u.encode_name

/-- The core accepts the name. -/
theorem cwValidName_bytes (u : Username) : cwValidName u.bytes 1 32 = true := by
  obtain ⟨hmin, hmax, hchars⟩ := u.spec
  have hlen : u.bytes.length = u.name.length := List.length_map _
  refine cwValidName_eq_true.mpr ⟨by omega, by omega, fun b hb => ?_⟩
  obtain ⟨c, hc, rfl⟩ := List.mem_map.mp hb
  exact isNameByte_ofNat (hchars c hc)

end Username

end Gateway
end ChannelWire
