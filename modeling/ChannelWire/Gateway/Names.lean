import ChannelWire.Core.Echoes
import ChannelWire.Foundation.Regex
import ChannelWire.Gateway.Decoding
import ChannelWire.Gateway.Identity

/-!
# The validators of user names

A user name is checked in three places: by `TokenRequest` with a length and an anchored pattern, by
the gateway's branch for a `dm` with a full match, and by the core, which reads the bytes that
`string_payload` made of it and tests each of them.  The first two count characters, the third
counts bytes.

All three accept the names of `isName` (`usernameAccepted_iff`, `targetAccepted_iff`,
`coreAccepts_iff`).  For the core that is so because a name byte is an ASCII byte, so the bytes of
an accepted name spell it one to one.
-/

namespace ChannelWire
namespace Gateway

open Regex Utf8

/-- The field `username` of `TokenRequest`: `min_length=1`, `max_length=32` and
`^[A-Za-z0-9_.-]+$`. -/
def UsernameAccepted (s : PyStr) : Prop :=
  1 ≤ s.length ∧ s.length ≤ 32 ∧ Searches (Pattern.anchored (.rep 1 none (.cls isNameChar))) s

/-- `re.fullmatch(r"[A-Za-z0-9_.-]{1,32}", target)`. -/
def TargetAccepted (s : PyStr) : Prop := FullMatches (.rep 1 (some 32) (.cls isNameChar)) s

/-- `string_payload` does not raise, and `handle_hello` reads a valid name from what it returns. -/
def CoreAccepts (s : PyStr) : Prop :=
  ∃ payload, stringPayload [s] = .ok payload ∧
    ∃ username, Core.readOneStringPayload payload (Core.cwNameCap + 1) = some username ∧
      cwValidName username 1 Core.cwNameCap = true

variable {s : PyStr}

theorem isName_iff : isName s = true ↔
    1 ≤ s.length ∧ s.length ≤ 32 ∧ ∀ c ∈ s, isNameChar c = true := by
  simp only [isName, Bool.and_eq_true, decide_eq_true_eq, List.all_eq_true, and_assoc]

theorem usernameAccepted_iff : UsernameAccepted s ↔ isName s = true := by
  rw [isName_iff, UsernameAccepted, searches_anchored_iff, fullMatches_iff]
  constructor
  · rintro ⟨hmin, hmax, -, -, hall⟩
    exact ⟨hmin, hmax, hall⟩
  · rintro ⟨hmin, hmax, hall⟩
    exact ⟨hmin, hmax, hmin, fun k hk => absurd hk (Option.not_mem_none k), hall⟩

theorem targetAccepted_iff : TargetAccepted s ↔ isName s = true := by
  rw [isName_iff, TargetAccepted, fullMatches_iff]
  have hmax : (∀ k ∈ some 32, s.length ≤ k) ↔ s.length ≤ 32 := by
    simp only [Option.mem_def, Option.some.injEq, forall_eq']
  rw [hmax]

/-! ## The core's test -/

/-- The two classes of name characters agree on bytes. -/
theorem isNameChar_ofByte {b : UInt8} (h : isNameByte b = true) : isNameChar (ofByte b) = true := by
  simp only [isNameByte, Bool.or_eq_true, Bool.and_eq_true, decide_eq_true_eq, beq_iff_eq,
    UInt8.le_iff_toNat_le, ← UInt8.toNat_inj] at h
  simp only [UInt8.reduceToNat] at h
  simp only [isNameChar, val_ofByte, Bool.or_eq_true, Bool.and_eq_true, decide_eq_true_eq,
    beq_iff_eq]
  omega

/-- A text without the character zero has no zero byte. -/
theorem zero_notMem_encode {bytes : Bytes} (h : encode s = some bytes) (hzero : 0 ∉ s) :
    (0 : UInt8) ∉ bytes := by
  have htake : s.takeWhile (· ≠ 0) = s := List.takeWhile_eq_self_iff.mpr fun c hc =>
    decide_eq_true fun heq => hzero (heq ▸ hc)
  have hbytes := encode_takeWhile h
  rw [htake, h] at hbytes
  intro hmem
  have hall := List.takeWhile_eq_self_iff.mp (Option.some.inj hbytes).symm 0 hmem
  exact of_decide_eq_true hall rfl

/-- A text whose bytes are a valid name is that name. -/
theorem isName_of_validName {bytes : Bytes} (h : encode s = some bytes)
    (hvalid : cwValidName bytes 1 Core.cwNameCap = true) : isName s = true := by
  obtain ⟨hmin, hmax, hall⟩ := cwValidName_eq_true.mp hvalid
  have hascii := isAscii_of_validName hvalid
  obtain rfl : s = bytes.map ofByte := by
    have hdecode := encode_eq_some_iff.mp (encode_map_ofByte hascii)
    rw [encode_eq_some_iff.mp h] at hdecode
    exact Option.some.inj hdecode
  refine isName_iff.mpr ⟨by rwa [List.length_map], by rwa [List.length_map], fun c hc => ?_⟩
  obtain ⟨b, hb, rfl⟩ := List.mem_map.mp hc
  exact isNameChar_ofByte (hall b hb)

/-- **The core accepts the names of the gateway**, and it reads their bytes. -/
theorem coreAccepts_of_isName (h : isName s = true) : CoreAccepts s := by
  have hfits : (⟨s, h⟩ : Username).bytes.length ≤ 65535 := by
    have hmax := (⟨s, h⟩ : Username).spec.2.1
    rw [Username.bytes, List.length_map]
    omega
  have hpack := packString_of_encode (⟨s, h⟩ : Username).encode_name hfits
  have hpayload : stringPayload [s] = .ok (helloFrame ⟨s, h⟩).payload := by
    rw [stringPayload, hpack]
    simp only [stringPayload, List.append_nil]
    rfl
  obtain ⟨hread, hvalid, -⟩ := Core.readName_eq_some (readName_helloFrame ⟨s, h⟩)
  exact ⟨_, hpayload, _, hread, hvalid⟩

/-- **The core accepts no other name.** -/
theorem isName_of_coreAccepts (hzero : 0 ∉ s) (h : CoreAccepts s) : isName s = true := by
  obtain ⟨payload, hpayload, username, hread, hvalid⟩ := h
  obtain ⟨encoded, hencoded, hlen, rfl⟩ := stringPayload_ok hpayload
  obtain ⟨bytes, hbytes, rfl⟩ : ∃ bytes, encode s = some bytes ∧ encoded = [bytes] := by
    cases hencoded with
    | cons hv hrest =>
      cases hrest
      exact ⟨_, hv, rfl⟩
  have hshort : bytes.length < 65536 :=
    Nat.lt_succ_of_le (hlen bytes (List.mem_singleton_self bytes))
  have hfield : ([bytes].map stringField).flatten = stringField bytes := by
    rw [List.map_singleton, List.flatten_singleton]
  rw [hfield] at hread
  obtain rfl := Core.readOneStringPayload_field hshort hread
  rw [cstr_of_zero_notMem (zero_notMem_encode hbytes hzero)] at hvalid
  exact isName_of_validName hbytes hvalid

theorem coreAccepts_iff (hzero : 0 ∉ s) : CoreAccepts s ↔ isName s = true :=
  ⟨isName_of_coreAccepts hzero, coreAccepts_of_isName⟩

/-- **All validators of user names agree**, on texts without the character zero. -/
theorem name_validators_agree (s : PyStr) (hzero : 0 ∉ s) :
    (UsernameAccepted s ↔ TargetAccepted s) ∧ (TargetAccepted s ↔ CoreAccepts s) := by
  rw [usernameAccepted_iff, targetAccepted_iff, coreAccepts_iff hzero]
  exact ⟨Iff.rfl, Iff.rfl⟩

/-- The validators agree on a text with a letter beyond ASCII. -/
theorem name_validators_agree_on_letter :
    (UsernameAccepted [0x6A, 0xE9] ↔ TargetAccepted [0x6A, 0xE9]) ∧
      (TargetAccepted [0x6A, 0xE9] ↔ CoreAccepts [0x6A, 0xE9]) :=
  name_validators_agree [0x6A, 0xE9] (by decide)

end Gateway
end ChannelWire
