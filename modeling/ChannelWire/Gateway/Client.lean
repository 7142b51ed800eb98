import ChannelWire.Gateway.PyString
import ChannelWire.Protocol.Strings

/-!
# The Python codec of the protocol

`string_payload`, `encode_frame` and `decode_strings` of `tools/channelwire_client.py`, which the
gateway imports.  Here a string is at most 65535 bytes long and a payload at most `2 ^ 32 - 1`,
the numbers the length fields can spell; the core's own limits do not occur.
-/

namespace ChannelWire
namespace Gateway

open Utf8

/-- A `ValueError`: one raised with a text, that of a text or a byte string that UTF-8 cannot
encode or decode, or that of a list unpacked into another number of names.  Where a JSON value is
unpacked it can be a `TypeError` as well: the value is no mapping. -/
inductive ValueError where
  | text (message : String)
  | unicodeEncode
  | unicodeDecode
  | unpack
  | notMapping
  deriving DecidableEq, Repr

/-- The body of the loop of `string_payload`. -/
def packString (value : PyStr) : Except ValueError Bytes :=
  match encode value with
  | none => .error .unicodeEncode
  | some encoded =>
    if 65535 < encoded.length then
      .error (.text "string is too large for ChannelWire framing")
    else .ok (be16 encoded.length ++ encoded)

/-- `string_payload`. -/
def stringPayload : List PyStr → Except ValueError Bytes
  | [] => .ok []
  | value :: values =>
    match packString value with
    | .error e => .error e
    | .ok packed =>
      match stringPayload values with
      | .error e => .error e
      | .ok out => .ok (packed ++ out)

/-- `encode_frame`. -/
def encodeFrame (msgType : UInt8) (payload : Bytes) : Except ValueError Bytes :=
  if 4294967295 < payload.length then
    .error (.text "payload is too large for ChannelWire framing")
  else .ok (msgType :: be32 payload.length ++ payload)

/-- The loop of `decode_strings`, at most `n` times round. -/
def decodeStringsLoop : ℕ → Bytes → Except ValueError (List PyStr)
  | _, [] => .ok []
  | 0, _ => .error (.text "truncated string length")
  | _ + 1, [_] => .error (.text "truncated string length")
  | n + 1, x :: y :: payload =>
    let length := fromBe [x, y]
    if payload.length < length then .error (.text "truncated string payload")
    else
      match decode (payload.take length) with
      | none => .error .unicodeDecode
      | some value =>
        match decodeStringsLoop n (payload.drop length) with
        | .error e => .error e
        | .ok values => .ok (value :: values)

/-- `decode_strings`.  Every turn takes two bytes at least, so the length bounds the turns. -/
def decodeStrings (payload : Bytes) : Except ValueError (List PyStr) :=
  decodeStringsLoop payload.length payload

theorem packString_ok {value : PyStr} {packed : Bytes} (h : packString value = .ok packed) :
    ∃ encoded, encode value = some encoded ∧ encoded.length ≤ 65535 ∧
      packed = stringField encoded := by
  unfold packString at h
  cases hv : encode value with
  | none => simp [hv] at h
  | some encoded =>
    simp only [hv] at h
    split_ifs at h with hlong
    exact ⟨encoded, rfl, not_lt.mp hlong, (Except.ok.inj h).symm⟩

theorem packString_of_encode {value : PyStr} {encoded : Bytes} (h : encode value = some encoded)
    (hlen : encoded.length ≤ 65535) : packString value = .ok (stringField encoded) := by
  unfold packString
  rw [h]
  exact if_neg (not_lt.mpr hlen)

/-- What `string_payload` returns: the fields of the encoded strings. -/
theorem stringPayload_ok {values : List PyStr} {payload : Bytes}
    (h : stringPayload values = .ok payload) :
    ∃ encoded, List.Forall₂ (fun v b => encode v = some b) values encoded ∧
      (∀ b ∈ encoded, b.length ≤ 65535) ∧ payload = (encoded.map stringField).flatten := by
  induction values generalizing payload with
  | nil =>
    cases h
    exact ⟨[], .nil, fun _ hb => absurd hb List.not_mem_nil, rfl⟩
  | cons v values ih =>
    rw [stringPayload] at h
    cases hv : packString v with
    | error e => simp [hv] at h
    | ok packed =>
      simp only [hv] at h
      cases hrest : stringPayload values with
      | error e => simp [hrest] at h
      | ok out =>
        simp only [hrest] at h
        obtain ⟨b, hb, hshort, rfl⟩ := packString_ok hv
        obtain ⟨encoded, hencoded, hlen, rfl⟩ := ih hrest
        refine ⟨b :: encoded, .cons hb hencoded, fun c hc => ?_, (Except.ok.inj h).symm⟩
        rcases List.mem_cons.mp hc with rfl | hc
        · exact hshort
        · exact hlen c hc

/-- The length of what it returns, from the sizes of the strings. -/
theorem length_stringPayload {values : List PyStr} {payload : Bytes}
    (h : stringPayload values = .ok payload) :
    payload.length = (values.map fun v => 2 + size v).sum := by
  obtain ⟨encoded, hencoded, -, rfl⟩ := stringPayload_ok h
  clear h
  induction hencoded with
  | nil => rfl
  | cons hv _ ih =>
    rw [List.map_cons, List.flatten_cons, List.length_append, ih, length_stringField,
      length_encode hv, List.map_cons, List.sum_cons, Nat.add_comm 2]

theorem encodeFrame_ok {msgType : UInt8} {payload bytes : Bytes}
    (h : encodeFrame msgType payload = .ok bytes) :
    bytes = (⟨msgType, payload⟩ : Frame).encode := by
  unfold encodeFrame at h
  split_ifs at h
  exact (Except.ok.inj h).symm

/-- Only a payload beyond every string of the protocol is refused. -/
theorem encodeFrame_of_le {msgType : UInt8} {payload : Bytes} (h : payload.length ≤ 4294967295) :
    encodeFrame msgType payload = .ok (⟨msgType, payload⟩ : Frame).encode :=
  if_neg (not_lt.mpr h)

theorem decodeStringsLoop_fields {values : List PyStr} {encoded : List Bytes} {n : ℕ}
    (h : List.Forall₂ (fun v b => decode b = some v) values encoded)
    (hlen : ∀ b ∈ encoded, b.length < 65536)
    (hn : ((encoded.map stringField).flatten).length ≤ n) :
    decodeStringsLoop n (encoded.map stringField).flatten = .ok values := by
  induction h generalizing n with
  | nil => rw [List.map_nil, List.flatten_nil, decodeStringsLoop]
  | @cons v b values encoded hv _ ih =>
    have hnum := fromBe_be16 (hlen b List.mem_cons_self)
    rw [List.map_cons, List.flatten_cons] at hn ⊢
    rw [List.length_append, length_stringField] at hn
    obtain ⟨m, rfl⟩ : ∃ m, n = m + 1 := ⟨n - 1, by omega⟩
    have hrest := ih (fun c hc => hlen c (List.mem_cons_of_mem b hc)) (n := m) (by omega)
    rw [stringField, List.append_assoc]
    unfold be16 at hnum ⊢
    simp only [List.cons_append, List.nil_append, decodeStringsLoop, hnum]
    rw [if_neg (by rw [List.length_append]; omega), List.take_left, List.drop_left, hv, hrest]

/-- **Fields of decodable strings are decoded.** -/
theorem decodeStrings_fields {values : List PyStr} {encoded : List Bytes}
    (h : List.Forall₂ (fun v b => decode b = some v) values encoded)
    (hlen : ∀ b ∈ encoded, b.length < 65536) :
    decodeStrings (encoded.map stringField).flatten = .ok values :=
  decodeStringsLoop_fields h hlen (Nat.le_refl _)

/-- The strings of a payload the core accepts are short enough for their length fields. -/
theorem length_lt_of_fields {encoded : List Bytes}
    (h : ((encoded.map stringField).flatten).length ≤ cwMaxPayloadSize) :
    ∀ b ∈ encoded, b.length < 65536 := by
  intro b hb
  have hfield := (List.sublist_flatten_of_mem (List.mem_map_of_mem (f := stringField) hb)).length_le
  rw [length_stringField] at hfield
  have hcap : cwMaxPayloadSize < 65536 := by decide
  omega

/-- **What is decoded from fields** is what each of them decodes to. -/
theorem decodeStringsLoop_fields_ok {encoded : List Bytes} {values : List PyStr} {n : ℕ}
    (hlen : ∀ b ∈ encoded, b.length < 65536)
    (h : decodeStringsLoop n (encoded.map stringField).flatten = .ok values) :
    List.Forall₂ (fun v b => decode b = some v) values encoded := by
  induction encoded generalizing n values with
  | nil =>
    rw [List.map_nil, List.flatten_nil, decodeStringsLoop] at h
    cases h
    exact .nil
  | cons b encoded ih =>
    have hnum := fromBe_be16 (hlen b List.mem_cons_self)
    rw [List.map_cons, List.flatten_cons, stringField, List.append_assoc] at h
    unfold be16 at hnum h
    cases n with
    | zero => cases h
    | succ n =>
      simp only [List.cons_append, List.nil_append, decodeStringsLoop, hnum] at h
      rw [if_neg (by rw [List.length_append]; omega), List.take_left, List.drop_left] at h
      cases hv : decode b with
      | none =>
        rw [hv] at h
        cases h
      | some v =>
        rw [hv] at h
        simp only at h
        split at h
        · cases h
        · next rest hrest =>
          cases h
          exact .cons hv (ih (fun c hc => hlen c (List.mem_cons_of_mem b hc)) hrest)

end Gateway
end ChannelWire
