import ChannelWire.Gateway.Client
import ChannelWire.Protocol.Readers
import Mathlib.Data.List.Forall2

/-!
# One format, two codecs

`core/src/protocol.c` and `tools/channelwire_client.py` (with `core_read` of the gateway) encode
and decode the same bytes.  What `string_payload` packs is what `cw_write_string` writes, as long
as the core's limits are kept; both ways of reading return the strings; and `decode_strings`
accepts only what `string_payload` packs.  `codecs_agree` puts these together with the frames.
-/

namespace ChannelWire
namespace Gateway

open Utf8

/-- The strings and their bytes. -/
abbrev Encodes : List PyStr → List Bytes → Prop :=
  List.Forall₂ fun v b => encode v = some b

theorem Encodes.decodes {values : List PyStr} {encoded : List Bytes} (h : Encodes values encoded) :
    List.Forall₂ (fun v b => decode b = some v) values encoded :=
  List.Forall₂.imp (fun _ _ hv => encode_eq_some_iff.mp hv) h

/-- **A payload has one list of strings.** -/
theorem stringPayload_inj {values values' : List PyStr} {payload : Bytes}
    (h : stringPayload values = .ok payload) (h' : stringPayload values' = .ok payload) :
    values = values' := by
  have hdecode : ∀ {vs : List PyStr}, stringPayload vs = .ok payload →
      decodeStrings payload = .ok vs := by
    intro vs hvs
    obtain ⟨encoded, hencoded, hshort, rfl⟩ := stringPayload_ok hvs
    exact decodeStrings_fields (Encodes.decodes hencoded) fun b hb =>
      Nat.lt_succ_of_le (hshort b hb)
  exact Except.ok.inj ((hdecode h).symm.trans (hdecode h'))

/-- **What `string_payload` packs**: one field for every string. -/
theorem stringPayload_encodes {values : List PyStr} {encoded : List Bytes}
    (h : Encodes values encoded) (hlen : ∀ b ∈ encoded, b.length ≤ 65535) :
    stringPayload values = .ok (encoded.map stringField).flatten := by
  induction h with
  | nil => rfl
  | @cons v b values encoded hv _ ih =>
    have hrest := ih fun c hc => hlen c (List.mem_cons_of_mem b hc)
    rw [stringPayload, packString_of_encode hv (hlen b List.mem_cons_self), hrest]
    rfl

/-- The turns of `decode_strings` undo those of `string_payload`. -/
theorem stringPayload_of_decodeStringsLoop {n : ℕ} {payload : Bytes} {values : List PyStr}
    (h : decodeStringsLoop n payload = .ok values) : stringPayload values = .ok payload := by
  fun_induction decodeStringsLoop n payload generalizing values with
  | case1 =>
    cases h
    rfl
  | case2 | case3 | case4 | case5 | case6 => cases h
  | case7 n x y payload length hlen value hvalue rest hrest =>
    rename_i ih
    cases h
    have hbytes : (payload.take length).length = fromBe [x, y] := by
      rw [List.length_take, Nat.min_eq_left (not_lt.mp hlen)]
    have hshort : (payload.take length).length ≤ 65535 := by
      have hlt := fromBe_pair_lt x y
      omega
    rw [stringPayload, packString_of_encode (encode_eq_some_iff.mpr hvalue) hshort, ih hrest]
    simp only
    rw [stringField, hbytes, be16_fromBe, List.append_assoc, List.take_append_drop]
    rfl

/-- **`decode_strings` accepts only what `string_payload` packs.** -/
theorem stringPayload_of_decodeStrings {payload : Bytes} {values : List PyStr}
    (h : decodeStrings payload = .ok values) : stringPayload values = .ok payload :=
  stringPayload_of_decodeStringsLoop h

/-- A frame in front of a stream is read by all three readers. -/
theorem read_encode {f : Frame} (h : f.payload.length ≤ cwMaxPayloadSize) (rest : Bytes) :
    cwParseHeader (f.encode ++ rest) = some ⟨f.type, f.payload.length⟩ ∧
      ((f.encode ++ rest).drop cwFrameHeaderSize).take f.payload.length = f.payload ∧
      coreRead (f.encode ++ rest) = some (f, rest) := by
  have hcap : cwMaxPayloadSize < 4294967296 := by decide
  have hnum : fromBe (be32 f.payload.length) = f.payload.length := fromBe_be32 (by omega)
  have happ : f.encode ++ rest = f.type :: be32 f.payload.length ++ (f.payload ++ rest) := by
    rw [Frame.encode, cwWriteHeader, List.append_assoc]
  refine ⟨?_, ?_, ?_⟩
  · rw [happ]
    unfold be32 at hnum ⊢
    simp only [List.cons_append, List.nil_append]
    rw [cwParseHeader_header, hnum, if_neg (not_lt.mpr h)]
  · rw [happ]
    exact List.take_left
  · have hhead : pyFraming.head (f.encode ++ rest) = .item f f.encode.length :=
      frameHead_encode (by decide) (h.trans (by decide)) rest
    rw [coreRead_eq, hhead]
    simp only [List.drop_left]

/-- **The C and the Python codec are one format.**  For strings without a zero, each of at most
1024 bytes and together, with their lengths, of at most 4096, the calls of `cw_write_string` leave
what `string_payload` returns; the calls of `cw_read_string`, with room for each string, return them
and end behind the last one; and `decode_strings` returns them.  Whatever `decode_strings` accepts
is what `string_payload` makes of its result.  Frames of every type with a payload of at most 4096
bytes are encoded alike and read back by all readers, whatever comes behind them. -/
theorem codecs_agree :
    (∀ values encoded, Encodes values encoded → (∀ b ∈ encoded, 0 ∉ b ∧ b.length ≤ 1024) →
      (encoded.map fun b => 2 + b.length).sum ≤ 4096 →
      ∃ payload, stringPayload values = .ok payload ∧
        cwWriteStrings 4096 [] (encoded.map cstr) = some payload ∧
        (∀ caps, List.Forall₂ (fun b cap => b.length < cap) encoded caps →
          cwReadStrings payload 0 caps = some (encoded, payload.length)) ∧
        decodeStrings payload = .ok values) ∧
    (∀ payload values, decodeStrings payload = .ok values → stringPayload values = .ok payload) ∧
    ∀ (type : UInt8) (payload : Bytes), payload.length ≤ 4096 →
      ∃ bytes, bytes = cwWriteHeader type payload.length ++ payload ∧
        encodeFrame type payload = .ok bytes ∧
        ∀ rest, cwParseHeader (bytes ++ rest) = some ⟨type, payload.length⟩ ∧
          ((bytes ++ rest).drop cwFrameHeaderSize).take payload.length = payload ∧
          coreRead (bytes ++ rest) = some (⟨type, payload⟩, rest) ∧
          ∀ cut, recvFrame cut (bytes ++ rest) = some (⟨type, payload⟩, rest) := by
  refine ⟨fun values encoded hencodes hbounds hsum => ?_,
    fun _ _ => stringPayload_of_decodeStrings, fun type payload hlen => ?_⟩
  · have hcstr : encoded.map cstr = encoded :=
      (List.map_congr_left fun b hb => cstr_of_zero_notMem (hbounds b hb).1).trans (List.map_id' _)
    have hsmall : ∀ b ∈ encoded, b.length ≤ cwMaxStringSize := fun b hb => (hbounds b hb).2
    have hlength : ((encoded.map stringField).flatten).length ≤ 4096 := by
      rw [List.length_flatten, List.map_map]
      refine le_of_eq_of_le (congrArg List.sum (List.map_congr_left fun b _ => ?_)) hsum
      exact (length_stringField b).trans (Nat.add_comm _ _)
    refine ⟨_, stringPayload_encodes hencodes fun b hb => (hsmall b hb).trans (by decide), ?_,
      fun caps hcaps => ?_, ?_⟩
    · rw [hcstr]
      have hwrite : cwWriteStrings 4096 [] encoded = some ([] ++ (encoded.map stringField).flatten) :=
        cwWriteStrings_eq hsmall (by rwa [List.length_nil, Nat.zero_add])
      exact hwrite
    · have hread : cwReadStrings ([] ++ (encoded.map stringField).flatten) ([] : Bytes).length caps =
          some (encoded, _) := cwReadStrings_fields hsmall hcaps
      exact hread
    · exact decodeStrings_fields hencodes.decodes fun b hb =>
        lt_of_le_of_lt (hsmall b hb) (by decide)
  · have hread := read_encode (f := ⟨type, payload⟩) hlen
    refine ⟨_, rfl, encodeFrame_of_le (hlen.trans (by decide)), fun rest => ?_⟩
    obtain ⟨hheader, hpayload, hcore⟩ := hread rest
    exact ⟨hheader, hpayload, hcore, fun cut => by
      rw [recvFrame_eq, readFrame_eq_coreRead]
      exact hcore⟩

/-- Two strings in a frame, of which the second is empty. -/
theorem codecs_agree_pair : ∃ payload,
    stringPayload [py "hi", []] = .ok payload ∧
      cwReadStrings payload 0 [1025, 1] = some ([ascii "hi", []], 6) ∧
      coreRead (cwWriteHeader 5 payload.length ++ payload) = some (⟨5, payload⟩, []) := by
  obtain ⟨payload, hpayload, -, hread, hdecode⟩ := codecs_agree.1 [py "hi", []] [ascii "hi", []]
    (by decide +kernel) (by decide +kernel) (by decide +kernel)
  have hlen : payload.length = 6 := length_stringPayload hpayload
  obtain ⟨bytes, rfl, -, hframe⟩ := codecs_agree.2.2 5 payload (by omega)
  refine ⟨payload, hpayload, ?_, ?_⟩
  · rw [hread [1025, 1] (by decide +kernel), hlen]
  · rw [← List.append_nil (cwWriteHeader 5 payload.length ++ payload)]
    exact (hframe []).2.2.1

end Gateway
end ChannelWire
