import ChannelWire.Gateway.Command
import ChannelWire.Core.InputStream

/-!
# Two limits for one payload

The gateway packs strings of up to 65535 bytes each; `cw_parse_header` rejects a payload of more
than 4096 bytes, and behind a rejected header the core handles nothing any more
(`Core.Oversized`).  `forwarded_framed_iff` compares the two: an accepted command is a frame for
the core exactly if its strings, with their length fields, take at most 4096 bytes of UTF-8.
-/

namespace ChannelWire
namespace Gateway

open Utf8

/-- The strings of the command, each with its two byte length, fit the payload of a frame. -/
def FitsCore (message : Dict) : Prop :=
  ∀ msgType, clientCommand message = some msgType →
    ((commandStrings message msgType).map fun v => 2 + size v).sum ≤ cwMaxPayloadSize

/-- The frame `open_registered_core` sends first. -/
def helloFrame (u : Username) : Frame := ⟨ClientMsgType.hello.toByte, stringField u.bytes⟩

theorem Username.length_bytes_le (u : Username) : u.bytes.length ≤ 32 := by
  rw [Username.bytes, List.length_map]
  exact u.spec.2.1

theorem length_helloFrame_le (u : Username) : (helloFrame u).payload.length ≤ cwMaxPayloadSize := by
  have hlen := u.length_bytes_le
  show (stringField u.bytes).length ≤ 4096
  rw [length_stringField]
  omega

/-! ## Frames that are too large -/

/-- The header of a frame that is too large is rejected, whatever follows. -/
theorem frameHead_encode_of_large {limit : ℕ} {f : Frame} (hlarge : limit < f.payload.length)
    (hspell : f.payload.length < 4294967296) (r : Bytes) :
    frameHead limit (f.encode ++ r) = .bad := by
  have hnum : fromBe (be32 f.payload.length) = f.payload.length := fromBe_be32 hspell
  rw [Frame.encode, cwWriteHeader, List.append_assoc]
  unfold be32 at hnum ⊢
  simp only [List.cons_append, List.nil_append, frameHead, hnum]
  rw [if_pos hlarge]

theorem cwParseHeader_encode_isSome {f : Frame} (hspell : f.payload.length < 4294967296) :
    (cwParseHeader f.encode).isSome = true ↔ f.payload.length ≤ cwMaxPayloadSize := by
  have hnum : fromBe (be32 f.payload.length) = f.payload.length := fromBe_be32 hspell
  rw [Frame.encode, cwWriteHeader]
  unfold be32 at hnum ⊢
  rw [List.cons_append, List.cons_append, List.cons_append, List.cons_append, List.cons_append,
    cwParseHeader_header, hnum]
  split_ifs with h
  · exact ⟨fun hn => absurd hn (by simp), fun hle => absurd hle (not_le.mpr h)⟩
  · exact ⟨fun _ => not_lt.mp h, fun _ => rfl⟩

/-- Nothing is parsed from a stream that begins with a frame that is too large. -/
theorem parse_of_large {f : Frame} {r : Bytes} (hlarge : cwMaxPayloadSize < f.payload.length)
    (hspell : f.payload.length < 4294967296) :
    cwFraming.parse (f.encode ++ r) = ([], f.encode ++ r) :=
  StreamDecoder.Decoder.parse_of_not_item fun x n hx => by
    rw [cwFraming_head, frameHead_encode_of_large hlarge hspell r] at hx
    cases hx

/-- A frame that is small enough is parsed. -/
theorem parse_of_small {f : Frame} {r : Bytes} (hsmall : f.payload.length ≤ cwMaxPayloadSize) :
    cwFraming.parse (f.encode ++ r) = (f :: (cwFraming.parse r).1, (cwFraming.parse r).2) := by
  have hvalid : ∀ g ∈ [f], cwFraming.Valid g := List.forall_mem_singleton.mpr hsmall
  have hparse := StreamDecoder.Codec.parse_encodeAll_append hvalid r
  rwa [StreamDecoder.Codec.encodeAll_cons, StreamDecoder.Codec.encodeAll_nil, List.append_nil,
    cwFraming_encode] at hparse

/-- **A stream of frames is given up on exactly at the first one that is too large.** -/
theorem oversized_encodeAll_iff {frames : List Frame}
    (hspell : ∀ f ∈ frames, f.payload.length < 4294967296) :
    Core.Oversized (cwFraming.encodeAll frames) ↔
      ∃ f ∈ frames, cwMaxPayloadSize < f.payload.length := by
  induction frames with
  | nil =>
    refine ⟨fun h => ?_, fun ⟨_, hf, _⟩ => absurd hf List.not_mem_nil⟩
    cases h
  | cons f frames ih =>
    have htail := ih fun g hg => hspell g (List.mem_cons_of_mem f hg)
    rw [StreamDecoder.Codec.encodeAll_cons, cwFraming_encode, List.exists_mem_cons_iff]
    rcases Nat.lt_or_ge cwMaxPayloadSize f.payload.length with hlarge | hsmall
    · refine iff_of_true ?_ (.inl hlarge)
      rw [Core.Oversized, parse_of_large hlarge (hspell f List.mem_cons_self)]
      exact frameHead_encode_of_large hlarge (hspell f List.mem_cons_self) _
    · rw [Core.Oversized, parse_of_small hsmall, or_iff_right (not_lt.mpr hsmall)]
      exact htail

/-- **What is parsed from a stream of frames** is a prefix of them, whether or not it is given
up on. -/
theorem parse_encodeAll_isPrefix {frames : List Frame}
    (hspell : ∀ f ∈ frames, f.payload.length < 4294967296) :
    (cwFraming.parse (cwFraming.encodeAll frames)).1 <+: frames := by
  induction frames with
  | nil => exact List.nil_prefix
  | cons f frames ih =>
    rw [StreamDecoder.Codec.encodeAll_cons, cwFraming_encode]
    rcases Nat.lt_or_ge cwMaxPayloadSize f.payload.length with hlarge | hsmall
    · rw [parse_of_large hlarge (hspell f List.mem_cons_self)]
      exact List.nil_prefix
    · rw [parse_of_small hsmall]
      exact List.prefix_cons_inj f |>.mpr (ih fun g hg => hspell g (List.mem_cons_of_mem f hg))

/-! ## What is forwarded -/

/-- A forwarded message is a frame whose payload is as long as its strings. -/
theorem exists_frame_of_forward {message : Dict} {bytes : Bytes} (h : forward message = .ok bytes) :
    ∃ f : Frame, bytes = f.encode ∧ f.payload.length < 4294967296 ∧
      (f.payload.length ≤ cwMaxPayloadSize ↔ FitsCore message) := by
  obtain ⟨msgType, payload, hmessage, rfl⟩ := forward_ok h
  obtain ⟨hcommand, hchecks, hpayload⟩ := corePayloadForCommand_ok hmessage
  have hlen := length_stringPayload hpayload
  refine ⟨_, rfl, ?_, ?_⟩
  · unfold forward at h
    simp only [hmessage, encodeFrame] at h
    split_ifs at h with hlong
    show payload.length < 4294967296
    omega
  · show payload.length ≤ _ ↔ _
    rw [hlen, FitsCore, hcommand]
    constructor
    · rintro hfits _ ⟨⟩
      exact hfits
    · exact fun hfits => hfits msgType rfl

theorem exists_frames_of_forward {messages : List Dict} {written : List Bytes}
    (h : List.Forall₂ (fun message bytes => forward message = .ok bytes) messages written) :
    ∃ frames : List Frame, written.flatten = cwFraming.encodeAll frames ∧
      (∀ f ∈ frames, f.payload.length < 4294967296) ∧
      ((∀ f ∈ frames, f.payload.length ≤ cwMaxPayloadSize) ↔
        ∀ message ∈ messages, FitsCore message) := by
  induction h with
  | nil => exact ⟨[], rfl, by simp, by simp⟩
  | cons hm _ ih =>
    obtain ⟨f, rfl, hspell, hfits⟩ := exists_frame_of_forward hm
    obtain ⟨frames, hwritten, hspells, hall⟩ := ih
    refine ⟨f :: frames, ?_, ?_, ?_⟩
    · rw [List.flatten_cons, hwritten, StreamDecoder.Codec.encodeAll_cons, cwFraming_encode]
    · exact List.forall_mem_cons.mpr ⟨hspell, hspells⟩
    · rw [List.forall_mem_cons, List.forall_mem_cons, hfits, hall]

/-- **Exactly the commands that fit are frames for the core.**  The frame of an accepted command
passes `cw_parse_header` if and only if its strings fit; and the bytes of a session, its
`HELLO` and the frames of any accepted commands, never bring the core to a header it rejects if
and only if all of them fit. -/
theorem forwarded_framed_iff (u : Username) {messages : List Dict} {written : List Bytes}
    (h : List.Forall₂ (fun message bytes => forward message = .ok bytes) messages written) :
    List.Forall₂ (fun message bytes => (cwParseHeader bytes).isSome = true ↔ FitsCore message)
        messages written ∧
      (¬ Core.Oversized ((helloFrame u).encode ++ written.flatten) ↔
        ∀ message ∈ messages, FitsCore message) := by
  constructor
  · refine h.imp fun message bytes hmessage => ?_
    obtain ⟨f, rfl, hspell, hfits⟩ := exists_frame_of_forward hmessage
    rw [cwParseHeader_encode_isSome hspell, hfits]
  · obtain ⟨frames, hwritten, hspell, hfits⟩ := exists_frames_of_forward h
    have hhello := length_helloFrame_le u
    have hstream : (helloFrame u).encode ++ written.flatten =
        cwFraming.encodeAll (helloFrame u :: frames) := by
      rw [hwritten, StreamDecoder.Codec.encodeAll_cons, cwFraming_encode]
    have hspells : ∀ f ∈ helloFrame u :: frames, f.payload.length < 4294967296 :=
      List.forall_mem_cons.mpr ⟨lt_of_le_of_lt hhello (by decide), hspell⟩
    rw [hstream, oversized_encodeAll_iff hspells, ← hfits]
    simp only [not_exists, not_and, not_lt, List.forall_mem_cons]
    exact and_iff_right hhello

/-- A text that the gateway accepts, as a `say`. -/
theorem forward_say {message : Dict} {text : PyStr} {encoded : Bytes}
    (hcommand : clientCommand message = some .say) (htext : message.getStr "text" = some text)
    (hne : text ≠ []) (hencode : encode text = some encoded) (hlen : encoded.length ≤ 65535) :
    forward message =
      .ok (⟨ClientMsgType.say.toByte, stringField encoded⟩ : Frame).encode := by
  have hfilter : (some text).filter (· ≠ []) = some text := Option.filter_eq_some_iff.mpr
    ⟨rfl, by simpa using hne⟩
  have hpayload : stringPayload [text] = .ok (stringField encoded) := by
    simp only [stringPayload, packString_of_encode hencode hlen, List.append_nil]
  have hmessage : corePayloadForCommand message = .ok (.say, stringField encoded) := by
    unfold corePayloadForCommand
    rw [hcommand]
    simp only [packedOne, htext, hfilter, packed, hpayload]
  unfold forward
  rw [hmessage]
  exact encodeFrame_of_le (by rw [length_stringField]; omega)

/-- A `say` with a text of so many letters. -/
def longSay (letters : ℕ) : Dict :=
  [(py "type", .string (py "say")),
    (py "text", .string ((List.replicate letters (97 : UInt8)).map ofByte))]

theorem forward_longSay {letters : ℕ} (h0 : 0 < letters) (hmax : letters ≤ 65535) :
    forward (longSay letters) = .ok (⟨ClientMsgType.say.toByte,
      stringField (List.replicate letters 97)⟩ : Frame).encode := by
  refine forward_say rfl rfl ?_ (encode_map_ofByte fun b hb => ?_) ?_
  · refine List.ne_nil_of_length_pos ?_
    rwa [List.length_map, List.length_replicate]
  · rw [List.eq_of_mem_replicate hb]
    decide
  · rwa [List.length_replicate]

theorem forwarded_framed_iff_longSay :
    ¬ Core.Oversized ((helloFrame ⟨py "alice", rfl⟩).encode ++
        (⟨ClientMsgType.say.toByte, stringField (List.replicate 5 97)⟩ : Frame).encode) ↔
      FitsCore (longSay 5) := by
  have h := (forwarded_framed_iff ⟨py "alice", rfl⟩
    (.cons (@forward_longSay 5 (by decide) (by decide)) .nil)).2
  rwa [List.flatten_singleton, List.forall_mem_singleton] at h

/-- The gateway forwards a text of 5000 letters, and the core rejects its header. -/
theorem long_say_not_framed :
    ¬ ∀ message bytes, forward message = .ok bytes → (cwParseHeader bytes).isSome = true := by
  intro h
  have hsome := h (longSay 5000) _ (forward_longSay (by decide) (by decide))
  rw [cwParseHeader_encode_isSome] at hsome
  · rw [length_stringField, List.length_replicate] at hsome
    exact absurd hsome (by decide)
  · rw [length_stringField, List.length_replicate]
    decide

end Gateway
end ChannelWire
