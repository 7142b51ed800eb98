import ChannelWire.Foundation.StreamDecoder
import ChannelWire.Protocol.Bytes

/-!
# The wire protocol

`core/src/protocol.c` and its header: a frame is one type byte, a four byte payload length
in network byte order and the payload; a string inside a payload is a two byte length and
the bytes.

The functions read C strings through `cstr`, so a value of type `Bytes` that a C function
receives as a `const char *` is meant without its terminating zero.  The null pointer tests
of the source have no counterpart: every caller passes buffers of its own.

`frameCodec limit` is the framing of a byte stream as a `StreamDecoder.Codec`: the core reads
it with `cwMaxPayloadSize` (`frameHead_eq_cwParseHeader`), a Python reader with the largest
number four bytes hold.
-/

namespace ChannelWire

/-- `CW_FRAME_HEADER_SIZE`. -/
def cwFrameHeaderSize : ℕ := 5

/-- `CW_MAX_PAYLOAD_SIZE`. -/
def cwMaxPayloadSize : ℕ := 4096

/-- `CW_MAX_STRING_SIZE`. -/
def cwMaxStringSize : ℕ := 1024

/-- `cw_client_msg_type`. -/
inductive ClientMsgType where
  | hello | join | switch | leave | say | dm | who | list | nick | quit | stats
  deriving DecidableEq, Repr

/-- The type byte of a client message. -/
def ClientMsgType.toByte : ClientMsgType → UInt8
  | .hello => 1
  | .join => 2
  | .switch => 3
  | .leave => 4
  | .say => 5
  | .dm => 6
  | .who => 7
  | .list => 8
  | .nick => 9
  | .quit => 10
  | .stats => 11

/-- The client messages, in the order of their type bytes. -/
def ClientMsgType.all : List ClientMsgType :=
  [.hello, .join, .switch, .leave, .say, .dm, .who, .list, .nick, .quit, .stats]

/-- The client message a type byte stands for: the cases of a `switch` over it, `none` being
the default case. -/
def ClientMsgType.ofByte (b : UInt8) : Option ClientMsgType :=
  ClientMsgType.all.find? fun t => t.toByte == b

@[simp] theorem ClientMsgType.ofByte_toByte (t : ClientMsgType) :
    ClientMsgType.ofByte t.toByte = some t := by
  cases t <;> rfl

theorem ClientMsgType.ofByte_eq_some {b : UInt8} {t : ClientMsgType} :
    ClientMsgType.ofByte b = some t ↔ b = t.toByte := by
  constructor
  · intro h
    unfold ClientMsgType.ofByte at h
    have hb := List.find?_some h
    exact (beq_iff_eq.mp hb).symm
  · rintro rfl
    exact ClientMsgType.ofByte_toByte t

theorem ClientMsgType.toByte_inj {a b : ClientMsgType} : a.toByte = b.toByte ↔ a = b := by
  refine ⟨fun h => ?_, congrArg _⟩
  have ha := ClientMsgType.ofByte_toByte a
  rw [h, ClientMsgType.ofByte_toByte] at ha
  exact (Option.some.inj ha).symm

/-- `cw_server_msg_type`. -/
inductive ServerMsgType where
  | ok | error | chat | dmRecv | system | whoResp | listResp | statsResp
  deriving DecidableEq, Repr

/-- The type byte of a server message. -/
def ServerMsgType.toByte : ServerMsgType → UInt8
  | .ok => 101
  | .error => 102
  | .chat => 103
  | .dmRecv => 104
  | .system => 105
  | .whoResp => 106
  | .listResp => 107
  | .statsResp => 108

/-- The messages that answer a request: all but those that carry a text of another client, or
news about one. -/
def ServerMsgType.isReply : ServerMsgType → Bool
  | .ok | .error | .whoResp | .listResp | .statsResp => true
  | .chat | .dmRecv | .system => false

theorem ServerMsgType.toByte_injective : Function.Injective ServerMsgType.toByte := by
  intro a b h
  cases a <;> cases b <;> first | rfl | exact absurd h (by decide)

@[simp] theorem ServerMsgType.toByte_inj {a b : ServerMsgType} : a.toByte = b.toByte ↔ a = b :=
  ServerMsgType.toByte_injective.eq_iff

/-- The server messages, in the order of their type bytes. -/
def ServerMsgType.all : List ServerMsgType :=
  [.ok, .error, .chat, .dmRecv, .system, .whoResp, .listResp, .statsResp]

/-- The server message a type byte stands for. -/
def ServerMsgType.ofByte (b : UInt8) : Option ServerMsgType :=
  ServerMsgType.all.find? fun t => t.toByte == b

@[simp] theorem ServerMsgType.ofByte_toByte (t : ServerMsgType) :
    ServerMsgType.ofByte t.toByte = some t := by
  cases t <;> rfl

theorem ServerMsgType.ofByte_eq_some {b : UInt8} {t : ServerMsgType} :
    ServerMsgType.ofByte b = some t ↔ b = t.toByte := by
  constructor
  · intro h
    unfold ServerMsgType.ofByte at h
    have hb := List.find?_some h
    exact (beq_iff_eq.mp hb).symm
  · rintro rfl
    exact ServerMsgType.ofByte_toByte t

/-- `cw_frame_header`. -/
structure FrameHeader where
  type : UInt8
  payloadLen : ℕ
  deriving DecidableEq, Repr

/-- `cw_parse_header`. -/
def cwParseHeader (buf : Bytes) : Option FrameHeader :=
  if buf.length < cwFrameHeaderSize then none
  else
    let out : FrameHeader := ⟨buf.headD 0, fromBe ((buf.drop 1).take 4)⟩
    if cwMaxPayloadSize < out.payloadLen then none else some out

/-- `cw_write_header`: the five bytes it stores. -/
def cwWriteHeader (type : UInt8) (payloadLen : ℕ) : Bytes := type :: be32 payloadLen

/-- `cw_read_string`: the bytes copied to `out`, before the terminating zero, and the new
offset. -/
def cwReadString (payload : Bytes) (offset outCap : ℕ) : Option (Bytes × ℕ) :=
  if outCap = 0 then none
  else if payload.length < offset + 2 then none
  else
    let strLen := fromBe ((payload.drop offset).take 2)
    if cwMaxStringSize < strLen ∨ payload.length < offset + 2 + strLen then none
    else if outCap ≤ strLen then none
    else some ((payload.drop (offset + 2)).take strLen, offset + 2 + strLen)

/-- `cw_write_string`: `payload` is what the buffer of `payloadCap` bytes holds below the
offset, `value` a C string. -/
def cwWriteString (payload : Bytes) (payloadCap : ℕ) (value : Bytes) : Option Bytes :=
  let len := value.length
  if 65535 < len ∨ cwMaxStringSize < len then none
  else if payloadCap < payload.length + 2 + len then none
  else some (payload ++ be16 len ++ value)

/-- `isalnum` of the C locale, or one of `_`, `-`, `.`. -/
def isNameByte (c : UInt8) : Bool :=
  (48 ≤ c && c ≤ 57) || (65 ≤ c && c ≤ 90) || (97 ≤ c && c ≤ 122) || c == 95 || c == 45 || c == 46

/-- `cw_valid_name`, on a C string. -/
def cwValidName (value : Bytes) (minLen maxLen : ℕ) : Bool :=
  if value.length < minLen ∨ maxLen < value.length then false else value.all isNameByte

theorem cwValidName_eq_true {value : Bytes} {minLen maxLen : ℕ} :
    cwValidName value minLen maxLen = true ↔
      minLen ≤ value.length ∧ value.length ≤ maxLen ∧ ∀ c ∈ value, isNameByte c = true := by
  unfold cwValidName
  split_ifs with h
  · refine iff_of_false (fun hf => by simp at hf) ?_
    omega
  · rw [List.all_eq_true]
    constructor
    · exact fun hall => ⟨by omega, by omega, hall⟩
    · exact fun hall => hall.2.2

/-! ## Strings in payloads -/

/-- Strings written one after the other into a buffer of `cap` bytes. -/
def cwWriteStrings (cap : ℕ) : Bytes → List Bytes → Option Bytes
  | payload, [] => some payload
  | payload, v :: vs =>
    match cwWriteString payload cap v with
    | none => none
    | some payload' => cwWriteStrings cap payload' vs

/-- A string with its length in front. -/
def stringField (value : Bytes) : Bytes := be16 value.length ++ value

@[simp] theorem length_stringField (value : Bytes) :
    (stringField value).length = value.length + 2 := by
  simp [stringField, Nat.add_comm]

theorem cwWriteString_eq {payload value : Bytes} {cap : ℕ} (hlen : value.length ≤ cwMaxStringSize)
    (hcap : payload.length + 2 + value.length ≤ cap) :
    cwWriteString payload cap value = some (payload ++ stringField value) := by
  have h1 : ¬(65535 < value.length ∨ cwMaxStringSize < value.length) := by
    unfold cwMaxStringSize at *
    omega
  simp only [cwWriteString, if_neg h1, if_neg (not_lt.mpr hcap), stringField, List.append_assoc]

/-- What is written is the fields, one after the other. -/
theorem cwWriteStrings_eq {cap : ℕ} {values : List Bytes} {payload : Bytes}
    (hlen : ∀ v ∈ values, v.length ≤ cwMaxStringSize)
    (hcap : payload.length + ((values.map stringField).flatten).length ≤ cap) :
    cwWriteStrings cap payload values = some (payload ++ (values.map stringField).flatten) := by
  induction values generalizing payload with
  | nil => simp [cwWriteStrings]
  | cons v vs ih =>
    simp only [List.map_cons, List.flatten_cons, List.length_append, length_stringField] at hcap
    have hv : cwWriteString payload cap v = some (payload ++ stringField v) :=
      cwWriteString_eq (hlen v List.mem_cons_self) (by omega)
    simp only [cwWriteStrings, hv]
    rw [ih (fun w hw => hlen w (List.mem_cons_of_mem v hw))
      (by simp only [List.length_append, length_stringField]; omega)]
    simp

/-- A string field at the offset is read back, when the buffer has room for it. -/
theorem cwReadString_stringField {before value after : Bytes} {cap : ℕ}
    (hlen : value.length ≤ cwMaxStringSize) (hcap : value.length < cap) :
    cwReadString (before ++ stringField value ++ after) before.length cap =
      some (value, before.length + 2 + value.length) := by
  have hdrop : (before ++ stringField value ++ after).drop before.length =
      be16 value.length ++ (value ++ after) := by
    rw [List.append_assoc, List.drop_left, stringField, List.append_assoc]
  have hdrop2 : (before ++ stringField value ++ after).drop (before.length + 2) =
      value ++ after := by
    rw [← List.drop_drop, hdrop, ← length_be16 value.length, List.drop_left]
  have htake : (be16 value.length ++ (value ++ after)).take 2 = be16 value.length := by
    rw [← length_be16 value.length, List.take_left]
  have hnum : fromBe (be16 value.length) = value.length :=
    fromBe_be16 (by unfold cwMaxStringSize at hlen; omega)
  have htotal : (before ++ stringField value ++ after).length =
      before.length + 2 + value.length + after.length := by
    simp only [List.length_append, length_stringField]
    omega
  unfold cwReadString
  rw [if_neg (by omega), if_neg (by omega), hdrop, htake, hnum, hdrop2]
  simp only
  rw [if_neg (by omega), if_neg (by omega), List.take_left]

/-- A field that is too long is not read. -/
theorem cwReadString_stringField_of_large {before value after : Bytes} {cap : ℕ}
    (hlen : value.length < 65536) (hcap : cwMaxStringSize < value.length ∨ cap ≤ value.length) :
    cwReadString (before ++ stringField value ++ after) before.length cap = none := by
  have hdrop : ((before ++ stringField value ++ after).drop before.length).take 2 =
      be16 value.length := by
    rw [List.append_assoc, List.drop_left, stringField, List.append_assoc,
      ← length_be16 value.length, List.take_left]
  unfold cwReadString
  rw [hdrop, fromBe_be16 hlen]
  simp only
  split_ifs with _ _ _ hfits
  · rfl
  · rfl
  · rfl
  · rfl
  · exact absurd hcap (by omega)

/-- `cw_read_string` copies fewer bytes than the buffer holds and never reads past the
payload. -/
theorem cwReadString_bounds {payload out : Bytes} {offset outCap offset' : ℕ}
    (h : cwReadString payload offset outCap = some (out, offset')) :
    out.length < outCap ∧ out.length ≤ cwMaxStringSize ∧ offset' = offset + 2 + out.length ∧
      offset' ≤ payload.length := by
  unfold cwReadString at h
  simp only at h
  split_ifs at h with h1 h2 h3 h4
  simp only [Option.some.injEq, Prod.mk.injEq] at h
  obtain ⟨rfl, rfl⟩ := h
  have hlen : ((payload.drop (offset + 2)).take
      (fromBe ((payload.drop offset).take 2))).length = fromBe ((payload.drop offset).take 2) := by
    rw [List.length_take, List.length_drop]
    omega
  rw [hlen]
  omega

/-! ## Frames -/

/-- A frame: its type byte and its payload. -/
@[ext]
structure Frame where
  type : UInt8
  payload : Bytes
  deriving DecidableEq, Repr

/-- The bytes of a frame on the wire. -/
def Frame.encode (f : Frame) : Bytes := cwWriteHeader f.type f.payload.length ++ f.payload

@[simp] theorem Frame.length_encode (f : Frame) :
    f.encode.length = cwFrameHeaderSize + f.payload.length := by
  simp only [Frame.encode, cwWriteHeader, List.length_append, List.length_cons, length_be32,
    cwFrameHeaderSize]

/-- The frame in front of a byte stream, for a reader that accepts payloads up to `limit`. -/
def frameHead (limit : ℕ) : Bytes → StreamDecoder.Verdict Frame
  | t :: x :: y :: z :: w :: r =>
    let payloadLen := fromBe [x, y, z, w]
    if limit < payloadLen then .bad
    else if r.length < payloadLen then .more
    else .item ⟨t, r.take payloadLen⟩ (cwFrameHeaderSize + payloadLen)
  | _ => .more

/-- The first five bytes of a stream that has them. -/
theorem exists_header {l : Bytes} (hl : cwFrameHeaderSize ≤ l.length) :
    ∃ t x y z w r, l = t :: x :: y :: z :: w :: r := by
  unfold cwFrameHeaderSize at hl
  match l, hl with
  | t :: x :: y :: z :: w :: r, _ => exact ⟨t, x, y, z, w, r, rfl⟩

theorem length_header (t x y z w : UInt8) (r : Bytes) :
    (t :: x :: y :: z :: w :: r).length = cwFrameHeaderSize + r.length := by
  simp only [List.length_cons, cwFrameHeaderSize]
  omega

theorem frameHead_of_short {limit : ℕ} {l : Bytes} (hl : l.length < cwFrameHeaderSize) :
    frameHead limit l = .more := by
  unfold cwFrameHeaderSize at hl
  match l, hl with
  | [], _ => rfl
  | [_], _ => rfl
  | [_, _], _ => rfl
  | [_, _, _], _ => rfl
  | [_, _, _, _], _ => rfl

theorem cwParseHeader_header (t x y z w : UInt8) (r : Bytes) :
    cwParseHeader (t :: x :: y :: z :: w :: r) =
      if cwMaxPayloadSize < fromBe [x, y, z, w] then none else some ⟨t, fromBe [x, y, z, w]⟩ := by
  unfold cwParseHeader
  rw [if_neg (by rw [length_header]; omega)]
  rfl

/-- The look the core takes at its input buffer, through `cw_parse_header`. -/
theorem frameHead_eq_cwParseHeader {l : Bytes} (hl : cwFrameHeaderSize ≤ l.length) :
    frameHead cwMaxPayloadSize l =
      match cwParseHeader l with
      | none => .bad
      | some h =>
        if l.length < cwFrameHeaderSize + h.payloadLen then .more
        else .item ⟨h.type, (l.drop cwFrameHeaderSize).take h.payloadLen⟩
          (cwFrameHeaderSize + h.payloadLen) := by
  obtain ⟨t, x, y, z, w, r, rfl⟩ := exists_header hl
  rw [cwParseHeader_header]
  simp only [frameHead]
  by_cases h1 : cwMaxPayloadSize < fromBe [x, y, z, w]
  · rw [if_pos h1, if_pos h1]
  · rw [if_neg h1, if_neg h1]
    simp only [length_header, Nat.add_lt_add_iff_left]
    rfl

theorem frameHead_item {limit : ℕ} {l : Bytes} {f : Frame} {n : ℕ}
    (h : frameHead limit l = .item f n) :
    f.payload.length ≤ limit ∧ n = cwFrameHeaderSize + f.payload.length ∧ n ≤ l.length ∧
      l.take n = f.encode := by
  by_cases hl : l.length < cwFrameHeaderSize
  · rw [frameHead_of_short hl] at h
    cases h
  · obtain ⟨t, x, y, z, w, r, rfl⟩ := exists_header (not_lt.mp hl)
    simp only [frameHead] at h
    split_ifs at h with h1 h2
    injection h with hf hn
    subst hf
    have htake : (r.take (fromBe [x, y, z, w])).length = fromBe [x, y, z, w] := by
      rw [List.length_take]
      omega
    simp only [htake, length_header]
    refine ⟨not_lt.mp h1, hn.symm, by omega, ?_⟩
    rw [← hn, Frame.encode, htake, cwWriteHeader, be32_fromBe, Nat.add_comm cwFrameHeaderSize]
    rfl

theorem frameHead_encode {limit : ℕ} (hlimit : limit < 4294967296) {f : Frame}
    (hf : f.payload.length ≤ limit) (r : Bytes) :
    frameHead limit (f.encode ++ r) = .item f f.encode.length := by
  have hnum : fromBe (be32 f.payload.length) = f.payload.length := fromBe_be32 (by omega)
  have happ : f.encode ++ r = f.type :: be32 f.payload.length ++ (f.payload ++ r) := by
    rw [Frame.encode, cwWriteHeader, List.append_assoc]
  rw [happ, Frame.length_encode]
  unfold be32 at hnum ⊢
  simp only [List.cons_append, List.nil_append, frameHead, hnum]
  rw [if_neg (by omega), if_neg (by rw [List.length_append]; omega), List.take_left]

theorem frameHead_append {limit : ℕ} {l : Bytes} (r : Bytes)
    (h : frameHead limit l ≠ .more) : frameHead limit (l ++ r) = frameHead limit l := by
  by_cases hl : l.length < cwFrameHeaderSize
  · exact absurd (frameHead_of_short hl) h
  · obtain ⟨t, x, y, z, w, q, rfl⟩ := exists_header (not_lt.mp hl)
    simp only [List.cons_append, frameHead] at h ⊢
    by_cases h1 : limit < fromBe [x, y, z, w]
    · rw [if_pos h1, if_pos h1]
    · rw [if_neg h1] at h ⊢
      by_cases h2 : q.length < fromBe [x, y, z, w]
      · rw [if_pos h2] at h
        exact absurd rfl h
      · rw [if_neg h1, if_neg h2, if_neg (by rw [List.length_append]; omega),
          List.take_append_of_le_length (by omega)]

/-- **The framing of a byte stream**, for a reader that accepts payloads up to `limit`. -/
def frameCodec (limit : ℕ) (hlimit : limit < 4294967296) : StreamDecoder.Codec UInt8 Frame where
  head := frameHead limit
  item_bound h := by
    obtain ⟨-, hn, hle, -⟩ := frameHead_item h
    refine ⟨?_, hle⟩
    unfold cwFrameHeaderSize at hn
    omega
  item_stable h r := by rw [frameHead_append r (by rw [h]; exact fun hh => by cases hh), h]
  bad_stable h r := by rw [frameHead_append r (by rw [h]; exact fun hh => by cases hh), h]
  encode := Frame.encode
  Valid f := f.payload.length ≤ limit
  head_encode hf r := frameHead_encode hlimit hf r
  encode_head h := ⟨(frameHead_item h).1, (frameHead_item h).2.2.2⟩

/-- The core's framing: payloads up to `CW_MAX_PAYLOAD_SIZE`. -/
def cwFraming : StreamDecoder.Codec UInt8 Frame := frameCodec cwMaxPayloadSize (by decide)

/-- The framing a Python reader follows: any length the header can spell. -/
def pyFraming : StreamDecoder.Codec UInt8 Frame := frameCodec 4294967295 (by decide)

theorem cwFraming_head (l : Bytes) : cwFraming.head l = frameHead cwMaxPayloadSize l := rfl

theorem pyFraming_head (l : Bytes) : pyFraming.head l = frameHead 4294967295 l := rfl

theorem cwFraming_encode (f : Frame) : cwFraming.encode f = f.encode := rfl

theorem pyFraming_encode (f : Frame) : pyFraming.encode f = f.encode := rfl

theorem pyFraming_valid {f : Frame} : pyFraming.Valid f ↔ f.payload.length ≤ 4294967295 := Iff.rfl

end ChannelWire
