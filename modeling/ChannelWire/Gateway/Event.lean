import ChannelWire.Gateway.Command

/-!
# The events of a session

`gateway_event` of `gateway/app/main.py`: from a frame of the core to the JSON object the browser
gets.

`decode_strings` can fail, and a `CHAT` or `DM_RECV` is decoded with it; the texts of the other
frames are read with replacement characters.  The payload of a `STATS_RESP` is taken for UTF-8, as
`json.loads` does with bytes that begin with no zero byte and no byte order mark.
-/

namespace ChannelWire
namespace Gateway

open Utf8

/-- The objects `gateway_event` returns.  The members of the JSON object in a `STATS_RESP` stand
beside the `type`, which the core's have no member of. -/
inductive GatewayEvent where
  | chat (channel sender text : PyStr)
  | dm (sender text : PyStr)
  | who (users : List PyStr)
  | channels (channels : List PyStr)
  | ok (message : PyStr)
  | error (message : PyStr)
  | system (message : PyStr)
  | coreStats (stats : Dict)
  | coreStatsRaw (raw : PyStr)
  | raw (messageType : UInt8) (payload : Bytes)

/-- A code point at which `str.splitlines` ends a line. -/
def isLineBreak (c : CodePoint) : Bool :=
  let n := c.val
  (0xA ≤ n && n ≤ 0xD) || (0x1C ≤ n && n ≤ 0x1E) || n == 0x85 || n == 0x2028 || n == 0x2029

/-- The loop of `str.splitlines`: `line` is what the current line holds, and `cr` says that the
code point before was a carriage return, with which a line feed makes one line break. -/
def splitlinesLoop (line : PyStr) (cr : Bool) : PyStr → List PyStr
  | [] => if line = [] then [] else [line]
  | c :: s =>
    if cr && c.val == 0xA then splitlinesLoop line false s
    else if isLineBreak c then line :: splitlinesLoop [] (c.val == 0xD) s
    else splitlinesLoop (line ++ [c]) false s

/-- `str.splitlines`. -/
def splitlines (s : PyStr) : List PyStr := splitlinesLoop [] false s

/-- What the browser is told instead of `user not found` and `invalid direct message`. -/
def friendlyError (message : PyStr) : PyStr :=
  if message = py "user not found" ∨ message = py "invalid direct message" then
    py "User not found. Check the username and try again."
  else message

/-- The branch of `gateway_event` for a `STATS_RESP`. -/
def coreStatsEvent (payload : Bytes) : Except ValueError GatewayEvent :=
  match decode payload with
  | none => .error .unicodeDecode
  | some s =>
    match JsonText.loads s with
    | none => .ok (.coreStatsRaw (decodeReplace payload))
    | some (.object stats) => .ok (.coreStats stats)
    | some _ => .error .notMapping

/-- `gateway_event`. -/
def gatewayEvent (frame : Frame) : Except ValueError GatewayEvent :=
  match ServerMsgType.ofByte frame.type with
  | some .chat =>
    match decodeStrings frame.payload with
    | .error e => .error e
    | .ok [channel, sender, text] => .ok (.chat channel sender text)
    | .ok _ => .error .unpack
  | some .dmRecv =>
    match decodeStrings frame.payload with
    | .error e => .error e
    | .ok [sender, text] => .ok (.dm sender text)
    | .ok _ => .error .unpack
  | some .whoResp => .ok (.who (splitlines (decodeReplace frame.payload)))
  | some .listResp => .ok (.channels (splitlines (decodeReplace frame.payload)))
  | some .ok => .ok (.ok (decodeReplace frame.payload))
  | some .error => .ok (.error (friendlyError (decodeReplace frame.payload)))
  | some .system => .ok (.system (decodeReplace frame.payload))
  | some .statsResp => coreStatsEvent frame.payload
  | none => .ok (.raw frame.type frame.payload)

/-- What an event says about the frame it was made of. -/
def GatewayEvent.Of (frame : Frame) : GatewayEvent → Prop
  | .chat channel sender text => frame.type = ServerMsgType.chat.toByte ∧
    decodeStrings frame.payload = .ok [channel, sender, text]
  | .dm sender text => frame.type = ServerMsgType.dmRecv.toByte ∧
    decodeStrings frame.payload = .ok [sender, text]
  | .who _ => frame.type = ServerMsgType.whoResp.toByte
  | .channels _ => frame.type = ServerMsgType.listResp.toByte
  | .ok message => frame.type = ServerMsgType.ok.toByte ∧ message = decodeReplace frame.payload
  | .error _ => frame.type = ServerMsgType.error.toByte
  | .system _ => frame.type = ServerMsgType.system.toByte
  | .coreStats _ | .coreStatsRaw _ => frame.type = ServerMsgType.statsResp.toByte
  | .raw _ _ => ServerMsgType.ofByte frame.type = none

/-- **An event tells the type of its frame**, and the texts it was decoded from. -/
theorem gatewayEvent_of {frame : Frame} {event : GatewayEvent} (h : gatewayEvent frame = .ok event) :
    event.Of frame := by
  unfold gatewayEvent at h
  cases htype : ServerMsgType.ofByte frame.type with
  | none =>
    rw [htype] at h
    obtain rfl := Except.ok.inj h
    exact htype
  | some type =>
    have hbyte := ServerMsgType.ofByte_eq_some.mp htype
    rw [htype] at h
    cases type with
    | chat =>
      simp only at h
      split at h
      · cases h
      · next hdecode =>
        obtain rfl := Except.ok.inj h
        exact ⟨hbyte, hdecode⟩
      · cases h
    | dmRecv =>
      simp only at h
      split at h
      · cases h
      · next hdecode =>
        obtain rfl := Except.ok.inj h
        exact ⟨hbyte, hdecode⟩
      · cases h
    | ok =>
      obtain rfl := Except.ok.inj h
      exact ⟨hbyte, rfl⟩
    | whoResp | listResp | error | system =>
      obtain rfl := Except.ok.inj h
      exact hbyte
    | statsResp =>
      simp only [coreStatsEvent] at h
      split at h
      · cases h
      · split at h
        · obtain rfl := Except.ok.inj h
          exact hbyte
        · obtain rfl := Except.ok.inj h
          exact hbyte
        · cases h

end Gateway
end ChannelWire
