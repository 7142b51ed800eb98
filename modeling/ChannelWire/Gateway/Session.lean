import ChannelWire.Gateway.Database
import ChannelWire.Gateway.Event
import ChannelWire.Gateway.Framing

/-!
# A session

`websocket_endpoint` of `gateway/app/main.py`, for one browser: it connects to the core and
registers under the subject of the token (`open_registered_core`), and then two tasks run, one
for each direction.  `pumpCoreToWs` and `pumpWsToCore` are one round of their loops, from the
`await` that returned a frame or a message to the next one; in between no other task runs.

A round that raises ends its task, and a task that ended makes the endpoint end the session.

The fields `sent`, `reads`, `shown` and `stored` have no counterpart in the source.  They record
what the session wrote to the core, read from it, sent to the browser and stored.
-/

namespace ChannelWire
namespace Gateway

/-- A frame that was written to the core, with the entry of `pending_dms` made for it. -/
structure Sent where
  frame : Frame
  dm : Option (PyStr × PyStr)

/-- What the browser was sent: `ready`, an event of the core, or the error that tells it why a
message was not forwarded. -/
inductive Shown where
  | ready (username : PyStr)
  | event (event : GatewayEvent)
  | refused (error : ValueError)

/-- A row that was stored on reading a frame. -/
structure Stored where
  row : Message
  /-- How many frames had been read before that one. -/
  index : ℕ
  /-- The row was taken from `pending_dms`. -/
  own : Bool

/-- How far `websocket_endpoint` is: it waits for the answer to `HELLO`, its tasks were created,
or it has returned. -/
inductive Phase where
  | registering | running | over
  deriving DecidableEq

/-- A session. -/
structure Session where
  username : Username
  phase : Phase
  /-- `core_task` has not ended. -/
  reading : Bool
  /-- `ws_task` has not ended. -/
  writing : Bool
  pendingDms : List (PyStr × PyStr)
  sent : List Sent
  reads : List Frame
  shown : List Shown
  stored : List Stored

/-- `open_registered_core`, until it waits for the answer. -/
def openRegisteredCore (u : Username) : Session :=
  { username := u
    phase := .registering
    reading := false
    writing := false
    pendingDms := []
    sent := [⟨helloFrame u, none⟩]
    reads := []
    shown := []
    stored := [] }

namespace Session

/-- `websocket.send_json`. -/
def sendJson (x : Session) (shown : Shown) : Session := { x with shown := x.shown ++ [shown] }

/-- The answer to `HELLO`: both tasks are created, or the endpoint returns. -/
def registered (x : Session) (frame : Frame) : Session :=
  let x := { x with reads := x.reads ++ [frame] }
  if frame.type = ServerMsgType.ok.toByte then
    ({ x with phase := .running, reading := true, writing := true }).sendJson
      (.ready x.username.name)
  else { x with phase := .over }

/-- The session was registered, but `accept` or the `send_json` behind it raised. -/
def abandoned (x : Session) (frame : Frame) : Session :=
  { x with reads := x.reads ++ [frame], phase := .over }

/-- The end of a branch that stores a message: `db.commit`, then `send_json`. -/
def save (x : Session) (index : ℕ) (tx : Transaction) (own : Bool) (event : GatewayEvent) :
    Session × Database :=
  match tx.commit with
  | none => ({ x with reading := false }, tx.committed)
  | some db =>
    let rows := tx.added.messages.map fun row => ⟨row, index, own⟩
    (({ x with stored := x.stored ++ rows }).sendJson (.event event), db)

/-- One round of `pump_core_to_ws`, with the frame `core_read` returned; `active` is
`active_gateway_users`. -/
def pumpCoreToWs (active : PyStr → ℕ) (db : Database) (x : Session) (frame : Frame) :
    Session × Database :=
  let index := x.reads.length
  let x := { x with reads := x.reads ++ [frame] }
  match gatewayEvent frame with
  | .error _ => ({ x with reading := false }, db)
  | .ok event =>
    match event with
    | .chat channel sender text =>
      if sender = x.username.name then
        x.save index ((sessionScope db).saveChannelMessage channel sender text) false event
      else (x.sendJson (.event event), db)
    | .dm sender text =>
      if active sender = 0 then
        x.save index ((sessionScope db).saveDm sender x.username.name text) false event
      else (x.sendJson (.event event), db)
    | .ok message =>
      if message = py "direct message sent" then
        match x.pendingDms with
        | [] => (x.sendJson (.event event), db)
        | (target, text) :: pendingDms =>
          ({ x with pendingDms := pendingDms }).save index
            ((sessionScope db).saveDm x.username.name target text) true event
      else (x.sendJson (.event event), db)
    | .error _ => (({ x with pendingDms := x.pendingDms.tail }).sendJson (.event event), db)
    | _ => (x.sendJson (.event event), db)

/-- `core_send`; a `quit` is the last thing the task sends. -/
def coreSend (x : Session) (msgType : ClientMsgType) (payload : Bytes)
    (dm : Option (PyStr × PyStr)) : Session :=
  match encodeFrame msgType.toByte payload with
  | .error _ => { x with writing := false }
  | .ok _ =>
    { x with
      sent := x.sent ++ [⟨⟨msgType.toByte, payload⟩, dm⟩]
      writing := msgType ≠ .quit }

/-- One round of `pump_ws_to_core`, with what `json.loads` made of the message: an error, or a
value, which has a method `get` only if it is an object. -/
def pumpWsToCore (db : Database) (x : Session) (loaded : Except ValueError Json) :
    Session × Database :=
  match loaded with
  | .error e => (x.sendJson (.refused e), db)
  | .ok (.object message) =>
    match corePayloadForCommand message with
    | .error e => (x.sendJson (.refused e), db)
    | .ok (msgType, payload) =>
      match msgType with
      | .join | .switch =>
        let channel := (Dict.getStr message "channel").getD []
        match ((sessionScope db).addMembership x.username.name channel).commit with
        | none => ({ x with writing := false }, db)
        | some db => (x.coreSend msgType payload none, db)
      | .dm =>
        let dm := ((Dict.getStr message "to").getD [], (Dict.getStr message "text").getD [])
        (({ x with pendingDms := x.pendingDms ++ [dm] }).coreSend msgType payload (some dm), db)
      | _ => (x.coreSend msgType payload none, db)
  | .ok _ => ({ x with writing := false }, db)

/-- The session when `websocket_endpoint` has returned. -/
def finished (x : Session) (cancelled : Bool) : Session :=
  { x with
    phase := .over
    reading := x.reading && !cancelled
    writing := x.writing && !cancelled }

end Session

end Gateway
end ChannelWire
