import ChannelWire.Core.State

/-!
# The handlers of the core server

`core/src/server.c` from `reset_client` to `handle_frame`, function by function and under the
source's names.  A `client *` argument is a slot; a `void` function returns the new state and
an `int` function its result as well.

The loops over `clients` are folds over `slots`, whose body reads the state the earlier turns
left.  `safe_enqueue_text`'s result is read by no caller and is dropped.  The statement pair
`stats.queue_disconnects++; disconnect_client(target, "outgoing queue overflow")` that follows
a failed enqueue in three places is `overflowDisconnect`.
-/

namespace ChannelWire
namespace Core

open LinkedQueue

/-! ## Closing a connection -/

/-- `free_queue`. -/
def freeQueue (c : Client) : Client := { c with out := c.out.clear, queuedBytes := 0 }

/-- What `reset_client` leaves in a slot: the queue is freed, `memset` clears the rest and `fd`
becomes `-1`. -/
def Client.reset (c : Client) : Client := { Client.blank with out := (freeQueue c).out }

theorem Client.not_live_reset (c : Client) : ¬ c.reset.Live := Client.not_live_blank

@[simp] theorem Client.toList_reset (c : Client) : c.reset.out.toList = [] :=
  Queue.toList_clear c.out

/-- `reset_client`. -/
def resetClient (s : Server) (i : Slot) : Server :=
  let c := s.clients i
  let s := if c.Live then
      s.setStats { s.stats with currentConnections := s.stats.currentConnections - 1 }
    else s
  s.setClient i c.reset

/-- `disconnect_client`. -/
def disconnectClient (s : Server) (i : Slot) (reason : Reason) : Server :=
  let c := s.clients i
  let s := if c.Live then s.emit (.closed c.conn reason) else s
  resetClient s i

/-- What the source does with a client whose queue is full. -/
def overflowDisconnect (s : Server) (i : Slot) : Server :=
  disconnectClient (s.setStats { s.stats with queueDisconnects := s.stats.queueDisconnects + 1 }) i
    .queueOverflow

/-! ## Lookups -/

/-- `username_in_use`. -/
def usernameInUse (s : Server) (username : Bytes) (except : Slot) : Bool :=
  slots.any fun i => i ≠ except ∧ (s.clients i).Live ∧ (s.clients i).registered = true ∧
    (s.clients i).username = username

/-- `find_channel`. -/
def findChannel (s : Server) (name : Bytes) : Option ℕ :=
  s.channels.findIdx? fun ch => ch = name

/-- `snprintf(buf, cap, ...)`: what the buffer holds of the formatted text. -/
def snprintf (cap : ℕ) (text : Bytes) : Bytes := text.take (cap - 1)

/-- `ensure_channel`: the index, or `none` for a full table. -/
def ensureChannel (s : Server) (name : Bytes) : Option ℕ × Server :=
  match findChannel s name with
  | some idx => (some idx, s)
  | none =>
    if cwMaxChannels ≤ s.channels.length then (none, s)
    else (some s.channels.length,
      s.setChannels (s.channels ++ [snprintf (cwChannelCap + 1) name]))

/-- The members of a channel, in slot order. -/
def members (s : Server) (idx : ℕ) : List Slot := slots.filter fun i => (s.clients i).isMember idx

/-! ## Outgoing frames -/

/-- The frame `enqueue_payload` builds. -/
def OutFrame.make (type : ServerMsgType) (payload : Bytes) : OutFrame :=
  ⟨cwWriteHeader type.toByte payload.length ++ payload, cwFrameHeaderSize + payload.length, 0⟩

/-- The frame linked behind the queue of a slot. -/
def pushFrame (s : Server) (i : Slot) (type : ServerMsgType) (payload : Bytes) : Server :=
  let c := s.clients i
  let frame := OutFrame.make type payload
  (s.setClient i { c with out := c.out.push frame, queuedBytes := c.queuedBytes + frame.len }).emit
    (.enqueued c.conn ⟨type.toByte, payload⟩)

/-- `enqueue_payload`; the result is whether it returned `0`. -/
def enqueuePayload (s : Server) (i : Slot) (type : ServerMsgType) (payload : Bytes) :
    Bool × Server :=
  let refused := Effect.refused (s.clients i).conn ⟨type.toByte, payload⟩
  if cwMaxPayloadSize < payload.length then (false, s.emit refused)
  else if s.maxQueueBytes < (s.clients i).queuedBytes + cwFrameHeaderSize + payload.length then
    (false, s.emit refused)
  else
    let answer := s.heap 0
    let s := s.setHeap fun n => s.heap (n + 1)
    if answer then (true, pushFrame s i type payload) else (false, s.emit refused)

/-- Enqueue, or disconnect a client that has no room. -/
def enqueueOrDisconnect (s : Server) (i : Slot) (type : ServerMsgType) (payload : Bytes) : Server :=
  match enqueuePayload s i type payload with
  | (true, s) => s
  | (false, s) => overflowDisconnect s i

/-- `safe_enqueue_text`. -/
def safeEnqueueText (s : Server) (i : Slot) (type : ServerMsgType) (text : Bytes) : Server :=
  enqueueOrDisconnect s i type text

/-- `enqueue_strings`. -/
def enqueueStrings (s : Server) (i : Slot) (type : ServerMsgType) (values : List Bytes) :
    Bool × Server :=
  match cwWriteStrings cwMaxPayloadSize [] values with
  | none => (false, s)
  | some payload => enqueuePayload s i type payload

/-- One turn of the loop of `broadcast_system_to_active_channel`. -/
def systemTurn (sender : Slot) (idx : ℕ) (text : Bytes) (s : Server) (i : Slot) : Server :=
  if i ≠ sender ∧ (s.clients i).isMember idx = true then safeEnqueueText s i .system text else s

/-- `broadcast_system_to_active_channel`. -/
def broadcastSystemToActiveChannel (s : Server) (sender : Slot) (text : Bytes) : Server :=
  match findChannel s (s.clients sender).activeChannel with
  | none => s
  | some idx => slots.foldl (systemTurn sender idx text) s

/-- One turn of the loop of `broadcast_chat`. -/
def chatTurn (idx : ℕ) (payload : Bytes) (s : Server) (i : Slot) : Server :=
  if (s.clients i).isMember idx = true then enqueueOrDisconnect s i .chat payload else s

/-- The loop of `broadcast_chat`. -/
def chatLoop (s : Server) (idx : ℕ) (payload : Bytes) : Server :=
  slots.foldl (chatTurn idx payload) s

/-- The connections of the members of a channel. -/
def memberConns (s : Server) (idx : ℕ) : List ℕ := (members s idx).map fun i => (s.clients i).conn

/-- The record of an accepted text. -/
def announce (s : Server) (sender : Slot) (idx : ℕ) (entry : ChatEntry) : Server :=
  s.emit (.said (s.clients sender).conn entry (memberConns s idx))

/-- `broadcast_chat`. -/
def broadcastChat (s : Server) (sender : Slot) (text : Bytes) : Server :=
  let c := s.clients sender
  match findChannel s c.activeChannel with
  | none => safeEnqueueText s sender .error (ascii "join a channel before sending")
  | some idx =>
    match cwWriteStrings cwMaxPayloadSize [] [c.activeChannel, c.username, text] with
    | none => safeEnqueueText s sender .error (ascii "message payload too large")
    | some payload =>
      let s := announce s sender idx ⟨c.activeChannel, c.username, text⟩
      let s := chatLoop s idx payload
      s.setStats { s.stats with channelMessages := s.stats.channelMessages + 1 }

/-! ## Queries -/

/-- The loop of `send_who` and `send_list`: names joined by newlines into a buffer of `cap`
bytes, `used` being what it holds; `none` when `snprintf` would truncate. -/
def appendLines (cap : ℕ) : Bytes → List Bytes → Option Bytes
  | used, [] => some used
  | used, name :: names =>
    let written := (if used.length = 0 then [] else [10]) ++ name
    if cap - used.length ≤ written.length then none else appendLines cap (used ++ written) names

/-- `send_who`. -/
def sendWho (s : Server) (i : Slot) : Server :=
  match findChannel s (s.clients i).activeChannel with
  | none => safeEnqueueText s i .error (ascii "join a channel before listing participants")
  | some idx =>
    match appendLines cwMaxPayloadSize [] ((members s idx).map fun j => (s.clients j).username) with
    | none => safeEnqueueText s i .error (ascii "WHO response too large")
    | some payload => safeEnqueueText s i .whoResp payload

/-- `send_list`. -/
def sendList (s : Server) (i : Slot) : Server :=
  match appendLines cwMaxPayloadSize [] s.channels with
  | none => safeEnqueueText s i .error (ascii "LIST response too large")
  | some payload => safeEnqueueText s i .listResp payload

/-- `%zu`. -/
def decimal (n : ℕ) : Bytes := (Nat.toDigits 10 n).map fun c => UInt8.ofNat c.toNat

/-- The JSON text of `send_stats`. -/
def statsText (s : Server) : Bytes :=
  let registeredClients := (slots.filter fun i =>
    (s.clients i).Live ∧ (s.clients i).registered = true).length
  ascii "\x7b\"current_connections\":" ++ decimal s.stats.currentConnections ++
    ascii ",\"registered_clients\":" ++ decimal registeredClients ++
    ascii ",\"total_connections\":" ++ decimal s.stats.totalConnections ++
    ascii ",\"channels\":" ++ decimal s.channels.length ++
    ascii ",\"channel_messages\":" ++ decimal s.stats.channelMessages ++
    ascii ",\"direct_messages\":" ++ decimal s.stats.directMessages ++
    ascii ",\"malformed_frames\":" ++ decimal s.stats.malformedFrames ++
    ascii ",\"queue_disconnects\":" ++ decimal s.stats.queueDisconnects ++
    ascii ",\"max_queue_bytes\":" ++ decimal s.maxQueueBytes ++ ascii "\x7d"

/-- `send_stats`. -/
def sendStats (s : Server) (i : Slot) : Server :=
  let text := statsText s
  if cwMaxPayloadSize ≤ text.length then
    safeEnqueueText s i .error (ascii "stats response too large")
  else safeEnqueueText s i .statsResp text

/-! ## Commands -/

/-- `read_one_string_payload`: the C string it leaves in a buffer of `outCap` bytes. -/
def readOneStringPayload (payload : Bytes) (outCap : ℕ) : Option Bytes :=
  match cwReadString payload 0 outCap with
  | none => none
  | some (out, offset) => if offset = payload.length then some (cstr out) else none

/-- The name test of `handle_hello` and `handle_nick`, and, with `CW_CHANNEL_CAP` for
`CW_NAME_CAP`, of the channel commands: one string, a valid name. -/
def readName (payload : Bytes) (cap : ℕ) : Option Bytes :=
  match readOneStringPayload payload (cap + 1) with
  | none => none
  | some name => if cwValidName name 1 cap then some name else none

/-- `handle_hello`. -/
def handleHello (s : Server) (i : Slot) (payload : Bytes) : Server :=
  match readName payload cwNameCap with
  | none => safeEnqueueText s i .error (ascii "invalid username")
  | some username =>
    if usernameInUse s username i then
      safeEnqueueText s i .error (ascii "username already in use")
    else
      let c := s.clients i
      let s := s.setClient i
        { c with username := snprintf (cwNameCap + 1) username, registered := true }
      safeEnqueueText s i .ok (ascii "registered")

/-- `join_channel`. -/
def joinChannel (s : Server) (i : Slot) (payload : Bytes) (makeActive : Bool) : Server :=
  if (s.clients i).registered = false then
    safeEnqueueText s i .error (ascii "send HELLO first")
  else
    match readName payload cwChannelCap with
    | none => safeEnqueueText s i .error (ascii "invalid channel")
    | some channel =>
      match ensureChannel s channel with
      | (none, s) => safeEnqueueText s i .error (ascii "too many channels")
      | (some idx, s) =>
        let c := s.clients i
        let s := s.setClient i
          { c with
            joined := Function.update c.joined idx true
            activeChannel :=
              if makeActive then snprintf (cwChannelCap + 1) channel else c.activeChannel }
        let word := if makeActive then ascii "joined" else ascii "switched"
        safeEnqueueText s i .ok (snprintf 96 (word ++ ascii " " ++ channel))

/-- `switch_channel`. -/
def switchChannel (s : Server) (i : Slot) (payload : Bytes) : Server :=
  if (s.clients i).registered = false then
    safeEnqueueText s i .error (ascii "send HELLO first")
  else
    match readName payload cwChannelCap with
    | none => safeEnqueueText s i .error (ascii "invalid channel")
    | some channel =>
      let c := s.clients i
      match (findChannel s channel).filter c.joined with
      | none => safeEnqueueText s i .error (ascii "join channel before switching")
      | some _ =>
        let s := s.setClient i { c with activeChannel := snprintf (cwChannelCap + 1) channel }
        safeEnqueueText s i .ok (snprintf 96 (ascii "switched " ++ channel))

/-- `leave_channel`. -/
def leaveChannel (s : Server) (i : Slot) (payload : Bytes) : Server :=
  match readName payload cwChannelCap with
  | none => safeEnqueueText s i .error (ascii "invalid channel")
  | some channel =>
    let c := s.clients i
    match (findChannel s channel).filter c.joined with
    | none => safeEnqueueText s i .error (ascii "not in channel")
    | some idx =>
      let s := s.setClient i
        { c with
          joined := Function.update c.joined idx false
          activeChannel := if c.activeChannel = channel then [] else c.activeChannel }
      safeEnqueueText s i .ok (ascii "left channel")

/-- The two strings of a direct message: target name and text, both as C strings. -/
def readDmPayload (payload : Bytes) : Option (Bytes × Bytes) :=
  match cwReadString payload 0 (cwNameCap + 1) with
  | none => none
  | some (target, offset) =>
    match cwReadString payload offset (cwTextCap + 1) with
    | none => none
    | some (text, offset') =>
      if offset' ≠ payload.length ∨ cstr text = [] then none else some (cstr target, cstr text)

/-- The loop of `handle_dm`: the first live registered client of that name. -/
def findUser (s : Server) (name : Bytes) : Option Slot :=
  slots.find? fun i => (s.clients i).Live ∧ (s.clients i).registered = true ∧
    (s.clients i).username = name

/-- `handle_dm`. -/
def handleDm (s : Server) (i : Slot) (payload : Bytes) : Server :=
  if (s.clients i).registered = false then
    safeEnqueueText s i .error (ascii "send HELLO first")
  else
    match readDmPayload payload with
    | none => safeEnqueueText s i .error (ascii "invalid direct message")
    | some (targetName, text) =>
      match findUser s targetName with
      | none => safeEnqueueText s i .error (ascii "user not found")
      | some target =>
        match enqueueStrings s target .dmRecv [(s.clients i).username, text] with
        | (false, s) => overflowDisconnect s target
        | (true, s) =>
          let s := s.setStats { s.stats with directMessages := s.stats.directMessages + 1 }
          safeEnqueueText s i .ok (ascii "direct message sent")

/-- `handle_nick`. -/
def handleNick (s : Server) (i : Slot) (payload : Bytes) : Server :=
  match readName payload cwNameCap with
  | none => safeEnqueueText s i .error (ascii "invalid username")
  | some username =>
    if usernameInUse s username i then
      safeEnqueueText s i .error (ascii "username already in use")
    else
      let c := s.clients i
      let oldName := snprintf (cwNameCap + 1) c.username
      let s := s.setClient i
        { c with username := snprintf (cwNameCap + 1) username, registered := true }
      let s := safeEnqueueText s i .ok (ascii "username changed")
      let shown := if oldName = [] then ascii "anonymous" else oldName
      let notice := snprintf 160 (shown ++ ascii " is now " ++ username)
      broadcastSystemToActiveChannel s i notice

/-- The `CW_MSG_SAY` case of `handle_frame`. -/
def handleSay (s : Server) (i : Slot) (payload : Bytes) : Server :=
  if (s.clients i).registered = false then
    safeEnqueueText s i .error (ascii "send HELLO first")
  else if (s.clients i).activeChannel = [] then
    safeEnqueueText s i .error (ascii "join a channel before sending")
  else
    match (readOneStringPayload payload (cwTextCap + 1)).filter (· ≠ []) with
    | none => safeEnqueueText s i .error (ascii "invalid message")
    | some text => broadcastChat s i text

/-- `handle_frame`. -/
def handleFrame (s : Server) (i : Slot) (type : UInt8) (payload : Bytes) : Server :=
  match ClientMsgType.ofByte type with
  | some .hello => handleHello s i payload
  | some .join => joinChannel s i payload true
  | some .switch => switchChannel s i payload
  | some .leave => leaveChannel s i payload
  | some .say => handleSay s i payload
  | some .dm => handleDm s i payload
  | some .who => sendWho s i
  | some .list => sendList s i
  | some .nick => handleNick s i payload
  | some .quit => disconnectClient s i .clientQuit
  | some .stats => sendStats s i
  | none => safeEnqueueText s i .error (ascii "unknown message type")

end Core
end ChannelWire
