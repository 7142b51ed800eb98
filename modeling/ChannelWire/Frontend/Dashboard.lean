import ChannelWire.Gateway.PyString
import Mathlib.Data.Rat.Defs
import Mathlib.Algebra.Order.Field.Rat

/-!
# The dashboard

The state of the component in `frontend/src/main.tsx`, and what changes it: `startSession`,
`logout`, `connect` and the handlers of a socket, `handleGatewayEvent`, and the three functions that
wait for an answer of the gateway, `refreshStats`, `loadHistory` and `loadDirectHistory`.

A JavaScript string is the list of its code points.  A `useState` value and a `useRef` value are
fields alike: a setter is followed by a rendering before the next event, and what a handler keeps of
an earlier rendering (its `token`) is an argument.  What a number field of a monitor sample holds is
the number that is meant, without the rounding.

Between two `await`s a function runs alone.  A call that waits is an entry of `calls`, with the
access token it was made with, and `settle` is what happens from the end of the wait to the next
`await`, or to the end of the call and what its caller does after it.
-/

namespace ChannelWire
namespace Frontend

open Gateway (PyStr py)

/-! ## The state -/

/-- `kind` of a `ChatLine`. -/
inductive LineKind where
  | chat | dm | system | status | error
  deriving DecidableEq

/-- A displayed line.  Its `id` is left out. -/
structure ChatLine where
  kind : LineKind
  channel : Option PyStr
  sender : Option PyStr
  text : PyStr
  deriving DecidableEq

/-- The body of `/stats`. -/
structure PlatformStats where
  users : ℕ
  channels : ℕ
  memberships : ℕ
  messages : ℕ
  channelMessages : ℕ
  directMessages : ℕ
  deriving DecidableEq

/-- The body of `/core-stats`. -/
structure CoreStats where
  currentConnections : ℕ
  registeredClients : ℕ
  totalConnections : ℕ
  channels : ℕ
  channelMessages : ℕ
  directMessages : ℕ
  malformedFrames : ℕ
  queueDisconnects : ℕ
  maxQueueBytes : ℕ
  deriving DecidableEq

/-- An entry of the body of `/db/channels`. -/
structure PersistedChannel where
  name : PyStr
  createdAt : PyStr
  deriving DecidableEq

/-- An entry of the body of `/history/…`. -/
structure HistoryItem where
  sender : PyStr
  text : PyStr
  deriving DecidableEq

/-- A point of the monitoring curves. -/
structure MonitorSample where
  messages : ℕ
  queuePressure : ℚ
  malformedFrames : ℕ
  deriving DecidableEq

/-- `readyState` of a socket. -/
inductive ReadyState where
  | connecting | opened | closing | closed
  deriving DecidableEq

/-- The objects the modelled functions send. -/
inductive Command where
  | list | who | quit
  | join (channel : PyStr)
  deriving DecidableEq

/-- A `WebSocket`, opened with an access token. -/
structure Socket where
  token : PyStr
  readyState : ReadyState
  sent : List Command
  deriving DecidableEq

/-- Who called `refreshStats`. -/
inductive Caller where
  /-- `handleGatewayEvent`. -/
  | handler
  /-- The button. -/
  | button
  /-- `/stats`, in `handleSlashCommand`. -/
  | slash
  | createToken
  /-- `authenticate`, with the line it pushes in the end. -/
  | authenticate (line : PyStr)
  /-- The effect that restores a stored session. -/
  | restore
  deriving DecidableEq

/-- What `refreshStats` waits for; `platform` is `nextPlatformStats`. -/
inductive StatsWait where
  | stats
  | statsBody
  | coreStats (platform : Option PlatformStats)
  | coreStatsBody (platform : Option PlatformStats)
  | channels
  | channelsBody
  deriving DecidableEq

/-- What `loadHistory` and `loadDirectHistory` wait for. -/
inductive HistoryWait where
  | history | historyBody | historyError
  deriving DecidableEq

/-- A function that waits.  The lines of a history are of one kind, and those of `loadHistory` name
the channel. -/
inductive Waiting where
  | refreshStats (caller : Caller) (wait : StatsWait)
  | loadLines (kind : LineKind) (channel : Option PyStr) (wait : HistoryWait)
  deriving DecidableEq

/-- A call that waits, with its access token. -/
structure Call where
  token : PyStr
  waiting : Waiting
  deriving DecidableEq

/-- The state of the dashboard. -/
structure Dashboard where
  token : PyStr
  tokenRef : PyStr
  authenticatedUsername : PyStr
  /-- `window.localStorage`. -/
  storedSession : Option (PyStr × PyStr)
  username : PyStr
  password : PyStr
  message : PyStr
  dmTo : PyStr
  dmText : PyStr
  allowReconnectRef : Bool
  reconnectAttemptRef : ℕ
  reconnectTimerRef : Option ℕ
  /-- The timers that are set, with numbers below `nextTimer`. -/
  timers : List ℕ
  nextTimer : ℕ
  sockets : List Socket
  socketRef : Option ℕ
  connected : Bool
  activeChannel : PyStr
  activeChannelRef : PyStr
  messages : List ChatLine
  users : List PyStr
  usersLoaded : Bool
  channels : List PyStr
  channelsLoaded : Bool
  platformStats : Option PlatformStats
  coreStats : Option CoreStats
  monitorSamples : List MonitorSample
  persistedChannels : List PersistedChannel
  error : PyStr
  calls : List (Option Call)

/-- The first rendering, without a stored session. -/
def Dashboard.initial : Dashboard where
  token := []
  tokenRef := []
  authenticatedUsername := []
  storedSession := none
  username := py "alice"
  password := []
  message := []
  dmTo := []
  dmText := []
  allowReconnectRef := false
  reconnectAttemptRef := 0
  reconnectTimerRef := none
  timers := []
  nextTimer := 0
  sockets := []
  socketRef := none
  connected := false
  activeChannel := []
  activeChannelRef := []
  messages := []
  users := []
  usersLoaded := false
  channels := []
  channelsLoaded := false
  platformStats := none
  coreStats := none
  monitorSamples := []
  persistedChannels := []
  error := []
  calls := []

/-! ## Lines and samples -/

/-- `MESSAGE_LIMIT`. -/
def messageLimit : ℕ := 80

/-- `slice(-n)`. -/
def lastOf {α : Type*} (n : ℕ) (l : List α) : List α := l.drop (l.length - n)

namespace Dashboard

/-- `pushLine`. -/
def pushLine (d : Dashboard) (line : ChatLine) : Dashboard :=
  { d with messages := lastOf (messageLimit - 1) d.messages ++ [line] }

/-- `pushLine`, for a line of kind `status`. -/
def pushStatus (d : Dashboard) (text : PyStr) : Dashboard := d.pushLine ⟨.status, none, none, text⟩

/-- `replaceMessages`. -/
def replaceMessages (d : Dashboard) (nextMessages : List ChatLine) : Dashboard :=
  { d with messages := lastOf messageLimit nextMessages }

/-- `setError`. -/
def setError (d : Dashboard) (text : PyStr) : Dashboard := { d with error := text }

/-- `recordMonitorSample`. -/
def recordMonitorSample (d : Dashboard) (platform : PlatformStats) (core : CoreStats) : Dashboard :=
  let queuePressure : ℚ :=
    if 0 < core.totalConnections then
      min 100 ((core.queueDisconnects : ℚ) / core.totalConnections * 100)
    else 0
  { d with
    monitorSamples := lastOf 29 d.monitorSamples ++
      [⟨platform.messages, queuePressure, core.malformedFrames⟩] }

/-! ## The socket -/

/-- `readyState === WebSocket.OPEN`. -/
def isOpen (d : Dashboard) (socket : Option ℕ) : Bool :=
  (socket.bind (d.sockets[·]?)).any fun s => s.readyState = .opened

/-- `socket.send`. -/
def sendOn (d : Dashboard) (socket : Option ℕ) (command : Command) : Dashboard :=
  match socket with
  | none => d
  | some n =>
    { d with sockets := d.sockets.modify n fun s => { s with sent := s.sent ++ [command] } }

/-- `socket.close()`. -/
def close (d : Dashboard) (socket : Option ℕ) : Dashboard :=
  match socket with
  | none => d
  | some n =>
    { d with
      sockets := d.sockets.modify n fun s =>
        if s.readyState = .closed then s else { s with readyState := .closing } }

/-- `connect`. -/
def connect (d : Dashboard) (accessToken : PyStr) : Dashboard :=
  if accessToken = [] ∨ d.allowReconnectRef = false then d
  else if (d.socketRef.bind (d.sockets[·]?)).any
      (fun s => s.readyState = .opened || s.readyState = .connecting) then d
  else
    { d with
      sockets := d.sockets ++ [⟨accessToken, .connecting, []⟩]
      socketRef := some d.sockets.length }

/-- `ws.onopen`. -/
def onopen (d : Dashboard) (ws : ℕ) : Dashboard :=
  let d := { d with
    sockets := d.sockets.modify ws fun s => { s with readyState := .opened }
    reconnectAttemptRef := 0
    connected := true
    channelsLoaded := false }
  (d.sendOn (some ws) .list).pushStatus (py "Connected to ChannelWire.")

/-- `ws.onclose`; the delay of the timer is left out. -/
def onclose (d : Dashboard) (ws : ℕ) : Dashboard :=
  let d := { d with
    sockets := d.sockets.modify ws fun s => { s with readyState := .closed }
    socketRef := if d.socketRef = some ws then none else d.socketRef
    connected := false
    channelsLoaded := false
    usersLoaded := false }
  if d.allowReconnectRef = false ∨ d.tokenRef = [] then d
  else
    { d.pushStatus (py "Connection lost. Reconnecting…") with
      reconnectAttemptRef := d.reconnectAttemptRef + 1
      reconnectTimerRef := some d.nextTimer
      timers := d.timers ++ [d.nextTimer]
      nextTimer := d.nextTimer + 1 }

/-! ## Sessions -/

/-- `startSession`. -/
def startSession (d : Dashboard) (accessToken signedInUsername : PyStr) : Dashboard :=
  { d with
    tokenRef := accessToken
    allowReconnectRef := true
    reconnectAttemptRef := 0
    token := accessToken
    authenticatedUsername := signedInUsername
    storedSession := some (accessToken, signedInUsername)
    password := []
    error := [] }

/-- `logout`. -/
def logout (d : Dashboard) : Dashboard :=
  let d := { d with
    allowReconnectRef := false
    tokenRef := []
    activeChannelRef := []
    storedSession := none
    timers := d.timers.filter fun timer => some timer ≠ d.reconnectTimerRef
    reconnectTimerRef := none }
  let d := if d.isOpen d.socketRef then d.sendOn d.socketRef .quit else d
  { d.close d.socketRef with
    socketRef := none
    token := []
    authenticatedUsername := []
    username := []
    connected := false
    password := []
    activeChannel := []
    message := []
    dmTo := []
    dmText := []
    messages := []
    users := []
    usersLoaded := false
    channels := []
    channelsLoaded := false
    platformStats := none
    coreStats := none
    monitorSamples := []
    persistedChannels := []
    error := [] }

/-! ## Calls -/

/-- The call `n` goes on to wait. -/
def await (d : Dashboard) (n : ℕ) (call : Call) : Dashboard :=
  { d with calls := d.calls.set n (some call) }

/-- The call waits for the first time. -/
def begin (d : Dashboard) (call : Call) : Dashboard := { d with calls := d.calls ++ [some call] }

/-- What the caller of `refreshStats` does when it returns, or throws. -/
def returned (d : Dashboard) (accessToken : PyStr) : Caller → Except PyStr Bool → Dashboard
  | .handler, _ => d
  | .button, .ok _ => d
  | .button, .error message => d.setError message
  | .slash, .ok _ => d.pushStatus (py "Monitoring updated.")
  | .slash, .error _ => d
  | .createToken, _ => if d.tokenRef = accessToken then d.connect accessToken else d
  | .authenticate line, _ =>
    (if d.tokenRef = accessToken then d.connect accessToken else d).pushStatus line
  | .restore, .ok true => if d.tokenRef = accessToken then d.connect accessToken else d
  | .restore, _ => d

/-- `refreshStats`, to its first `await`. -/
def refreshStats (d : Dashboard) (accessToken : PyStr) (caller : Caller) : Dashboard :=
  if accessToken = [] then d.returned accessToken caller (.ok false)
  else d.begin ⟨accessToken, .refreshStats caller .stats⟩

/-- `loadHistory`, to its first `await`. -/
def loadHistory (d : Dashboard) (token channel : PyStr) : Dashboard :=
  if token = [] then d.setError (py "Sign in before loading channel history.")
  else d.begin ⟨token, .loadLines .chat (some channel) .history⟩

/-- `loadDirectHistory`, to its first `await`. -/
def loadDirectHistory (d : Dashboard) (token dmTo : PyStr) : Dashboard :=
  if token = [] ∨ dmTo = [] then
    d.setError (py "Enter a username to load direct message history.")
  else d.begin ⟨token, .loadLines .dm none .history⟩

end Dashboard

/-! ## Messages of the gateway -/

/-- The type `GatewayEvent`. -/
inductive GatewayEvent where
  | ready (username : PyStr)
  | ok (message : PyStr)
  | error (message : PyStr)
  | system (message : PyStr)
  | chat (channel sender text : PyStr)
  | dm (sender text : PyStr)
  | who (users : List PyStr)
  | channels (channels : List PyStr)
  /-- An object of another `type`: `core_stats` or `raw`. -/
  | other

/-- The texts that `friendlyGatewayError` replaces, each with its replacement. -/
def friendlyGatewayErrors : List (String × String) :=
  [("user not found", "User not found. Check the username and try again."),
    ("invalid direct message",
      "Couldn’t send the direct message. Check the username and message, then try again."),
    ("dm requires to and text",
      "Couldn’t send the direct message. Check the username and message, then try again."),
    ("join a channel before sending", "Join a channel before sending a message."),
    ("join a channel before listing participants", "Join a channel to view participants."),
    ("message payload too large", "Message is too long. Shorten it and try again."),
    ("invalid username",
      "Enter a valid username using letters, numbers, periods, underscores, or hyphens."),
    ("username already in use", "That username is already in use."),
    ("invalid channel", "Enter a valid channel name."),
    ("too many channels", "Can’t create another channel. The channel limit has been reached."),
    ("join channel before switching", "Join a channel before switching channels."),
    ("not in channel", "You’re not in that channel."),
    ("WHO response too large", "Too many participants to display."),
    ("LIST response too large", "Too many channels to display."),
    ("stats response too large", "Monitoring data is too large to display."),
    ("send HELLO first", "Connection isn’t ready. Try again."),
    ("invalid message", "Couldn’t send the message. Check it and try again."),
    ("unknown message type", "This command isn’t supported."),
    ("malformed frame", "Received an invalid response. Try again.")]

/-- `friendlyGatewayError`. -/
def friendlyGatewayError (message : PyStr) : PyStr :=
  ((friendlyGatewayErrors.find? fun entry => message = py entry.1).map fun entry =>
    py entry.2).getD message

/-- A code point that `.` does not match. -/
def isLineTerminator (c : Utf8.CodePoint) : Bool :=
  c.val == 0xA || c.val == 0xD || c.val == 0x2028 || c.val == 0x2029

/-- `/^(joined|switched) (.+)$/`, with the part behind the word. -/
def channelEvent (word message : PyStr) : Option PyStr :=
  let channel := message.drop word.length
  if word.isPrefixOf message ∧ channel ≠ [] ∧ channel.all (fun c => !isLineTerminator c) = true then
    some channel
  else none

/-- `friendlyGatewayMessage`. -/
def friendlyGatewayMessage (message : PyStr) : PyStr :=
  match channelEvent (py "joined ") message with
  | some channel => py "Joined #" ++ channel ++ py "."
  | none =>
    match channelEvent (py "switched ") message with
    | some channel => py "Switched to #" ++ channel ++ py "."
    | none =>
      if message = py "left channel" then py "Left the channel."
      else if message = py "direct message sent" then py "Direct message sent."
      else message

/-- `/^(joined|switched) /.test(message)`. -/
def isChannelMessage (message : PyStr) : Bool :=
  (py "joined ").isPrefixOf message || (py "switched ").isPrefixOf message

namespace Dashboard

/-- `send`, with what it returns. -/
def send (d : Dashboard) (command : Command) : Dashboard × Bool :=
  if d.isOpen d.socketRef = false then
    (d.setError (py "Connection unavailable. Reconnecting…"), false)
  else (d.sendOn d.socketRef command, true)

/-- `requestUsers`. -/
def requestUsers (d : Dashboard) : Dashboard :=
  match d.send .who with
  | (d, true) => { d with usersLoaded := false }
  | (d, false) => d

/-- The branch of `handleGatewayEvent` for `system` and `ok`; `isOk` is `event.type === "ok"`. -/
def handleText (d : Dashboard) (isOk : Bool) (message : PyStr) : Dashboard :=
  let d := d.pushLine ⟨.system, none, none, friendlyGatewayMessage message⟩
  if isOk && isChannelMessage message then
    let nextActiveChannel := message.drop (message.idxOf 0x20 + 1)
    ({ d with
      activeChannelRef := nextActiveChannel
      activeChannel := nextActiveChannel
      users := [] }).requestUsers
  else if isOk && message = py "left channel" then
    { d with activeChannelRef := [], activeChannel := [], users := [], usersLoaded := false }
  else d

/-- `handleGatewayEvent`, for a message on `sourceSocket`; `token` is the one of the rendering in
which the socket was opened. -/
def handleGatewayEvent (d : Dashboard) (token : PyStr) (sourceSocket : Option ℕ)
    (event : GatewayEvent) : Dashboard :=
  let d := match event with
    | .ready username =>
      let d := d.pushStatus (py "Ready as " ++ username ++ py ".")
      if d.activeChannelRef ≠ [] ∧ d.isOpen sourceSocket = true then
        d.sendOn sourceSocket (.join d.activeChannelRef)
      else d
    | .chat channel sender text => d.pushLine ⟨.chat, some channel, some sender, text⟩
    | .dm sender text => d.pushLine ⟨.dm, none, some sender, text⟩
    | .system message => d.handleText false message
    | .ok message => d.handleText true message
    | .error message =>
      let message := friendlyGatewayError message
      (d.pushLine ⟨.error, none, none, message⟩).setError message
    | .who users => { d with users := users, usersLoaded := true }
    | .channels channels => { d with channels := channels, channelsLoaded := true }
    | .other => d
  d.refreshStats token .handler

end Dashboard

end Frontend
end ChannelWire
