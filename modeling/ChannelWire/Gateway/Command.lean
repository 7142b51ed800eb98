import ChannelWire.Foundation.JsonText
import ChannelWire.Gateway.Client

/-!
# The commands of a session

`core_payload_for_command` of `gateway/app/main.py`: from a JSON object that a browser sent to
the frame the core gets, or the `ValueError` the browser is told.

`commandStrings` lists the strings a command carries; `corePayloadForCommand_ok` says that an
accepted command is packed from exactly these, after the checks of its kind.
-/

namespace ChannelWire
namespace Gateway

/-- What `json.loads` returns. -/
abbrev Json := JsonText.Json

/-- A JSON object. -/
abbrev Dict := List (PyStr × Json)

/-- `message.get(key)`. -/
def Dict.get (message : Dict) (key : String) : Option Json := List.lookup (py key) message

/-- `message.get(key)`, if it is a `str`. -/
def Dict.getStr (message : Dict) (key : String) : Option PyStr :=
  match message.get key with
  | some (.string s) => some s
  | _ => none

/-- `CLIENT_COMMANDS`. -/
def clientCommands : List (PyStr × ClientMsgType) :=
  [(py "join", .join), (py "switch", .switch), (py "leave", .leave), (py "say", .say),
    (py "dm", .dm), (py "who", .who), (py "list", .list), (py "nick", .nick), (py "quit", .quit),
    (py "stats", .stats)]

/-- The entry of `CLIENT_COMMANDS` under `str(message.get("type", "")).lower()`.  A `type` that
is no string has none: `str` makes `None`, `True`, `False` or a numeral of it, or a text in
brackets. -/
def clientCommand (message : Dict) : Option ClientMsgType :=
  match message.getStr "type" with
  | some command => clientCommands.lookup (lower command)
  | none => none

/-- The end of every branch that has strings to send. -/
def packed (msgType : ClientMsgType) (values : List PyStr) :
    Except ValueError (ClientMsgType × Bytes) :=
  match stringPayload values with
  | .error e => .error e
  | .ok payload => .ok (msgType, payload)

/-- The branches of one string: a nonempty one, or the error text. -/
def packedOne (msgType : ClientMsgType) (value : Option PyStr) (missing : String) :
    Except ValueError (ClientMsgType × Bytes) :=
  match value.filter (· ≠ []) with
  | none => .error (.text missing)
  | some value => packed msgType [value]

/-- `core_payload_for_command`. -/
def corePayloadForCommand (message : Dict) : Except ValueError (ClientMsgType × Bytes) :=
  match clientCommand message with
  | none => .error (.text "unknown command")
  | some msgType =>
    match msgType with
    | .who | .list | .quit | .stats => .ok (msgType, [])
    | .join | .switch | .leave => packedOne msgType (message.getStr "channel") "command requires channel"
    | .say => packedOne msgType (message.getStr "text") "say requires text"
    | .nick => packedOne msgType (message.getStr "username") "nick requires username"
    | .dm =>
      match (message.getStr "to").filter (dmTarget ·) with
      | none => .error (.text "User not found. Check the username and try again.")
      | some target =>
        match (message.getStr "text").filter (strip · ≠ []) with
        | none => .error (.text "Enter a message.")
        | some text => packed msgType [target, text]
    | .hello => .error (.text "unsupported command")

/-- The strings a command carries. -/
def commandStrings (message : Dict) : ClientMsgType → List PyStr
  | .join | .switch | .leave => (message.getStr "channel").toList
  | .say => (message.getStr "text").toList
  | .nick => (message.getStr "username").toList
  | .dm => (message.getStr "to").toList ++ (message.getStr "text").toList
  | .who | .list | .quit | .stats | .hello => []

/-- What the checks of a kind of command demand of its strings. -/
def ChecksPassed : ClientMsgType → List PyStr → Prop
  | .join, values | .switch, values | .leave, values | .say, values | .nick, values =>
    ∃ value, values = [value] ∧ value ≠ []
  | .dm, values => ∃ target text, values = [target, text] ∧ dmTarget target = true ∧
    strip text ≠ []
  | .who, values | .list, values | .quit, values | .stats, values => values = []
  | .hello, _ => False

theorem packed_ok {msgType t : ClientMsgType} {values : List PyStr} {payload : Bytes}
    (h : packed msgType values = .ok (t, payload)) :
    t = msgType ∧ stringPayload values = .ok payload := by
  unfold packed at h
  cases hp : stringPayload values with
  | error e => simp [hp] at h
  | ok p =>
    simp only [hp] at h
    obtain ⟨rfl, rfl⟩ := Prod.mk.inj (Except.ok.inj h)
    exact ⟨rfl, rfl⟩

theorem packedOne_ok {msgType t : ClientMsgType} {value : Option PyStr} {missing : String}
    {payload : Bytes} (h : packedOne msgType value missing = .ok (t, payload)) :
    t = msgType ∧ (∃ v, value.toList = [v] ∧ v ≠ []) ∧ stringPayload value.toList = .ok payload := by
  unfold packedOne at h
  cases hv : value.filter (· ≠ []) with
  | none =>
    rw [hv] at h
    cases h
  | some v =>
    rw [hv] at h
    obtain ⟨rfl, hne⟩ := Option.filter_eq_some_iff.mp hv
    obtain ⟨rfl, hp⟩ := packed_ok h
    exact ⟨rfl, ⟨v, rfl, by simpa using hne⟩, hp⟩

/-- **What `core_payload_for_command` accepts**: a known command whose strings passed the checks
of its kind, packed one after the other. -/
theorem corePayloadForCommand_ok {message : Dict} {msgType : ClientMsgType} {payload : Bytes}
    (h : corePayloadForCommand message = .ok (msgType, payload)) :
    clientCommand message = some msgType ∧
      ChecksPassed msgType (commandStrings message msgType) ∧
      stringPayload (commandStrings message msgType) = .ok payload := by
  unfold corePayloadForCommand at h
  cases hc : clientCommand message with
  | none => simp [hc] at h
  | some t =>
    simp only [hc] at h
    cases t with
    | hello => cases h
    | who | list | quit | stats =>
      obtain ⟨rfl, rfl⟩ := Prod.mk.inj (Except.ok.inj h)
      exact ⟨rfl, rfl, rfl⟩
    | join | switch | leave | say | nick =>
      obtain ⟨rfl, hchecks, hp⟩ := packedOne_ok h
      exact ⟨rfl, hchecks, hp⟩
    | dm =>
      simp only at h
      cases ht : (message.getStr "to").filter (dmTarget ·) with
      | none =>
        rw [ht] at h
        cases h
      | some target =>
        rw [ht] at h
        simp only at h
        cases htext : (message.getStr "text").filter (strip · ≠ []) with
        | none =>
          rw [htext] at h
          cases h
        | some text =>
          rw [htext] at h
          obtain ⟨hto, hname⟩ := Option.filter_eq_some_iff.mp ht
          obtain ⟨htx, hstrip⟩ := Option.filter_eq_some_iff.mp htext
          obtain ⟨rfl, hp⟩ := packed_ok h
          have hstrings : commandStrings message .dm = [target, text] := by
            rw [commandStrings, hto, htx]
            rfl
          rw [hstrings]
          exact ⟨rfl, ⟨target, text, rfl, hname, by simpa using hstrip⟩, hp⟩

/-- What `core_send` writes for a message. -/
def forward (message : Dict) : Except ValueError Bytes :=
  match corePayloadForCommand message with
  | .error e => .error e
  | .ok (msgType, payload) => encodeFrame msgType.toByte payload

theorem forward_ok {message : Dict} {bytes : Bytes} (h : forward message = .ok bytes) :
    ∃ msgType payload, corePayloadForCommand message = .ok (msgType, payload) ∧
      bytes = (⟨msgType.toByte, payload⟩ : Frame).encode := by
  unfold forward at h
  cases hm : corePayloadForCommand message with
  | error e => simp [hm] at h
  | ok r =>
    obtain ⟨msgType, payload⟩ := r
    simp only [hm] at h
    exact ⟨msgType, payload, rfl, encodeFrame_ok h⟩

end Gateway
end ChannelWire
