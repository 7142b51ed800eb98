import ChannelWire.Core.Refusals
import ChannelWire.Frontend.ActiveChannelRef
import ChannelWire.Frontend.Forms
import ChannelWire.Frontend.Requests
import ChannelWire.Gateway.Shown

/-!
# What the screen shows

`pushLine` keeps the last `MESSAGE_LIMIT` lines and `recordMonitorSample` the last thirty samples,
and the session is in five places: two refs, two states and the storage of the browser.
`DashboardOk` says what every run keeps of this, and which lines are on the screen: those of a
history and those of the messages since then.

With `Gateway.exists_texts` the conversation on the screen is a part of the log of the core
(`screens_show_one_log`), and with `Core.mem_reasons` the errors of the core are shown in the
sentences of the dashboard (`errors_are_friendly`).
-/

namespace ChannelWire
namespace Frontend

open Gateway (PyStr py ValueError Session State Shown)
open Transition (Reachable System)

/-! ## The last entries of a list -/

section Window

variable {α : Type*} {m n : ℕ} {l r : List α}

theorem length_lastOf_le (n : ℕ) (l : List α) : (lastOf n l).length ≤ n := by
  rw [lastOf, List.length_drop]
  omega

theorem lastOf_suffix (n : ℕ) (l : List α) : lastOf n l <:+ l := List.drop_suffix ..

theorem lastOf_of_length_le (h : l.length ≤ n) : lastOf n l = l := by
  rw [lastOf, Nat.sub_eq_zero_of_le h]
  rfl

/-- A window is moved by one entry. -/
theorem lastOf_concat (n : ℕ) (l : List α) (a : α) :
    lastOf n l ++ [a] = lastOf (n + 1) (l ++ [a]) := by
  rw [lastOf, lastOf, List.length_append, List.length_singleton, Nat.add_sub_add_right,
    List.drop_append_of_le_length (Nat.sub_le ..)]

theorem lastOf_append_left (h : n ≤ r.length) : lastOf n (l ++ r) = lastOf n r := by
  rw [lastOf, lastOf, List.length_append, Nat.add_sub_assoc h, List.drop_length_add_append]

/-- Windows that follow on each other are one window. -/
theorem lastOf_lastOf_append (n : ℕ) (l r : List α) :
    lastOf n (lastOf n l ++ r) = lastOf n (l ++ r) := by
  obtain ⟨p, hp⟩ := lastOf_suffix n l
  by_cases hn : n ≤ l.length
  · have hlen : n ≤ (lastOf n l ++ r).length := by
      rw [List.length_append, lastOf, List.length_drop]
      omega
    conv_rhs => rw [← hp, List.append_assoc]
    exact (lastOf_append_left hlen).symm
  · rw [lastOf_of_length_le (l := l) (by omega)]

end Window

/-! ## Lines -/

/-- The line that a message of the gateway adds. -/
def lineOf : GatewayEvent → Option ChatLine
  | .ready username => some ⟨.status, none, none, py "Ready as " ++ username ++ py "."⟩
  | .chat channel sender text => some ⟨.chat, some channel, some sender, text⟩
  | .dm sender text => some ⟨.dm, none, some sender, text⟩
  | .system message | .ok message => some ⟨.system, none, none, friendlyGatewayMessage message⟩
  | .error message => some ⟨.error, none, none, friendlyGatewayError message⟩
  | .who _ | .channels _ | .other => none

/-! ## Every run of the dashboard -/

/-- The session, as `token`, `tokenRef`, `authenticatedUsername`, `allowReconnectRef` and the
storage have it. -/
structure Dashboard.SessionIs (d : Dashboard) (session : Option (PyStr × PyStr)) : Prop where
  storedSession : d.storedSession = session
  token : d.token = (session.map Prod.fst).getD []
  tokenRef : d.tokenRef = (session.map Prod.fst).getD []
  authenticatedUsername : d.authenticatedUsername = (session.map Prod.snd).getD []
  allowReconnectRef : d.allowReconnectRef = session.isSome

/-- The line is what somebody said. -/
def ChatLine.isSaid (line : ChatLine) : Bool := line.kind = .chat || line.kind = .dm

/-- The lines of a history, or none. -/
def IsHistory (base : List ChatLine) : Prop :=
  ∃ (kind : LineKind) (channel : Option PyStr) (body : List HistoryItem),
    base = body.map (historyLine kind channel)

/-- The copies of the session agree, and there are not too many samples.  The lines are the last
ones of a history and the lines since then, of which those that somebody said are the end of
`told`. -/
structure DashboardOk (told : List ChatLine) (d : Dashboard) : Prop where
  session : ∃ session, d.SessionIs session
  lines : ∃ base lines, IsHistory base ∧ d.messages = lastOf messageLimit (base ++ lines) ∧
    lines.filter ChatLine.isSaid <:+ told
  monitorSamples : d.monitorSamples.length ≤ 30
  queuePressure : ∀ sample ∈ d.monitorSamples, 0 ≤ sample.queuePressure ∧ sample.queuePressure ≤ 100

variable {told told' : List ChatLine} {d d' : Dashboard} {n : ℕ} {accessToken : PyStr}
  {caller : Caller} {reply : Reply}

/-- What the invariant speaks of, but for the lines. -/
structure SameSession (d d' : Dashboard) : Prop where
  storedSession : d'.storedSession = d.storedSession
  token : d'.token = d.token
  tokenRef : d'.tokenRef = d.tokenRef
  authenticatedUsername : d'.authenticatedUsername = d.authenticatedUsername
  allowReconnectRef : d'.allowReconnectRef = d.allowReconnectRef
  monitorSamples : d'.monitorSamples = d.monitorSamples

theorem DashboardOk.of_lines (hd : DashboardOk told d) (h : SameSession d d')
    (hlines : ∃ base lines, IsHistory base ∧ d'.messages = lastOf messageLimit (base ++ lines) ∧
      lines.filter ChatLine.isSaid <:+ told') : DashboardOk told' d' := by
  obtain ⟨session, hs⟩ := hd.session
  refine ⟨⟨session, ?_, ?_, ?_, ?_, ?_⟩, hlines, ?_, ?_⟩
  · rw [h.storedSession, hs.storedSession]
  · rw [h.token, hs.token]
  · rw [h.tokenRef, hs.tokenRef]
  · rw [h.authenticatedUsername, hs.authenticatedUsername]
  · rw [h.allowReconnectRef, hs.allowReconnectRef]
  · rw [h.monitorSamples]
    exact hd.monitorSamples
  · rw [h.monitorSamples]
    exact hd.queuePressure

theorem DashboardOk.of_eq (hd : DashboardOk told d) (h : SameSession d d')
    (hmessages : d'.messages = d.messages) : DashboardOk told d' :=
  hd.of_lines h (hmessages ▸ hd.lines)

namespace DashboardOk

theorem length_messages (hd : DashboardOk told d) : d.messages.length ≤ messageLimit := by
  obtain ⟨base, lines, -, hmessages, -⟩ := hd.lines
  rw [hmessages]
  exact length_lastOf_le ..

theorem pushLine (hd : DashboardOk told d) (line : ChatLine) :
    DashboardOk (told ++ [line].filter ChatLine.isSaid) (d.pushLine line) := by
  obtain ⟨base, lines, hbase, hmessages, hsaid⟩ := hd.lines
  refine hd.of_lines ⟨rfl, rfl, rfl, rfl, rfl, rfl⟩ ⟨base, lines ++ [line], hbase, ?_, ?_⟩
  · show lastOf (messageLimit - 1) d.messages ++ [line] = _
    rw [lastOf_concat, hmessages, ← List.append_assoc]
    exact lastOf_lastOf_append ..
  · rw [List.filter_append]
    exact List.suffix_append_self_iff.mpr hsaid

/-- A line that nobody said. -/
theorem pushNotice (hd : DashboardOk told d) {line : ChatLine} (hline : line.isSaid = false) :
    DashboardOk told (d.pushLine line) := by
  have hpushed := hd.pushLine line
  rwa [List.filter_cons_of_neg (by rw [hline]; exact Bool.false_ne_true), List.filter_nil,
    List.append_nil] at hpushed

theorem replaceMessages (hd : DashboardOk told d) (kind : LineKind) (channel : Option PyStr)
    (body : List HistoryItem) :
    DashboardOk told (d.replaceMessages (body.map (historyLine kind channel))) :=
  hd.of_lines ⟨rfl, rfl, rfl, rfl, rfl, rfl⟩ ⟨body.map (historyLine kind channel), [],
    ⟨kind, channel, body, rfl⟩, by rw [List.append_nil]; rfl, List.nil_suffix⟩

theorem setError (hd : DashboardOk told d) (text : PyStr) : DashboardOk told (d.setError text) :=
  hd.of_eq ⟨rfl, rfl, rfl, rfl, rfl, rfl⟩ rfl

theorem recordMonitorSample (hd : DashboardOk told d) (platform : PlatformStats)
    (core : CoreStats) : DashboardOk told (d.recordMonitorSample platform core) := by
  obtain ⟨session, hs⟩ := hd.session
  refine ⟨⟨session, hs.storedSession, hs.token, hs.tokenRef, hs.authenticatedUsername,
    hs.allowReconnectRef⟩, hd.lines, ?_, ?_⟩
  · show (lastOf 29 d.monitorSamples ++ [_]).length ≤ _
    rw [lastOf_concat]
    exact length_lastOf_le ..
  · intro sample hsample
    rcases List.mem_append.mp hsample with hold | hnew
    · exact hd.queuePressure sample ((lastOf_suffix ..).subset hold)
    · rw [List.mem_singleton.mp hnew]
      simp only
      split_ifs
      · refine ⟨le_min (by decide) ?_, min_le_left ..⟩
        exact mul_nonneg (div_nonneg (Nat.cast_nonneg _) (Nat.cast_nonneg _)) (by decide)
      · exact ⟨le_rfl, by decide⟩

theorem sendOn (hd : DashboardOk told d) (socket : Option ℕ) (command : Command) :
    DashboardOk told (d.sendOn socket command) := by
  cases socket with
  | none => exact hd
  | some n => exact hd.of_eq ⟨rfl, rfl, rfl, rfl, rfl, rfl⟩ rfl

theorem close (hd : DashboardOk told d) (socket : Option ℕ) :
    DashboardOk told (d.close socket) := by
  cases socket with
  | none => exact hd
  | some n => exact hd.of_eq ⟨rfl, rfl, rfl, rfl, rfl, rfl⟩ rfl

theorem connect (hd : DashboardOk told d) (accessToken : PyStr) :
    DashboardOk told (d.connect accessToken) := by
  unfold Dashboard.connect
  split_ifs
  · exact hd
  · exact hd
  · exact hd.of_eq ⟨rfl, rfl, rfl, rfl, rfl, rfl⟩ rfl

theorem onopen (hd : DashboardOk told d) (ws : ℕ) : DashboardOk told (d.onopen ws) := by
  refine .pushNotice (.sendOn ?_ _ _) rfl
  exact hd.of_eq ⟨rfl, rfl, rfl, rfl, rfl, rfl⟩ rfl

theorem onclose (hd : DashboardOk told d) (ws : ℕ) : DashboardOk told (d.onclose ws) := by
  have hclosed : DashboardOk told { d with
      sockets := d.sockets.modify ws fun s => { s with readyState := .closed }
      socketRef := if d.socketRef = some ws then none else d.socketRef
      connected := false
      channelsLoaded := false
      usersLoaded := false } := hd.of_eq ⟨rfl, rfl, rfl, rfl, rfl, rfl⟩ rfl
  unfold Dashboard.onclose
  by_cases hsilent : d.allowReconnectRef = false ∨ d.tokenRef = []
  · simp only [if_pos hsilent]
    exact hclosed
  · simp only [if_neg hsilent]
    have hpushed := hclosed.pushNotice
      (show (ChatLine.mk .status none none (py "Connection lost. Reconnecting…")).isSaid = false
        from rfl)
    exact hpushed.of_eq ⟨rfl, rfl, rfl, rfl, rfl, rfl⟩ rfl

theorem startSession (hd : DashboardOk told d) (accessToken username : PyStr) :
    DashboardOk told (d.startSession accessToken username) := by
  exact ⟨⟨some (accessToken, username), rfl, rfl, rfl, rfl, rfl⟩, hd.lines, hd.monitorSamples,
    hd.queuePressure⟩

end DashboardOk

/-- `logout` leaves nothing of the session. -/
theorem dashboardOk_logout (told : List ChatLine) (d : Dashboard) : DashboardOk told d.logout := by
  have hclose : ∀ (d : Dashboard) (socket : Option ℕ), (d.close socket).tokenRef = d.tokenRef ∧
      (d.close socket).storedSession = d.storedSession ∧
      (d.close socket).allowReconnectRef = d.allowReconnectRef := by
    intro d socket
    cases socket <;> exact ⟨rfl, rfl, rfl⟩
  have hsend : ∀ (d : Dashboard) (socket : Option ℕ),
      (d.sendOn socket .quit).tokenRef = d.tokenRef ∧
      (d.sendOn socket .quit).storedSession = d.storedSession ∧
      (d.sendOn socket .quit).allowReconnectRef = d.allowReconnectRef := by
    intro d socket
    cases socket <;> exact ⟨rfl, rfl, rfl⟩
  refine ⟨⟨none, ?_, rfl, ?_, rfl, ?_⟩, ⟨[], [], ⟨.chat, none, [], rfl⟩, rfl, List.nil_suffix⟩,
    Nat.zero_le _, fun _ h => by cases h⟩ <;>
    unfold Dashboard.logout <;> simp only <;> split_ifs <;> simp [hclose, hsend]

theorem DashboardOk.returned (hd : DashboardOk told d) (accessToken : PyStr) (caller : Caller)
    (outcome : Except PyStr Bool) : DashboardOk told (d.returned accessToken caller outcome) := by
  have hconnect : DashboardOk told
      (if d.tokenRef = accessToken then d.connect accessToken else d) := by
    split_ifs
    · exact hd.connect accessToken
    · exact hd
  cases caller with
  | handler => exact hd
  | button =>
    cases outcome with
    | error message => exact hd.setError message
    | ok _ => exact hd
  | slash =>
    cases outcome with
    | error message => exact hd
    | ok _ => exact hd.pushNotice rfl
  | createToken => exact hconnect
  | authenticate line => exact hconnect.pushNotice rfl
  | restore =>
    rcases outcome with _ | _ | _
    · exact hd
    · exact hd
    · exact hconnect

theorem DashboardOk.resumeStats (hd : DashboardOk told d) {wait : StatsWait}
    (h : d.resumeStats n accessToken caller wait reply = some d') : DashboardOk told d' := by
  have hreturned : ∀ {u : Dashboard} {outcome : Except PyStr Bool},
      some (u.returned accessToken caller outcome) = some d' → DashboardOk told u →
        DashboardOk told d' := by
    intro u outcome heq hu
    rw [← Option.some.inj heq]
    exact hu.returned accessToken caller outcome
  have hawait : ∀ {u : Dashboard} {call : Call}, some (u.await n call) = some d' →
      DashboardOk told u → DashboardOk told d' := by
    intro u call heq hu
    rw [← Option.some.inj heq]
    exact hu.of_eq ⟨rfl, rfl, rfl, rfl, rfl, rfl⟩ rfl
  cases reply with
  | rejected message => cases wait <;> exact hreturned h hd
  | response status =>
    cases wait with
    | stats =>
      simp only [Dashboard.resumeStats] at h
      split_ifs at h
      · exact hreturned h (dashboardOk_logout told d)
      · exact hreturned h hd
      · exact hawait h hd
    | coreStats platform =>
      simp only [Dashboard.resumeStats] at h
      split_ifs at h <;> exact hawait h hd
    | channels =>
      simp only [Dashboard.resumeStats] at h
      split_ifs at h
      · exact hreturned h hd
      · exact hawait h hd
    | statsBody | coreStatsBody _ | channelsBody => cases h
  | platformStats body =>
    cases wait with
    | statsBody =>
      rw [Dashboard.resumeStats] at h
      split_ifs at h
      · exact hreturned h hd
      · exact hawait h (hd.of_eq ⟨rfl, rfl, rfl, rfl, rfl, rfl⟩ rfl)
    | _ => cases h
  | coreStats body =>
    cases wait with
    | coreStatsBody platform =>
      have hstored : DashboardOk told { d with coreStats := body } :=
        hd.of_eq ⟨rfl, rfl, rfl, rfl, rfl, rfl⟩ rfl
      rw [Dashboard.resumeStats] at h
      split_ifs at h
      · exact hreturned h hd
      · refine hawait h ?_
        cases platform with
        | none => exact hstored
        | some platform =>
          cases body with
          | none => exact hstored
          | some core => exact hstored.recordMonitorSample platform core
    | _ => cases h
  | channels body =>
    cases wait with
    | channelsBody =>
      change (if d.tokenRef ≠ accessToken then _ else _) = _ at h
      split_ifs at h
      · exact hreturned h hd
      · cases body with
        | error message => exact hreturned h hd
        | ok channels =>
          exact hreturned h (hd.of_eq ⟨rfl, rfl, rfl, rfl, rfl, rfl⟩ rfl)
    | _ => cases h
  | history _ | errorBody _ => cases wait <;> cases h

theorem DashboardOk.settle (hd : DashboardOk told d) (h : d.settle n reply = some d') :
    DashboardOk told d' := by
  obtain ⟨call, hcall, h⟩ := Option.bind_eq_some_iff.mp h
  have hforget : DashboardOk told { d with calls := d.calls.set n none } :=
    hd.of_eq ⟨rfl, rfl, rfl, rfl, rfl, rfl⟩ rfl
  simp only at h
  cases hwaiting : call.waiting with
  | refreshStats caller wait =>
    rw [hwaiting] at h
    exact hforget.resumeStats h
  | loadLines kind channel wait =>
    rw [hwaiting] at h
    rcases resumeLines_cases h with ⟨body, -, -, rfl⟩ | ⟨-, hd'⟩
    · exact hforget.replaceMessages ..
    · rw [hd']
      exact hforget.of_eq ⟨rfl, rfl, rfl, rfl, rfl, rfl⟩ rfl

theorem DashboardOk.refreshStats (hd : DashboardOk told d) (accessToken : PyStr) (caller : Caller) :
    DashboardOk told (d.refreshStats accessToken caller) := by
  unfold Dashboard.refreshStats
  split_ifs
  · exact hd.returned ..
  · exact hd.of_eq ⟨rfl, rfl, rfl, rfl, rfl, rfl⟩ rfl

theorem DashboardOk.loadHistory (hd : DashboardOk told d) (token channel : PyStr) :
    DashboardOk told (d.loadHistory token channel) := by
  unfold Dashboard.loadHistory
  split_ifs
  · exact hd.setError _
  · exact hd.of_eq ⟨rfl, rfl, rfl, rfl, rfl, rfl⟩ rfl

theorem DashboardOk.send (hd : DashboardOk told d) (command : Command) :
    DashboardOk told (d.send command).1 := by
  unfold Dashboard.send
  split_ifs
  · exact hd.setError _
  · exact hd.sendOn ..

theorem DashboardOk.requestUsers (hd : DashboardOk told d) : DashboardOk told d.requestUsers := by
  have hsend := hd.send .who
  unfold Dashboard.requestUsers
  split <;> next heq => rw [heq] at hsend; exact hsend.of_eq ⟨rfl, rfl, rfl, rfl, rfl, rfl⟩ rfl

theorem DashboardOk.handleText (hd : DashboardOk told d) (isOk : Bool) (message : PyStr) :
    DashboardOk told (d.handleText isOk message) := by
  have hpushed := hd.pushNotice (show (ChatLine.mk .system none none
    (friendlyGatewayMessage message)).isSaid = false from rfl)
  unfold Dashboard.handleText
  simp only
  split_ifs
  · exact DashboardOk.requestUsers (hpushed.of_eq ⟨rfl, rfl, rfl, rfl, rfl, rfl⟩ rfl)
  · exact hpushed.of_eq ⟨rfl, rfl, rfl, rfl, rfl, rfl⟩ rfl
  · exact hpushed

/-- What somebody said, in the line of a message. -/
def saidIn (event : GatewayEvent) : List ChatLine := (lineOf event).toList.filter ChatLine.isSaid

theorem DashboardOk.handleGatewayEvent (hd : DashboardOk told d) (token : PyStr)
    (sourceSocket : Option ℕ) (event : GatewayEvent) :
    DashboardOk (told ++ saidIn event) (d.handleGatewayEvent token sourceSocket event) := by
  have hnothing : DashboardOk (told ++ []) d := by rwa [List.append_nil]
  refine DashboardOk.refreshStats ?_ token .handler
  cases event with
  | ready username =>
    simp only
    split_ifs
    · exact (hnothing.pushNotice rfl).sendOn ..
    · exact hnothing.pushNotice rfl
  | system message => exact hnothing.handleText false message
  | ok message => exact hnothing.handleText true message
  | chat | dm => exact hd.pushLine _
  | error message => exact (hnothing.pushNotice rfl).setError _
  | who | channels => exact hnothing.of_eq ⟨rfl, rfl, rfl, rfl, rfl, rfl⟩ rfl
  | other => exact hnothing

/-- What an event reads from a socket. -/
def messageOf : Event → Option GatewayEvent
  | .message _ _ event => some event
  | _ => none

/-- **Every event keeps the invariant.** -/
theorem DashboardOk.step (hd : DashboardOk told d) {e : Event} (h : d.step e = some d') :
    DashboardOk (told ++ (messageOf e).toList.flatMap saidIn) d' := by
  have hsame : ∀ {u : Dashboard}, some u = some d' → DashboardOk told u →
      DashboardOk (told ++ []) d' := by
    intro u heq hu
    rwa [← Option.some.inj heq, List.append_nil]
  cases e with
  | settle n reply => exact hsame rfl (hd.settle h)
  | reconnect timer =>
    rw [Dashboard.step] at h
    split_ifs at h
    refine hsame h (DashboardOk.connect ?_ d.tokenRef)
    exact hd.of_eq ⟨rfl, rfl, rfl, rfl, rfl, rfl⟩ rfl
  | startSession accessToken username => exact hsame h (hd.startSession accessToken username)
  | logout => exact hsame h (dashboardOk_logout told d)
  | refreshStats accessToken caller => exact hsame h (hd.refreshStats accessToken caller)
  | loadHistory token channel => exact hsame h (hd.loadHistory token channel)
  | loadDirectHistory token dmTo =>
    refine hsame h ?_
    unfold Dashboard.loadDirectHistory
    split_ifs
    · exact hd.setError _
    · exact hd.of_eq ⟨rfl, rfl, rfl, rfl, rfl, rfl⟩ rfl
  | message token ws event =>
    rw [← Option.some.inj h, messageOf, Option.toList_some, List.flatMap_singleton]
    exact hd.handleGatewayEvent token (some ws) event
  | opened ws => exact hsame h (hd.onopen ws)
  | closed ws => exact hsame h (hd.onclose ws)
  | failed ws => exact hsame h (hd.close (some ws))

/-! ## Forms and buttons -/

/-- `HELP_TEXT`. -/
def helpText : String :=
  "Commands:\n/help — view commands\n/clear — clear visible messages\n" ++
  "/join CHANNEL — join a channel\n/switch CHANNEL — switch channels\n" ++
  "/leave CHANNEL — leave a channel\n/dm USER MESSAGE — send a direct message\n" ++
  "/who — view channel participants\n/list — view channels\n/stats — update monitoring\n" ++
  "/history — load channel history\n/quit — sign out"

/-- `requestChannels`. -/
def Dashboard.requestChannels (d : Dashboard) : Dashboard :=
  match d.send .list with
  | (d, true) => { d with channelsLoaded := false }
  | (d, false) => d

/-- A call of a form or a button; `channel` is the field of that name.  The command objects that the
socket sends for a form are in `sends` and not in the dashboard. -/
def Dashboard.perform (d : Dashboard) (channel : PyStr) : Action → Dashboard
  | .setError text => d.setError text
  | .setMessage text => { d with message := text }
  | .setDmText text => { d with dmText := text }
  | .setChannel _ | .requestChannelsLater => d
  | .send _ =>
    if d.isOpen d.socketRef = false then d.setError (py "Connection unavailable. Reconnecting…")
    else d
  | .showHelp => d.pushLine ⟨.system, none, none, py helpText⟩
  | .clearMessages => { d with messages := [], error := [] }
  | .requestUsers => d.requestUsers
  | .requestChannels => d.requestChannels
  | .logout => d.logout
  | .refreshStats _ => d.refreshStats d.token .slash
  | .loadHistory => d.loadHistory d.token channel

theorem DashboardOk.perform (hd : DashboardOk told d) (channel : PyStr) (action : Action) :
    DashboardOk told (d.perform channel action) := by
  cases action with
  | setError text => exact hd.setError text
  | setMessage _ | setDmText _ => exact hd.of_eq ⟨rfl, rfl, rfl, rfl, rfl, rfl⟩ rfl
  | setChannel _ | requestChannelsLater => exact hd
  | send command =>
    unfold Dashboard.perform
    split_ifs
    · exact hd.setError _
    · exact hd
  | showHelp => exact hd.pushNotice rfl
  | clearMessages =>
    exact hd.of_lines ⟨rfl, rfl, rfl, rfl, rfl, rfl⟩
      ⟨[], [], ⟨.chat, none, [], rfl⟩, rfl, List.nil_suffix⟩
  | requestUsers => exact hd.requestUsers
  | requestChannels =>
    have hsend := hd.send .list
    show DashboardOk told d.requestChannels
    unfold Dashboard.requestChannels
    split <;> next heq => rw [heq] at hsend; exact hsend.of_eq ⟨rfl, rfl, rfl, rfl, rfl, rfl⟩ rfl
  | logout => exact dashboardOk_logout told d
  | refreshStats line => exact hd.refreshStats d.token .slash
  | loadHistory => exact hd.loadHistory d.token channel

/-- What happens on the page. -/
inductive ScreenEvent where
  | event (e : Event)
  | act (channel : PyStr) (action : Action)

/-- One thing happens. -/
def Dashboard.next (d : Dashboard) : ScreenEvent → Option Dashboard
  | .event e => d.step e
  | .act channel action => some (d.perform channel action)

/-- A sequence of them. -/
def Dashboard.goes (d : Dashboard) : List ScreenEvent → Option Dashboard
  | [] => some d
  | e :: es => (d.next e).bind fun d => d.goes es

/-- What a run reads from its sockets. -/
def messagesOf (es : List ScreenEvent) : List GatewayEvent :=
  es.filterMap fun
    | .event e => messageOf e
    | .act _ _ => none

theorem DashboardOk.next (hd : DashboardOk told d) {e : ScreenEvent} (h : d.next e = some d') :
    DashboardOk (told ++ (messagesOf [e]).flatMap saidIn) d' := by
  cases e with
  | event e =>
    have hstep := hd.step h
    have hread : messagesOf [.event e] = (messageOf e).toList := by
      cases hm : messageOf e <;> simp [messagesOf, hm]
    rwa [← hread] at hstep
  | act channel action =>
    rw [← Option.some.inj h]
    have hact := hd.perform channel action
    rwa [← List.append_nil told] at hact

theorem DashboardOk.goes (hd : DashboardOk told d) {es : List ScreenEvent}
    (h : d.goes es = some d') : DashboardOk (told ++ (messagesOf es).flatMap saidIn) d' := by
  induction es generalizing told d with
  | nil =>
    rw [← Option.some.inj h, messagesOf, List.filterMap_nil, List.flatMap_nil, List.append_nil]
    exact hd
  | cons e es ih =>
    obtain ⟨u, hu, hrest⟩ := Option.bind_eq_some_iff.mp h
    have hsplit : messagesOf (e :: es) = messagesOf [e] ++ messagesOf es :=
      List.filterMap_append (l := [e])
    rw [hsplit, List.flatMap_append, ← List.append_assoc]
    exact ih (hd.next hu) hrest

/-- The first rendering, with what `readStoredSession` found. -/
def Dashboard.first (initialSession : Option (PyStr × PyStr)) : Dashboard :=
  { Dashboard.initial with
    username := (initialSession.map Prod.snd).getD (py "alice")
    token := (initialSession.map Prod.fst).getD []
    tokenRef := (initialSession.map Prod.fst).getD []
    authenticatedUsername := (initialSession.map Prod.snd).getD []
    allowReconnectRef := initialSession.isSome
    storedSession := initialSession }

theorem dashboardOk_first (session : Option (PyStr × PyStr)) :
    DashboardOk [] (.first session) :=
  ⟨⟨session, rfl, rfl, rfl, rfl, rfl⟩, ⟨[], [], ⟨.chat, none, [], rfl⟩, rfl, List.nil_suffix⟩,
    Nat.zero_le _, fun _ h => by cases h⟩

/-- **The dashboard is consistent.**  In every run, in whatever order answers, messages, timers,
forms and the events of the sockets come, the refs, the states and the storage have one session or
none, the screen has at most 80 lines, the monitor at most 30 samples, and a queue pressure is a
percentage. -/
theorem dashboard_consistent {session : Option (PyStr × PyStr)} {es : List ScreenEvent}
    (h : (Dashboard.first session).goes es = some d) :
    (∃ session, d.SessionIs session) ∧ d.messages.length ≤ 80 ∧ d.monitorSamples.length ≤ 30 ∧
      ∀ sample ∈ d.monitorSamples, 0 ≤ sample.queuePressure ∧ sample.queuePressure ≤ 100 := by
  have hd := (dashboardOk_first session).goes h
  exact ⟨hd.session, hd.length_messages, hd.monitorSamples, hd.queuePressure⟩

/-- `bob` signs in, and his socket opens. -/
def bobSignsIn : List ScreenEvent :=
  [.startSession (py "one") (py "bob"), .refreshStats (py "one") .createToken,
    .settle 0 (.response 500), .opened 0].map .event

theorem dashboard_consistent_bob : ∃ d, (Dashboard.first none).goes bobSignsIn = some d ∧
    d.messages.length ≤ 80 := by
  obtain ⟨d, hd⟩ := Option.isSome_iff_exists.mp
    (by decide +kernel : ((Dashboard.first none).goes bobSignsIn).isSome = true)
  exact ⟨d, hd, (dashboard_consistent hd).2.1⟩

/-! ## The screen and the log of the core -/

/-- A message of the core that somebody said. -/
def isSaid : ChatService.Message Bytes Bytes Bytes → Bool
  | .chat _ _ _ | .direct _ _ => true
  | .renamed _ _ => false

/-- The line is the one that the gateway and the dashboard make of the message. -/
def Tells (str : ValueError → PyStr) (m : ChatService.Message Bytes Bytes Bytes)
    (line : ChatLine) : Prop :=
  ∃ event, Gateway.gatewayEvent (Core.messageFrame m) = .ok event ∧
    lineOf (browserEvent str (.event event)) = some line

variable {str : ValueError → PyStr}

/-- What is said on the screen is what was said in the core. -/
theorem forall₂_saidIn {m : ChatService.Message Bytes Bytes Bytes} {event : Gateway.GatewayEvent}
    (h : Gateway.gatewayEvent (Core.messageFrame m) = .ok event) :
    List.Forall₂ (Tells str) ([m].filter isSaid) (saidIn (browserEvent str (.event event))) := by
  have hof := Gateway.gatewayEvent_of h
  cases m with
  | chat _ _ _ =>
    cases event with
    | chat channel sender text => exact .cons ⟨_, h, rfl⟩ .nil
    | raw _ _ => cases hof
    | _ => simp only [Gateway.GatewayEvent.Of, Core.messageFrame, ServerMsgType.toByte_inj,
        reduceCtorEq, false_and] at hof
  | direct _ _ =>
    cases event with
    | dm sender text => exact .cons ⟨_, h, rfl⟩ .nil
    | raw _ _ => cases hof
    | _ => simp only [Gateway.GatewayEvent.Of, Core.messageFrame, ServerMsgType.toByte_inj,
        reduceCtorEq, false_and] at hof
  | renamed _ _ =>
    cases event with
    | chat _ _ _ | dm _ _ => simp only [Gateway.GatewayEvent.Of, Core.messageFrame,
        ServerMsgType.toByte_inj, reduceCtorEq, false_and] at hof
    | _ => exact .nil

theorem forall₂_flatMap_saidIn {ms : List (ChatService.Message Bytes Bytes Bytes)}
    {events : List Gateway.GatewayEvent}
    (h : List.Forall₂ (fun m event => Gateway.gatewayEvent (Core.messageFrame m) = .ok event) ms
      events) : List.Forall₂ (Tells str) (ms.filter isSaid)
        (events.flatMap fun event => saidIn (browserEvent str (.event event))) := by
  induction h with
  | nil => exact .nil
  | @cons m event ms events hm _ ih =>
    rw [← List.singleton_append, List.filter_append, List.flatMap_cons]
    exact List.rel_append (forall₂_saidIn hm) ih

/-- Only texts make lines that somebody said. -/
theorem flatMap_saidIn_shown (x : Session) :
    (x.shown.map (browserEvent str)).flatMap saidIn =
      (x.events.filter Gateway.GatewayEvent.isText).flatMap fun event =>
        saidIn (browserEvent str (.event event)) := by
  unfold Session.events
  induction x.shown with
  | nil => rfl
  | cons m shown ih =>
    rw [List.map_cons, List.flatMap_cons, ih]
    rcases m with username | event | error
    · rfl
    · cases event <;> rfl
    · rfl

/-- **Every screen shows a part of the one log.**  In every reachable state of the core and its
gateway, take the log of a run of the core to its state: all that was said, each by the turn that
asked for it and to those it was meant for by the memberships and names of the core in the state of
that turn.  Whatever else happens to a dashboard that reads the messages of a session, its screen
shows the last lines of a history it loaded, or of none, and of the lines since then, and of these
the ones that somebody said are, in the order of the log and with none left out in between, messages
of the log that are meant for the connection of the session. -/
theorem screens_show_one_log {admits : State → Gateway.Event → Prop} {s : State}
    (h : Gateway.Reachable admits s) : (∃ log, Core.Chronicle s.core log) ∧
    ∀ log, Core.Chronicle s.core log → ∀ k x session es d, s.sessions k = some x →
      (Dashboard.first session).goes es = some d →
      messagesOf es <+: x.shown.map (browserEvent str) →
      ∃ base lines said, IsHistory base ∧ d.messages = lastOf messageLimit (base ++ lines) ∧
        said <:+: (ChatService.dueIn log k).filter isSaid ∧
        List.Forall₂ (Tells str) said (lines.filter ChatLine.isSaid) := by
  refine ⟨Core.exists_chronicle (Gateway.Reachable.core h),
    fun log hlog k x session es d hx hrun hread => ?_⟩
  obtain ⟨a, ha, hshows, rfl⟩ := hlog.exists_chat
  obtain ⟨fs, hfs, hevents, -⟩ := Gateway.exists_texts h hx
  rw [← hshows.inbox] at hfs
  obtain ⟨rest, hrest⟩ := hfs
  obtain ⟨ms, ms', hms, rfl, -⟩ := List.map_eq_append_iff.mp hrest.symm
  have hdue : ms <+: a.due k := .trans ⟨ms', hms.symm⟩ (ChatService.agreement ha k).1
  have htells : List.Forall₂ (Tells str) _ _ :=
    forall₂_flatMap_saidIn (List.forall₂_map_left_iff.mp hevents)
  rw [← flatMap_saidIn_shown] at htells
  -- what the screen can show is a beginning of that, and what it shows is an end of the beginning
  obtain ⟨base, lines, hbase, hmessages, hsaid⟩ := ((dashboardOk_first session).goes hrun).lines
  rw [List.nil_append] at hsaid
  obtain ⟨before, hbefore⟩ := hsaid
  obtain ⟨after, hafter⟩ := hread
  rw [← hafter, List.flatMap_append, ← hbefore] at htells
  have hshown := List.forall₂_take_append _ _ _ htells
  have hend := List.forall₂_drop_append _ _ _ hshown
  refine ⟨base, lines, _, hbase, hmessages, ?_, hend⟩
  exact ((List.drop_suffix ..).isInfix.trans (List.take_prefix ..).isInfix).trans
    (hdue.filter _).isInfix

/-- `bob` reads what `alice` said. -/
def bobReads (shown : List Shown) : List ScreenEvent :=
  bobSignsIn ++ shown.map fun m => .event (.message (py "one") 0 (browserEvent (fun _ => []) m))

theorem messagesOf_bobReads (shown : List Shown) :
    messagesOf (bobReads shown) = shown.map (browserEvent fun _ => []) := by
  rw [messagesOf, bobReads, List.filterMap_append, List.filterMap_map]
  exact List.filterMap_eq_map.symm ▸ rfl

theorem screens_show_one_log_room : ∃ (log : List Core.ChatLogEntry) (d : Dashboard),
    Core.Chronicle (Gateway.twoUsers.run Gateway.saidInRoom).core log ∧
    (d.messages.filter ChatLine.isSaid).length = 1 ∧ ∃ base lines said, IsHistory base ∧
      d.messages = lastOf messageLimit (base ++ lines) ∧ said <:+: (ChatService.dueIn log 2).filter isSaid ∧
      List.Forall₂ (Tells fun _ => []) said (lines.filter ChatLine.isSaid) := by
  have hlegal : Gateway.Throughout (Gateway.Enabled [1, 2]) Gateway.twoUsers
      Gateway.saidInRoom := by decide +kernel
  obtain ⟨x, hx, d, hd, hone⟩ : ∃ x ∈ (Gateway.twoUsers.run Gateway.saidInRoom).sessions 2,
      ∃ d ∈ (Dashboard.first none).goes (bobReads x.shown),
        (d.messages.filter ChatLine.isSaid).length = 1 := by decide +kernel
  obtain ⟨⟨log, hlog⟩, hscreen⟩ := @screens_show_one_log (fun _ => []) _ _
    (Gateway.schedule_reachable (.init Gateway.initial_twoUsers) (fun _ _ => rfl) hlegal
      (hlegal.mono fun s op _ => Gateway.admitted_true s op))
  exact ⟨log, d, hlog, hone, hscreen log hlog 2 x none _ d hx hd (by rw [messagesOf_bobReads])⟩

/-! ## Errors -/

/-- **The dashboard has a sentence for every reason.** -/
theorem friendly_of_mem_reasons : ∀ reason ∈ Core.reasons,
    friendlyGatewayError (Gateway.friendlyError (Utf8.decodeReplace reason)) ∈
      friendlyGatewayErrors.map fun entry => py entry.2 := by decide +kernel

/-- **No raw text of the core is shown as an error.**  In every reachable state of the core and its
gateway, and for every event of the core that a browser was sent: if the dashboard makes a line of
kind `error` of it, then the text of the line is one of the sentences of `friendlyGatewayError`. -/
theorem errors_are_friendly {admits : State → Gateway.Event → Prop} {s : State}
    (h : Gateway.Reachable admits s) {k : ℕ} {x : Session} (hx : s.sessions k = some x)
    {event : Gateway.GatewayEvent} (hevent : event ∈ x.events) {line : ChatLine}
    (hline : lineOf (browserEvent str (.event event)) = some line) (hkind : line.kind = .error) :
    line.text ∈ friendlyGatewayErrors.map fun entry => py entry.2 := by
  obtain ⟨frame, hframe, hmade⟩ := Gateway.exists_frame h hx hevent
  have hof := Gateway.gatewayEvent_of hmade
  cases event with
  | error message =>
    obtain ⟨type, payload⟩ := frame
    obtain rfl : type = _ := hof
    have hmessage : Gateway.friendlyError (Utf8.decodeReplace payload) = message :=
      Gateway.GatewayEvent.error.inj (Except.ok.inj hmade)
    have hreason := Core.mem_reasons (Gateway.Reachable.core h) hframe
    rw [← Option.some.inj hline, ← hmessage]
    exact friendly_of_mem_reasons payload hreason
  | chat _ _ _ | dm _ _ | system _ | ok _ =>
    rw [← Option.some.inj hline] at hkind
    cases hkind
  | who _ | channels _ | coreStats _ | coreStatsRaw _ | raw _ _ => cases hline

/-- `alice` leaves a channel that there is not. -/
def leftNowhere : List Gateway.Op := Gateway.inRoom ++
  [.command 1 (.ok (.object [(py "type", .string (py "leave")),
      (py "channel", .string (py "nowhere"))])),
    .deliver 0 ⟨ClientMsgType.leave.toByte, stringField (ascii "nowhere")⟩, .flush 0,
    .read 1]

/-- The event is an error with the text. -/
def isErrorWith (text : PyStr) : Gateway.GatewayEvent → Bool
  | .error message => message = text
  | _ => false

theorem errors_are_friendly_room : ∃ x line,
    (Gateway.twoUsers.run leftNowhere).sessions 1 = some x ∧
    (∃ event ∈ x.events, lineOf (browserEvent (fun _ => []) (.event event)) = some line) ∧
    line.kind = .error ∧ line.text ∈ friendlyGatewayErrors.map fun entry => py entry.2 := by
  have hlegal : Gateway.Throughout (Gateway.Enabled [1, 2]) Gateway.twoUsers leftNowhere := by
    decide +kernel
  obtain ⟨x, hx, htold⟩ : ∃ x ∈ (Gateway.twoUsers.run leftNowhere).sessions 1,
      x.events.any (isErrorWith (py "not in channel")) = true := by decide +kernel
  obtain ⟨event, hevent, hwith⟩ := List.any_eq_true.mp htold
  cases event with
  | error message =>
    have hreach := Gateway.schedule_reachable (.init Gateway.initial_twoUsers) (fun _ _ => rfl)
      hlegal (hlegal.mono fun s op _ => Gateway.admitted_true s op)
    have hfriendly := @errors_are_friendly (fun _ => []) _ _ hreach 1 x hx _ hevent _ rfl rfl
    exact ⟨x, _, hx, ⟨_, hevent, rfl⟩, rfl, hfriendly⟩
  | _ => cases hwith

end Frontend
end ChannelWire
