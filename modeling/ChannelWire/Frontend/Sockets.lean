import ChannelWire.Foundation.Transition
import ChannelWire.Frontend.Requests

/-!
# The sockets of the dashboard

`connect` opens a socket unless the one in `socketRef` is `CONNECTING` or `OPEN`, and the handlers of
a socket stay with it when `logout` closes it or when `connect` replaces it.

At most one socket is `CONNECTING` or `OPEN`, and it is the one in `socketRef` (`SocketsOk`).  But
`onclose` does not ask whose event it is: that of an old socket takes `connected` from the current one
and reports a lost connection (`Disconnects`).  `connection_follows_iff` says that this is the only way
in which `connected` can be wrong, and `connected_lost` is a run in which it is.
-/

namespace ChannelWire
namespace Frontend

open Gateway (PyStr py)
open Transition (Reachable System)

/-! ## What the events say of the sockets -/

/-- The `readyState` of a socket. -/
def Dashboard.readyState (d : Dashboard) (ws : ℕ) : Option ReadyState :=
  d.sockets[ws]?.map Socket.readyState

/-- The socket is `CONNECTING` or `OPEN`. -/
def Dashboard.LiveSocket (d : Dashboard) (ws : ℕ) : Prop :=
  d.readyState ws = some .connecting ∨ d.readyState ws = some .opened

/-- What a browser promises: a socket opens while it is `CONNECTING`, has an error before its close
event, and has one close event.  An error is also how a socket begins to close without `close()`. -/
def SocketRules (d : Dashboard) : Event → Prop
  | .opened ws => d.readyState ws = some .connecting
  | .closed ws | .failed ws => ∃ state, d.readyState ws = some state ∧ state ≠ .closed
  | _ => True

/-- The event is one of a socket that is not in `socketRef`. -/
def OfOldSocket (d : Dashboard) : Event → Prop
  | .opened ws | .closed ws | .failed ws => d.socketRef ≠ some ws
  | _ => False

/-- The close event of an old socket comes while the dashboard is connected or has a session. -/
def Disconnects (d : Dashboard) (e : Event) : Prop :=
  ∃ ws, e = .closed ws ∧ d.socketRef ≠ some ws ∧
    (d.connected = true ∨ d.allowReconnectRef = true ∧ d.tokenRef ≠ [])

/-- The connection is not lost, no line says so, and no timer is set. -/
structure KeepsConnection (d d' : Dashboard) : Prop where
  connected : d'.connected = d.connected
  messages : d'.messages = d.messages
  timers : d'.timers = d.timers
  reconnectTimerRef : d'.reconnectTimerRef = d.reconnectTimerRef

/-- **Live sockets are in `socketRef`.** -/
def SocketsOk (d : Dashboard) : Prop := ∀ ws, d.LiveSocket ws → d.socketRef = some ws

/-- `connected` is set while the socket in `socketRef` is open. -/
def Follows (d : Dashboard) : Prop :=
  ∀ ws, d.socketRef = some ws → d.readyState ws = some .opened → d.connected = true

variable {d d' u : Dashboard} {ws n : ℕ} {accessToken : PyStr}

/-! ## Changes of the sockets -/

/-- The sockets, the one in the ref and the flag are the same. -/
structure SameSockets (d d' : Dashboard) : Prop where
  readyState : ∀ ws, d'.readyState ws = d.readyState ws
  socketRef : d'.socketRef = d.socketRef
  connected : d'.connected = d.connected

theorem SameSockets.refl (d : Dashboard) : SameSockets d d := ⟨fun _ => rfl, rfl, rfl⟩

theorem SameSockets.of_eq (hsockets : d'.sockets = d.sockets) (href : d'.socketRef = d.socketRef)
    (hconnected : d'.connected = d.connected) : SameSockets d d' := by
  refine ⟨fun ws => ?_, href, hconnected⟩
  rw [Dashboard.readyState, hsockets]
  rfl

theorem SameSockets.trans (h : SameSockets d d') (h' : SameSockets d' u) : SameSockets d u :=
  ⟨fun ws => (h'.readyState ws).trans (h.readyState ws), h'.socketRef.trans h.socketRef,
    h'.connected.trans h.connected⟩

theorem SameSockets.socketsOk (h : SameSockets d d') (hd : SocketsOk d) : SocketsOk d' := by
  intro ws hws
  rw [Dashboard.LiveSocket, h.readyState] at hws
  exact h.socketRef.trans (hd ws hws)

theorem SameSockets.follows (h : SameSockets d d') (hd : Follows d) : Follows d' := by
  intro ws href hopen
  exact h.connected.trans (hd ws (h.socketRef.symm.trans href) ((h.readyState ws).symm.trans hopen))

/-- The state of a socket behind a change of one socket. -/
theorem readyState_modify {f : Socket → Socket} {g : ReadyState → ReadyState}
    (hsockets : d'.sockets = d.sockets.modify n f)
    (hf : ∀ s : Socket, (f s).readyState = g s.readyState) (ws : ℕ) :
    d'.readyState ws = if n = ws then (d.readyState ws).map g else d.readyState ws := by
  rw [Dashboard.readyState, hsockets]
  split_ifs with h
  · rw [h, List.getElem?_modify_eq, Option.map_eq_map, Option.map_map, Dashboard.readyState,
      Option.map_map]
    exact congrArg (fun f => Option.map f _) (funext hf)
  · rw [List.getElem?_modify_ne _ _ h]
    rfl

theorem sendOn_sameSockets (d : Dashboard) (socket : Option ℕ) (command : Command) :
    SameSockets d (d.sendOn socket command) := by
  cases socket with
  | none => exact .refl d
  | some n =>
    refine ⟨fun ws => ?_, rfl, rfl⟩
    rw [readyState_modify (d := d) (f := fun s => { s with sent := s.sent ++ [command] }) (g := id)
      rfl (fun _ => rfl), Option.map_id, id, ite_self]

/-- The states behind `close()`. -/
theorem close_readyState (d : Dashboard) (n ws : ℕ) :
    (d.close (some n)).readyState ws = if n = ws then
      (d.readyState ws).map (fun state => if state = .closed then state else .closing)
    else d.readyState ws := by
  refine readyState_modify (d := d) rfl (fun s => ?_) ws
  split_ifs <;> rfl

/-- Behind `close()` a socket is not live, and the others are as before. -/
theorem LiveSocket_close {socket : Option ℕ} (h : (d.close socket).LiveSocket ws) :
    d.LiveSocket ws ∧ socket ≠ some ws := by
  cases socket with
  | none => exact ⟨h, (Option.some_ne_none ws).symm⟩
  | some n =>
    rw [Dashboard.LiveSocket, close_readyState] at h
    split_ifs at h with heq
    · cases hstate : d.readyState ws with
      | none =>
        rw [hstate] at h
        exact absurd h (by simp only [Option.map_none, reduceCtorEq, or_self, not_false_eq_true])
      | some state =>
        rw [hstate] at h
        cases state <;> exact absurd h (by decide)
    · exact ⟨h, fun hsome => heq (Option.some.inj hsome)⟩

theorem connect_cases (d : Dashboard) (accessToken : PyStr) :
    d.connect accessToken = d ∨
      (∀ ws, d.socketRef = some ws → ¬ d.LiveSocket ws) ∧
        (∀ ws, (d.connect accessToken).readyState ws =
          if ws = d.sockets.length then some .connecting else d.readyState ws) ∧
        (d.connect accessToken).socketRef = some d.sockets.length ∧
        (d.connect accessToken).connected = d.connected := by
  unfold Dashboard.connect
  split_ifs with htoken hlive
  · exact .inl rfl
  · exact .inl rfl
  · refine .inr ⟨fun ws href hws => hlive ?_, fun ws => ?_, rfl, rfl⟩
    · rw [href, Option.bind_some]
      obtain ⟨s, hs⟩ : ∃ s, d.sockets[ws]? = some s := by
        rcases hws with hws | hws <;>
          exact (Option.map_eq_some_iff.mp hws).imp fun s hs => hs.1
      rw [Dashboard.LiveSocket, Dashboard.readyState, hs] at hws
      rw [hs]
      rcases hws with hws | hws <;> rw [Option.any_some, Option.some.inj hws] <;> rfl
    · rw [Dashboard.readyState, Dashboard.readyState]
      split_ifs with hws
      · rw [hws, List.getElem?_concat_length]
        rfl
      · rcases Nat.lt_or_gt_of_ne hws with hlt | hgt
        · rw [List.getElem?_append_left hlt]
        · rw [List.getElem?_eq_none hgt.le, List.getElem?_eq_none]
          rw [List.length_append]
          exact hgt

/-! ## What functions keep -/

/-- The two facts stay true. -/
structure Keeps (d d' : Dashboard) : Prop where
  socketsOk : SocketsOk d → SocketsOk d'
  follows : Follows d → Follows d'

theorem SameSockets.keeps (h : SameSockets d d') : Keeps d d' := ⟨h.socketsOk, h.follows⟩

theorem Keeps.trans (h : Keeps d d') (h' : Keeps d' u) : Keeps d u :=
  ⟨h'.socketsOk ∘ h.socketsOk, h'.follows ∘ h.follows⟩

theorem connect_keeps (d : Dashboard) (accessToken : PyStr) : Keeps d (d.connect accessToken) := by
  rcases connect_cases d accessToken with h | ⟨hold, hstate, href, -⟩
  · rw [h]
    exact (SameSockets.refl d).keeps
  · refine ⟨fun hd ws hws => ?_, fun _ ws hws hopen => ?_⟩
    · rw [Dashboard.LiveSocket, hstate] at hws
      split_ifs at hws with hlength
      · rw [href, hlength]
      · exact absurd hws (hold ws (hd ws hws))
    · obtain rfl := Option.some.inj (href.symm.trans hws)
      rw [hstate, if_pos rfl] at hopen
      exact ReadyState.noConfusion (Option.some.inj hopen)

/-- `logout` closes the socket in the ref. -/
theorem exists_logout (d : Dashboard) : ∃ u, SameSockets d u ∧
    ∀ ws, d.logout.readyState ws = (u.close u.socketRef).readyState ws := by
  let base : Dashboard := { d with
    allowReconnectRef := false
    tokenRef := []
    activeChannelRef := []
    storedSession := none
    timers := d.timers.filter fun timer => some timer ≠ d.reconnectTimerRef
    reconnectTimerRef := none }
  have hbase : SameSockets d base := .of_eq rfl rfl rfl
  refine ⟨if base.isOpen base.socketRef = true then base.sendOn base.socketRef .quit else base, ?_,
    fun _ => rfl⟩
  split_ifs
  · exact hbase.trans (sendOn_sameSockets ..)
  · exact hbase

theorem logout_keeps (d : Dashboard) : Keeps d d.logout := by
  refine ⟨fun hd ws hws => ?_, fun _ ws href => absurd href.symm (Option.some_ne_none ws)⟩
  obtain ⟨u, hu, hstate⟩ := exists_logout d
  -- only the socket in the ref can be live, and it is being closed
  rw [Dashboard.LiveSocket, hstate] at hws
  obtain ⟨hlive, hne⟩ := LiveSocket_close hws
  exact absurd (hu.socketsOk hd ws hlive) hne

theorem returned_keeps (d : Dashboard) (accessToken : PyStr) (caller : Caller)
    (outcome : Except PyStr Bool) : Keeps d (d.returned accessToken caller outcome) := by
  have hsame : ∀ {d' : Dashboard}, d'.sockets = d.sockets → d'.socketRef = d.socketRef →
      d'.connected = d.connected → Keeps d d' :=
    fun hsockets href hconnected => (SameSockets.of_eq hsockets href hconnected).keeps
  have hconnect : Keeps d (if d.tokenRef = accessToken then d.connect accessToken else d) := by
    split_ifs
    · exact connect_keeps d accessToken
    · exact hsame rfl rfl rfl
  cases caller with
  | handler => exact hsame rfl rfl rfl
  | button => cases outcome <;> exact hsame rfl rfl rfl
  | slash => cases outcome <;> exact hsame rfl rfl rfl
  | createToken => exact hconnect
  | authenticate line =>
    have hline : SameSockets (if d.tokenRef = accessToken then d.connect accessToken else d)
        (d.returned accessToken (.authenticate line) outcome) := .of_eq rfl rfl rfl
    exact hconnect.trans hline.keeps
  | restore =>
    rcases outcome with _ | _ | _
    · exact hsame rfl rfl rfl
    · exact hsame rfl rfl rfl
    · exact hconnect

/-- `refreshStats` reaches the sockets by what its caller does when it ends, and by `logout`. -/
theorem resumeStats_keeps {wait : StatsWait} {caller : Caller} {reply : Reply}
    (h : d.resumeStats n accessToken caller wait reply = some d') : Keeps d d' := by
  have hreturned : ∀ {u : Dashboard} {outcome : Except PyStr Bool},
      some (u.returned accessToken caller outcome) = some d' → SameSockets d u → Keeps d d' := by
    intro u outcome heq hu
    rw [← Option.some.inj heq]
    exact hu.keeps.trans (returned_keeps u accessToken caller outcome)
  have hawait : ∀ {u : Dashboard} {call : Call}, some (u.await n call) = some d' →
      SameSockets d u → Keeps d d' := by
    intro u call heq hu
    have hwait : SameSockets u (u.await n call) := .of_eq rfl rfl rfl
    rw [← Option.some.inj heq]
    exact (hu.trans hwait).keeps
  cases reply with
  | rejected message => cases wait <;> exact hreturned h (.refl d)
  | response status =>
    cases wait with
    | stats =>
      simp only [Dashboard.resumeStats] at h
      split_ifs at h
      · rw [← Option.some.inj h]
        exact (logout_keeps d).trans (returned_keeps ..)
      · exact hreturned h (.refl d)
      · exact hawait h (.refl d)
    | coreStats platform =>
      simp only [Dashboard.resumeStats] at h
      split_ifs at h <;> exact hawait h (.refl d)
    | channels =>
      simp only [Dashboard.resumeStats] at h
      split_ifs at h
      · exact hreturned h (.refl d)
      · exact hawait h (.refl d)
    | statsBody | coreStatsBody _ | channelsBody => cases h
  | platformStats body =>
    cases wait with
    | statsBody =>
      rw [Dashboard.resumeStats] at h
      split_ifs at h
      · exact hreturned h (.refl d)
      · exact hawait h (.of_eq rfl rfl rfl)
    | _ => cases h
  | coreStats body =>
    cases wait with
    | coreStatsBody platform =>
      rw [Dashboard.resumeStats] at h
      split_ifs at h
      · exact hreturned h (.refl d)
      · refine hawait h ?_
        cases platform with
        | none => exact .of_eq rfl rfl rfl
        | some platform => cases body <;> exact .of_eq rfl rfl rfl
    | _ => cases h
  | channels body =>
    cases wait with
    | channelsBody =>
      change (if d.tokenRef ≠ accessToken then _ else _) = _ at h
      split_ifs at h
      · exact hreturned h (.refl d)
      · cases body with
        | error message => exact hreturned h (.refl d)
        | ok channels => exact hreturned h (.of_eq rfl rfl rfl)
    | _ => cases h
  | history _ | errorBody _ => cases wait <;> cases h

theorem settle_keeps {reply : Reply} (h : d.settle n reply = some d') : Keeps d d' := by
  obtain ⟨call, hcall, h⟩ := Option.bind_eq_some_iff.mp h
  have hforget : SameSockets d { d with calls := d.calls.set n none } := .of_eq rfl rfl rfl
  simp only at h
  cases hwaiting : call.waiting with
  | refreshStats caller wait =>
    rw [hwaiting] at h
    exact hforget.keeps.trans (resumeStats_keeps h)
  | loadLines kind channel wait =>
    rw [hwaiting] at h
    rcases resumeLines_cases h with ⟨body, -, -, rfl⟩ | ⟨-, hd'⟩
    · have hshown : SameSockets { d with calls := d.calls.set n none }
          (Dashboard.replaceMessages { d with calls := d.calls.set n none }
            (body.map (historyLine kind channel))) := .of_eq rfl rfl rfl
      exact (hforget.trans hshown).keeps
    · have hsame : SameSockets d d' := by
        rw [hd']
        exact .of_eq rfl rfl rfl
      exact hsame.keeps

theorem refreshStats_keeps (d : Dashboard) (accessToken : PyStr) (caller : Caller) :
    Keeps d (d.refreshStats accessToken caller) := by
  unfold Dashboard.refreshStats
  split_ifs
  · exact returned_keeps ..
  · have hbegin : SameSockets d (d.begin ⟨accessToken, .refreshStats caller .stats⟩) :=
      .of_eq rfl rfl rfl
    exact hbegin.keeps

theorem send_sameSockets (d : Dashboard) (command : Command) :
    SameSockets d (d.send command).1 := by
  unfold Dashboard.send
  split_ifs
  · exact .of_eq rfl rfl rfl
  · exact sendOn_sameSockets ..

theorem requestUsers_sameSockets (d : Dashboard) : SameSockets d d.requestUsers := by
  have hsend := send_sameSockets d .who
  unfold Dashboard.requestUsers
  split
  · rename_i u heq
    rw [heq] at hsend
    exact hsend.trans (.of_eq rfl rfl rfl)
  · rename_i u heq
    rw [heq] at hsend
    exact hsend

theorem handleText_sameSockets (d : Dashboard) (isOk : Bool) (message : PyStr) :
    SameSockets d (d.handleText isOk message) := by
  unfold Dashboard.handleText
  simp only
  split_ifs
  · refine .trans ?_ (requestUsers_sameSockets _)
    exact .of_eq rfl rfl rfl
  · exact .of_eq rfl rfl rfl
  · exact .of_eq rfl rfl rfl

theorem handleGatewayEvent_keeps (d : Dashboard) (token : PyStr) (sourceSocket : Option ℕ)
    (event : GatewayEvent) : Keeps d (d.handleGatewayEvent token sourceSocket event) := by
  have hshown : ∀ {u : Dashboard}, SameSockets d u → Keeps d (u.refreshStats token .handler) :=
    fun hu => hu.keeps.trans (refreshStats_keeps ..)
  cases event with
  | ready username =>
    refine hshown ?_
    simp only
    split_ifs
    · refine .trans ?_ (sendOn_sameSockets ..)
      exact .of_eq rfl rfl rfl
    · exact .of_eq rfl rfl rfl
  | system message => exact hshown (handleText_sameSockets ..)
  | ok message => exact hshown (handleText_sameSockets ..)
  | chat | dm | error | who | channels | other => exact hshown (.of_eq rfl rfl rfl)

/-! ## The events of a socket -/

theorem onopen_sockets (d : Dashboard) (ws : ℕ) :
    (∀ x, (d.onopen ws).readyState x =
      if ws = x then (d.readyState x).map (fun _ => .opened) else d.readyState x) ∧
    (d.onopen ws).socketRef = d.socketRef ∧ (d.onopen ws).connected = true := by
  let base : Dashboard := { d with
    sockets := d.sockets.modify ws fun s => { s with readyState := .opened }
    reconnectAttemptRef := 0
    connected := true
    channelsLoaded := false }
  have hsent : SameSockets base (d.onopen ws) := by
    refine .trans (sendOn_sameSockets base (some ws) .list) ?_
    exact .of_eq rfl rfl rfl
  refine ⟨fun x => (hsent.readyState x).trans ?_, hsent.socketRef, hsent.connected⟩
  exact readyState_modify (d := d) (f := fun s => { s with readyState := .opened }) rfl
    (fun _ => rfl) x

/-- What `onclose` does, whosever event it is. -/
theorem onclose_sockets (d : Dashboard) (ws : ℕ) :
    (∀ x, (d.onclose ws).readyState x =
      if ws = x then (d.readyState x).map (fun _ => .closed) else d.readyState x) ∧
    (d.onclose ws).socketRef = (if d.socketRef = some ws then none else d.socketRef) ∧
    (d.onclose ws).connected = false := by
  have hstate : ∀ u : Dashboard,
      u.sockets = d.sockets.modify ws (fun s => { s with readyState := .closed }) → ∀ x,
      u.readyState x = if ws = x then (d.readyState x).map (fun _ => .closed) else d.readyState x :=
    fun u hu => readyState_modify hu fun _ => rfl
  unfold Dashboard.onclose
  simp only
  split_ifs <;> exact ⟨hstate _ rfl, rfl, rfl⟩

/-- Without a session `onclose` says nothing and sets no timer. -/
theorem onclose_silent (ws : ℕ) (h : d.allowReconnectRef = false ∨ d.tokenRef = []) :
    (d.onclose ws).messages = d.messages ∧ (d.onclose ws).timers = d.timers ∧
      (d.onclose ws).reconnectTimerRef = d.reconnectTimerRef := by
  unfold Dashboard.onclose
  simp only
  rw [if_pos h]
  exact ⟨rfl, rfl, rfl⟩

/-- With one it sets a timer. -/
theorem onclose_timers (h : ¬ (d.allowReconnectRef = false ∨ d.tokenRef = [])) :
    (d.onclose ws).timers = d.timers ++ [d.nextTimer] := by
  unfold Dashboard.onclose
  simp only
  rw [if_neg h]

theorem onopen_ok (hd : SocketsOk d) (hstate : d.readyState ws = some .connecting) :
    SocketsOk (d.onopen ws) := by
  obtain ⟨hopened, href, -⟩ := onopen_sockets d ws
  intro x hx
  rw [href]
  by_cases heq : ws = x
  · exact hd x (heq ▸ .inl hstate)
  · rw [Dashboard.LiveSocket, hopened, if_neg heq] at hx
    exact hd x hx

theorem onclose_ok (hd : SocketsOk d) : SocketsOk (d.onclose ws) := by
  obtain ⟨hclosed, href, -⟩ := onclose_sockets d ws
  intro x hx
  rw [Dashboard.LiveSocket, hclosed] at hx
  split_ifs at hx with heq
  · cases hstate : d.readyState x with
    | none =>
      rw [hstate] at hx
      exact absurd hx (by simp only [Option.map_none, reduceCtorEq, or_self, not_false_eq_true])
    | some state =>
      rw [hstate] at hx
      exact absurd hx (by simp only [Option.map_some, Option.some.injEq, reduceCtorEq, or_self,
        not_false_eq_true])
  · have hx' := hd x hx
    rw [href, hx', if_neg fun h => heq (Option.some.inj h).symm]

/-- The close event of the socket in the ref, or of an old one while nothing is connected. -/
theorem onclose_follows (hd : Follows d) (h : d.socketRef ≠ some ws → d.connected = false) :
    Follows (d.onclose ws) := by
  obtain ⟨hclosed, href, -⟩ := onclose_sockets d ws
  intro x hx hopen
  rw [href] at hx
  split_ifs at hx with heq
  have hne : ws ≠ x := fun h => heq (h ▸ hx)
  rw [hclosed, if_neg hne] at hopen
  exact absurd ((h heq).symm.trans (hd x hx hopen)) Bool.false_ne_true

theorem close_keeps (d : Dashboard) (ws : ℕ) : Keeps d (d.close (some ws)) := by
  refine ⟨fun hd x hx => hd x (LiveSocket_close hx).1, fun hd x href hopen => ?_⟩
  have hlive : (d.close (some ws)).LiveSocket x := .inr hopen
  rw [close_readyState, if_neg fun h => (LiveSocket_close hlive).2 (congrArg some h)] at hopen
  exact hd x href hopen

/-! ## Steps -/

variable {e : Event}

/-- Every event but the opening and the close event of a socket. -/
theorem step_keeps (h : d.step e = some d') (hopened : ∀ ws, e ≠ .opened ws)
    (hclosed : ∀ ws, e ≠ .closed ws) : Keeps d d' := by
  have hsame : ∀ {u : Dashboard}, some u = some d' → SameSockets d u → Keeps d d' := by
    intro u heq hu
    rw [← Option.some.inj heq]
    exact hu.keeps
  cases e with
  | startSession accessToken signedInUsername => exact hsame h (.of_eq rfl rfl rfl)
  | logout =>
    rw [← Option.some.inj h]
    exact logout_keeps d
  | refreshStats accessToken caller =>
    rw [← Option.some.inj h]
    exact refreshStats_keeps d accessToken caller
  | loadHistory token channel =>
    refine hsame h ?_
    unfold Dashboard.loadHistory
    split_ifs <;> exact .of_eq rfl rfl rfl
  | loadDirectHistory token dmTo =>
    refine hsame h ?_
    unfold Dashboard.loadDirectHistory
    split_ifs <;> exact .of_eq rfl rfl rfl
  | settle n reply => exact settle_keeps h
  | message token ws event =>
    rw [← Option.some.inj h]
    exact handleGatewayEvent_keeps d token (some ws) event
  | opened ws => exact absurd rfl (hopened ws)
  | closed ws => exact absurd rfl (hclosed ws)
  | failed ws =>
    rw [← Option.some.inj h]
    exact close_keeps d ws
  | reconnect timer =>
    rw [Dashboard.step] at h
    split_ifs at h
    have hfired : SameSockets d { d with timers := d.timers.erase timer } := .of_eq rfl rfl rfl
    rw [← Option.some.inj h]
    exact hfired.keeps.trans (connect_keeps ..)

theorem SocketsOk.step (hd : SocketsOk d) (hrules : SocketRules d e) (h : d.step e = some d') :
    SocketsOk d' := by
  by_cases hopened : ∃ ws, e = .opened ws
  · obtain ⟨ws, rfl⟩ := hopened
    rw [← Option.some.inj h]
    exact onopen_ok hd hrules
  · by_cases hclosed : ∃ ws, e = .closed ws
    · obtain ⟨ws, rfl⟩ := hclosed
      rw [← Option.some.inj h]
      exact onclose_ok hd
    · exact (step_keeps h (not_exists.mp hopened) (not_exists.mp hclosed)).socketsOk hd

theorem Follows.step (hd : Follows d) (hspares : ¬ Disconnects d e) (h : d.step e = some d') :
    Follows d' := by
  by_cases hopened : ∃ ws, e = .opened ws
  · obtain ⟨ws, rfl⟩ := hopened
    rw [← Option.some.inj h]
    exact fun _ _ _ => (onopen_sockets d ws).2.2
  · by_cases hclosed : ∃ ws, e = .closed ws
    · obtain ⟨ws, rfl⟩ := hclosed
      rw [← Option.some.inj h]
      refine onclose_follows hd fun hne => Bool.eq_false_iff.mpr fun hconnected => ?_
      exact hspares ⟨ws, rfl, hne, .inl hconnected⟩
    · exact (step_keeps h (not_exists.mp hopened) (not_exists.mp hclosed)).follows hd

/-- **An event of an old socket** leaves the connection alone if and only if it does not disconnect. -/
theorem keepsConnection_iff (hd : SocketsOk d) (hrules : SocketRules d e) (h : d.step e = some d')
    (hold : OfOldSocket d e) : KeepsConnection d d' ↔ ¬ Disconnects d e := by
  cases e with
  | opened ws => exact absurd (hd ws (.inl hrules)) hold
  | failed ws =>
    rw [← Option.some.inj h]
    refine iff_of_true ⟨rfl, rfl, rfl, rfl⟩ ?_
    rintro ⟨x, hx, -⟩
    cases hx
  | closed ws =>
    rw [← Option.some.inj h]
    obtain ⟨-, -, hconnected⟩ := onclose_sockets d ws
    constructor
    · rintro ⟨hconn, -, htimers, -⟩ ⟨x, -, -, hsome | ⟨hallow, htoken⟩⟩
      · exact absurd ((hconnected.symm.trans hconn).trans hsome) Bool.false_ne_true
      · have hsession : ¬ (d.allowReconnectRef = false ∨ d.tokenRef = []) :=
          not_or.mpr ⟨fun hno => Bool.false_ne_true (hno.symm.trans hallow), htoken⟩
        rw [onclose_timers hsession] at htimers
        exact absurd (List.self_eq_append_right.mp htimers.symm) (List.cons_ne_nil _ _)
    · intro hspares
      have hsession : d.allowReconnectRef = false ∨ d.tokenRef = [] := by
        by_contra hsession
        obtain ⟨hallow, htoken⟩ := not_or.mp hsession
        exact hspares ⟨ws, rfl, hold, .inr ⟨Bool.eq_true_of_not_eq_false hallow, htoken⟩⟩
      obtain ⟨hmessages, htimers, href⟩ := onclose_silent ws hsession
      refine ⟨hconnected.trans (Bool.eq_false_iff.mpr fun hconn => ?_).symm, hmessages, htimers,
        href⟩
      exact hspares ⟨ws, rfl, hold, .inl hconn⟩
  | startSession | logout | refreshStats | loadHistory | loadDirectHistory | settle | message
  | reconnect => exact hold.elim

/-! ## Runs -/

/-- A first rendering, with a stored session or without: there are no sockets. -/
def NoSockets (d : Dashboard) : Prop := d.sockets = [] ∧ d.socketRef = none ∧ d.connected = false

/-- The dashboard and its sockets, of whose events those happen that `admits` lets happen. -/
def socketSystem (admits : Dashboard → Event → Prop) : System Dashboard :=
  System.ofEvents NoSockets (fun d e d' => SocketRules d e ∧ d.step e = some d') admits

variable {admits : Dashboard → Event → Prop}

theorem socketsOk (h : Reachable (socketSystem admits) d) : SocketsOk d := by
  refine h.invariant ?_ ?_
  · rintro d ⟨hsockets, -, -⟩ ws hws
    have hnone : d.readyState ws = none := by
      rw [Dashboard.readyState, hsockets]
      rfl
    rw [Dashboard.LiveSocket, hnone] at hws
    exact absurd hws (by simp only [reduceCtorEq, or_self, not_false_eq_true])
  · rintro d d' - hd ⟨e, -, hrules, hstep⟩
    exact hd.step hrules hstep

theorem follows (h : Reachable (socketSystem fun d e => ¬ Disconnects d e) d) : Follows d := by
  refine h.invariant ?_ ?_
  · rintro d ⟨-, href, -⟩ ws hws
    exact absurd (href.symm.trans hws) (Option.some_ne_none ws).symm
  · rintro d d' - hd ⟨e, hspares, -, hstep⟩
    exact hd.step hspares hstep

/-- **`connected` follows the socket in `socketRef`, but for the close events of old ones.**  In every
run at most one socket is `CONNECTING` or `OPEN`, and an event of an old one leaves the connection
alone unless it is a close event while the dashboard is connected or has a session.  If there is no
such event, `connected` is set whenever the socket in `socketRef` is open. -/
theorem connection_follows_iff (h : Reachable (socketSystem admits) d) :
    (∀ x y, d.LiveSocket x → d.LiveSocket y → x = y) ∧
    (∀ e d', SocketRules d e → d.step e = some d' → OfOldSocket d e →
      (KeepsConnection d d' ↔ ¬ Disconnects d e)) ∧
    ((∀ d e, admits d e → ¬ Disconnects d e) → ∀ ws, d.socketRef = some ws →
      d.readyState ws = some .opened → d.connected = true) := by
  have hd := socketsOk h
  refine ⟨fun x y hx hy => ?_, fun e d' hrules hstep hold =>
    keepsConnection_iff hd hrules hstep hold, fun hspares => follows (h.of_admits hspares)⟩
  exact Option.some.inj ((hd x hx).symm.trans (hd y hy))

/-- A run with one more event, which the sockets allow. -/
theorem socket_step {e : Event} (h : Reachable (socketSystem admits) d) (hadmits : admits d e)
    (hrules : SocketRules d e) (hstep : d.step e = some d') : Reachable (socketSystem admits) d' :=
  h.step ⟨e, hadmits, hrules, hstep⟩

/-- `alice` signs in, and her socket opens. -/
def signIn (token : PyStr) (call ws : ℕ) : List Event :=
  [.startSession token (py "alice"), .refreshStats token .createToken,
    .settle call (.response 500), .opened ws]

/-- She is connected. -/
def signedIn : Dashboard := (Dashboard.initial.run (signIn (py "one") 0 0)).getD .initial

/-- A sign-in without a close event, in every system that admits its events. -/
theorem reachable_signedIn (hadmits : ∀ d e, e ∈ signIn (py "one") 0 0 → admits d e) :
    Reachable (socketSystem admits) signedIn := by
  have h₁ := socket_step (.init ⟨rfl, rfl, rfl⟩) (hadmits .initial _ (.head _)) trivial rfl
  have h₂ := socket_step h₁ (hadmits _ _ (.tail _ (.head _))) trivial rfl
  have h₃ := socket_step h₂ (hadmits _ _ (.tail _ (.tail _ (.head _)))) trivial rfl
  exact socket_step h₃ (hadmits _ _ (.tail _ (.tail _ (.tail _ (.head _))))) rfl rfl

theorem connection_follows_iff_signedIn : signedIn.connected = true := by
  have hreach : Reachable (socketSystem fun d e => ¬ Disconnects d e) signedIn := by
    refine reachable_signedIn ?_
    rintro d e he ⟨ws, rfl, -⟩
    simp only [signIn, List.mem_cons, reduceCtorEq, List.not_mem_nil, or_self] at he
  exact (connection_follows_iff hreach).2.2 (fun _ _ => id) 0 rfl rfl

/-- She signs out and in again before the close event of the first socket, which then comes. -/
def signedInAgain : Dashboard :=
  (signedIn.run (.logout :: signIn (py "two") 1 1 ++ [.closed 0])).getD .initial

/-- The second socket is open, and the dashboard says that it is not. -/
theorem connected_lost : ¬ ∀ d, Reachable (socketSystem fun _ _ => True) d → ∀ ws,
    d.socketRef = some ws → d.readyState ws = some .opened → d.connected = true := by
  intro h
  have hsigned : Reachable (socketSystem fun _ _ => True) signedIn :=
    reachable_signedIn fun _ _ _ => trivial
  have h₁ := socket_step hsigned trivial (e := .logout) trivial rfl
  have h₂ := socket_step h₁ trivial (e := .startSession (py "two") (py "alice")) trivial rfl
  have h₃ := socket_step h₂ trivial (e := .refreshStats (py "two") .createToken) trivial rfl
  have h₄ := socket_step h₃ trivial (e := .settle 1 (.response 500)) trivial rfl
  have h₅ := socket_step h₄ trivial (e := .opened 1) rfl rfl
  have h₆ : Reachable (socketSystem fun _ _ => True) signedInAgain :=
    socket_step h₅ trivial (e := .closed 0) ⟨.closing, rfl, ReadyState.noConfusion⟩ rfl
  exact absurd (h signedInAgain h₆ 1 rfl rfl) (by decide)

end Frontend
end ChannelWire
