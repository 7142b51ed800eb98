import ChannelWire.Core.OutputStream
import ChannelWire.Core.Replies
import ChannelWire.Gateway.Session
import Mathlib.Data.List.Infix

/-!
# The core and its sessions

A core server, any number of sessions of one gateway process, and its database.  A session is
named by the number of its connection to the core.  The other connections of the core are not
constrained: they belong to command line clients, to the endpoints that open a connection for one
query, or to anyone else.

A session whose browser is gone between the answer to `HELLO` and the `try` of the endpoint is
abandoned: the endpoint raises, and nothing it has taken is released (`State.abandon`).

The connection is a byte stream in each direction.  What the core received from a session is a
prefix of what the session wrote (`Delivered`), and `core_read` reads from what the core sent
(`State.nextFrame`); how far the core and the two tasks of each session are is up to the run.
-/

namespace ChannelWire
namespace Gateway

/-- The core, the sessions, the database, and `active_gateway_users`, where no entry is `0`. -/
structure State where
  core : Core.Server
  sessions : ℕ → Option Session
  db : Database
  active : PyStr → ℕ

namespace State

/-- Overwrite a session. -/
def setSession (s : State) (k : ℕ) (x : Session) : State :=
  { s with sessions := Function.update s.sessions k (some x) }

/-- The frame `core_read` returns next, if the core has sent it. -/
def nextFrame (s : State) (k : ℕ) (x : Session) : Option Frame :=
  (coreRead ((Core.sentTo k s.core.trace).drop (pyFraming.encodeAll x.reads).length)).map Prod.fst

/-- A frame is read. -/
def read (s : State) (k : ℕ) (x : Session) (frame : Frame) : State :=
  match x.phase with
  | .registering =>
    let y := x.registered frame
    let name := x.username.name
    let s := s.setSession k y
    if y.phase = .running then
      { s with active := Function.update s.active name (s.active name + 1) }
    else s
  | .running | .over =>
    let (y, db) := x.pumpCoreToWs s.active s.db frame
    { s.setSession k y with db := db }

/-- The browser is gone when the session has registered.  `accept` raises, or, when the session is
counted, `send_json` does; both stand before the `try`, so the connection to the core stays open and
the session is not counted out. -/
def abandon (s : State) (k : ℕ) (x : Session) (frame : Frame) (counted : Bool) : State :=
  let name := x.username.name
  let s := s.setSession k (x.abandoned frame)
  if counted then { s with active := Function.update s.active name (s.active name + 1) } else s

/-- A message of the browser is read. -/
def command (s : State) (k : ℕ) (x : Session) (loaded : Except ValueError Json) : State :=
  let (y, db) := x.pumpWsToCore s.db loaded
  { s.setSession k y with db := db }

/-- `websocket_endpoint` returns; the `finally` clause counts the session out.  If `task.result()`
did not raise, the other task is cancelled; if it did, the other task is left behind. -/
def finish (s : State) (k : ℕ) (x : Session) (cancelled : Bool) : State :=
  let name := x.username.name
  let s := if x.phase = .running then
      { s with active := Function.update s.active name (s.active name - 1) }
    else s
  s.setSession k (x.finished cancelled)

/-- `core_task` ends with an exception: the connection was closed, or the browser is gone. -/
def halt (s : State) (k : ℕ) (x : Session) : State := s.setSession k { x with reading := false }

end State

/-- The core has received from every session a prefix of what the session wrote. -/
def Delivered (s : State) : Prop :=
  ∀ k x, s.sessions k = some x →
    Core.receivedBy k s.core.trace <+: cwFraming.encodeAll (x.sent.map Sent.frame)

/-- What happens. -/
inductive Event where
  /-- A step of the core. -/
  | core (t : Core.Server)
  /-- A browser with a token for `u` opened a session, on connection `k`. -/
  | connect (k : ℕ) (u : Username)
  /-- A session reads a frame of the core. -/
  | read (k : ℕ)
  /-- A session has registered, but its browser is gone. -/
  | abandon (k : ℕ) (counted : Bool)
  /-- A session reads a message of its browser. -/
  | command (k : ℕ) (loaded : Except ValueError Json)
  /-- A session ends. -/
  | finish (k : ℕ) (cancelled : Bool)
  /-- The task of a session that reads from the core ends. -/
  | halt (k : ℕ)
  /-- `POST /auth/dev-token`. -/
  | devToken (u : Username)
  /-- `POST /auth/register`. -/
  | register (u : Username) (passwordHash : PyStr)

/-- The steps.  A connection gets its session before anything was received from it.  A session
can end at any time: its browser or the core may close the connection, and a task that ended ends
it.  A task that is left behind goes on as long as it finds something to read. -/
inductive Step : State → Event → State → Prop where
  | core {s : State} {t : Core.Server} : Core.Step s.core t → Delivered { s with core := t } →
      Step s (.core t) { s with core := t }
  | connect {s : State} {k : ℕ} {u : Username} : s.sessions k = none →
      .accepted k ∈ s.core.trace →
      (∀ e ∈ s.core.trace, e.Mentions k → e = .accepted k ∨ ∃ reason, e = .closed k reason) →
      Step s (.connect k u) (s.setSession k (openRegisteredCore u))
  | read {s : State} {k : ℕ} {x : Session} {frame : Frame} : s.sessions k = some x →
      x.phase = .registering ∨ x.phase ≠ .registering ∧ x.reading = true →
      s.nextFrame k x = some frame → Step s (.read k) (s.read k x frame)
  | abandon {s : State} {k : ℕ} {x : Session} {frame : Frame} {counted : Bool} :
      s.sessions k = some x → x.phase = .registering → s.nextFrame k x = some frame →
      frame.type = ServerMsgType.ok.toByte →
      Step s (.abandon k counted) (s.abandon k x frame counted)
  | command {s : State} {k : ℕ} {x : Session} {loaded : Except ValueError Json} :
      s.sessions k = some x → x.phase ≠ .registering → x.writing = true →
      Step s (.command k loaded) (s.command k x loaded)
  | finish {s : State} {k : ℕ} {x : Session} {cancelled : Bool} : s.sessions k = some x →
      x.phase ≠ .over → Step s (.finish k cancelled) (s.finish k x cancelled)
  | halt {s : State} {k : ℕ} {x : Session} : s.sessions k = some x → x.reading = true →
      Step s (.halt k) (s.halt k x)
  | devToken {s : State} {u : Username} {db : Database} : devToken s.db u.name = some db →
      Step s (.devToken u) { s with db := db }
  | register {s : State} {u : Username} {passwordHash : PyStr} {db : Database} :
      register s.db u.name passwordHash = some db →
      Step s (.register u passwordHash) { s with db := db }

/-- The core has just started and there is no session. -/
def Initial (s : State) : Prop :=
  Core.system.init s.core ∧ s.sessions = (fun _ => none) ∧ s.active = fun _ => 0

/-- The runs whose events all meet a condition. -/
def system (admits : State → Event → Prop) : Transition.System State :=
  .ofEvents Initial Step admits

/-- The states of these runs. -/
abbrev Reachable (admits : State → Event → Prop) (s : State) : Prop :=
  Transition.Reachable (system admits) s

/-! ## What a session does -/

/-- The frame of a command that `core_payload_for_command` accepted, with the entry of
`pending_dms` that is made for a `dm`. -/
def Sent.IsCommand (c : Sent) : Prop :=
  ∃ message msgType payload, corePayloadForCommand message = .ok (msgType, payload) ∧
    c.frame = ⟨msgType.toByte, payload⟩ ∧ payload.length < 4294967296 ∧
    c.dm = if msgType = .dm then
      some ((message.getStr "to").getD [], (message.getStr "text").getD []) else none

theorem Sent.IsCommand.ne_hello {c : Sent} (h : c.IsCommand) :
    c.frame.type ≠ ClientMsgType.hello.toByte := by
  obtain ⟨message, msgType, payload, hmessage, hframe, -, -⟩ := h
  intro htype
  rw [hframe] at htype
  obtain rfl := ClientMsgType.toByte_inj.mp htype
  exact (corePayloadForCommand_ok hmessage).2.1

/-- The entry of `pending_dms` names the target and the text of the frame. -/
theorem Sent.IsCommand.dm_iff {c : Sent} (h : c.IsCommand) :
    c.dm.isSome = true ↔ c.frame.type = ClientMsgType.dm.toByte := by
  obtain ⟨message, msgType, payload, -, hframe, -, hdm⟩ := h
  rw [hdm, hframe, ClientMsgType.toByte_inj]
  split_ifs with htype
  · exact iff_of_true rfl htype
  · exact iff_of_false (by decide) htype

theorem Sent.IsCommand.payload {c : Sent} (h : c.IsCommand) {target text : PyStr}
    (hdm : c.dm = some (target, text)) : stringPayload [target, text] = .ok c.frame.payload := by
  obtain ⟨message, msgType, payload, hmessage, hframe, -, hentry⟩ := h
  rw [hdm] at hentry
  split_ifs at hentry with htype
  subst htype
  obtain ⟨-, ⟨t, txt, hstrings, -⟩, hpayload⟩ := corePayloadForCommand_ok hmessage
  obtain ⟨rfl, rfl⟩ := Prod.mk.inj (Option.some.inj hentry)
  rw [hframe]
  have hvalues : commandStrings message .dm =
      [(message.getStr "to").getD [], (message.getStr "text").getD []] := by
    rw [commandStrings] at hstrings ⊢
    cases hto : message.getStr "to" <;> cases htx : message.getStr "text" <;>
      rw [hto, htx] at hstrings <;> first | rfl | cases hstrings
  rwa [hvalues] at hpayload

namespace Session

/-- One round of `pump_core_to_ws` reads the frame, and nothing is written. -/
structure Reads (x y : Session) (frame : Frame) : Prop where
  username : y.username = x.username
  phase : y.phase = x.phase
  writing : y.writing = x.writing
  sent : y.sent = x.sent
  reads : y.reads = x.reads ++ [frame]

/-- One round of `pump_ws_to_core` reads nothing and stores no message; it writes the frame of a
command, or nothing. -/
structure Writes (x y : Session) : Prop where
  username : y.username = x.username
  phase : y.phase = x.phase
  reading : y.reading = x.reading
  reads : y.reads = x.reads
  stored : y.stored = x.stored
  sent : (y.sent = x.sent ∧ (y.writing = true → y.pendingDms = x.pendingDms)) ∨
    ∃ c : Sent, c.IsCommand ∧ y.sent = x.sent ++ [c] ∧
      y.pendingDms = x.pendingDms ++ c.dm.toList

theorem registered_username (x : Session) (frame : Frame) :
    (x.registered frame).username = x.username := by
  unfold registered
  simp only
  split_ifs <;> rfl

theorem registered_reads (x : Session) (frame : Frame) :
    (x.registered frame).reads = x.reads ++ [frame] := by
  unfold registered
  simp only
  split_ifs <;> rfl

theorem registered_stored (x : Session) (frame : Frame) :
    (x.registered frame).stored = x.stored := by
  unfold registered
  simp only
  split_ifs <;> rfl

theorem save_reads {x z : Session} {frame : Frame} (h : Reads z x frame) (index : ℕ)
    (tx : Transaction) (own : Bool) (event : GatewayEvent) :
    Reads z (x.save index tx own event).1 frame := by
  unfold save
  cases tx.commit with
  | none => exact ⟨h.username, h.phase, h.writing, h.sent, h.reads⟩
  | some db => exact ⟨h.username, h.phase, h.writing, h.sent, h.reads⟩

theorem pumpCoreToWs_reads (active : PyStr → ℕ) (db : Database) (x : Session) (frame : Frame) :
    Reads x (x.pumpCoreToWs active db frame).1 frame := by
  have hread : Reads x { x with reads := x.reads ++ [frame] } frame := ⟨rfl, rfl, rfl, rfl, rfl⟩
  have hshow : ∀ shown, Reads x (({ x with reads := x.reads ++ [frame] }).sendJson shown) frame :=
    fun _ => ⟨rfl, rfl, rfl, rfl, rfl⟩
  have hpop : ∀ pendingDms, Reads x
      { x with reads := x.reads ++ [frame], pendingDms := pendingDms } frame :=
    fun _ => ⟨rfl, rfl, rfl, rfl, rfl⟩
  unfold pumpCoreToWs
  simp only
  split
  · exact ⟨rfl, rfl, rfl, rfl, rfl⟩
  · split
    · split_ifs
      · exact save_reads hread ..
      · exact hshow _
    · split_ifs
      · exact save_reads hread ..
      · exact hshow _
    · split_ifs
      · split
        · exact hshow _
        · exact save_reads (hpop _) ..
      · exact hshow _
    · exact ⟨rfl, rfl, rfl, rfl, rfl⟩
    · exact hshow _

theorem coreSend_writes {x z : Session} {message : Dict} {msgType : ClientMsgType}
    {payload : Bytes} {dm : Option (PyStr × PyStr)}
    (hmessage : corePayloadForCommand message = .ok (msgType, payload))
    (hdm : dm = if msgType = .dm then
      some ((message.getStr "to").getD [], (message.getStr "text").getD []) else none)
    (hz : z.username = x.username ∧ z.phase = x.phase ∧ z.reading = x.reading ∧
      z.reads = x.reads ∧ z.stored = x.stored ∧ z.sent = x.sent ∧
      z.pendingDms = x.pendingDms ++ dm.toList) : Writes x (z.coreSend msgType payload dm) := by
  obtain ⟨husername, hphase, hreading, hreads, hstored, hsent, hpending⟩ := hz
  unfold coreSend encodeFrame
  split
  · exact ⟨husername, hphase, hreading, hreads, hstored, .inl ⟨hsent, nofun⟩⟩
  · next hencode =>
    split_ifs at hencode with hlarge
    refine ⟨husername, hphase, hreading, hreads, hstored, .inr ⟨⟨⟨msgType.toByte, payload⟩, dm⟩,
      ⟨message, msgType, payload, hmessage, rfl, by omega, hdm⟩, ?_, hpending⟩⟩
    show z.sent ++ _ = _
    rw [hsent]

theorem pumpWsToCore_writes (db : Database) (x : Session) (loaded : Except ValueError Json) :
    Writes x (x.pumpWsToCore db loaded).1 := by
  have hsame : x.pendingDms = x.pendingDms ++ (none : Option (PyStr × PyStr)).toList :=
    (List.append_nil _).symm
  unfold pumpWsToCore
  split
  · exact ⟨rfl, rfl, rfl, rfl, rfl, .inl ⟨rfl, fun _ => rfl⟩⟩
  · next message =>
    split
    · exact ⟨rfl, rfl, rfl, rfl, rfl, .inl ⟨rfl, fun _ => rfl⟩⟩
    · next msgType payload hmessage =>
      cases msgType with
      | join | switch =>
        simp only
        split
        · exact ⟨rfl, rfl, rfl, rfl, rfl, .inl ⟨rfl, nofun⟩⟩
        · exact coreSend_writes hmessage rfl ⟨rfl, rfl, rfl, rfl, rfl, rfl, hsame⟩
      | dm => exact coreSend_writes hmessage rfl ⟨rfl, rfl, rfl, rfl, rfl, rfl, rfl⟩
      | hello | leave | say | who | list | nick | quit | stats =>
        exact coreSend_writes hmessage rfl ⟨rfl, rfl, rfl, rfl, rfl, rfl, hsame⟩
  · exact ⟨rfl, rfl, rfl, rfl, rfl, .inl ⟨rfl, nofun⟩⟩

end Session

/-! ## What an event does to a session -/

/-- How the session of connection `k` came to be `y` by an event in state `s`. -/
inductive Becomes (s : State) (k : ℕ) : Event → Session → Prop where
  | idle {e : Event} {y : Session} : s.sessions k = some y → Becomes s k e y
  | connect {u : Username} : s.sessions k = none → .accepted k ∈ s.core.trace →
      (∀ e ∈ s.core.trace, e.Mentions k → e = .accepted k ∨ ∃ reason, e = .closed k reason) →
      Becomes s k (.connect k u) (openRegisteredCore u)
  | registered {x : Session} {frame : Frame} : s.sessions k = some x →
      x.phase = .registering → s.nextFrame k x = some frame →
      Becomes s k (.read k) (x.registered frame)
  | abandoned {x : Session} {frame : Frame} {counted : Bool} : s.sessions k = some x →
      x.phase = .registering → s.nextFrame k x = some frame →
      frame.type = ServerMsgType.ok.toByte →
      Becomes s k (.abandon k counted) (x.abandoned frame)
  | read {x : Session} {frame : Frame} : s.sessions k = some x → x.phase ≠ .registering →
      x.reading = true → s.nextFrame k x = some frame →
      Becomes s k (.read k) (x.pumpCoreToWs s.active s.db frame).1
  | command {x : Session} {loaded : Except ValueError Json} : s.sessions k = some x →
      x.phase ≠ .registering → x.writing = true →
      Becomes s k (.command k loaded) (x.pumpWsToCore s.db loaded).1
  | finish {x : Session} {cancelled : Bool} : s.sessions k = some x →
      Becomes s k (.finish k cancelled) (x.finished cancelled)
  | halt {x : Session} : s.sessions k = some x → x.reading = true →
      Becomes s k (.halt k) { x with reading := false }

/-- After the answer to `HELLO`, a frame is read by `pump_core_to_ws`. -/
theorem State.read_eq {s : State} {k : ℕ} {x : Session} {frame : Frame}
    (h : x.phase ≠ .registering) : s.read k x frame =
      { s.setSession k (x.pumpCoreToWs s.active s.db frame).1 with
        db := (x.pumpCoreToWs s.active s.db frame).2 } := by
  unfold State.read
  cases hphase : x.phase with
  | registering => exact absurd hphase h
  | _ => rfl

/-- The session `k` was overwritten with `y`. -/
theorem becomes_of_setSession {s t : State} {j k : ℕ} {x y : Session} {e : Event}
    (ht : t.sessions = Function.update s.sessions j (some x)) (hy : t.sessions k = some y)
    (h : Becomes s j e x) : Becomes s k e y := by
  rw [ht] at hy
  rcases eq_or_ne k j with rfl | hne
  · rw [Function.update_self] at hy
    rwa [← Option.some.inj hy]
  · rw [Function.update_of_ne hne] at hy
    exact .idle hy

theorem Step.becomes {s t : State} {e : Event} (h : Step s e t) {k : ℕ} {y : Session}
    (hy : t.sessions k = some y) : Becomes s k e y := by
  cases h with
  | core _ _ => exact .idle hy
  | connect hnone hacc hmentions =>
    exact becomes_of_setSession rfl hy (.connect hnone hacc hmentions)
  | read hx hphase hnext =>
    rcases hphase with hphase | ⟨hphase, hreading⟩
    · unfold State.read at hy
      rw [hphase] at hy
      simp only at hy
      refine becomes_of_setSession (t := s.setSession _ _) rfl ?_ (.registered hx hphase hnext)
      split_ifs at hy <;> exact hy
    · rw [State.read_eq hphase] at hy
      exact becomes_of_setSession (t := s.setSession _ _) rfl hy (.read hx hphase hreading hnext)
  | abandon hx hphase hnext htype =>
    unfold State.abandon at hy
    refine becomes_of_setSession (t := s.setSession _ _) rfl ?_ (.abandoned hx hphase hnext htype)
    simp only at hy
    split_ifs at hy <;> exact hy
  | command hx hphase hwriting =>
    exact becomes_of_setSession (t := s.setSession _ _) rfl hy (.command hx hphase hwriting)
  | finish hx _ =>
    unfold State.finish at hy
    refine becomes_of_setSession (s := s) (t := s.setSession _ _) rfl ?_ (.finish hx)
    simp only at hy
    split_ifs at hy <;> exact hy
  | halt hx hreading => exact becomes_of_setSession (t := s.setSession _ _) rfl hy (.halt hx hreading)
  | devToken _ => exact .idle hy
  | register _ => exact .idle hy

/-- The core makes its own steps, and nobody else's event changes it. -/
theorem Step.core_cases {s t : State} {e : Event} (h : Step s e t) :
    (e = .core t.core ∧ Core.Step s.core t.core ∧ t.sessions = s.sessions ∧ Delivered t) ∨
      t.core = s.core := by
  cases h with
  | core hcore hdelivered => exact .inl ⟨rfl, hcore, rfl, hdelivered⟩
  | read _ hphase _ =>
    refine .inr ?_
    rcases hphase with hphase | ⟨hphase, -⟩
    · unfold State.read
      rw [hphase]
      simp only
      split_ifs <;> rfl
    · rw [State.read_eq hphase]
      rfl
  | abandon _ _ _ _ =>
    refine .inr ?_
    unfold State.abandon
    simp only
    split_ifs <;> rfl
  | finish _ _ =>
    refine .inr ?_
    unfold State.finish
    simp only
    split_ifs <;> rfl
  | connect _ _ _ | command _ _ _ | halt _ _ | devToken _ | register _ => exact .inr rfl

/-! ## Every run -/

variable {admits : State → Event → Prop}

theorem Reachable.core {s : State} (h : Reachable admits s) : Core.Reachable s.core := by
  refine Transition.Reachable.invariant (P := fun s => Core.Reachable s.core) ?_ ?_ h
  · rintro s ⟨hcore, -, -⟩
    exact .init hcore
  · rintro s t - hs ⟨e, -, hst⟩
    rcases hst.core_cases with ⟨-, hcore, -, -⟩ | heq
    · exact .step hs hcore
    · rw [heq]
      exact hs

/-- **A session and its connection**: it wrote a `HELLO` and then commands, the core received a
prefix of that, and it read a prefix of what was enqueued to it. -/
structure SessionOk (s : State) (k : ℕ) (x : Session) : Prop where
  accepted : .accepted k ∈ s.core.trace
  delivered : Core.receivedBy k s.core.trace <+: cwFraming.encodeAll (x.sent.map Sent.frame)
  sent : ∃ cs, x.sent = ⟨helloFrame x.username, none⟩ :: cs ∧ ∀ c ∈ cs, c.IsCommand
  reads : x.reads <+: Core.enqueuedTo k s.core.trace
  fresh : x.phase = .registering → x = openRegisteredCore x.username
  /-- The tasks were created when an `OK` was read. -/
  running : x.phase = .running ∨ x.reading = true → ∃ f ∈ x.reads, f.type = ServerMsgType.ok.toByte

/-- **What `core_read` returns is the next frame that was enqueued.** -/
theorem next_isPrefix {core : Core.Server} {k : ℕ} {reads : List Frame} {frame : Frame}
    (hcore : Core.OutputOk core) (hreads : reads <+: Core.enqueuedTo k core.trace)
    (h : (coreRead ((Core.sentTo k core.trace).drop (pyFraming.encodeAll reads).length)).map
      Prod.fst = some frame) : reads ++ [frame] <+: Core.enqueuedTo k core.trace := by
  obtain ⟨rest, hrest⟩ := hreads
  have hsent := hcore.sent k
  have hsmall := hcore.small k
  rw [← hrest] at hsent hsmall ⊢
  rw [StreamDecoder.Codec.encodeAll_append] at hsent
  have hdrop : (Core.sentTo k core.trace).drop (pyFraming.encodeAll reads).length <+:
      pyFraming.encodeAll rest := by
    have hle := hsent.drop (pyFraming.encodeAll reads).length
    rwa [List.drop_left] at hle
  have hvalid : ∀ f ∈ rest, pyFraming.Valid f := fun f hf =>
    pyFraming_valid.mpr ((hsmall f (List.mem_append_right _ hf)).trans (by decide))
  have hparse := StreamDecoder.Codec.parse_prefix hvalid hdrop
  rw [coreRead_eq] at h
  split at h
  · next f n hhead =>
    rw [StreamDecoder.Decoder.parse_of_item hhead] at hparse
    obtain ⟨rest', rfl⟩ := hparse
    rw [← Option.some.inj h]
    exact ⟨_, by rw [List.append_assoc]; rfl⟩
  · cases h

theorem State.nextFrame_prefix {s : State} {k : ℕ} {x : Session} {frame : Frame}
    (hcore : Core.OutputOk s.core) (hreads : x.reads <+: Core.enqueuedTo k s.core.trace)
    (h : s.nextFrame k x = some frame) :
    x.reads ++ [frame] <+: Core.enqueuedTo k s.core.trace := next_isPrefix hcore hreads h

/-- Nothing was received yet on a connection for which a session is opened. -/
theorem flatMap_eq_nil_of_new {α : Type*} {f : Core.Effect → List α} {k : ℕ}
    {trace : List Core.Effect} (hf : ∀ e, ¬ e.Mentions k → f e = [])
    (haccepted : f (.accepted k) = []) (hclosed : ∀ reason, f (.closed k reason) = [])
    (h : ∀ e ∈ trace, e.Mentions k → e = .accepted k ∨ ∃ reason, e = .closed k reason) :
    trace.flatMap f = [] := by
  refine List.flatMap_eq_nil_iff.mpr fun e he => ?_
  by_cases hm : e.Mentions k
  · rcases h e he hm with rfl | ⟨reason, rfl⟩
    · exact haccepted
    · exact hclosed reason
  · exact hf e hm

theorem handledBy_eq_nil_of_new {k : ℕ} {trace : List Core.Effect}
    (h : ∀ e ∈ trace, e.Mentions k → e = .accepted k ∨ ∃ reason, e = .closed k reason) :
    Core.handledBy k trace = [] :=
  flatMap_eq_nil_of_new (fun _ => Core.Effect.handledBy_of_not_mentions) rfl (fun _ => rfl) h

theorem SessionOk.step {s t : State} {e : Event} {k : ℕ} {y : Session}
    (hs : ∀ k x, s.sessions k = some x → SessionOk s k x) (hcore : Core.OutputOk s.core)
    (h : Step s e t) (hy : t.sessions k = some y) : SessionOk t k y := by
  rcases h.core_cases with ⟨-, hstep, hsame, hdelivered⟩ | heq
  · rw [hsame] at hy
    have hx := hs k y hy
    obtain ⟨es, hes⟩ := hstep.trace_prefix
    refine ⟨?_, hdelivered k y (by rw [hsame]; exact hy), hx.sent, ?_, hx.fresh, hx.running⟩
    · rw [← hes]
      exact List.mem_append_left _ hx.accepted
    · rw [← hes, Core.enqueuedTo, List.flatMap_append]
      exact hx.reads.trans (List.prefix_append ..)
  · cases h.becomes hy with
    | idle hx =>
      have hx := hs k y hx
      exact ⟨heq ▸ hx.accepted, heq ▸ hx.delivered, hx.sent, heq ▸ hx.reads, hx.fresh,
        hx.running⟩
    | connect _ hacc hmentions =>
      refine ⟨heq ▸ hacc, ?_, ⟨[], rfl, fun _ h => absurd h List.not_mem_nil⟩,
        List.nil_prefix, fun _ => rfl, fun h => (by rcases h with h | h <;> cases h)⟩
      have hnone : Core.receivedBy k s.core.trace = [] := flatMap_eq_nil_of_new
        (fun _ => Core.Effect.receivedBy_of_not_mentions) rfl (fun _ => rfl) hmentions
      rw [heq, hnone]
      exact List.nil_prefix
    | registered hx hphase hnext =>
      have hx := hs k _ hx
      have hreads := State.nextFrame_prefix hcore hx.reads hnext
      unfold Session.registered
      simp only
      split_ifs with htype
      · exact ⟨heq ▸ hx.accepted, heq ▸ hx.delivered, hx.sent, heq ▸ hreads,
          fun h => (by cases h), fun _ => ⟨_, List.mem_concat_self, htype⟩⟩
      · refine ⟨heq ▸ hx.accepted, heq ▸ hx.delivered, hx.sent, heq ▸ hreads,
          fun h => (by cases h), fun h => ?_⟩
        have hfresh := hx.fresh hphase
        rw [hfresh] at h
        rcases h with h | h <;> cases h
    | abandoned hx hphase hnext htype =>
      have hx := hs k _ hx
      have hreads := State.nextFrame_prefix hcore hx.reads hnext
      exact ⟨heq ▸ hx.accepted, heq ▸ hx.delivered, hx.sent, heq ▸ hreads,
        fun h => (by cases h), fun _ => ⟨_, List.mem_concat_self, htype⟩⟩
    | @read x frame hx hphase hreading hnext =>
      have hx := hs k _ hx
      have hnew := Session.pumpCoreToWs_reads s.active s.db x frame
      refine ⟨heq ▸ hx.accepted, ?_, ?_, ?_, fun hreg => ?_, fun _ => ?_⟩
      · rw [heq, hnew.sent]
        exact hx.delivered
      · rw [hnew.sent, hnew.username]
        exact hx.sent
      · rw [heq, hnew.reads]
        exact State.nextFrame_prefix hcore hx.reads hnext
      · exact absurd (hnew.phase.symm.trans hreg) hphase
      · obtain ⟨f, hf, htype⟩ := hx.running (.inr hreading)
        rw [hnew.reads]
        exact ⟨f, List.mem_append_left _ hf, htype⟩
    | @command x loaded hx hphase _ =>
      have hx := hs k _ hx
      have hnew := Session.pumpWsToCore_writes s.db x loaded
      refine ⟨heq ▸ hx.accepted, ?_, ?_, ?_, fun hreg => ?_, fun hrun => ?_⟩
      · rw [heq]
        rcases hnew.sent with ⟨hsent, -⟩ | ⟨c, -, hsent, -⟩
        · rw [hsent]
          exact hx.delivered
        · rw [hsent, List.map_append, StreamDecoder.Codec.encodeAll_append]
          exact hx.delivered.trans (List.prefix_append ..)
      · obtain ⟨cs, hcs, hcommands⟩ := hx.sent
        rw [hnew.username]
        rcases hnew.sent with ⟨hsent, -⟩ | ⟨c, hc, hsent, -⟩
        · exact ⟨cs, hsent.trans hcs, hcommands⟩
        · refine ⟨cs ++ [c], by rw [hsent, hcs, List.cons_append], fun c' hc' => ?_⟩
          rcases List.mem_append.mp hc' with hc' | hc'
          · exact hcommands c' hc'
          · rwa [List.mem_singleton.mp hc']
      · rw [heq, hnew.reads]
        exact hx.reads
      · exact absurd (hnew.phase.symm.trans hreg) hphase
      · rw [hnew.phase, hnew.reading] at hrun
        rw [hnew.reads]
        exact hx.running hrun
    | finish hx =>
      have hx := hs k _ hx
      refine ⟨heq ▸ hx.accepted, heq ▸ hx.delivered, hx.sent, heq ▸ hx.reads,
        fun h => (by cases h), fun h => hx.running (.inr ?_)⟩
      exact h.elim (fun h => by cases h) fun h => (Bool.and_eq_true _ _ ▸ h).1
    | halt hx hreading =>
      have hx := hs k _ hx
      refine ⟨heq ▸ hx.accepted, heq ▸ hx.delivered, hx.sent, heq ▸ hx.reads, fun hreg => ?_,
        fun _ => hx.running (.inr hreading)⟩
      have hfresh := hx.fresh hreg
      rw [hfresh] at hreading
      cases hreading

theorem sessionOk {s : State} (h : Reachable admits s) {k : ℕ} {x : Session}
    (hx : s.sessions k = some x) : SessionOk s k x := by
  refine Transition.Reachable.invariant
    (P := fun s => ∀ k x, s.sessions k = some x → SessionOk s k x) ?_ ?_ h k x hx
  · rintro s ⟨-, hnone, -⟩ k x hx
    rw [hnone] at hx
    cases hx
  · rintro s t hr hs ⟨e, -, hst⟩ k y hy
    exact SessionOk.step hs (Core.outputOk (Reachable.core hr).moveReachable) hst hy

/-- The frames the core handled for a session are the first ones it wrote. -/
theorem SessionOk.handled {s : State} {k : ℕ} {x : Session} (hs : SessionOk s k x)
    (hcore : Core.InputOk s.core) :
    Core.handledBy k s.core.trace <+: x.sent.map Sent.frame := by
  have hspell : ∀ f ∈ x.sent.map Sent.frame, f.payload.length < 4294967296 := by
    obtain ⟨cs, hcs, hcommands⟩ := hs.sent
    rw [hcs, List.map_cons, List.forall_mem_cons]
    refine ⟨lt_of_le_of_lt (length_helloFrame_le x.username) (by decide), fun f hf => ?_⟩
    obtain ⟨c, hc, rfl⟩ := List.mem_map.mp hf
    obtain ⟨message, msgType, payload, -, hframe, hlen, -⟩ := hcommands c hc
    rw [hframe]
    exact hlen
  obtain ⟨r, hr⟩ := hs.delivered
  refine (hcore.handled k).trans (.trans ?_ (parse_encodeAll_isPrefix hspell))
  rw [← hr, StreamDecoder.Decoder.parse_append]
  exact List.prefix_append ..

end Gateway
end ChannelWire
