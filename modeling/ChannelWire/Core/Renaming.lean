import ChannelWire.Core.ChannelInvariant
import ChannelWire.Core.NameInvariant
import ChannelWire.Core.Replies

/-!
# Who a connection is

A client has no name until it registers, and changes it with `HELLO` or `NICK`.  `Step.name_cases`
says that there is no other way: in every step a client keeps its name and its registration, or
takes the name of a frame it sent (`TakesName`).

So a connection whose frames name only one user stays that user (`Named.step`), and what is sent to
others in its turns carries that user's name (`Turn.SaidAs`).
-/

namespace ChannelWire
namespace Core

/-! ## What an action does to a name -/

/-- The client keeps its name and its registration. -/
def SameName (s t : Server) (i : Slot) : Prop :=
  (t.clients i).registered = (s.clients i).registered ∧
    (t.clients i).username = (s.clients i).username

/-- The client has the name of its request. -/
structure Renamed (r : Request) (t : Server) (i : Slot) : Prop where
  slot : i = r.slot
  type : r.type = ClientMsgType.hello.toByte ∨ r.type = ClientMsgType.nick.toByte
  name : readName r.payload cwNameCap = some (t.clients i).username
  registered : (t.clients i).registered = true

namespace SameName

variable {s t u : Server} {i : Slot}

theorem of_eq (h : t.clients = s.clients) : SameName s t i := by
  rw [SameName, h]
  exact ⟨rfl, rfl⟩

theorem trans (h : SameName s t i) (h' : SameName t u i) : SameName s u i :=
  ⟨h'.1.trans h.1, h'.2.trans h.2⟩

/-- One client changes, and keeps its name unless it loses its connection. -/
theorem update {j : Slot} {c : Client} (ht : t.clients = Function.update s.clients j c)
    (hc : c.Live → c.registered = (s.clients j).registered ∧ c.username = (s.clients j).username)
    (hi : (t.clients i).Live) : SameName s t i := by
  rw [SameName, ht]
  rw [ht] at hi
  rcases eq_or_ne i j with rfl | hne
  · rw [Function.update_self] at hi ⊢
    exact hc hi
  · rw [Function.update_of_ne hne]
    exact ⟨rfl, rfl⟩

end SameName

theorem Action.name_cases {r : Request} {s t : Server} {i : Slot} (h : Action r s t)
    (hi : (t.clients i).Live) : SameName s t i ∨ Renamed r t i := by
  cases h with
  | push _ _ _ _ => exact .inl (.update (pushFrame_clients ..) (fun _ => ⟨rfl, rfl⟩) hi)
  | drop _ _ =>
    exact .inl (.update (overflowDisconnect_clients ..)
      (fun hc => absurd hc (Client.not_live_reset _)) hi)
  | rename htype _ hname _ =>
    rcases eq_or_ne i r.slot with rfl | hne
    · refine .inr ⟨rfl, htype, ?_, ?_⟩
      · rw [Server.setClient_self]
        exact hname
      · rw [Server.setClient_self]
    · refine .inl ?_
      rw [SameName, Server.setClient_of_ne hne]
      exact ⟨rfl, rfl⟩
  | openChannel _ _ _ => exact .inl (.of_eq rfl)
  | join _ _ _ _ => exact .inl (.update rfl (fun _ => ⟨rfl, rfl⟩) hi)
  | switch _ _ _ _ => exact .inl (.update rfl (fun _ => ⟨rfl, rfl⟩) hi)
  | leave _ _ => exact .inl (.update rfl (fun _ => ⟨rfl, rfl⟩) hi)
  | count _ _ => exact .inl (.of_eq rfl)
  | quit _ _ =>
    exact .inl (.update (disconnectClient_clients ..)
      (fun hc => absurd hc (Client.not_live_reset _)) hi)
  | announce _ _ _ _ _ _ => exact .inl (.of_eq rfl)

/-- **A handler gives a client the name of its request, or leaves its name alone.** -/
theorem Actions.name_cases {r : Request} {s t : Server} {i : Slot} (h : Actions r s t)
    (hi : (t.clients i).Live) : SameName s t i ∨ Renamed r t i := by
  induction h with
  | refl => exact .inl (.of_eq rfl)
  | tail _ hab ih =>
    obtain ⟨es, hsaid⟩ := hab.said
    rcases hab.name_cases hi with ⟨hreg, hname⟩ | hrenamed
    · rcases ih (hsaid.live i hi).1 with hsame | hold
      · exact .inl (hsame.trans ⟨hreg, hname⟩)
      · refine .inr ⟨hold.slot, hold.type, ?_, ?_⟩
        · rw [hname]
          exact hold.name
        · rw [hreg]
          exact hold.registered
    · exact .inr hrenamed

/-! ## What a frame does to a name -/

variable {s t : Server} {i : Slot} {type : UInt8} {payload : Bytes}

/-- A request that is neither a `HELLO` nor a `NICK` leaves all names alone. -/
theorem Actions.sameName {u : Server} {j : Slot} (h : Actions (request u i 0 payload) s t)
    (hj : (t.clients j).Live) : SameName s t j := by
  rcases h.name_cases hj with hname | hrenamed
  · exact hname
  · rcases hrenamed.type with h | h
    · exact absurd h (show (0 : UInt8) ≠ ClientMsgType.hello.toByte by decide)
    · exact absurd h (show (0 : UInt8) ≠ ClientMsgType.nick.toByte by decide)

/-- A name that is not accepted is answered like a frame of no known type. -/
theorem handleFrame_refused (hl : (s.clients i).Live)
    (htype : type = ClientMsgType.hello.toByte ∨ type = ClientMsgType.nick.toByte)
    (hrefused : ∀ name, readName payload cwNameCap = some name →
      usernameInUse s name i = true) :
    Actions (request s i 0 payload) s (handleFrame s i type payload) := by
  unfold handleFrame
  rcases htype with rfl | rfl
  · rw [ClientMsgType.ofByte_toByte]
    show Actions _ s (handleHello s i payload)
    unfold handleHello
    cases hname : readName payload cwNameCap with
    | none => exact error_actions (r := request s i 0 payload) hl
    | some name =>
      simp only
      rw [if_pos (hrefused name hname)]
      exact error_actions (r := request s i 0 payload) hl
  · rw [ClientMsgType.ofByte_toByte]
    show Actions _ s (handleNick s i payload)
    unfold handleNick
    cases hname : readName payload cwNameCap with
    | none => exact error_actions (r := request s i 0 payload) hl
    | some name =>
      simp only
      rw [if_pos (hrefused name hname)]
      exact error_actions (r := request s i 0 payload) hl

/-- So is whatever else a client sends that is not registered. -/
theorem handleFrame_unregistered (hl : (s.clients i).Live)
    (hreg : (s.clients i).registered = false) (hjoined : ∀ idx, (s.clients i).joined idx = false)
    (hhello : type ≠ ClientMsgType.hello.toByte) (hnick : type ≠ ClientMsgType.nick.toByte) :
    Actions (request s i 0 payload) s (handleFrame s i type payload) := by
  have herror : ∀ text, Actions (request s i 0 payload) s (safeEnqueueText s i .error text) :=
    fun _ => error_actions (r := request s i 0 payload) hl
  have hne : (request s i 0 payload).type ≠ ClientMsgType.dm.toByte := by
    show (0 : UInt8) ≠ ClientMsgType.dm.toByte
    decide
  unfold handleFrame
  cases ht : ClientMsgType.ofByte type with
  | none => exact herror _
  | some t =>
    obtain rfl := ClientMsgType.ofByte_eq_some.mp ht
    cases t with
    | hello => exact absurd rfl hhello
    | nick => exact absurd rfl hnick
    | join =>
      show Actions _ s (joinChannel s i payload true)
      rw [joinChannel, if_pos hreg]
      exact herror _
    | switch =>
      show Actions _ s (switchChannel s i payload)
      rw [switchChannel, if_pos hreg]
      exact herror _
    | leave =>
      show Actions _ s (leaveChannel s i payload)
      unfold leaveChannel
      split
      · exact herror _
      · next channel _ =>
        have hnone : (findChannel s channel).filter (s.clients i).joined = none := by
          cases findChannel s channel with
          | none => rfl
          | some idx => exact Option.filter_some_neg (hjoined idx)
        simp only
        rw [hnone]
        exact herror _
    | say =>
      show Actions _ s (handleSay s i payload)
      rw [handleSay, if_pos hreg]
      exact herror _
    | dm =>
      show Actions _ s (handleDm s i payload)
      rw [handleDm, if_pos hreg]
      exact herror _
    | who => exact sendWho_actions (r := request s i 0 payload) hne hl
    | list => exact sendList_actions (r := request s i 0 payload) hne hl
    | quit => exact .single (.quit hl (.inl ⟨rfl, rfl⟩))
    | stats => exact sendStats_actions (r := request s i 0 payload) hne hl

/-! ## What a step does to a name -/

/-- The step from `s` to `t` handles a `HELLO` or `NICK` of the client with a name that no other
client has. -/
structure TakesName (s t : Server) (i : Slot) (name : Bytes) (frame : Frame) : Prop where
  live : (s.clients i).Live
  head : ∃ n, frameHead cwMaxPayloadSize (s.clients i).inbuf = .item frame n
  step : t = (drainTurn s i).2
  type : frame.type = ClientMsgType.hello.toByte ∨ frame.type = ClientMsgType.nick.toByte
  read : readName frame.payload cwNameCap = some name
  free : usernameInUse s name i = false

/-- What a step does to the name of a client that is live after it. -/
inductive NameCase (s t : Server) (i : Slot) : Prop where
  | accepted : (t.clients i).conn = s.stats.totalConnections + 1 →
    (t.clients i).registered = false → NameCase s t i
  | same : (s.clients i).Live → (t.clients i).conn = (s.clients i).conn → SameName s t i →
    NameCase s t i
  | takes (frame : Frame) : TakesName s t i (t.clients i).username frame →
    (t.clients i).conn = (s.clients i).conn → (t.clients i).registered = true → NameCase s t i

/-- A name taken in a frame is one that was free. -/
theorem serveFrame_name_cases {frame : Frame} {n : ℕ} {j : Slot} (hl : (s.clients i).Live)
    (hhead : frameHead cwMaxPayloadSize (s.clients i).inbuf = .item frame n)
    (ht : t = (drainTurn s i).2) (hj : (t.clients j).Live) : NameCase s t j := by
  have hserve : t = (serveFrame s i frame n).2 := by rw [ht, drainTurn_eq, hhead]
  obtain ⟨inbuf, hclient⟩ := serveFrame_clients s i frame n j
  let u := s.emit (.handled (s.clients i).conn frame)
  let v := handleFrame u i frame.type frame.payload
  have hcj : t.clients j = { v.clients j with inbuf := inbuf } := by rw [hserve, hclient]
  have hlv : (v.clients j).Live := by
    rw [hcj] at hj
    exact hj
  have hsame : ∀ {r : Request}, Actions r u v → SameName u v j → NameCase s t j := by
    intro r hactions hname
    obtain ⟨es, hsaid⟩ := hactions.said
    obtain ⟨hlj, hconn⟩ := hsaid.live j hlv
    refine .same hlj ?_ ?_
    · rw [hcj]
      exact hconn
    · rw [SameName, hcj]
      exact hname
  have hactions := handleFrame_actions (s := u) (i := i) frame.type frame.payload hl
  rcases Actions.name_cases hactions hlv with hname | hrenamed
  · exact hsame hactions hname
  · obtain rfl : j = i := hrenamed.slot
    cases huse : usernameInUse s (v.clients j).username j with
    | false =>
      obtain ⟨es, hsaid⟩ := hactions.said
      have hname : (t.clients j).username = (v.clients j).username := by rw [hcj]
      refine .takes frame ⟨hl, ⟨n, hhead⟩, ht, hrenamed.type, ?_, ?_⟩ ?_ ?_
      · rw [hname]
        exact hrenamed.name
      · rw [hname]
        exact huse
      · rw [hcj]
        exact (hsaid.live j hlv).2
      · rw [hcj]
        exact hrenamed.registered
    | true =>
      -- the name was not free: then the frame is answered with an error
      have hrefused := handleFrame_refused (s := u) (i := j) hl hrenamed.type
        fun name hread => by
          rw [← Option.some.inj (hrenamed.name.symm.trans hread)]
          exact huse
      exact hsame hrefused (Actions.sameName hrefused hlv)

/-- **A client keeps its name or takes that of a frame it sent.** -/
theorem Step.name_cases (h : Step s t) {j : Slot} (hj : (t.clients j).Live) : NameCase s t j := by
  have hsame : ∀ {k : Slot} {c : Client}, t.clients = Function.update s.clients k c →
      (c.Live → (s.clients k).Live ∧ c.conn = (s.clients k).conn ∧
        c.registered = (s.clients k).registered ∧ c.username = (s.clients k).username) →
      NameCase s t j := by
    intro k c hclients hc
    have hname := SameName.update hclients (fun hl => (hc hl).2.2) hj
    rw [hclients] at hj
    rcases eq_or_ne j k with rfl | hne
    · rw [Function.update_self] at hj
      refine .same (hc hj).1 ?_ hname
      rw [hclients, Function.update_self]
      exact (hc hj).2.1
    · rw [Function.update_of_ne hne] at hj
      refine .same hj ?_ hname
      rw [hclients, Function.update_of_ne hne]
  cases h with
  | accept hfd =>
    unfold acceptConnection at hj ⊢
    split at hj
    · exact .same hj rfl (.of_eq rfl)
    · next fd _ _ slot _ =>
      have hclients : (occupySlot s slot fd).clients = Function.update s.clients slot
          { Client.blank with fd := fd, conn := s.stats.totalConnections + 1 } := rfl
      rcases eq_or_ne j slot with rfl | hne
      · refine .accepted ?_ ?_ <;> rw [hclients, Function.update_self]
        rfl
      · rw [hclients, Function.update_of_ne hne] at hj
        refine .same hj ?_ ?_
        · rw [hclients, Function.update_of_ne hne]
        · rw [SameName, hclients, Function.update_of_ne hne]
          exact ⟨rfl, rfl⟩
  | recv hl _ _ => exact hsame rfl fun _ => ⟨hl, rfl, rfl, rfl⟩
  | @drain i hl =>
    cases hhead : frameHead cwMaxPayloadSize (s.clients i).inbuf with
    | more =>
      have hdrain : (drainTurn s i).2 = s := by rw [drainTurn_eq, hhead]
      rw [hdrain] at hj ⊢
      exact .same hj rfl (.of_eq rfl)
    | bad =>
      have hdrain : (drainTurn s i).2 = rejectHeader s i := by rw [drainTurn_eq, hhead]
      rw [hdrain] at hj ⊢
      have hactions := rejectHeader_actions hl
      obtain ⟨es, hsaid⟩ := hactions.said
      obtain ⟨hlj, hconn⟩ := hsaid.live j hj
      have hname := Actions.sameName hactions hj
      exact .same hlj hconn hname
    | item frame n => exact serveFrame_name_cases hl hhead rfl hj
  | send hl hout _ _ =>
    obtain ⟨out, queuedBytes, hclients, -⟩ := takeSent_clients hout
    exact hsame hclients fun _ => ⟨hl, rfl, rfl, rfl⟩
  | disconnect hl =>
    exact hsame (disconnectClient_clients ..) fun hc => absurd hc (Client.not_live_reset _)

/-! ## Connections with one name -/

/-- The client of connection `k`, once registered, is `name`. -/
def Named (k : ℕ) (name : Bytes) (s : Server) : Prop :=
  ∀ i, (s.clients i).Live → (s.clients i).conn = k → (s.clients i).registered = true →
    (s.clients i).username = name

/-- **A connection that takes no other name keeps its name.** -/
theorem Named.step {k : ℕ} {name : Bytes} (hs : Named k name s) (h : Step s t)
    (htakes : ∀ i name' frame, (s.clients i).conn = k → TakesName s t i name' frame →
      name' = name) : Named k name t := by
  intro j hj hk hreg
  cases h.name_cases hj with
  | accepted _ hnot =>
    rw [hnot] at hreg
    cases hreg
  | same hlj hconn hname =>
    rw [hname.2]
    rw [hname.1] at hreg
    exact hs j hlj (hconn.symm.trans hk) hreg
  | takes frame htake hconn _ => exact htakes j _ frame (hconn.symm.trans hk) htake

/-- The senders that the messages of a turn carry are all `name`. -/
def Turn.SaidAs (name : Bytes) (turn : Turn) : Prop :=
  ∀ o ∈ turn.output, (o.2.type = ServerMsgType.chat.toByte →
      ∃ channel text, o.2.payload = ([channel, name, text].map stringField).flatten) ∧
    (o.2.type = ServerMsgType.dmRecv.toByte →
      ∃ text, o.2.payload = ([name, text].map stringField).flatten)

/-- **What a client says in a turn carries its name.** -/
theorem TakesTurn.saidAs {turn : Turn} {name : Bytes} (h : TakesTurn s t i turn)
    (hs : Named turn.conn name s) : turn.SaidAs name := by
  intro o ho
  obtain ⟨j, type, payload, -, -, hframe, hemits⟩ := h.sends o ho
  have hname : (requestOf turn s i).client.registered = true →
      (requestOf turn s i).client.username = name := hs i h.live h.conn.symm
  rw [hframe]
  refine ⟨fun htype => ?_, fun htype => ?_⟩
  · obtain rfl := ServerMsgType.toByte_inj.mp htype
    obtain ⟨-, hreg, channel, text, hpayload⟩ := hemits
    rw [hname hreg] at hpayload
    exact ⟨channel, text, hpayload⟩
  · obtain rfl := ServerMsgType.toByte_inj.mp htype
    obtain ⟨-, hreg, text, hpayload⟩ := hemits
    rw [hname hreg] at hpayload
    exact ⟨text, hpayload⟩

/-! ## Registered connections -/

/-- What is recorded when a frame is handled. -/
theorem drainTurn_trace {r : Request} {frame : Frame} {n : ℕ}
    (hhead : frameHead cwMaxPayloadSize (s.clients i).inbuf = .item frame n)
    (h : Actions r (s.emit (.handled (s.clients i).conn frame))
      (handleFrame (s.emit (.handled (s.clients i).conn frame)) i frame.type frame.payload)) :
    ∃ es, (drainTurn s i).2.trace = s.trace ++ .handled (s.clients i).conn frame :: es ∧
      (∀ e ∈ es, e.begins = none) ∧ ∀ o ∈ es.flatMap Effect.output, r.Sends s o := by
  obtain ⟨es, hsaid⟩ := h.said
  refine ⟨es, ?_, hsaid.begins, hsaid.sends⟩
  rw [drainTurn_eq, hhead]
  show (serveFrame s i frame n).2.trace = _
  rw [serveFrame_trace, hsaid.trace, Server.emit_trace, List.append_assoc]
  rfl

/-- The frame in which a name is taken is handled. -/
theorem TakesName.mem_handledBy {name : Bytes} {frame : Frame} (h : TakesName s t i name frame) :
    frame ∈ handledBy (s.clients i).conn t.trace := by
  obtain ⟨n, hhead⟩ := h.head
  obtain ⟨es, htrace, -⟩ := drainTurn_trace hhead (handleFrame_actions (i := i)
    (s := s.emit (.handled (s.clients i).conn frame)) frame.type frame.payload h.live)
  refine List.mem_flatMap.mpr ⟨.handled (s.clients i).conn frame, ?_, ?_⟩
  · rw [h.step, htrace]
    exact List.mem_append_right _ List.mem_cons_self
  · show frame ∈ if (s.clients i).conn = (s.clients i).conn then [frame] else []
    rw [if_pos rfl]
    exact List.mem_singleton_self frame

/-- A client that took a name had a frame handled. -/
theorem handled_of_registered (h : Reachable s) (hl : (s.clients i).Live)
    (hreg : (s.clients i).registered = true) : handledBy (s.clients i).conn s.trace ≠ [] := by
  refine Transition.Reachable.invariant (P := fun s => ∀ i, (s.clients i).Live →
    (s.clients i).registered = true → handledBy (s.clients i).conn s.trace ≠ []) ?_ ?_ h i hl hreg
  · rintro _ ⟨maxQueueBytes, heap, -, rfl⟩ i hi
    exact absurd hi Client.not_live_blank
  · intro s t _ hs hst j hj hreg
    obtain ⟨es, hes⟩ := hst.trace_prefix
    cases hst.name_cases hj with
    | accepted _ hnot =>
      rw [hnot] at hreg
      cases hreg
    | same hlj hconn hname =>
      rw [hname.1] at hreg
      rw [hconn, ← hes, handledBy, List.flatMap_append]
      exact List.append_ne_nil_of_left_ne_nil (hs j hlj hreg) _
    | takes frame htake hconn _ =>
      rw [hconn]
      exact List.ne_nil_of_mem htake.mem_handledBy

/-- A client whose name is accepted is registered. -/
theorem handleFrame_accepted {name : Bytes} (hl : (s.clients i).Live)
    (htype : type = ClientMsgType.hello.toByte ∨ type = ClientMsgType.nick.toByte)
    (hread : readName payload cwNameCap = some name) (hfree : usernameInUse s name i = false)
    (hafter : ((handleFrame s i type payload).clients i).Live) :
    ((handleFrame s i type payload).clients i).registered = true := by
  let u := s.setClient i
    { s.clients i with username := snprintf (cwNameCap + 1) name, registered := true }
  have hreg : (u.clients i).registered = true := by rw [Server.setClient_self]
  have hlu : (u.clients i).Live := by
    rw [Server.setClient_self]
    exact hl
  have hactions : Actions (request s i type payload) u (handleFrame s i type payload) := by
    unfold handleFrame
    rcases htype with rfl | rfl
    · rw [ClientMsgType.ofByte_toByte]
      show Actions _ u (handleHello s i payload)
      unfold handleHello
      rw [hread]
      simp only [hfree]
      exact ok_actions (t := .hello) rfl (iff_of_false (by decide) (by decide)) hlu
    · rw [ClientMsgType.ofByte_toByte]
      show Actions _ u (handleNick s i payload)
      unfold handleNick
      rw [hread]
      simp only [hfree]
      exact .trans (ok_actions (t := .nick) rfl (iff_of_false (by decide) (by decide)) hlu)
        (broadcastSystem_actions (r := request s i _ payload) rfl _ _)
  rcases hactions.name_cases hafter with hname | hrenamed
  · exact hname.1.trans hreg
  · exact hrenamed.registered

/-- An unregistered client takes a name, or is answered without an `OK`. -/
theorem handleFrame_registers (hl : (s.clients i).Live) (hreg : (s.clients i).registered = false)
    (hjoined : ∀ idx, (s.clients i).joined idx = false)
    (hafter : ((handleFrame s i type payload).clients i).Live) :
    ((handleFrame s i type payload).clients i).registered = true ∨
      Actions (request s i 0 payload) s (handleFrame s i type payload) := by
  by_cases hname : type = ClientMsgType.hello.toByte ∨ type = ClientMsgType.nick.toByte
  · by_cases hfree : ∃ name, readName payload cwNameCap = some name ∧
        usernameInUse s name i = false
    · obtain ⟨name, hread, huse⟩ := hfree
      exact .inl (handleFrame_accepted hl hname hread huse hafter)
    · refine .inr (handleFrame_refused hl hname fun name hread => ?_)
      by_contra huse
      exact hfree ⟨name, hread, by simpa using huse⟩
  · rw [not_or] at hname
    exact .inr (handleFrame_unregistered hl hreg hjoined hname.1 hname.2)

/-- In a turn of a client that is not registered afterwards no `OK` is enqueued. -/
theorem TakesTurn.no_ok {turn : Turn} (h : TakesTurn s t i turn) (hc : ChannelsOk s)
    (hafter : (t.clients i).Live) (hreg : (t.clients i).registered = false)
    (hbefore : (s.clients i).registered = false) :
    ∀ o ∈ turn.output, o.2.type ≠ ServerMsgType.ok.toByte := by
  have hok : ∀ {u : Server} {payload : Bytes} {o : ℕ × Frame},
      (Core.request u i 0 payload).Sends s o → o.2.type ≠ ServerMsgType.ok.toByte := by
    rintro u payload o ⟨j, type, text, -, -, hframe, hemits⟩ htype
    rw [hframe] at htype
    obtain rfl := ServerMsgType.toByte_inj.mp htype
    obtain ⟨-, t', ht', -⟩ := hemits
    cases t' <;> exact nomatch ht'
  intro o ho
  have hrequest := h.request
  cases hreq : turn.request with
  | none =>
    have hsends := h.sends o ho
    rw [requestOf, hreq] at hsends
    exact hok hsends
  | some frame =>
    rw [hreq] at hrequest
    obtain ⟨n, hhead⟩ := hrequest
    have hjoined : ∀ idx, (s.clients i).joined idx = false := fun idx =>
      Bool.eq_false_iff.mpr fun hj => by
        rw [(hc.clients i).registered idx hj] at hbefore
        cases hbefore
    obtain ⟨inbuf, hclient⟩ := serveFrame_clients s i frame n i
    have hserve : t = (serveFrame s i frame n).2 := by rw [h.step, drainTurn_eq, hhead]
    rw [hserve, hclient] at hafter hreg
    rcases handleFrame_registers (s := s.emit (.handled (s.clients i).conn frame)) h.live hbefore
      hjoined hafter with hregistered | hactions
    · exact absurd (hregistered.symm.trans hreg) (by decide)
    · obtain ⟨es, htrace, -, hsends⟩ := drainTurn_trace hhead hactions
      obtain ⟨e, es', htrace', -, -, houtput⟩ := h.trace
      rw [h.step, htrace] at htrace'
      obtain ⟨-, rfl⟩ := List.cons.inj (List.append_cancel_left htrace')
      rw [← houtput] at ho
      exact hok (hsends o ho)

/-- **A connection that got an `OK` is registered.** -/
theorem registered_of_ok (h : Reachable s) (hl : (s.clients i).Live) {frame : Frame}
    (hf : frame ∈ enqueuedTo (s.clients i).conn s.trace)
    (hok : frame.type = ServerMsgType.ok.toByte) : (s.clients i).registered = true := by
  refine Transition.Reachable.invariant (P := fun s => ∀ i, (s.clients i).Live →
    ∀ f ∈ enqueuedTo (s.clients i).conn s.trace, f.type = ServerMsgType.ok.toByte →
      (s.clients i).registered = true) ?_ ?_ h i hl frame hf hok
  · rintro _ ⟨maxQueueBytes, heap, -, rfl⟩ i hi
    exact absurd hi Client.not_live_blank
  · intro s t hr hs hst j hj f hf hok
    have hn := numbered (Reachable.moveReachable hr)
    by_contra hnot
    have hreg : (t.clients j).registered = false := by simpa using hnot
    -- the client is new, or it was there before and was not registered either
    have hcase : (t.clients j).conn = s.stats.totalConnections + 1 ∨
        (s.clients j).Live ∧ (t.clients j).conn = (s.clients j).conn ∧
          (s.clients j).registered = false := by
      cases hst.name_cases hj with
      | accepted hconn _ => exact .inl hconn
      | same hlj hconn hname => exact .inr ⟨hlj, hconn, hname.1.symm.trans hreg⟩
      | takes _ _ _ htrue => exact absurd htrue hnot
    have hold : f ∉ enqueuedTo (t.clients j).conn s.trace := by
      intro hmem
      rcases hcase with hconn | ⟨hlj, hconn, hbefore⟩
      · rw [hconn, enqueuedTo, flatMap_eq_nil_of_not_mentions
          (fun _ => Effect.enqueuedTo_of_not_mentions)
          (hn.not_mentions (Nat.lt_succ_self _))] at hmem
        cases hmem
      · rw [hconn] at hmem
        rw [hs j hlj f hmem hok] at hbefore
        cases hbefore
    rcases hst.quiet_or_turn with hquiet | ⟨i, turn, hturn⟩
    · rw [enqueuedTo_of_silent hquiet] at hf
      exact hold hf
    · rw [hturn.enqueuedTo_eq] at hf
      obtain ⟨hlj, hconn⟩ := hturn.after j hj
      have ho := mem_outputTo.mp ((List.mem_append.mp hf).resolve_left hold)
      have hreply : isReply f = true := by
        rw [isReply, hok, ServerMsgType.ofByte_toByte]
        rfl
      have hown := hturn.turnOk.own _ ho hreply
      obtain rfl : i = j := hn.unique i j hturn.live hlj
        (hturn.conn.symm.trans (hown.symm.trans hconn))
      rcases hcase with hnew | ⟨-, -, hbefore⟩
      · have hle := hn.conn_le i hlj
        omega
      · exact hturn.no_ok (channelsOk (Reachable.moveReachable hr)) hj hreg hbefore _ ho hok

end Core
end ChannelWire
