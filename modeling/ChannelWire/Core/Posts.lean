import ChannelWire.Core.ChannelLog
import ChannelWire.Core.Confinement
import ChannelWire.Core.Renaming

/-!
# Accepted texts

A turn of a client is one call of `handle_frame` or the rejection of a header (`TakesTurn.serves`),
and only a turn with an accepted `SAY` adds to the channel log (`Step.posts`).

`posts` is the channel log with everything that a broadcast determines: the connection that said
the text, the entry, and the connections that were members of the channel.  A client that says
something is one of these members itself, so it gets its own text back (`AcceptsSay.own_mem`).
-/

namespace ChannelWire
namespace Core

/-! ## A turn with a frame -/

/-- The turn handles the frame: `v` is the state `handle_frame` leaves, and nothing but an input
buffer changes after that. -/
structure Serves (s t : Server) (i : Slot) (turn : Turn) (frame : Frame) (v : Server) : Prop where
  ending : Ending (s.emit (.handled (s.clients i).conn frame)) i frame v
  handled : v = handleFrame (s.emit (.handled (s.clients i).conn frame)) i frame.type frame.payload
  clients : ∀ j, ∃ inbuf, t.clients j = { v.clients j with inbuf := inbuf }
  channels : t.channels = v.channels
  trace : t.trace = v.trace
  output : (recorded (s.emit (.handled (s.clients i).conn frame)) v).flatMap Effect.output =
    turn.output

theorem serveFrame_channels (s : Server) (i : Slot) (frame : Frame) (n : ℕ) :
    (serveFrame s i frame n).2.channels =
      (handleFrame (s.emit (.handled (s.clients i).conn frame)) i frame.type
        frame.payload).channels := by
  unfold serveFrame
  simp only
  split_ifs <;> rfl

variable {s t v : Server} {i j : Slot} {frame : Frame} {turn : Turn}

/-- **A turn with a frame is a call of `handle_frame`.** -/
theorem TakesTurn.serves (h : TakesTurn s t i turn) (hr : Reachable s)
    (hreq : turn.request = some frame) : ∃ v, Serves s t i turn frame v := by
  obtain ⟨n, hhead⟩ : ∃ n, frameHead cwMaxPayloadSize (s.clients i).inbuf = .item frame n := by
    have hrequest := h.request
    rwa [hreq] at hrequest
  have ht : t = (serveFrame s i frame n).2 := by rw [h.step, drainTurn_eq, hhead]
  have hc := channelsOk hr.moveReachable
  have hv := namesOk hr.moveReachable
  let u := s.emit (.handled (s.clients i).conn frame)
  have htrace : t.trace = (handleFrame u i frame.type frame.payload).trace := by
    rw [ht, serveFrame_trace]
  refine ⟨handleFrame u i frame.type frame.payload,
    handleFrame_ending (hc.emit _) (hv.emit _) i frame, rfl, fun k => ?_, ?_, htrace, ?_⟩
  · obtain ⟨inbuf, hclient⟩ := serveFrame_clients s i frame n k
    exact ⟨inbuf, by rw [ht, hclient]⟩
  · rw [ht, serveFrame_channels]
  · obtain ⟨e, es, hes, hbegins, -, houtput⟩ := h.trace
    obtain ⟨es', hsaid⟩ :=
      (handleFrame_actions (s := u) (i := i) frame.type frame.payload h.live).said
    have hes' := hsaid.trace
    rw [recorded, hes', List.drop_left]
    rw [htrace, hes', Server.emit_trace, List.append_assoc] at hes
    obtain ⟨-, rfl⟩ := List.cons.inj (List.append_cancel_left hes)
    exact houtput

/-- A turn without a frame rejects a header. -/
theorem TakesTurn.rejects (h : TakesTurn s t i turn) (hreq : turn.request = none) :
    t = rejectHeader s i := by
  have hrequest := h.request
  rw [hreq] at hrequest
  rw [h.step, drainTurn_eq, hrequest]

/-! ## The accepted texts of a run -/

/-- An accepted text: the connection that said it, and those that were members of the channel. -/
structure Post where
  conn : ℕ
  entry : ChatEntry
  members : List ℕ

/-- The text the effect records. -/
def Effect.post : Effect → List Post
  | said k entry members => [⟨k, entry, members⟩]
  | _ => []

/-- The accepted texts, in the order in which they were accepted. -/
def posts (trace : List Effect) : List Post := trace.flatMap Effect.post

/-- The texts meant for connection `k`. -/
def postsFor (k : ℕ) (trace : List Effect) : List Post :=
  (posts trace).filter fun p => k ∈ p.members

theorem Effect.post_of_not_isChat {e : Effect} (h : ¬ e.IsChat) : e.post = [] := by
  cases e <;> first | rfl | exact absurd trivial h

theorem dueTo_eq_postsFor (k : ℕ) (trace : List Effect) :
    dueTo k trace = (postsFor k trace).map Post.entry := by
  rw [dueTo, postsFor, posts, List.filter_flatMap, List.map_flatMap]
  refine List.flatMap_congr fun e _ => ?_
  cases e with
  | said c entry members =>
    simp only [Effect.dueTo, Effect.post]
    by_cases hk : k ∈ members <;> simp [hk]
  | _ => rfl

/-- The `CHAT` frames enqueued to a connection carry the first of the texts meant for it. -/
theorem chats_isPrefix (hr : Reachable s) (k : ℕ) :
    ((enqueuedTo k s.trace).filter fun f => f.type = ServerMsgType.chat.toByte).map Frame.payload <+:
      (postsFor k s.trace).map fun p => p.entry.encode := by
  have hdue := (logOk hr).due k
  rw [dueTo_eq_postsFor, List.map_map, chatsTo_eq] at hdue
  exact ⟨_, hdue.symm⟩

theorem posts_of_chatUnseen (h : ChatUnseen s t) : posts t.trace = posts s.trace :=
  h.silent.flatMap_eq fun _ => Effect.post_of_not_isChat

/-! ## One step -/

/-- What the broadcast of an accepted text records. -/
def postOf (s : Server) (i : Slot) (idx : ℕ) (text : Bytes) : Post :=
  ⟨(s.clients i).conn, ⟨(s.clients i).activeChannel, (s.clients i).username, text⟩,
    memberConns s idx⟩

/-- **A client that says something is a member of the channel.** -/
theorem AcceptsSay.own_mem {idx : ℕ} {text : Bytes} (h : AcceptsSay s i frame idx text)
    (hc : ChannelsOk s) (hl : (s.clients i).Live) :
    (postOf s i idx text).conn ∈ (postOf s i idx text).members := by
  obtain ⟨idx', hfind, hjoined⟩ := hc.findChannel_active (hc.activeChannel_ne_nil h.channel)
  obtain rfl : idx = idx' := Option.some.inj (h.channel.symm.trans hfind)
  exact mem_memberConns.mpr ⟨i, mem_members.mpr ⟨hl, h.registered, hjoined⟩, rfl⟩

theorem posts_chatSent (s : Server) (i : Slot) (idx : ℕ) (text : Bytes) :
    posts (chatSent s i idx text).trace = posts s.trace ++ [postOf s i idx text] := by
  have hloop := (chatLoop_unseen idx (chatPayload (s.clients i) text) (announce s i idx
    ⟨(s.clients i).activeChannel, (s.clients i).username, text⟩)).silent.flatMap_eq
      (f := Effect.post) fun e he => by cases e <;> first | rfl | exact absurd (List.cons_ne_nil _ _) he
  unfold chatSent
  rw [Server.setStats_trace, posts, hloop, announce, Server.emit_trace, List.flatMap_append,
    List.flatMap_singleton]
  rfl

/-- A handler adds the text it accepts, and nothing else. -/
theorem Ending.posts (h : Ending s i frame t) (hl : (s.clients i).Live)
    (hactions : Actions (request s i frame.type frame.payload) s t) :
    posts t.trace = posts s.trace ∨ ∃ idx text, AcceptsSay s i frame idx text ∧
      posts t.trace = posts s.trace ++ [postOf s i idx text] := by
  by_cases hsay : frame.type = ClientMsgType.say.toByte
  · have hne : ∀ type : ClientMsgType, type ≠ .say → frame.type ≠ type.toByte :=
      fun type hne htype => hne (ClientMsgType.toByte_inj.mp (htype.symm.trans hsay))
    cases h with
    | refused text => exact .inl (posts_of_chatUnseen (error_chatUnseen hl))
    | said haccepts => exact .inr ⟨_, _, haccepts, posts_chatSent ..⟩
    | registered htype _ | renamed htype _ | joined htype _ _ _ | switched htype _ _ _
    | left htype _ _ _ | quit htype => exact absurd htype (hne _ (by decide))
    | sentDm hdm _ | lostDm hdm _ => exact absurd hdm.dm (hne _ (by decide))
    | queried _ _ htype =>
      rw [hsay] at htype
      exact absurd htype (by decide)
  · exact .inl (posts_of_chatUnseen (hactions.chatUnseen hsay))

theorem TakesTurn.posts (h : TakesTurn s t i turn) (hr : Reachable s) :
    posts t.trace = posts s.trace ∨ ∃ frame idx text, turn.request = some frame ∧
      AcceptsSay s i frame idx text ∧ posts t.trace = posts s.trace ++ [postOf s i idx text] := by
  cases hreq : turn.request with
  | none =>
    have hquiet : (0 : UInt8) ≠ ClientMsgType.say.toByte := by decide
    rw [h.rejects hreq]
    exact .inl (posts_of_chatUnseen (.rejectHeader (fun _ _ => Action.chatUnseen hquiet) h.live id))
  | some frame =>
    obtain ⟨v, hserves⟩ := h.serves hr hreq
    rw [hserves.trace]
    have hactions := handleFrame_actions (i := i)
      (s := s.emit (.handled (s.clients i).conn frame)) frame.type frame.payload h.live
    rw [← hserves.handled] at hactions
    have hmark : Core.posts (s.emit (.handled (s.clients i).conn frame)).trace =
        Core.posts s.trace := posts_of_chatUnseen (.emit rfl rfl id)
    rcases hserves.ending.posts h.live hactions with hsame | ⟨idx, text, haccepts, hnew⟩
    · exact .inl (hsame.trans hmark)
    · rw [hmark] at hnew
      exact .inr ⟨frame, idx, text, rfl, ⟨haccepts.say, haccepts.registered, haccepts.channel,
        haccepts.read, haccepts.nonempty⟩, hnew⟩

/-- A `SAY` that is accepted adds its text. -/
theorem TakesTurn.posts_of_acceptsSay (h : TakesTurn s t i turn) (hr : Reachable s)
    (hreq : turn.request = some frame) {idx : ℕ} {text : Bytes}
    (hsay : AcceptsSay s i frame idx text) :
    Core.posts t.trace = Core.posts s.trace ++ [postOf s i idx text] := by
  obtain ⟨v, hserves⟩ := h.serves hr hreq
  have hmark : Core.posts (s.emit (.handled (s.clients i).conn frame)).trace =
      Core.posts s.trace := posts_of_chatUnseen (.emit rfl rfl id)
  have hmarked : AcceptsSay (s.emit (.handled (s.clients i).conn frame)) i frame idx text :=
    ⟨hsay.say, hsay.registered, hsay.channel, hsay.read, hsay.nonempty⟩
  rw [hserves.trace, hserves.handled, handleFrame_of_acceptsSay
    ((channelsOk hr.moveReachable).emit _) ((namesOk hr.moveReachable).emit _) hmarked,
    posts_chatSent, hmark]
  rfl

/-- `accept_clients` takes a slot or closes the socket again. -/
theorem acceptConnection_cases (s : Server) (fd : ℕ) (nonblocking : Bool) :
    acceptConnection s fd nonblocking = s ∨
      ∃ slot, acceptConnection s fd nonblocking = occupySlot s slot fd := by
  unfold acceptConnection
  split
  · exact .inl rfl
  · next slot _ => exact .inr ⟨slot, rfl⟩

/-- **Only an accepted `SAY` adds to the texts**, and it adds one. -/
theorem Step.posts (h : Step s t) (hr : Reachable s) :
    posts t.trace = posts s.trace ∨ ∃ i turn frame idx text, TakesTurn s t i turn ∧
      turn.request = some frame ∧ AcceptsSay s i frame idx text ∧
      posts t.trace = posts s.trace ++ [postOf s i idx text] := by
  cases h with
  | @accept fd nonblocking hfd =>
    rcases acceptConnection_cases s fd nonblocking with heq | ⟨slot, heq⟩
    · rw [heq]
      exact .inl rfl
    · rw [heq]
      have hsilent : Silent Effect.IsChat s (occupySlot s slot fd) := .occupySlot id
      exact .inl (hsilent.flatMap_eq fun _ => Effect.post_of_not_isChat)
  | recv hl _ _ =>
    exact .inl (posts_of_chatUnseen (.setClient rfl (fun _ => ⟨hl, rfl, rfl⟩) (.concat rfl id)))
  | @drain i hl =>
    rcases drainTurn_quiet_or_turn hl with heq | ⟨turn, hturn⟩
    · rw [heq]
      exact .inl rfl
    · rcases hturn.posts hr with hsame | ⟨frame, idx, text, hreq, haccepts, hnew⟩
      · exact .inl hsame
      · exact .inr ⟨i, turn, frame, idx, text, hturn, hreq, haccepts, hnew⟩
  | send hl hout _ _ =>
    exact .inl (posts_of_chatUnseen (.takeSent hl hout (fun _ _ _ => rfl) fun _ => id))
  | disconnect hl => exact .inl (posts_of_chatUnseen (.disconnect hl id))

end Core
end ChannelWire
