import ChannelWire.Core.ActiveChannel
import ChannelWire.Core.Deliveries
import ChannelWire.Core.Notices
import ChannelWire.Foundation.ChatService

/-!
# The core server is a chat service

Behind its slots, queues and sockets the core server is a `ChatService` whose users are the
connections: `Shows` reads the state of the service off the server, and every step of the server is
a sequence of transitions of the service (`Step.follows`).  A `recv`, a `send` and a frame that is
refused are none; a broadcast over 128 slots, which closes some connections on its way, is one.

So the messages of all kinds, from all clients, stand in one log, which follows the requests in the
order in which they were handled, and each connection is told what is meant for it in that order.

## Results

- `Shows.deliver`: a frame that is enqueued to the clients a message is meant for, or closes them,
  is a delivery of the service; `Spread.loop` and `Spread.single` say that the loops of the server
  and its single sends are such.
- `handleFrame_follows`: what the handler of a frame does is what the service does when the client
  `Utters` a message, or none, in the state in which the frame arrived.
- `core_refines_chat_service`: every step of the server is transitions of the service that log what
  was said in it, to those it was meant for.
- `Chronicle`: the messages of a run, each with its address and its audience, as the frames of the
  run said them; every run has one (`exists_chronicle`), and it is the log of the service
  (`Chronicle.exists_chat`).
- `messages_of_one_log`: every connection was told the first messages of the chronicle that are
  meant for it, and a connection that is still there all of them.
-/

namespace ChannelWire
namespace Core

open Relation

/-- The service whose users are connections. -/
abbrev Chat := ChatService.State ℕ Bytes Bytes Bytes

/-- A message and the connections it is meant for. -/
abbrev ChatLogEntry := ChatService.Entry ℕ Bytes Bytes Bytes

/-- The names of the channels of a bitmap. -/
def joinedNames (channels : List Bytes) (joined : ℕ → Bool) : Set Bytes :=
  {name | ∃ idx, channels[idx]? = some name ∧ joined idx = true}

/-- A client as a user. -/
def Client.user (channels : List Bytes) (c : Client) : ChatService.User Bytes Bytes where
  name := if c.registered = true then some c.username else none
  channels := joinedNames channels c.joined
  current := if c.activeChannel = [] then none else some c.activeChannel

/-- The frame that tells a client of a message. -/
def messageFrame : ChatService.Message Bytes Bytes Bytes → Frame
  | .chat channel sender text =>
    ⟨ServerMsgType.chat.toByte, ([channel, sender, text].map stringField).flatten⟩
  | .direct sender text => ⟨ServerMsgType.dmRecv.toByte, ([sender, text].map stringField).flatten⟩
  | .renamed old new => ⟨ServerMsgType.system.toByte, old ++ ascii " is now " ++ new⟩

/-- The frame tells of others: it is a `CHAT`, a `DM_RECV` or a `SYSTEM`. -/
def isMessage (frame : Frame) : Bool :=
  frame.type == ServerMsgType.chat.toByte || frame.type == ServerMsgType.dmRecv.toByte ||
    frame.type == ServerMsgType.system.toByte

theorem isMessage_chat (payload : Bytes) :
    isMessage ⟨ServerMsgType.chat.toByte, payload⟩ = true := rfl

theorem isMessage_dmRecv (payload : Bytes) :
    isMessage ⟨ServerMsgType.dmRecv.toByte, payload⟩ = true := rfl

theorem isMessage_system (payload : Bytes) :
    isMessage ⟨ServerMsgType.system.toByte, payload⟩ = true := rfl

/-- The messages enqueued to connection `k`. -/
def messagesTo (k : ℕ) (trace : List Effect) : List Frame := (enqueuedTo k trace).filter isMessage

/-- The effect enqueues a message. -/
def Effect.TellsMessage : Effect → Prop
  | .enqueued _ frame => isMessage frame = true
  | _ => False

variable {s t u v : Server} {i j : Slot} {k idx : ℕ} {frame : Frame} {turn : Turn} {a b : Chat}
  {Q : ChatLogEntry → Prop}

theorem messagesTo_of_silent (h : Silent Effect.TellsMessage s t) (k : ℕ) :
    messagesTo k t.trace = messagesTo k s.trace := by
  rw [messagesTo, messagesTo, enqueuedTo, enqueuedTo, List.filter_flatMap, List.filter_flatMap]
  refine h.flatMap_eq fun e he => ?_
  cases e with
  | enqueued c frame =>
    by_cases hc : c = k
    · simp only [Effect.enqueuedTo, if_pos hc]
      simpa [Effect.TellsMessage] using he
    · simp only [Effect.enqueuedTo, if_neg hc]
      rfl
  | _ => rfl

theorem messagesTo_of_elsewhere (h : Elsewhere k s t) :
    messagesTo k t.trace = messagesTo k s.trace :=
  congrArg (List.filter isMessage) (h.flatMap_eq fun _ => Effect.enqueuedTo_of_not_mentions)

/-! ## What the service sees of the server -/

/-- The server shows the state of a service. -/
structure Shows (s : Server) (a : Chat) : Prop where
  channels : a.channels = {name | name ∈ s.channels}
  user : ∀ i, (s.clients i).Live →
    a.user (s.clients i).conn = some ((s.clients i).user s.channels)
  absent : ∀ k, (∀ i, (s.clients i).Live → (s.clients i).conn ≠ k) → a.user k = none
  inbox : ∀ k, (a.inbox k).map messageFrame = messagesTo k s.trace
  /-- No message was meant for a connection still to come. -/
  audience : ∀ e ∈ a.log, ∀ k ∈ e.audience, k ≤ s.stats.totalConnections

/-- Live clients have different numbers. -/
def Distinct (s : Server) : Prop :=
  ∀ i j, (s.clients i).Live → (s.clients j).Live → (s.clients i).conn = (s.clients j).conn → i = j

/-- What the service does not see of a step. -/
structure Hidden (s t : Server) : Prop where
  silent : Silent Effect.TellsMessage s t
  totalConnections : t.stats.totalConnections = s.stats.totalConnections

theorem Hidden.refl (s : Server) : Hidden s s := ⟨.of_eq rfl, rfl⟩

theorem user_of_sameButBuffers {c d : Client} (h : SameButBuffers c d) (channels : List Bytes) :
    d.user channels = c.user channels := by
  obtain ⟨inbuf, out, queuedBytes, rfl⟩ := h
  rfl

theorem live_of_sameButBuffers {c d : Client} (h : SameButBuffers c d) :
    (d.Live ↔ c.Live) ∧ d.conn = c.conn := by
  obtain ⟨inbuf, out, queuedBytes, rfl⟩ := h
  exact ⟨Iff.rfl, rfl⟩

/-- Only buffers changed. -/
theorem Shows.same (hs : Shows s a) (h : Hidden s t) (hchannels : t.channels = s.channels)
    (hclients : ∀ i, SameButBuffers (s.clients i) (t.clients i)) : Shows t a := by
  refine ⟨by rw [hchannels]; exact hs.channels, fun i hi => ?_, fun k hk => ?_, fun k => ?_, ?_⟩
  · obtain ⟨hlive, hconn⟩ := live_of_sameButBuffers (hclients i)
    rw [hconn, user_of_sameButBuffers (hclients i), hchannels]
    exact hs.user i (hlive.mp hi)
  · refine hs.absent k fun i hi => ?_
    obtain ⟨hlive, hconn⟩ := live_of_sameButBuffers (hclients i)
    rw [← hconn]
    exact hk i (hlive.mpr hi)
  · rw [messagesTo_of_silent h.silent]
    exact hs.inbox k
  · rw [h.totalConnections]
    exact hs.audience

theorem Shows.countChat (hs : Shows s a) :
    Shows (s.setStats { s.stats with channelMessages := s.stats.channelMessages + 1 }) a :=
  hs.same ⟨.of_eq rfl, rfl⟩ rfl fun _ => .refl _

/-- One client changes, and perhaps the table, which does not concern the others. -/
theorem Shows.update {c : Client} (hs : Shows s a) (hd : Distinct s) (hl : (s.clients i).Live)
    (hclients : t.clients = Function.update s.clients i c) (hlive : c.Live)
    (hconn : c.conn = (s.clients i).conn) (h : Hidden s t)
    (hothers : ∀ j, (s.clients j).user t.channels = (s.clients j).user s.channels) :
    Shows t { a.set (s.clients i).conn (some (c.user t.channels)) with
      channels := {name | name ∈ t.channels} } := by
  have hself : t.clients i = c := by rw [hclients, Function.update_self]
  have hother : ∀ j, j ≠ i → t.clients j = s.clients j := fun j hne => by
    rw [hclients, Function.update_of_ne hne]
  refine ⟨rfl, fun j hj => ?_, fun k hk => ?_, fun k => ?_, ?_⟩
  · rcases eq_or_ne j i with rfl | hne
    · rw [hself, hconn]
      exact a.set_self ..
    · rw [hother j hne] at hj ⊢
      have hk : (s.clients j).conn ≠ (s.clients i).conn := fun heq => hne (hd j i hj hl heq)
      exact ((a.set_of_ne _ hk).trans (hs.user j hj)).trans (congrArg some (hothers j).symm)
  · have hne : k ≠ (s.clients i).conn := by
      rintro rfl
      exact hk i (by rwa [hself]) (by rw [hself, hconn])
    refine (a.set_of_ne _ hne).trans (hs.absent k fun j hj => ?_)
    rcases eq_or_ne j i with rfl | hji
    · exact hne.symm
    · have := hk j
      rw [hother j hji] at this
      exact this hj
  · rw [messagesTo_of_silent h.silent]
    exact hs.inbox k
  · rw [h.totalConnections]
    exact hs.audience

theorem Shows.update_same {c : Client} (hs : Shows s a) (hd : Distinct s) (hl : (s.clients i).Live)
    (hclients : t.clients = Function.update s.clients i c) (hlive : c.Live)
    (hconn : c.conn = (s.clients i).conn) (h : Hidden s t) (hchannels : t.channels = s.channels) :
    Shows t (a.set (s.clients i).conn (some (c.user s.channels))) := by
  have hupdate := hs.update hd hl hclients hlive hconn h fun j => by rw [hchannels]
  rw [hchannels, ← hs.channels] at hupdate
  exact hupdate

/-- A client is gone. -/
theorem Shows.close {c : Client} (hs : Shows s a) (hd : Distinct s) (hl : (s.clients i).Live)
    (hclients : t.clients = Function.update s.clients i c) (hdead : ¬ c.Live) (h : Hidden s t)
    (hchannels : t.channels = s.channels) : Shows t (a.set (s.clients i).conn none) := by
  have hself : ¬ (t.clients i).Live := by rwa [hclients, Function.update_self]
  have hother : ∀ j, j ≠ i → t.clients j = s.clients j := fun j hne => by
    rw [hclients, Function.update_of_ne hne]
  refine ⟨by rw [hchannels]; exact hs.channels, fun j hj => ?_, fun k hk => ?_, fun k => ?_, ?_⟩
  · have hne : j ≠ i := by
      rintro rfl
      exact hself hj
    rw [hother j hne, hchannels] at *
    exact (a.set_of_ne _ fun heq => hne (hd j i hj hl heq)).trans (hs.user j hj)
  · rcases eq_or_ne k (s.clients i).conn with rfl | hne
    · exact a.set_self ..
    · refine (a.set_of_ne _ hne).trans (hs.absent k fun j hj => ?_)
      rcases eq_or_ne j i with rfl | hji
      · exact hne.symm
      · have := hk j
        rw [hother j hji] at this
        exact this hj
  · rw [messagesTo_of_silent h.silent]
    exact hs.inbox k
  · rw [h.totalConnections]
    exact hs.audience

/-- A connection is accepted. -/
theorem Shows.occupy {slot : Slot} {fd : ℕ} (hs : Shows s a) (hn : Numbered s)
    (hfree : ¬ (s.clients slot).Live) :
    ∃ b, ReflTransGen (ChatService.Quiet cwMaxChannels) a b ∧ Shows (occupySlot s slot fd) b := by
  have hsilent : Silent Effect.TellsMessage s (occupySlot s slot fd) := .occupySlot id
  have hself : (occupySlot s slot fd).clients slot =
      { Client.blank with fd := fd, conn := s.stats.totalConnections + 1 } :=
    Function.update_self ..
  have hother : ∀ j, j ≠ slot → (occupySlot s slot fd).clients j = s.clients j := fun j hne =>
    Function.update_of_ne hne ..
  have hne : ∀ j, (s.clients j).Live → (s.clients j).conn ≠ s.stats.totalConnections + 1 :=
    fun j hj => ((hn.conn_le j hj).trans_lt (Nat.lt_succ_self _)).ne
  refine ⟨a.set (s.stats.totalConnections + 1) (some .new),
    .single ⟨.enter (hs.absent _ hne) ?_ ?_, rfl⟩,
    ⟨hs.channels, fun j hj => ?_, fun k hk => ?_, fun k => ?_, fun e he k hk => ?_⟩⟩
  · have hnone : messagesTo (s.stats.totalConnections + 1) s.trace = [] := by
      rw [messagesTo, enqueuedTo, flatMap_eq_nil_of_not_mentions
        (fun _ => Effect.enqueuedTo_of_not_mentions) (hn.not_mentions (Nat.lt_succ_self _))]
      rfl
    exact List.map_eq_nil_iff.mp ((hs.inbox _).trans hnone)
  · exact fun e he hk => absurd (hs.audience e he _ hk) (Nat.not_succ_le_self _)
  · rcases eq_or_ne j slot with rfl | hji
    · rw [hself]
      refine (a.set_self ..).trans (congrArg some ?_)
      unfold Client.user ChatService.User.new
      simp [Client.blank, joinedNames]
    · rw [hother j hji] at hj ⊢
      exact (a.set_of_ne _ (hne j hj)).trans (hs.user j hj)
  · have hk' : k ≠ s.stats.totalConnections + 1 := by
      rintro rfl
      refine hk slot ?_ ?_ <;> rw [hself]
      exact Int.natCast_nonneg fd
    refine (a.set_of_ne _ hk').trans (hs.absent k fun j hj => ?_)
    rcases eq_or_ne j slot with rfl | hji
    · exact absurd hj hfree
    · have := hk j
      rw [hother j hji] at this
      exact this hj
  · rw [messagesTo_of_silent hsilent]
    exact hs.inbox k
  · exact (hs.audience e he k hk).trans (Nat.le_succ _)

/-! ## Loops that enqueue one frame to several clients -/

/-- One turn of a loop that enqueues a frame to the clients that meet a condition. -/
def castTurn (p : Slot → Client → Prop) [∀ i c, Decidable (p i c)] (type : ServerMsgType)
    (payload : Bytes) (s : Server) (i : Slot) : Server :=
  if p i (s.clients i) then enqueueOrDisconnect s i type payload else s

/-- From `s` to `t` the clients that meet a condition got a frame or were closed, and nothing else
happened. -/
structure Spread (p : Slot → Client → Prop) (frame : Frame) (s t : Server) : Prop where
  channels : t.channels = s.channels
  totalConnections : t.stats.totalConnections = s.stats.totalConnections
  live : ∀ j, (t.clients j).Live → (s.clients j).Live ∧ SameButBuffers (s.clients j) (t.clients j)
  other : ∀ i, (s.clients i).Live → ¬ p i (s.clients i) → (t.clients i).Live
  got : ∀ i, (s.clients i).Live → p i (s.clients i) ∧ (t.clients i).Live →
    messagesTo (s.clients i).conn t.trace = messagesTo (s.clients i).conn s.trace ++ [frame]
  none : ∀ i, (s.clients i).Live → ¬ (p i (s.clients i) ∧ (t.clients i).Live) →
    messagesTo (s.clients i).conn t.trace = messagesTo (s.clients i).conn s.trace
  absent : ∀ k, (∀ i, (s.clients i).Live → (s.clients i).conn ≠ k) →
    messagesTo k t.trace = messagesTo k s.trace

/-- A message that is linked into the queue. -/
theorem messagesTo_pushFrame {type : ServerMsgType} {payload : Bytes} {heap : ℕ → Bool}
    (htype : isMessage ⟨type.toByte, payload⟩ = true) :
    messagesTo (s.clients i).conn (pushFrame (s.setHeap heap) i type payload).trace =
      messagesTo (s.clients i).conn s.trace ++ [⟨type.toByte, payload⟩] := by
  rw [messagesTo, enqueuedTo, pushFrame_trace, List.flatMap_append, List.filter_append]
  simp [messagesTo, enqueuedTo, Effect.enqueuedTo, htype]

/-- What the turn of its own slot does to a client. -/
theorem castTurn_self {p : Slot → Client → Prop} [∀ i c, Decidable (p i c)] {type : ServerMsgType}
    {payload : Bytes} (htype : isMessage ⟨type.toByte, payload⟩ = true) (hl : (s.clients i).Live) :
    (((castTurn p type payload s i).clients i).Live →
      SameButBuffers (s.clients i) ((castTurn p type payload s i).clients i)) ∧
    (¬ p i (s.clients i) → ((castTurn p type payload s i).clients i).Live) ∧
    messagesTo (s.clients i).conn (castTurn p type payload s i).trace =
      messagesTo (s.clients i).conn s.trace ++
        if p i (s.clients i) ∧ ((castTurn p type payload s i).clients i).Live then
          [⟨type.toByte, payload⟩] else [] := by
  unfold castTurn
  by_cases hp : p i (s.clients i)
  · simp only [if_pos hp]
    by_cases h : Accepts s i payload
    · have hclient : (pushFrame (s.setHeap fun n => s.heap (n + 1)) i type payload).clients i =
          { s.clients i with
            out := (s.clients i).out.push (OutFrame.make type payload)
            queuedBytes := (s.clients i).queuedBytes + (OutFrame.make type payload).len } :=
        Function.update_self ..
      rw [enqueueOrDisconnect_of_accepts h, messagesTo_pushFrame htype, hclient]
      exact ⟨fun _ => ⟨_, _, _, rfl⟩, fun hnot => absurd hp hnot, by rw [if_pos ⟨hp, hl⟩]⟩
    · obtain ⟨heap, hq⟩ := enqueueOrDisconnect_of_not_accepts type h
      have hdead : ¬ ((enqueueOrDisconnect s i type payload).clients i).Live := by
        rw [hq, overflowDisconnect_clients, Function.update_self]
        exact Client.not_live_reset _
      have hsilent : Silent Effect.TellsMessage s (enqueueOrDisconnect s i type payload) := by
        rw [hq]
        exact .drop hl id id
      refine ⟨fun hlive => absurd hlive hdead, fun hnot => absurd hp hnot, ?_⟩
      rw [messagesTo_of_silent hsilent, if_neg fun hand => hdead hand.2, List.append_nil]
  · simp only [if_neg hp]
    exact ⟨fun _ => .refl _, fun _ => hl, by rw [if_neg fun hand => hp hand.1, List.append_nil]⟩

/-- What every slot sees of its own turn is what it sees of the whole. -/
theorem Spread.of_turns {p : Slot → Client → Prop} [∀ i c, Decidable (p i c)]
    {type : ServerMsgType} {payload : Bytes} (htype : isMessage ⟨type.toByte, payload⟩ = true)
    (hchannels : t.channels = s.channels)
    (htotal : t.stats.totalConnections = s.stats.totalConnections)
    (hturn : ∀ i, (s.clients i).Live → ∃ u, Elsewhere (s.clients i).conn s u ∧
      Elsewhere (s.clients i).conn (castTurn p type payload u i) t)
    (habsent : ∀ k, (∀ i, (s.clients i).Live → (s.clients i).conn ≠ k) → Elsewhere k s t)
    (hlive : ∀ j, (t.clients j).Live → (s.clients j).Live) :
    Spread p ⟨type.toByte, payload⟩ s t := by
  have hslot : ∀ i, (s.clients i).Live →
      ((t.clients i).Live → SameButBuffers (s.clients i) (t.clients i)) ∧
      (¬ p i (s.clients i) → (t.clients i).Live) ∧
      messagesTo (s.clients i).conn t.trace = messagesTo (s.clients i).conn s.trace ++
        if p i (s.clients i) ∧ (t.clients i).Live then [⟨type.toByte, payload⟩] else [] := by
    intro i hl
    obtain ⟨u, hsu, hut⟩ := hturn i hl
    have hui : u.clients i = s.clients i := hsu.clients i hl rfl
    obtain ⟨hsame, hstay, hmessages⟩ :=
      castTurn_self (s := u) (i := i) (p := p) htype (by rwa [hui])
    rw [hui] at hsame hstay hmessages
    -- the slot holds what its own turn left
    have hafter : ((castTurn p type payload u i).clients i).Live →
        t.clients i = (castTurn p type payload u i).clients i := fun hlive =>
      hut.clients i hlive (live_of_sameButBuffers (hsame hlive)).2
    have hiff : (t.clients i).Live ↔ ((castTurn p type payload u i).clients i).Live :=
      ⟨fun h => (hut.live i h).1, fun h => by rwa [hafter h]⟩
    refine ⟨fun h => ?_, fun hp => hiff.mpr (hstay hp), ?_⟩
    · rw [hafter (hiff.mp h)]
      exact hsame (hiff.mp h)
    · rw [messagesTo_of_elsewhere hut, hmessages, messagesTo_of_elsewhere hsu]
      simp only [hiff]
  exact ⟨hchannels, htotal, fun j hj => ⟨hlive j hj, (hslot j (hlive j hj)).1 hj⟩,
    fun i hl => (hslot i hl).2.1, fun i hl hand => by rw [(hslot i hl).2.2, if_pos hand],
    fun i hl hand => by rw [(hslot i hl).2.2, if_neg hand, List.append_nil],
    fun k hk => messagesTo_of_elsewhere (habsent k hk)⟩

theorem castTurn_elsewhere {p : Slot → Client → Prop} [∀ i c, Decidable (p i c)]
    (type : ServerMsgType) (payload : Bytes) (hp : ∀ i c, p i c → c.Live)
    (hk : (s.clients j).Live → (s.clients j).conn ≠ k) :
    Elsewhere k s (castTurn p type payload s j) := by
  unfold castTurn
  split_ifs with hm
  · exact enqueueOrDisconnect_elsewhere _ _ (hp _ _ hm) (hk (hp _ _ hm))
  · exact .refl s

theorem castTurn_of_ne {p : Slot → Client → Prop} [∀ i c, Decidable (p i c)]
    (type : ServerMsgType) (payload : Bytes) (hne : j ≠ i) :
    (castTurn p type payload s i).clients j = s.clients j := by
  unfold castTurn
  split_ifs
  · exact enqueueOrDisconnect_clients_of_ne _ _ hne
  · rfl

theorem enqueueOrDisconnect_totalConnections (s : Server) (i : Slot) (type : ServerMsgType)
    (payload : Bytes) :
    (enqueueOrDisconnect s i type payload).stats.totalConnections = s.stats.totalConnections := by
  by_cases h : Accepts s i payload
  · rw [enqueueOrDisconnect_of_accepts h]
    rfl
  · obtain ⟨heap, hq⟩ := enqueueOrDisconnect_of_not_accepts type h
    rw [hq]
    exact overflowDisconnect_totalConnections ..

/-- **A loop over all slots spreads its frame.** -/
theorem Spread.loop {p : Slot → Client → Prop} [∀ i c, Decidable (p i c)] {type : ServerMsgType}
    {payload : Bytes} (htype : isMessage ⟨type.toByte, payload⟩ = true)
    (hp : ∀ i c, p i c → c.Live) (hd : Distinct s) :
    Spread p ⟨type.toByte, payload⟩ s (slots.foldl (castTurn p type payload) s) := by
  have hchannels : ∀ u i, (castTurn p type payload u i).channels = u.channels := by
    intro u i
    unfold castTurn
    split_ifs
    · exact enqueueOrDisconnect_channels ..
    · rfl
  have htotal : ∀ (l : List Slot) u, (l.foldl (castTurn p type payload) u).stats.totalConnections =
      u.stats.totalConnections := by
    intro l
    induction l with
    | nil => exact fun _ => rfl
    | cons i l ih =>
      intro u
      rw [List.foldl_cons, ih]
      unfold castTurn
      split_ifs
      · exact enqueueOrDisconnect_totalConnections ..
      · rfl
  have habsent : ∀ k, (∀ i, (s.clients i).Live → (s.clients i).conn ≠ k) →
      Elsewhere k s (slots.foldl (castTurn p type payload) s) := fun k hk =>
    Transition.foldl_invisible (P := fun u => ∀ j, (u.clients j).Live → (u.clients j).conn ≠ k)
      (R := Elsewhere k) .refl (fun _ _ _ => .trans) (fun u w h hu j hj => by
        obtain ⟨hj', hconn⟩ := h.live j hj
        rw [hconn]
        exact hu j hj') (fun u hu j _ => castTurn_elsewhere type payload hp (hu j)) hk
  refine .of_turns htype (foldl_channels hchannels slots s) (htotal slots s) (fun i hl => ?_)
    habsent fun j hj => ?_
  · refine Transition.foldl_turn (P := OnlyAt (s.clients i).conn i)
      (R := Elsewhere (s.clients i).conn) .refl (fun _ _ _ => .trans)
      (fun _ _ => OnlyAt.elsewhere)
      (fun u hu j hne => castTurn_elsewhere type payload hp (hu j hne))
      (fun u hu => hu.of_clients fun j hne => castTurn_of_ne type payload hne)
      nodup_slots (mem_slots i) fun j hne hj heq => hne (hd j i hj hl heq)
  · -- whoever is live afterwards was so before: look from a number nobody has
    obtain ⟨k, hk⟩ : ∃ k, ∀ i, (s.clients i).Live → (s.clients i).conn ≠ k := by
      obtain ⟨k, hk⟩ := (Finset.univ.image fun i => (s.clients i).conn).exists_notMem
      exact ⟨k, fun i _ heq => hk (Finset.mem_image.mpr ⟨i, Finset.mem_univ i, heq⟩)⟩
    exact ((habsent k hk).live j hj).1

/-- One client gets a frame, or is closed. -/
theorem Spread.single {type : ServerMsgType} {payload : Bytes}
    (htype : isMessage ⟨type.toByte, payload⟩ = true) (hl : (s.clients i).Live) (hd : Distinct s) :
    Spread (fun j _ => j = i) ⟨type.toByte, payload⟩ s (enqueueOrDisconnect s i type payload) := by
  have helse : ∀ k, (s.clients i).conn ≠ k → Elsewhere k s (enqueueOrDisconnect s i type payload) :=
    fun k hk => enqueueOrDisconnect_elsewhere _ _ hl hk
  refine .of_turns htype (enqueueOrDisconnect_channels ..)
    (enqueueOrDisconnect_totalConnections ..) (fun j hj => ⟨s, .refl s, ?_⟩)
    (fun k hk => helse k (hk i hl)) fun j hj => ?_
  · unfold castTurn
    split_ifs with heq
    · rw [heq]
      exact .refl _
    · exact helse _ fun h => heq (hd j i hj hl h.symm)
  · exact ((helse ((s.clients i).conn + 1) (Nat.lt_succ_self _).ne).live j hj).1

/-- **A frame that spreads is a message that is delivered.** -/
theorem Shows.deliver {p : Slot → Client → Prop} {e : ChatLogEntry} (hs : Shows s a)
    (hn : ∀ i, (s.clients i).Live → (s.clients i).conn ≤ s.stats.totalConnections)
    (hd : Distinct s) (h : Spread p (messageFrame e.message) s t)
    (haudience : ∀ k, k ∈ e.audience ↔
      ∃ i, (s.clients i).Live ∧ p i (s.clients i) ∧ (s.clients i).conn = k) :
    ∃ lost, lost ⊆ e.audience ∧ Shows t (a.deliver e lost) := by
  classical
  -- lost is whoever was closed
  let lost : Set ℕ := {k | ∃ i, (s.clients i).Live ∧ ¬ (t.clients i).Live ∧ (s.clients i).conn = k}
  have hkept : ∀ i, (s.clients i).Live → ((s.clients i).conn ∉ lost ↔ (t.clients i).Live) := by
    intro i hl
    constructor
    · intro hlost
      by_contra hdead
      exact hlost ⟨i, hl, hdead, rfl⟩
    · rintro hlive ⟨j, hj, hdead, hconn⟩
      exact hdead (hd j i hj hl hconn ▸ hlive)
  refine ⟨lost, ?_, by rw [h.channels]; exact hs.channels, fun i hi => ?_, fun k hk => ?_,
    fun k => ?_, fun e' he' k hk => ?_⟩
  · rintro k ⟨i, hl, hdead, rfl⟩
    refine (haudience _).mpr ⟨i, hl, ?_, rfl⟩
    by_contra hp
    exact hdead (h.other i hl hp)
  · obtain ⟨hl, hsame⟩ := h.live i hi
    have hstay := (hkept i hl).mpr hi
    rw [(live_of_sameButBuffers hsame).2, h.channels, user_of_sameButBuffers hsame]
    exact (if_neg hstay).trans (hs.user i hl)
  · by_cases hlost : k ∈ lost
    · exact if_pos hlost
    · refine (if_neg hlost).trans (hs.absent k fun i hl heq => ?_)
      have hi := (hkept i hl).mp (heq ▸ hlost)
      exact hk i hi ((live_of_sameButBuffers (h.live i hi).2).2.trans heq)
  · by_cases hk : ∃ i, (s.clients i).Live ∧ (s.clients i).conn = k
    · obtain ⟨i, hl, rfl⟩ := hk
      have hiff : ((s.clients i).conn ∈ e.audience ∧ (s.clients i).conn ∉ lost) ↔
          (p i (s.clients i) ∧ (t.clients i).Live) := by
        rw [hkept i hl, haudience]
        refine and_congr_left fun _ => ⟨?_, fun hp => ⟨i, hl, hp, rfl⟩⟩
        rintro ⟨j, hj, hp, hconn⟩
        exact hd j i hj hl hconn ▸ hp
      by_cases hand : p i (s.clients i) ∧ (t.clients i).Live
      · rw [h.got i hl hand, ← hs.inbox]
        refine (congrArg _ (if_pos (hiff.mpr hand))).trans ?_
        rw [List.map_append]
        rfl
      · rw [h.none i hl hand, ← hs.inbox]
        exact congrArg _ (if_neg fun hboth => hand (hiff.mp hboth))
    · have hnot : k ∉ e.audience := fun hmem => by
        obtain ⟨i, hl, -, hconn⟩ := (haudience k).mp hmem
        exact hk ⟨i, hl, hconn⟩
      rw [h.absent k fun i hl hconn => hk ⟨i, hl, hconn⟩, ← hs.inbox]
      exact congrArg _ (if_neg fun hand => hnot hand.1)
  · rw [h.totalConnections]
    rcases List.mem_append.mp he' with he' | he'
    · exact hs.audience e' he' k hk
    · rw [List.mem_singleton.mp he'] at hk
      obtain ⟨i, hl, -, rfl⟩ := (haudience k).mp hk
      exact hn i hl

/-! ## The transitions of a request -/

/-- The service can go with the server from `s` to `t`, with the message that meets `Q`, if there is
one. -/
def Follows (Q : ChatLogEntry → Prop) (s t : Server) : Prop :=
  ∀ a, Shows s a → ∃ b, ChatService.Goes cwMaxChannels Q a b ∧ Shows t b

/-- The service can go with the server from `s` to `t`, without a message. -/
def Stays (s t : Server) : Prop :=
  ∀ a, Shows s a → ∃ b, ReflTransGen (ChatService.Quiet cwMaxChannels) a b ∧ Shows t b

theorem Stays.trans (h : Stays s u) (h' : Stays u t) : Stays s t := by
  intro a ha
  obtain ⟨b, hab, hb⟩ := h a ha
  obtain ⟨c, hbc, hc⟩ := h' b hb
  exact ⟨c, hab.trans hbc, hc⟩

theorem Follows.trans (h : Follows Q s u) (h' : Stays u t) : Follows Q s t := by
  intro a ha
  obtain ⟨b, hab, hb⟩ := h a ha
  obtain ⟨c, hbc, hc⟩ := h' b hb
  exact ⟨c, hab.trans hbc, hc⟩

theorem Stays.follows (h : Stays s t) (hnone : ∀ e, ¬ Q e) : Follows Q s t := by
  intro a ha
  obtain ⟨b, hab, hb⟩ := h a ha
  exact ⟨b, .inl ⟨hnone, hab⟩, hb⟩

theorem Stays.same (h : Hidden s t) (hchannels : t.channels = s.channels)
    (hclients : ∀ i, SameButBuffers (s.clients i) (t.clients i)) : Stays s t :=
  fun a ha => ⟨a, .refl, ha.same h hchannels hclients⟩

theorem Stays.close {c : Client} (hd : Distinct s) (hl : (s.clients i).Live)
    (hclients : t.clients = Function.update s.clients i c) (hdead : ¬ c.Live) (h : Hidden s t)
    (hchannels : t.channels = s.channels) : Stays s t := fun _ ha =>
  ⟨_, .single ⟨.exit (ha.user i hl), rfl⟩, ha.close hd hl hclients hdead h hchannels⟩

theorem Distinct.of_live (hd : Distinct s)
    (h : ∀ j, (t.clients j).Live → (s.clients j).Live ∧ (t.clients j).conn = (s.clients j).conn) :
    Distinct t := by
  intro i j hi hj heq
  obtain ⟨hi', hci⟩ := h i hi
  obtain ⟨hj', hcj⟩ := h j hj
  exact hd i j hi' hj' (hci.symm.trans (heq.trans hcj))

theorem Distinct.setClient {c : Client} (hd : Distinct s) (hl : (s.clients i).Live)
    (hclients : t.clients = Function.update s.clients i c) (hconn : c.conn = (s.clients i).conn) :
    Distinct t := by
  refine hd.of_live fun j hj => ?_
  rw [hclients] at hj ⊢
  rcases eq_or_ne j i with rfl | hne
  · rw [Function.update_self]
    exact ⟨hl, hconn⟩
  · rw [Function.update_of_ne hne] at hj ⊢
    exact ⟨hj, rfl⟩

/-- A reply that is accepted is no message. -/
theorem Shows.reply {type : ServerMsgType} {text : Bytes} (hs : Shows s a)
    (htype : isMessage ⟨type.toByte, text⟩ = false) (h : Accepts s i text) :
    Shows (enqueueOrDisconnect s i type text) a := by
  rw [enqueueOrDisconnect_of_accepts h]
  refine hs.same ⟨.concat (pushFrame_trace ..) ?_, rfl⟩ rfl fun j => ?_
  · rw [Effect.TellsMessage, htype]
    exact Bool.false_ne_true
  · rw [pushFrame_clients]
    rcases eq_or_ne j i with rfl | hne
    · rw [Function.update_self]
      exact ⟨_, _, _, rfl⟩
    · rw [Function.update_of_ne hne]
      exact .refl _

/-- A reply is no message. -/
theorem Stays.reply {type : ServerMsgType} {text : Bytes} (hd : Distinct s)
    (hl : (s.clients i).Live) (htype : isMessage ⟨type.toByte, text⟩ = false) :
    Stays s (enqueueOrDisconnect s i type text) := by
  by_cases h : Accepts s i text
  · exact fun a ha => ⟨a, .refl, ha.reply htype h⟩
  · obtain ⟨heap, hq⟩ := enqueueOrDisconnect_of_not_accepts type h
    rw [hq]
    exact .close hd hl (overflowDisconnect_clients ..) (Client.not_live_reset _)
      ⟨.drop hl id id, overflowDisconnect_totalConnections ..⟩ (overflowDisconnect_channels ..)

theorem Stays.disconnect (hd : Distinct s) (hl : (s.clients i).Live) (r : Reason) :
    Stays s (disconnectClient s i r) :=
  .close hd hl (disconnectClient_clients ..) (Client.not_live_reset _)
    ⟨.concat (disconnectClient_trace _ _ _ hl) id, disconnectClient_totalConnections ..⟩
    (disconnectClient_channels ..)

/-- A user of the service is a live client. -/
theorem Shows.exists_slot {w : ChatService.User Bytes Bytes} (hs : Shows s a)
    (h : a.user k = some w) : ∃ i, (s.clients i).Live ∧ (s.clients i).conn = k ∧
      w = (s.clients i).user s.channels := by
  by_contra hnone
  have habsent := hs.absent k fun i hi hk => hnone
    ⟨i, hi, hk, Option.some.inj (h.symm.trans (hk ▸ hs.user i hi))⟩
  rw [habsent] at h
  cases h

theorem mem_user_channels {name : Bytes} (hc : ChannelsOk s) (hch : s.channels[idx]? = some name) :
    name ∈ ((s.clients i).user s.channels).channels ↔ (s.clients i).joined idx = true := by
  constructor
  · rintro ⟨idx', hch', hj⟩
    have hfirst := findChannel_of_getElem? hc.nodup hch
    have hsecond := findChannel_of_getElem? hc.nodup hch'
    rwa [Option.some.inj (hfirst.symm.trans hsecond)]
  · exact fun hj => ⟨idx, hch, hj⟩

/-- The members of a channel are its members. -/
theorem Shows.mem_members {name : Bytes} (hs : Shows s a) (hc : ChannelsOk s)
    (hch : s.channels[idx]? = some name) : k ∈ a.members name ↔
      ∃ j, (s.clients j).Live ∧ (s.clients j).isMember idx = true ∧ (s.clients j).conn = k := by
  constructor
  · rintro ⟨w, hw, hmem⟩
    obtain ⟨j, hl, hk, rfl⟩ := hs.exists_slot hw
    have hj := (mem_user_channels hc hch).mp hmem
    exact ⟨j, hl, Client.isMember_iff.mpr ⟨hl, (hc.clients j).registered idx hj, hj⟩, hk⟩
  · rintro ⟨j, hl, hm, rfl⟩
    exact ⟨_, hs.user j hl, (mem_user_channels hc hch).mpr (Client.isMember_iff.mp hm).2.2⟩

/-- A name that no other client has is free. -/
theorem Shows.free {name : Bytes} (hs : Shows s a) (hl : (s.clients i).Live)
    (hfree : usernameInUse s name i = false) : a.Free (s.clients i).conn name := by
  intro k w hne hw hname
  obtain ⟨j, hlj, rfl, rfl⟩ := hs.exists_slot hw
  unfold Client.user at hname
  obtain ⟨hreg, heq⟩ := Option.ite_none_right_eq_some.mp hname
  refine usernameInUse_eq_false_iff.mp hfree j ?_ hlj hreg (Option.some.inj heq)
  rintro rfl
  exact hne rfl

theorem user_name (hr : (s.clients i).registered = true) :
    ((s.clients i).user s.channels).name = some (s.clients i).username := if_pos hr

theorem user_current (h : (s.clients i).activeChannel ≠ []) :
    ((s.clients i).user s.channels).current = some (s.clients i).activeChannel := if_neg h

theorem Shows.takeName (hs : Shows s a) (hd : Distinct s) (hl : (s.clients i).Live)
    (name : Bytes) : Shows (takeName s i name) (a.set (s.clients i).conn
      (some { (s.clients i).user s.channels with name := some name })) :=
  hs.update_same (t := Core.takeName s i name) hd hl rfl hl rfl ⟨.of_eq rfl, rfl⟩ rfl

/-- The client takes a name: nobody is told. -/
theorem Stays.takeName {name : Bytes} (hd : Distinct s) (hl : (s.clients i).Live)
    (hname : AcceptsName s i frame name) : Stays s (takeName s i name) := fun _ ha =>
  ⟨_, .single ⟨.name (ha.user i hl) (ha.free hl hname.free), rfl⟩, ha.takeName hd hl name⟩

/-- A table of channels has at most as many names as places. -/
theorem encard_channels_le (channels : List Bytes) :
    {name | name ∈ channels}.encard ≤ channels.length := by
  have heq : {name | name ∈ channels} = (channels.toFinset : Set Bytes) := by
    ext name
    simp
  rw [heq, Set.encard_coe_eq_coe_finsetCard]
  exact_mod_cast List.toFinset_card_le channels

/-- A table that grows says the same of a client that has not joined its new channel. -/
theorem user_append {channels : List Bytes} {c : Client} (hc : MembershipOk channels c)
    (name : Bytes) : c.user (channels ++ [name]) = c.user channels := by
  unfold Client.user
  congr 1
  ext n
  refine exists_congr fun idx => and_congr_left fun hj => ?_
  rw [List.getElem?_append_left (hc.joined_lt idx hj)]

theorem joinedNames_update_true {channels : List Bytes} {name : Bytes} (joined : ℕ → Bool)
    (hch : channels[idx]? = some name) :
    joinedNames channels (Function.update joined idx true) =
      insert name (joinedNames channels joined) := by
  ext n
  constructor
  · rintro ⟨j, hj, hjoined⟩
    rcases eq_or_ne j idx with rfl | hne
    · exact .inl (Option.some.inj (hj.symm.trans hch))
    · exact .inr ⟨j, hj, by rwa [Function.update_of_ne hne] at hjoined⟩
  · rintro (rfl | ⟨j, hj, hjoined⟩)
    · exact ⟨idx, hch, Function.update_self ..⟩
    · refine ⟨j, hj, ?_⟩
      rcases eq_or_ne j idx with rfl | hne
      · exact Function.update_self ..
      · rwa [Function.update_of_ne hne]

/-- In a table without duplicates another place means another name. -/
theorem joinedNames_update_false {channels : List Bytes} {name : Bytes} (joined : ℕ → Bool)
    (hnodup : channels.Nodup) (hch : channels[idx]? = some name) :
    joinedNames channels (Function.update joined idx false) =
      joinedNames channels joined \ {name} := by
  ext n
  constructor
  · rintro ⟨j, hj, hjoined⟩
    have hne : j ≠ idx := by
      rintro rfl
      rw [Function.update_self] at hjoined
      cases hjoined
    refine ⟨⟨j, hj, by rwa [Function.update_of_ne hne] at hjoined⟩, fun hn => hne ?_⟩
    rw [Set.mem_singleton_iff.mp hn] at hj
    obtain ⟨hlt, hjn⟩ := List.getElem?_eq_some_iff.mp hj
    obtain ⟨hlt', hidxn⟩ := List.getElem?_eq_some_iff.mp hch
    exact (hnodup.getElem_inj_iff).mp (hjn.trans hidxn.symm)
  · rintro ⟨⟨j, hj, hjoined⟩, hn⟩
    have hne : j ≠ idx := by
      rintro rfl
      exact hn (Option.some.inj (hj.symm.trans hch))
    exact ⟨j, hj, by rwa [Function.update_of_ne hne]⟩

/-- The client that has entered a channel. -/
theorem user_enterChannel {name : Bytes} (hname : name ≠ []) (hch : s.channels[idx]? = some name) :
    Client.user s.channels { s.clients i with
      joined := Function.update (s.clients i).joined idx true, activeChannel := name } =
      { (s.clients i).user s.channels with
        channels := insert name ((s.clients i).user s.channels).channels, current := some name } := by
  unfold Client.user
  rw [joinedNames_update_true _ hch, if_neg hname]

theorem ensureChannel_full {name : Bytes} (h : ensureChannel s name = (some idx, t)) :
    name ∈ s.channels ∨ s.channels.length < cwMaxChannels := by
  unfold ensureChannel at h
  cases hf : findChannel s name with
  | some idx' => exact .inl (List.mem_of_getElem? (findChannel_eq_some hf))
  | none =>
    rw [hf] at h
    simp only at h
    split_ifs at h with hfull
    · cases (Prod.mk.inj h).1
    · exact .inr (not_le.mp hfull)

/-- A `JOIN` that is accepted. -/
theorem Stays.join {name : Bytes} (hc : ChannelsOk s) (hd : Distinct s)
    (hl : (s.clients i).Live) (hreg : (s.clients i).registered = true)
    (hread : readName frame.payload cwChannelCap = some name)
    (hensure : ensureChannel s name = (some idx, u)) :
    Stays s (enterChannel u i idx name) := by
  obtain ⟨-, hv, hwhole⟩ := readName_eq_some hread
  obtain ⟨hfind, hu⟩ := ensureChannel_channels hwhole hensure
  have hname : name ≠ [] := ValidName.ne_nil hv
  have hclients : u.clients = s.clients := (joined_confined hread hensure).1
  have hothers : ∀ c : Client, MembershipOk s.channels c →
      c.user u.channels = c.user s.channels := by
    intro c hcl
    rcases hu with rfl | ⟨-, rfl⟩
    · rfl
    · exact user_append hcl name
  have hopened : {n | n ∈ u.channels} = insert name {n | n ∈ s.channels} := by
    have hmem : name ∈ u.channels := List.mem_of_getElem? (findChannel_eq_some hfind)
    ext n
    rcases hu with rfl | ⟨-, rfl⟩
    · refine ⟨.inr, ?_⟩
      rintro (rfl | hn)
      · exact hmem
      · exact hn
    · simp [or_comm]
  have hhidden : Hidden s (enterChannel u i idx name) := by
    rcases hu with rfl | ⟨-, rfl⟩ <;> exact ⟨.of_eq rfl, rfl⟩
  have huser : Client.user u.channels { s.clients i with
      joined := Function.update (s.clients i).joined idx true, activeChannel := name } =
      { (s.clients i).user s.channels with
        channels := insert name ((s.clients i).user s.channels).channels, current := some name } := by
    have henter := user_enterChannel (s := u) (i := i) hname (findChannel_eq_some hfind)
    rw [hclients, hothers _ (hc.clients i)] at henter
    exact henter
  intro a ha
  have hupdate := ha.update (t := enterChannel u i idx name) (c := { s.clients i with
      joined := Function.update (s.clients i).joined idx true, activeChannel := name }) hd hl
    (by rw [enterChannel, Server.setClient_clients, hclients]) hl rfl hhidden
    fun j => hothers _ (hc.clients j)
  have hchannels : (enterChannel u i idx name).channels = u.channels := rfl
  rw [hchannels, huser, hopened, ← ha.channels] at hupdate
  refine ⟨_, .single ⟨.join (ha.user i hl)
      (by rw [user_name hreg]; exact Option.some_ne_none _) ?_, rfl⟩, hupdate⟩
  rw [ha.channels]
  refine (ensureChannel_full hensure).imp_right fun hlt => ?_
  exact (encard_channels_le s.channels).trans_lt (by exact_mod_cast hlt)

/-- A `SWITCH` that is accepted. -/
theorem Stays.switch {name : Bytes} (hc : ChannelsOk s) (hd : Distinct s)
    (hl : (s.clients i).Live) (hname : name ≠ []) (hfind : findChannel s name = some idx)
    (hj : (s.clients i).joined idx = true) :
    Stays s (s.setClient i { s.clients i with activeChannel := name }) := by
  intro a ha
  have hupdate := ha.update_same (t := s.setClient i { s.clients i with activeChannel := name })
    hd hl rfl hl rfl ⟨.of_eq rfl, rfl⟩ rfl
  have huser : Client.user s.channels { s.clients i with activeChannel := name } =
      { (s.clients i).user s.channels with current := some name } := by
    unfold Client.user
    rw [if_neg hname]
  rw [huser] at hupdate
  exact ⟨_, .single ⟨.switch (ha.user i hl)
    ((mem_user_channels hc (findChannel_eq_some hfind)).mpr hj), rfl⟩, hupdate⟩

/-- A `LEAVE` that is accepted. -/
theorem Stays.leave {name : Bytes} (hc : ChannelsOk s) (hd : Distinct s)
    (hl : (s.clients i).Live) (hname : name ≠ []) (hfind : findChannel s name = some idx)
    (hj : (s.clients i).joined idx = true) : Stays s (exitChannel s i idx name) := by
  intro a ha
  have hupdate := ha.update_same (t := exitChannel s i idx name) hd hl rfl hl rfl
    ⟨.of_eq rfl, rfl⟩ rfl
  let c : Client := { s.clients i with
    joined := Function.update (s.clients i).joined idx false
    activeChannel := if (s.clients i).activeChannel = name then []
      else (s.clients i).activeChannel }
  have huser : c.user s.channels = { (s.clients i).user s.channels with
      channels := ((s.clients i).user s.channels).channels \ {name}
      current := (c.user s.channels).current } := by
    unfold Client.user
    rw [joinedNames_update_false _ hc.nodup (findChannel_eq_some hfind)]
  have hleave : ChatService.Step cwMaxChannels a
      (a.set (s.clients i).conn (some (c.user s.channels))) := by
    rw [huser]
    refine .leave (ha.user i hl) ((mem_user_channels hc (findChannel_eq_some hfind)).mpr hj)
      (fun hcur => ?_) fun hcur => ?_
    · obtain ⟨-, hact⟩ := Option.ite_none_left_eq_some.mp hcur
      exact if_pos (if_pos (Option.some.inj hact))
    · have hact : (s.clients i).activeChannel ≠ name := by
        rintro rfl
        exact hcur (if_neg hname)
      have hsame : c.activeChannel = (s.clients i).activeChannel := if_neg hact
      unfold Client.user
      simp only [hsame]
  exact ⟨_, .single ⟨hleave, rfl⟩, hupdate⟩

/-! ## Messages -/

/-- **What the client in slot `i` tells others with a frame**, and whom: the members of its active
channel, the client of the name in the payload, or the others in its active channel, if the reply to
the `NICK` has room. -/
inductive Utters (s : Server) (i : Slot) (frame : Frame) : ChatLogEntry → Prop where
  | chat {idx : ℕ} {text : Bytes} : AcceptsSay s i frame idx text →
      Utters s i frame ⟨(s.clients i).conn, .channel (s.clients i).activeChannel,
        {k | ∃ j, (s.clients j).isMember idx = true ∧ (s.clients j).conn = k},
        .chat (s.clients i).activeChannel (s.clients i).username text⟩
  | direct {target : Slot} {name text : Bytes} : frame.type = ClientMsgType.dm.toByte →
      (s.clients i).registered = true → readDmPayload frame.payload = some (name, text) →
      findUser s name = some target →
      Utters s i frame ⟨(s.clients i).conn, .user name, {(s.clients target).conn},
        .direct (s.clients i).username text⟩
  | renamed {idx : ℕ} {name : Bytes} : frame.type = ClientMsgType.nick.toByte →
      AcceptsName s i frame name → findChannel s (s.clients i).activeChannel = some idx →
      Accepts (takeName s i name) i (ascii "username changed") →
      Utters s i frame ⟨(s.clients i).conn, .others (s.clients i).activeChannel,
        {k | ∃ j, j ≠ i ∧ (s.clients j).isMember idx = true ∧ (s.clients j).conn = k},
        .renamed (s.clients i).username name⟩

/-- The members of a channel, as a set. -/
theorem Shows.members_eq {name : Bytes} (hs : Shows s a) (hc : ChannelsOk s)
    (hch : s.channels[idx]? = some name) : a.members name =
      {k | ∃ j, (s.clients j).isMember idx = true ∧ (s.clients j).conn = k} := by
  ext k
  rw [hs.mem_members hc hch]
  refine exists_congr fun j => ⟨fun h => h.2, fun h => ⟨(Client.isMember_iff.mp h.1).1, h⟩⟩

/-- The other members of a channel. -/
theorem Shows.others_eq {name : Bytes} (hs : Shows s a) (hc : ChannelsOk s) (hd : Distinct s)
    (hl : (s.clients i).Live) (hch : s.channels[idx]? = some name) :
    a.members name \ {(s.clients i).conn} =
      {k | ∃ j, j ≠ i ∧ (s.clients j).isMember idx = true ∧ (s.clients j).conn = k} := by
  rw [hs.members_eq hc hch]
  ext k
  constructor
  · rintro ⟨⟨j, hm, rfl⟩, hne⟩
    exact ⟨j, fun heq => hne (heq ▸ rfl), hm, rfl⟩
  · rintro ⟨j, hne, hm, rfl⟩
    exact ⟨⟨j, hm, rfl⟩, fun heq => hne (hd j i (Client.isMember_iff.mp hm).1 hl heq)⟩

/-- The user of a name is the client that `findUser` finds. -/
theorem Shows.named_eq {name : Bytes} {target : Slot} (hs : Shows s a) (hv : NamesOk s)
    (hfound : findUser s name = some target) : a.named name = {(s.clients target).conn} := by
  obtain ⟨hl, hreg, hname⟩ := findUser_eq_some hfound
  ext k
  rw [Set.mem_singleton_iff]
  constructor
  · rintro ⟨w, hw, hwname⟩
    obtain ⟨j, hlj, rfl, rfl⟩ := hs.exists_slot hw
    obtain ⟨hregj, hnamej⟩ := Option.ite_none_right_eq_some.mp hwname
    rw [hv.unique j target hlj hl ((hv.registered_iff j).mp hregj)
      ((Option.some.inj hnamej).trans hname.symm)]
  · rintro rfl
    exact ⟨_, hs.user target hl, (user_name hreg).trans (congrArg some hname)⟩

/-- A `SAY` that is accepted. -/
theorem Follows.say {text : Bytes} (hc : ChannelsOk s) (hn : Numbered s) (hl : (s.clients i).Live)
    (h : AcceptsSay s i frame idx text) : Follows (Utters s i frame) s (chatSent s i idx text) := by
  intro a ha
  have hd : Distinct s := hn.unique
  have hch := findChannel_eq_some h.channel
  let entry : ChatLogEntry := a.entry (s.clients i).conn (.channel (s.clients i).activeChannel)
    (.chat (s.clients i).activeChannel (s.clients i).username text)
  let u := announce s i idx ⟨(s.clients i).activeChannel, (s.clients i).username, text⟩
  have hu : Shows u a := ha.same ⟨.concat rfl id, rfl⟩ rfl fun j => .refl _
  have hspread : Spread (fun _ c => c.isMember idx = true) (messageFrame entry.message) u
      (chatLoop u idx (chatPayload (s.clients i) text)) :=
    Spread.loop (isMessage_chat _) (fun _ _ hm => (Client.isMember_iff.mp hm).1) hd
  obtain ⟨lost, hlost, hv⟩ := hu.deliver (e := entry) hn.conn_le hd hspread
    fun k => ha.mem_members hc hch
  have hutters : Utters s i frame entry := by
    show Utters s i frame ⟨_, _, a.members _, _⟩
    rw [ha.members_eq hc hch]
    exact .chat h
  refine ⟨_, .logs ⟨.post (ha.user i hl) (user_name h.registered)
    (user_current (hc.activeChannel_ne_nil h.channel)) hlost, rfl, rfl⟩ hutters, ?_⟩
  unfold chatSent
  refine Shows.countChat ?_
  exact hv

/-- A direct message, whether its addressee has room or not. -/
theorem Follows.direct {target : Slot} {text : Bytes} (hnames : NamesOk s) (hn : Numbered s)
    (hl : (s.clients i).Live) (h : AcceptsDm s i frame target text) : Follows (Utters s i frame) s
      (enqueueOrDisconnect s target .dmRecv (dmPayload (s.clients i) text)) := by
  intro a ha
  obtain ⟨name, hread, hfound⟩ := h.found
  obtain ⟨hlt, hreg, -⟩ := findUser_eq_some hfound
  have hnamed := ha.named_eq hnames hfound
  let entry : ChatLogEntry := a.entry (s.clients i).conn (.user name)
    (.direct (s.clients i).username text)
  have haudience : entry.audience = {(s.clients target).conn} := hnamed
  have hspread : Spread (fun j _ => j = target) (messageFrame entry.message) s
      (enqueueOrDisconnect s target .dmRecv (dmPayload (s.clients i) text)) :=
    Spread.single (isMessage_dmRecv _) hlt hn.unique
  obtain ⟨lost, hlost, hv⟩ := ha.deliver (e := entry) hn.conn_le hn.unique hspread fun k => by
    rw [haudience]
    constructor
    · rintro rfl
      exact ⟨target, hlt, rfl, rfl⟩
    · rintro ⟨j, -, rfl, rfl⟩
      rfl
  have hutters : Utters s i frame entry := by
    show Utters s i frame ⟨_, _, a.named name, _⟩
    rw [hnamed]
    exact .direct h.dm h.registered hread hfound
  exact ⟨_, .logs ⟨.direct (ha.user i hl) (user_name h.registered)
    (hnamed ▸ Set.singleton_nonempty _) hlost, rfl, rfl⟩ hutters, hv⟩

theorem broadcastSystem_spread (hd : Distinct u) (text : Bytes)
    (hfind : findChannel u (u.clients i).activeChannel = some idx) :
    Spread (fun j c => j ≠ i ∧ c.isMember idx = true) ⟨ServerMsgType.system.toByte, text⟩ u
      (broadcastSystemToActiveChannel u i text) := by
  rw [broadcastSystemToActiveChannel, hfind]
  exact Spread.loop (isMessage_system _) (fun _ _ hm => (Client.isMember_iff.mp hm.2).1) hd

/-- A `NICK` that is accepted: the members of the client's active channel are told, unless the
client has none, or had no room for the reply. -/
theorem Follows.nick {name : Bytes} (hc : ChannelsOk s) (hv : NamesOk s) (hn : Numbered s)
    (hl : (s.clients i).Live) (htype : frame.type = ClientMsgType.nick.toByte)
    (h : AcceptsName s i frame name) : Follows (Utters s i frame) s
      (broadcastSystemToActiveChannel
        (safeEnqueueText (Core.takeName s i name) i .ok (ascii "username changed")) i
        (nickNotice (s.clients i) name)) := by
  have hd : Distinct s := hn.unique
  have hvalid : ValidName name := (readName_eq_some h.read).2.1
  have hself : (Core.takeName s i name).clients i =
      { s.clients i with username := name, registered := true } := Server.setClient_self ..
  have hl' : ((Core.takeName s i name).clients i).Live := by
    rw [hself]
    exact hl
  have hd' : Distinct (Core.takeName s i name) := hd.setClient (i := i) hl rfl rfl
  have hquiet : Stays s
      (safeEnqueueText (Core.takeName s i name) i .ok (ascii "username changed")) :=
    (Stays.takeName hd hl h).trans (.reply hd' hl' rfl)
  generalize hw : safeEnqueueText (Core.takeName s i name) i .ok (ascii "username changed") = w
    at hquiet ⊢
  have hchannels : w.channels = s.channels := hw ▸ enqueueOrDisconnect_channels ..
  have hother : ∀ j, j ≠ i → w.clients j = s.clients j := fun j hne => by
    rw [← hw, safeEnqueueText, enqueueOrDisconnect_clients_of_ne _ _ hne]
    exact Server.setClient_of_ne hne
  have hclient : Accepts (Core.takeName s i name) i (ascii "username changed") →
      SameButBuffers ((Core.takeName s i name).clients i) (w.clients i) := by
    intro haccepts
    rw [← hw, safeEnqueueText, enqueueOrDisconnect_of_accepts haccepts, pushFrame_clients,
      Function.update_self]
    exact ⟨_, _, _, rfl⟩
  have hsame : Accepts (Core.takeName s i name) i (ascii "username changed") →
      (w.clients i).activeChannel = (s.clients i).activeChannel := by
    intro haccepts
    obtain ⟨inbuf, out, queuedBytes, heq⟩ := hclient haccepts
    rw [heq, hself]
  cases hfind : findChannel w (w.clients i).activeChannel with
  | none =>
    rw [broadcastSystemToActiveChannel, hfind]
    refine hquiet.follows fun e he => ?_
    -- nobody is told: the client has no active channel, or it was closed
    have hne : ∀ {type : ClientMsgType}, frame.type = type.toByte → type = .nick := fun htype' =>
      ClientMsgType.toByte_inj.mp (htype'.symm.trans htype)
    cases he with
    | chat hsay => cases hne hsay.say
    | direct htype' _ _ _ => cases hne htype'
    | renamed _ hname hfind' haccepts =>
      obtain rfl := Option.some.inj (hname.read.symm.trans h.read)
      rw [hsame haccepts, findChannel, hchannels, ← findChannel, hfind'] at hfind
      cases hfind
  | some idx =>
    have hactive : (w.clients i).activeChannel ≠ [] := fun hnil =>
      (hc.valid _ (hchannels ▸ List.mem_of_getElem? (findChannel_eq_some hfind))).ne_nil hnil
    -- a client that was closed would have no active channel
    have haccepts : Accepts (Core.takeName s i name) i (ascii "username changed") := by
      by_contra hno
      obtain ⟨heap, hq⟩ := enqueueOrDisconnect_of_not_accepts .ok hno
      rw [← hw, safeEnqueueText, hq, overflowDisconnect_clients, Function.update_self] at hactive
      exact hactive rfl
    have hclient := hclient haccepts
    have hsame := hsame haccepts
    have hlive : ∀ j, (w.clients j).Live →
        (s.clients j).Live ∧ (w.clients j).conn = (s.clients j).conn := by
      intro j hj
      rcases eq_or_ne j i with rfl | hne
      · refine ⟨hl, (live_of_sameButBuffers hclient).2.trans ?_⟩
        rw [hself]
      · rw [hother j hne] at hj ⊢
        exact ⟨hj, rfl⟩
    have hch : s.channels[idx]? = some (s.clients i).activeChannel := by
      rw [← hsame, ← hchannels]
      exact findChannel_eq_some hfind
    obtain ⟨idx', hch', hjoined⟩ : ∃ idx', s.channels[idx']? = some (s.clients i).activeChannel ∧
        (s.clients i).joined idx' = true :=
      (hc.clients i).active.resolve_left (hsame ▸ hactive)
    have hreg := (hc.clients i).registered idx' hjoined
    intro a ha
    have hwa := (ha.takeName hd hl name).reply
      (rfl : isMessage ⟨ServerMsgType.ok.toByte, _⟩ = false) haccepts
    rw [← safeEnqueueText, hw] at hwa
    let entry : ChatLogEntry := a.entry (s.clients i).conn (.others (s.clients i).activeChannel)
      (.renamed (s.clients i).username name)
    have hspread := broadcastSystem_spread (hd.of_live hlive) (nickNotice (s.clients i) name) hfind
    rw [nickNotice_eq hv hreg hvalid] at hspread ⊢
    have htotal : w.stats.totalConnections = s.stats.totalConnections :=
      hw ▸ enqueueOrDisconnect_totalConnections ..
    have haudience : ∀ k, k ∈ entry.audience ↔ ∃ j, (w.clients j).Live ∧
        (j ≠ i ∧ (w.clients j).isMember idx = true) ∧ (w.clients j).conn = k := by
      intro k
      show k ∈ a.members _ \ {_} ↔ _
      rw [ha.others_eq hc hd hl hch]
      constructor
      · rintro ⟨j, hji, hm, rfl⟩
        have hj := (Client.isMember_iff.mp hm).1
        exact ⟨j, by rwa [hother j hji], ⟨hji, by rwa [hother j hji]⟩, by rw [hother j hji]⟩
      · rintro ⟨j, -, ⟨hji, hm⟩, rfl⟩
        rw [hother j hji] at hm ⊢
        exact ⟨j, hji, hm, rfl⟩
    have hutters : Utters s i frame entry := by
      show Utters s i frame ⟨_, _, a.members _ \ {_}, _⟩
      rw [ha.others_eq hc hd hl hch]
      refine .renamed htype h ?_ haccepts
      rw [findChannel, ← hchannels, ← hsame]
      exact hfind
    obtain ⟨lost, hlost, hshows⟩ := hwa.deliver (e := entry) (fun j hj => by
      rw [(hlive j hj).2, htotal]
      exact hn.conn_le j (hlive j hj).1) (hd.of_live hlive) hspread haudience
    exact ⟨_, .logs ⟨.rename (ha.user i hl) (ha.free hl h.free) (user_name hreg)
      (user_current (hsame ▸ hactive)) hlost, rfl, rfl⟩ hutters, hshows⟩

/-! ## Every step -/

/-- **A request is followed by the service.** -/
theorem handleFrame_follows (hc : ChannelsOk s) (hv : NamesOk s) (hn : Numbered s)
    (hl : (s.clients i).Live) :
    Follows (Utters s i frame) s (handleFrame s i frame.type frame.payload) := by
  have hd : Distinct s := hn.unique
  have hok : ∀ text, isMessage ⟨ServerMsgType.ok.toByte, text⟩ = false := fun _ => rfl
  have hdm : ∀ {target : Slot} {text : Bytes}, AcceptsDm s i frame target text →
      Follows (Utters s i frame) s (handleFrame s i frame.type frame.payload) := by
    intro target text hdm
    have hdirect := Follows.direct hv hn hl hdm
    rw [handleFrame_of_acceptsDm hv hdm]
    split_ifs with haccepts
    · rw [enqueueOrDisconnect_of_accepts haccepts] at hdirect ⊢
      generalize hu : pushFrame (s.setHeap fun n => s.heap (n + 1)) target .dmRecv
        (dmPayload (s.clients i) text) = u at hdirect ⊢
      have hsame : ∀ j, SameButBuffers (s.clients j) (u.clients j) := by
        intro j
        rw [← hu, pushFrame_clients]
        rcases eq_or_ne j target with rfl | hne
        · rw [Function.update_self]
          exact ⟨_, _, _, rfl⟩
        · rw [Function.update_of_ne hne]
          exact .refl _
      have hd' : Distinct (countDm u) := hd.of_live fun j hj =>
        ⟨(live_of_sameButBuffers (hsame j)).1.mp hj, (live_of_sameButBuffers (hsame j)).2⟩
      have hcount : Stays u (countDm u) := .same ⟨.of_eq rfl, rfl⟩ rfl fun _ => .refl _
      exact (hdirect.trans hcount).trans
        (.reply hd' ((live_of_sameButBuffers (hsame i)).1.mpr hl) (hok _))
    · exact hdirect
  by_cases hutters : ∃ e, Utters s i frame e
  · obtain ⟨e, he⟩ := hutters
    cases he with
    | chat hsay =>
      rw [handleFrame_of_acceptsSay hc hv hsay]
      exact .say hc hn hl hsay
    | direct htype hreg hread hfound => exact hdm ⟨htype, hreg, _, hread, hfound⟩
    | renamed htype hname _ _ =>
      rw [handleFrame_of_nick htype hname]
      exact .nick hc hv hn hl htype hname
  · have hnone : ∀ e, ¬ Utters s i frame e := fun e he => hutters ⟨e, he⟩
    have hending := handleFrame_ending hc hv i frame
    generalize handleFrame s i frame.type frame.payload = t at hending hdm ⊢
    cases hending with
    | refused text => exact (Stays.reply hd hl rfl).follows hnone
    | @registered name _ hname =>
      exact ((Stays.takeName hd hl hname).trans (.reply (hd.setClient hl rfl rfl)
        (by rwa [Core.takeName, Server.setClient_self]) (hok _))).follows hnone
    | renamed htype hname => exact .nick hc hv hn hl htype hname
    | @joined u idx name _ hreg hread hensure =>
      have hclients := (joined_confined hread hensure).1
      refine ((Stays.join hc hd hl hreg hread hensure).trans (.reply
        (hd.setClient (t := enterChannel u i idx name) (c := { s.clients i with
          joined := Function.update (s.clients i).joined idx true, activeChannel := name }) hl ?_
          rfl) ?_ (hok _))).follows hnone
      · rw [enterChannel, Server.setClient_clients, hclients]
      · rw [enterChannel, Server.setClient_self, hclients]
        exact hl
    | switched _ hread hfind hj =>
      exact ((Stays.switch hc hd hl (ValidName.ne_nil (readName_eq_some hread).2.1) hfind hj).trans
        (.reply (hd.setClient hl rfl rfl) (by rwa [Server.setClient_self]) (hok _))).follows hnone
    | left _ hread hfind hj =>
      exact ((Stays.leave hc hd hl (ValidName.ne_nil (readName_eq_some hread).2.1) hfind hj).trans
        (.reply (hd.setClient hl rfl rfl) (by rwa [exitChannel, Server.setClient_self])
          (hok _))).follows hnone
    | said hsay => exact absurd (.chat hsay) (hnone _)
    | sentDm hdm' _ => exact hdm hdm'
    | lostDm hdm' _ => exact hdm hdm'
    | queried text htype _ =>
      simp only [List.mem_cons, List.not_mem_nil, or_false] at htype
      rcases htype with rfl | rfl | rfl <;> exact (Stays.reply hd hl rfl).follows hnone
    | quit _ => exact (Stays.disconnect hd hl _).follows hnone

/-- What is recorded does not change what a client says. -/
theorem utters_emit_iff {e : ChatLogEntry} {effect : Effect} :
    Utters (s.emit effect) i frame e ↔ Utters s i frame e := by
  constructor
  · rintro (hsay | ⟨htype, hreg, hread, hfound⟩ | ⟨htype, hname, hfind, haccepts⟩)
    · exact .chat ⟨hsay.say, hsay.registered, hsay.channel, hsay.read, hsay.nonempty⟩
    · exact .direct htype hreg hread hfound
    · exact .renamed htype ⟨hname.read, hname.free⟩ hfind haccepts
  · rintro (hsay | ⟨htype, hreg, hread, hfound⟩ | ⟨htype, hname, hfind, haccepts⟩)
    · exact .chat (s := s.emit effect)
        ⟨hsay.say, hsay.registered, hsay.channel, hsay.read, hsay.nonempty⟩
    · exact .direct (s := s.emit effect) htype hreg hread hfound
    · exact .renamed (s := s.emit effect) htype ⟨hname.read, hname.free⟩ hfind haccepts

/-- A frame says one message at most. -/
theorem Utters.unique {e e' : ChatLogEntry} (h : Utters s i frame e) (h' : Utters s i frame e') :
    e = e' := by
  have hne : ∀ {type type' : ClientMsgType}, frame.type = type.toByte →
      frame.type = type'.toByte → type = type' := fun htype htype' =>
    ClientMsgType.toByte_inj.mp (htype.symm.trans htype')
  cases h with
  | chat hsay =>
    cases h' with
    | chat hsay' =>
      obtain rfl := Option.some.inj (hsay.channel.symm.trans hsay'.channel)
      obtain rfl := Option.some.inj (hsay.read.symm.trans hsay'.read)
      rfl
    | direct htype _ _ _ => cases hne hsay.say htype
    | renamed htype _ _ _ => cases hne hsay.say htype
  | direct htype _ hread hfound =>
    cases h' with
    | chat hsay => cases hne hsay.say htype
    | direct _ _ hread' hfound' =>
      obtain ⟨rfl, rfl⟩ := Prod.mk.inj (Option.some.inj (hread.symm.trans hread'))
      obtain rfl := Option.some.inj (hfound.symm.trans hfound')
      rfl
    | renamed htype' _ _ _ => cases hne htype htype'
  | renamed htype hname hfind _ =>
    cases h' with
    | chat hsay => cases hne hsay.say htype
    | direct htype' _ _ _ => cases hne htype htype'
    | renamed _ hname' hfind' _ =>
      obtain rfl := Option.some.inj (hname.read.symm.trans hname'.read)
      obtain rfl := Option.some.inj (hfind.symm.trans hfind')
      rfl

/-- The message is what a client says in the turn from `s` to `t`. -/
def SaidIn (s t : Server) (e : ChatLogEntry) : Prop :=
  ∃ i turn frame, TakesTurn s t i turn ∧ turn.request = some frame ∧ Utters s i frame e

/-- In a turn of a client only its own request is said. -/
theorem TakesTurn.saidIn_iff {e : ChatLogEntry} (h : TakesTurn s t i turn) (hn : Numbered s) :
    SaidIn s t e ↔ ∃ frame, turn.request = some frame ∧ Utters s i frame e := by
  constructor
  · rintro ⟨i', turn', frame, h', hreq, hutters⟩
    have hturns := h.turns_eq.symm.trans h'.turns_eq
    obtain rfl : turn = turn' := List.singleton_inj.mp (List.append_cancel_left hturns)
    obtain rfl : i = i' := hn.unique i i' h.live h'.live (h.conn.symm.trans h'.conn)
    exact ⟨frame, hreq, hutters⟩
  · rintro ⟨frame, hreq, hutters⟩
    exact ⟨i, turn, frame, h, hreq, hutters⟩

theorem SaidIn.unique {e e' : ChatLogEntry} (hn : Numbered s) (h : SaidIn s t e)
    (h' : SaidIn s t e') : e = e' := by
  obtain ⟨i, turn, frame, hturn, hreq, hutters⟩ := h
  obtain ⟨frame', hreq', hutters'⟩ := (hturn.saidIn_iff hn).mp h'
  obtain rfl := Option.some.inj (hreq.symm.trans hreq')
  exact hutters.unique hutters'

/-- **A turn is followed by the service.** -/
theorem TakesTurn.follows (h : TakesTurn s t i turn) (hr : Reachable s) :
    Follows (SaidIn s t) s t := by
  have hn := numbered hr.moveReachable
  cases hreq : turn.request with
  | none =>
    have hnone : ∀ e, ¬ SaidIn s t e := by
      intro e he
      obtain ⟨frame, hreq', -⟩ := (h.saidIn_iff hn).mp he
      rw [hreq] at hreq'
      cases hreq'
    refine Stays.follows ?_ hnone
    rw [h.rejects hreq]
    have hmark : Stays s ((s.setStats
        { s.stats with malformedFrames := s.stats.malformedFrames + 1 }).emit
          (.malformed (s.clients i).conn)) := .same ⟨.concat rfl id, rfl⟩ rfl fun _ => .refl _
    exact hmark.trans (.reply hn.unique h.live rfl)
  | some frame =>
    obtain ⟨n, hhead⟩ : ∃ n, frameHead cwMaxPayloadSize (s.clients i).inbuf = .item frame n := by
      have hrequest := h.request
      rwa [hreq] at hrequest
    have ht : t = (serveFrame s i frame n).2 := by rw [h.step, drainTurn_eq, hhead]
    let u := s.emit (.handled (s.clients i).conn frame)
    have hafter : Stays (handleFrame u i frame.type frame.payload) t := by
      rw [ht]
      refine .same ⟨.of_eq (serveFrame_trace ..), ?_⟩ (serveFrame_channels ..) fun j => ?_
      · unfold serveFrame
        simp only
        split_ifs <;> rfl
      · obtain ⟨inbuf, hclient⟩ := serveFrame_clients s i frame n j
        rw [hclient]
        exact ⟨_, _, _, rfl⟩
    have hhandled : Follows (Utters u i frame) u (handleFrame u i frame.type frame.payload) :=
      handleFrame_follows ((channelsOk hr.moveReachable).emit _) ((namesOk hr.moveReachable).emit _)
        ((Move.handle h.live).numbered hn) h.live
    have hfollows := hhandled.trans hafter
    have hsaid : SaidIn s t = Utters u i frame := by
      funext e
      rw [h.saidIn_iff hn, hreq, utters_emit_iff]
      simp
    intro a ha
    have hu : Shows u a := ha.same ⟨.concat rfl id, rfl⟩ rfl fun _ => .refl _
    rw [hsaid]
    exact hfollows a hu

/-- **Every step is followed by the service.** -/
theorem Step.follows (h : Step s t) (hr : Reachable s) : Follows (SaidIn s t) s t := by
  have hn := numbered hr.moveReachable
  rcases h.quiet_or_turn with hquiet | ⟨i, turn, hturn⟩
  swap
  · exact hturn.follows hr
  have hnoTurn : ∀ {i turn}, ¬ TakesTurn s t i turn := by
    intro i turn hturn
    have hturns := hturn.turns_eq
    rw [turns_of_silent hquiet] at hturns
    exact absurd (List.append_right_eq_self.mp hturns.symm) (List.cons_ne_nil _ _)
  refine Stays.follows ?_ fun e ⟨i, turn, frame, hturn, _⟩ => hnoTurn hturn
  have hsame : ∀ {i : Slot} {c : Client}, t.clients = Function.update s.clients i c →
      SameButBuffers (s.clients i) c → ∀ j, SameButBuffers (s.clients j) (t.clients j) := by
    intro i c hclients hc j
    rw [hclients]
    rcases eq_or_ne j i with rfl | hne
    · rw [Function.update_self]
      exact hc
    · rw [Function.update_of_ne hne]
      exact .refl _
  cases h with
  | @accept fd nonblocking hfd =>
    intro a ha
    unfold acceptConnection
    cases hfree : (freeSlot s).filter fun _ => nonblocking with
    | none => exact ⟨a, .refl, ha⟩
    | some slot =>
      have hslot := List.find?_some (Option.filter_eq_some_iff.mp hfree).1
      exact ha.occupy hn (of_decide_eq_true hslot)
  | recv hl _ _ =>
    exact .same ⟨.concat rfl id, rfl⟩ rfl (hsame rfl ⟨_, _, _, rfl⟩)
  | @drain i hl =>
    rcases drainTurn_quiet_or_turn hl with heq | ⟨turn, hturn⟩
    · rw [heq]
      exact .same (.refl s) rfl fun _ => .refl _
    · exact absurd hturn hnoTurn
  | @send i n frame rest hl hout _ _ =>
    obtain ⟨out, queuedBytes, hclients, -⟩ := takeSent_clients (n := n) hout
    refine .same ⟨.concat (takeSent_trace hout) id, ?_⟩ (takeSent_channels ..)
      (hsame hclients ⟨_, _, _, rfl⟩)
    simp only [takeSent, hout]
    split_ifs <;> rfl
  | disconnect hl => exact .disconnect hn.unique hl _

/-! ## Every run -/

theorem shows_initial (maxQueueBytes : ℕ) (heap : ℕ → Bool) :
    Shows (Server.initial maxQueueBytes heap) .empty := by
  have hnobody : ∀ i, ¬ ((Server.initial maxQueueBytes heap).clients i).Live := fun _ =>
    Client.not_live_blank
  refine ⟨?_, fun i hi => absurd hi (hnobody i), fun _ _ => rfl, fun _ => rfl, fun e he => ?_⟩
  · ext name
    simp [ChatService.State.empty, Server.initial]
  · cases he

/-- **The messages of a run to `s`**, in their order: each was said in the state in which its frame
was handled, to those it was meant for in that state. -/
inductive Chronicle : Server → List ChatLogEntry → Prop where
  | init {s : Server} : system.init s → Chronicle s []
  | quiet {s t : Server} {log : List ChatLogEntry} : Chronicle s log → Step s t →
      (∀ e, ¬ SaidIn s t e) → Chronicle t log
  | said {s t : Server} {log : List ChatLogEntry} {e : ChatLogEntry} : Chronicle s log →
      Step s t → SaidIn s t e → Chronicle t (log ++ [e])

theorem Chronicle.reachable {log : List ChatLogEntry} (h : Chronicle s log) : Reachable s := by
  induction h with
  | init hinit => exact .init hinit
  | quiet _ hst _ ih => exact .step ih hst
  | said _ hst _ ih => exact .step ih hst

/-- **The log of a run is the log of the service that goes with it.** -/
theorem Chronicle.exists_chat {log : List ChatLogEntry} (h : Chronicle s log) : ∃ a : Chat,
    Transition.Reachable (ChatService.system cwMaxChannels) a ∧ Shows s a ∧ a.log = log := by
  induction h with
  | init hinit =>
    obtain ⟨maxQueueBytes, heap, -, rfl⟩ := hinit
    exact ⟨_, .init rfl, shows_initial _ _, rfl⟩
  | quiet hrun hst hnone ih =>
    obtain ⟨a, ha, hshows, rfl⟩ := ih
    obtain ⟨b, hab, hb⟩ := hst.follows hrun.reachable a hshows
    refine ⟨b, ha.trans hab.steps, hb, ?_⟩
    rcases hab.log with ⟨-, hlog⟩ | ⟨e, he, -⟩
    · exact hlog
    · exact absurd he (hnone e)
  | said hrun hst hsaid ih =>
    obtain ⟨a, ha, hshows, rfl⟩ := ih
    obtain ⟨b, hab, hb⟩ := hst.follows hrun.reachable a hshows
    refine ⟨b, ha.trans hab.steps, hb, ?_⟩
    rcases hab.log with ⟨hnone, -⟩ | ⟨e, he, hlog⟩
    · exact absurd hsaid (hnone _)
    · rw [hlog, he.unique (numbered hrun.reachable.moveReachable) hsaid]

/-- Every run has a log. -/
theorem exists_chronicle (h : Reachable s) : ∃ log, Chronicle s log := by
  induction h with
  | init hinit => exact ⟨[], .init hinit⟩
  | @step s t _ hst ih =>
    obtain ⟨log, hlog⟩ := ih
    by_cases hsaid : ∃ e, SaidIn s t e
    · obtain ⟨e, he⟩ := hsaid
      exact ⟨log ++ [e], .said hlog hst he⟩
    · exact ⟨log, .quiet hlog hst fun e he => hsaid ⟨e, he⟩⟩

/-- The message is what its author asked for in this turn. -/
def AskedIn (e : ChatLogEntry) (turn : Turn) : Prop :=
  e.author = turn.conn ∧ ∃ frame, turn.request = some frame ∧ match e.message with
    | .chat _ _ text => frame.type = ClientMsgType.say.toByte ∧
      readOneStringPayload frame.payload (cwTextCap + 1) = some text
    | .direct _ text => frame.type = ClientMsgType.dm.toByte ∧
      ∃ target, readDmPayload frame.payload = some (target, text) ∧ e.address = .user target
    | .renamed _ new => frame.type = ClientMsgType.nick.toByte ∧
      readName frame.payload cwNameCap = some new

/-- What was said was asked for. -/
theorem SaidIn.askedIn {e : ChatLogEntry} (h : SaidIn s t e) :
    ∃ turn, turns t.trace = turns s.trace ++ [turn] ∧ AskedIn e turn := by
  obtain ⟨i, turn, frame, hturn, hreq, hutters⟩ := h
  refine ⟨turn, hturn.turns_eq, ?_⟩
  cases hutters with
  | chat hsay => exact ⟨hturn.conn.symm, frame, hreq, hsay.say, hsay.read⟩
  | direct htype _ hread _ => exact ⟨hturn.conn.symm, frame, hreq, htype, _, hread, rfl⟩
  | renamed htype hname _ _ => exact ⟨hturn.conn.symm, frame, hreq, htype, hname.read⟩

/-- **Every message stands for a turn that asked for it**, in the order of the turns. -/
theorem Chronicle.askedIn {log : List ChatLogEntry} (h : Chronicle s log) :
    List.SublistForall₂ AskedIn log (turns s.trace) := by
  induction h with
  | init _ => exact .nil
  | quiet _ hst _ ih =>
    obtain ⟨l, hl, hsub⟩ := List.sublistForall₂_iff.mp ih
    refine List.sublistForall₂_iff.mpr ⟨l, hl, hsub.trans ?_⟩
    rcases hst.quiet_or_turn with hquiet | ⟨i, turn, hturn⟩
    · rw [turns_of_silent hquiet]
    · rw [hturn.turns_eq]
      exact List.sublist_append_left ..
  | said _ _ hsaid ih =>
    obtain ⟨l, hl, hsub⟩ := List.sublistForall₂_iff.mp ih
    obtain ⟨turn, hturns, hasked⟩ := hsaid.askedIn
    refine List.sublistForall₂_iff.mpr ⟨l ++ [turn], List.rel_append hl (.cons hasked .nil), ?_⟩
    rw [hturns]
    exact hsub.append (List.Sublist.refl _)

/-- **The core server refines a chat service.**  Every reachable state shows a reachable state of
the service.  And for every step of the server, in whatever state of the service it is taken, the
service takes transitions to a state that is shown after it.  If a client says something in the
turn of this step, the first of them, from this very state, logs what it says, to those it is
meant for by the memberships and names of the server in this state; no other logs anything. -/
theorem core_refines_chat_service (h : Reachable s) :
    (∃ a, Transition.Reachable (ChatService.system cwMaxChannels) a ∧ Shows s a) ∧
    ∀ a t, Shows s a → Step s t →
      ∃ b, ChatService.Goes cwMaxChannels (SaidIn s t) a b ∧ Shows t b := by
  refine ⟨h.simulated (R := Shows) (fun s hinit => ?_) fun s t a hs _ hshows hst => ?_,
    fun a t hshows hst => hst.follows h a hshows⟩
  · obtain ⟨maxQueueBytes, heap, -, rfl⟩ := hinit
    exact ⟨_, rfl, shows_initial _ _⟩
  · obtain ⟨b, hgoes, hshows'⟩ := hst.follows hs a hshows
    exact ⟨b, hgoes.steps, hshows'⟩

theorem core_refines_chat_service_room :
    ∃ a, Transition.Reachable (ChatService.system cwMaxChannels) a ∧ Shows roomWithText a :=
  (core_refines_chat_service reachable_roomWithText).1

/-- **All messages are of one log.**  Every run has a log of all that was said in it, each by the
turn that asked for it and to those it was meant for by the memberships and names of the server in
the state of that turn, in the order of the turns.  And every connection was told the first of the
`CHAT`s, `DM_RECV`s and notices of the log that are meant for it, each once and in the order of the
log, and nothing else of this kind; a connection that is still there was told all of them. -/
theorem messages_of_one_log : (∀ s, Reachable s → ∃ log, Chronicle s log) ∧
    ∀ s log, Chronicle s log → List.SublistForall₂ AskedIn log (turns s.trace) ∧
      (∀ k, messagesTo k s.trace <+: (ChatService.dueIn log k).map messageFrame) ∧
      ∀ i, (s.clients i).Live → messagesTo (s.clients i).conn s.trace =
        (ChatService.dueIn log (s.clients i).conn).map messageFrame := by
  refine ⟨fun s h => exists_chronicle h, fun s log hlog => ?_⟩
  obtain ⟨a, ha, hshows, rfl⟩ := hlog.exists_chat
  have hagrees := ChatService.agreement ha
  refine ⟨hlog.askedIn, fun k => ?_, fun i hi => ?_⟩
  · rw [← hshows.inbox]
    exact (hagrees k).1.map messageFrame
  · rw [← hshows.inbox, (hagrees _).2 (by rw [hshows.user i hi]; exact Option.some_ne_none _)]
    rfl

/-- `bob` was told what `alice` said. -/
theorem messages_of_one_log_room : ∃ log, Chronicle roomWithText log ∧
    messagesTo 2 roomWithText.trace ≠ [] ∧
      messagesTo 2 roomWithText.trace = (ChatService.dueIn log 2).map messageFrame := by
  obtain ⟨hruns, htold⟩ := messages_of_one_log
  obtain ⟨log, hlog⟩ := hruns roomWithText reachable_roomWithText
  have hconn : (roomWithText.clients 1).conn = 2 := by decide +kernel
  have hbob := (htold roomWithText log hlog).2.2 1 (by decide +kernel)
  rw [hconn] at hbob
  exact ⟨log, hlog, by decide +kernel, hbob⟩

end Core
end ChannelWire
