import ChannelWire.Core.Deliveries
import ChannelWire.Core.Malformed
import ChannelWire.Core.Slots
import ChannelWire.Core.Posts
import Mathlib.Algebra.Ring.Int.Defs
import Mathlib.Data.Nat.Cast.Basic

/-!
# What the counters count

Four of the counters of `send_stats` count something that happens at the queues: accepted texts,
direct messages, rejected headers and frames for which a client had no room.  `Balance` is what each
counter is ahead of its count in the trace; handlers count a text after its broadcast and a direct
message after its delivery, so the balance is not `0` in the middle of them, but it is after each
of their ends (`Ending.balance`).
-/

namespace ChannelWire
namespace Core

open LinkedQueue

namespace Effect

/-- A text was accepted. -/
def isSaid : Effect → Bool
  | said _ _ _ => true
  | _ => false

/-- A direct message was delivered. -/
def isDelivery : Effect → Bool
  | enqueued _ frame => isDmRecv frame
  | _ => false

/-- A header was rejected. -/
def isMalformed : Effect → Bool
  | malformed _ => true
  | _ => false

/-- A client had no room for a frame. -/
def isRefused : Effect → Bool
  | refused _ _ => true
  | _ => false

end Effect

/-- How much the four counters are ahead of the trace. -/
structure Balance where
  channelMessages : ℤ
  directMessages : ℤ
  malformedFrames : ℤ
  queueDisconnects : ℤ
  deriving DecidableEq

/-- The counters less what the trace says. -/
def balance (s : Server) : Balance where
  channelMessages := s.stats.channelMessages - s.trace.countP Effect.isSaid
  directMessages := s.stats.directMessages - s.trace.countP Effect.isDelivery
  malformedFrames := s.stats.malformedFrames - s.trace.countP Effect.isMalformed
  queueDisconnects := s.stats.queueDisconnects - s.trace.countP Effect.isRefused

/-- The effect is none of those that are counted. -/
def Effect.Uncounted (e : Effect) : Prop :=
  e.isSaid = false ∧ e.isDelivery = false ∧ e.isMalformed = false ∧ e.isRefused = false

variable {s t : Server} {i : Slot} {type : ServerMsgType} {payload : Bytes} {frame : Frame}

/-- What is not counted leaves the balance. -/
theorem balance_eq {es : List Effect} (htrace : t.trace = s.trace ++ es)
    (hes : ∀ e ∈ es, e.Uncounted)
    (hchannel : t.stats.channelMessages = s.stats.channelMessages)
    (hdirect : t.stats.directMessages = s.stats.directMessages)
    (hmalformed : t.stats.malformedFrames = s.stats.malformedFrames)
    (hqueue : t.stats.queueDisconnects = s.stats.queueDisconnects) : balance t = balance s := by
  have hnone : ∀ p : Effect → Bool, (∀ e, e.Uncounted → p e = false) → es.countP p = 0 :=
    fun p hp => List.countP_eq_zero.mpr fun e he => Bool.eq_false_iff.mp (hp e (hes e he))
  unfold balance
  rw [htrace, hchannel, hdirect, hmalformed, hqueue, List.countP_append, List.countP_append,
    List.countP_append, List.countP_append, hnone Effect.isSaid fun _ h => h.1,
    hnone Effect.isDelivery fun _ h => h.2.1, hnone Effect.isMalformed fun _ h => h.2.2.1,
    hnone Effect.isRefused fun _ h => h.2.2.2]
  rfl

theorem balance_emit {e : Effect} (he : e.Uncounted) : balance (s.emit e) = balance s :=
  balance_eq (s.emit_trace e) (fun e' he' => by rwa [List.mem_singleton.mp he']) rfl rfl rfl rfl

theorem resetClient_stats (s : Server) (i : Slot) :
    (resetClient s i).stats = { s.stats with
      currentConnections := (resetClient s i).stats.currentConnections } := by
  unfold resetClient
  simp only
  split_ifs <;> rfl

theorem disconnectClient_stats (s : Server) (i : Slot) (r : Reason) :
    (disconnectClient s i r).stats = { s.stats with
      currentConnections := (disconnectClient s i r).stats.currentConnections } := by
  unfold disconnectClient
  rw [resetClient_stats]
  split_ifs <;> rfl

theorem balance_disconnect (hl : (s.clients i).Live) (r : Reason) :
    balance (disconnectClient s i r) = balance s := by
  refine balance_eq (disconnectClient_trace _ _ _ hl) (fun e he => ?_) ?_ ?_ ?_ ?_
  · rw [List.mem_singleton.mp he]
    exact ⟨rfl, rfl, rfl, rfl⟩
  all_goals rw [disconnectClient_stats]

/-- A client without room is closed, and counted. -/
theorem balance_overflow {heap : ℕ → Bool} (hl : (s.clients i).Live) :
    balance (overflowDisconnect ((s.setHeap heap).emit (.refused (s.clients i).conn frame)) i) =
      balance s := by
  have hstats : (overflowDisconnect
      ((s.setHeap heap).emit (.refused (s.clients i).conn frame)) i).stats =
      { s.stats with
        currentConnections := (overflowDisconnect
          ((s.setHeap heap).emit (.refused (s.clients i).conn frame)) i).stats.currentConnections
        queueDisconnects := s.stats.queueDisconnects + 1 } := by
    unfold overflowDisconnect
    rw [disconnectClient_stats]
    rfl
  unfold balance
  rw [hstats, drop_trace hl]
  simp [List.countP_append, List.countP_cons, Effect.isSaid, Effect.isDelivery, Effect.isMalformed,
    Effect.isRefused]

theorem balance_push {heap : ℕ → Bool} (hdm : isDmRecv ⟨type.toByte, payload⟩ = false) :
    balance (pushFrame (s.setHeap heap) i type payload) = balance s :=
  balance_eq (pushFrame_trace ..) (fun e he => by
    rw [List.mem_singleton.mp he]
    exact ⟨rfl, hdm, rfl, rfl⟩) rfl rfl rfl rfl

/-- A frame that is no direct message. -/
theorem balance_enqueue (hl : (s.clients i).Live) (hdm : isDmRecv ⟨type.toByte, payload⟩ = false) :
    balance (enqueueOrDisconnect s i type payload) = balance s := by
  by_cases h : Accepts s i payload
  · rw [enqueueOrDisconnect_of_accepts h, balance_push hdm]
  · obtain ⟨heap, hq⟩ := enqueueOrDisconnect_of_not_accepts type h
    rw [hq, balance_overflow hl]

theorem balance_error (hl : (s.clients i).Live) (text : Bytes) :
    balance (safeEnqueueText s i .error text) = balance s := balance_enqueue hl rfl

/-- A direct message that is delivered is ahead of its counter. -/
theorem balance_countDm {heap : ℕ → Bool} :
    balance (countDm (pushFrame (s.setHeap heap) i .dmRecv payload)) = balance s := by
  unfold balance countDm
  simp only [Server.setStats_stats, Server.setStats_trace, pushFrame_trace, pushFrame_stats,
    Server.setHeap_stats, Server.setHeap_trace, List.countP_append, List.countP_singleton]
  have hdm : isDmRecv ⟨ServerMsgType.dmRecv.toByte, payload⟩ = true := rfl
  simp [Effect.isSaid, Effect.isDelivery, Effect.isMalformed, Effect.isRefused, hdm]

theorem balance_foldl {body : Server → Slot → Server}
    (hbody : ∀ u j, balance (body u j) = balance u)
    (l : List Slot) (s : Server) : balance (l.foldl body s) = balance s := by
  induction l generalizing s with
  | nil => rfl
  | cons j l ih => rw [List.foldl_cons, ih, hbody]

theorem balance_broadcastSystem (text : Bytes) :
    balance (broadcastSystemToActiveChannel s i text) = balance s := by
  unfold broadcastSystemToActiveChannel
  split
  · rfl
  · refine balance_foldl (fun u j => ?_) slots s
    unfold systemTurn
    split_ifs with hm
    · exact balance_enqueue (Client.isMember_iff.mp hm.2).1 rfl
    · rfl

theorem balance_chatLoop (idx : ℕ) : balance (chatLoop s idx payload) = balance s := by
  refine balance_foldl (fun u j => ?_) slots s
  unfold chatTurn
  split_ifs with hm
  · exact balance_enqueue (Client.isMember_iff.mp hm).1 rfl
  · rfl

/-- The text is counted after the loop. -/
theorem balance_countChat (s : Server) :
    balance (s.setStats { s.stats with channelMessages := s.stats.channelMessages + 1 }) =
      { balance s with channelMessages := (balance s).channelMessages + 1 } := by
  unfold balance
  simp only [Server.setStats_stats, Server.setStats_trace]
  congr 1
  omega

theorem balance_announce (idx : ℕ) (entry : ChatEntry) :
    balance (announce s i idx entry) =
      { balance s with channelMessages := (balance s).channelMessages - 1 } := by
  unfold balance announce
  simp only [Server.emit_stats, Server.emit_trace, List.countP_append, List.countP_singleton]
  simp [Effect.isSaid, Effect.isDelivery, Effect.isMalformed, Effect.isRefused]
  omega

/-- A rejected header is counted. -/
theorem balance_malformed (s : Server) (k : ℕ) :
    balance ((s.setStats { s.stats with malformedFrames := s.stats.malformedFrames + 1 }).emit
      (.malformed k)) = balance s := by
  unfold balance
  simp only [Server.emit_stats, Server.emit_trace, Server.setStats_stats, Server.setStats_trace,
    List.countP_append, List.countP_singleton]
  simp [Effect.isSaid, Effect.isDelivery, Effect.isMalformed, Effect.isRefused]

/-- **No request leaves a counter ahead or behind.** -/
theorem Ending.balance (h : Ending s i frame t) (hl : (s.clients i).Live) :
    Core.balance t = Core.balance s := by
  cases h with
  | refused _ => exact balance_enqueue hl rfl
  | registered _ _ =>
    rw [safeEnqueueText, balance_enqueue (by rwa [takeName, Server.setClient_self]) rfl]
    rfl
  | renamed _ _ =>
    rw [balance_broadcastSystem, safeEnqueueText,
      balance_enqueue (by rwa [takeName, Server.setClient_self]) rfl]
    rfl
  | joined _ _ hread hensure =>
    have hclients := (joined_confined hread hensure).1
    rw [safeEnqueueText, balance_enqueue (by
      rw [enterChannel, Server.setClient_self, hclients]
      exact hl) rfl]
    obtain ⟨-, -, hwhole⟩ := readName_eq_some hread
    obtain ⟨-, rfl | ⟨-, rfl⟩⟩ := ensureChannel_channels hwhole hensure <;> rfl
  | switched _ _ _ _ =>
    rw [safeEnqueueText, balance_enqueue (by rwa [Server.setClient_self]) rfl]
    rfl
  | left _ _ _ _ =>
    rw [safeEnqueueText, balance_enqueue (by rwa [exitChannel, Server.setClient_self]) rfl]
    rfl
  | said _ =>
    unfold chatSent
    refine (balance_countChat _).trans ?_
    rw [balance_chatLoop, balance_announce]
    simp
  | @sentDm target text _ haccepts =>
    rw [enqueueOrDisconnect_of_accepts haccepts, safeEnqueueText, balance_enqueue ?_ rfl,
      balance_countDm]
    show (Function.update s.clients target _ i).Live
    rcases eq_or_ne i target with rfl | hne
    · rwa [Function.update_self]
    · rwa [Function.update_of_ne hne]
  | lostDm hdm hno =>
    obtain ⟨heap, hq⟩ := enqueueOrDisconnect_of_not_accepts .dmRecv hno
    obtain ⟨name, -, hfound⟩ := hdm.found
    rw [hq, balance_overflow (findUser_eq_some hfound).1]
  | queried text htype _ =>
    simp only [List.mem_cons, List.not_mem_nil, or_false] at htype
    rcases htype with rfl | rfl | rfl <;> exact balance_enqueue hl rfl
  | quit _ => exact balance_disconnect hl _

/-! ## Every run -/

theorem Step.balance (h : Step s t) (hr : Reachable s) : Core.balance t = Core.balance s := by
  cases h with
  | accept _ =>
    rcases acceptConnection_cases s _ _ with heq | ⟨slot, heq⟩
    · rw [heq]
    · rw [heq]
      exact balance_eq rfl (fun e he => by
        rw [List.mem_singleton.mp he]
        exact ⟨rfl, rfl, rfl, rfl⟩) rfl rfl rfl rfl
  | recv _ _ _ =>
    exact balance_eq rfl (fun e he => by
      rw [List.mem_singleton.mp he]
      exact ⟨rfl, rfl, rfl, rfl⟩) rfl rfl rfl rfl
  | @drain i hl =>
    rw [drainTurn_eq]
    cases frameHead cwMaxPayloadSize (s.clients i).inbuf with
    | more => rfl
    | bad =>
      have hreject := balance_malformed s (s.clients i).conn
      unfold rejectHeader
      generalize hu : (s.setStats { s.stats with
        malformedFrames := s.stats.malformedFrames + 1 }).emit (.malformed (s.clients i).conn) = u
        at hreject
      have hlu : (u.clients i).Live := hu ▸ hl
      have hreply := balance_error hlu (ascii "malformed frame")
      subst hu
      exact hreply.trans hreject
    | item frame n =>
      have hending : Ending (s.emit (.handled (s.clients i).conn frame)) i frame
          (handleFrame (s.emit (.handled (s.clients i).conn frame)) i frame.type frame.payload) :=
        handleFrame_ending ((channelsOk hr.moveReachable).emit _)
          ((namesOk hr.moveReachable).emit _) i frame
      have hserve := (hending.balance hl).trans (balance_emit ⟨rfl, rfl, rfl, rfl⟩)
      unfold serveFrame
      simp only
      split_ifs <;> exact hserve
  | send _ hout _ _ =>
    refine balance_eq (takeSent_trace hout) (fun e he => ?_) ?_ ?_ ?_ ?_
    · rw [List.mem_singleton.mp he]
      exact ⟨rfl, rfl, rfl, rfl⟩
    all_goals rw [takeSent_stats]
  | disconnect hl => exact balance_disconnect hl _

theorem balance_of_reachable (h : Reachable s) : Core.balance s = ⟨0, 0, 0, 0⟩ := by
  refine Transition.Reachable.invariant (P := fun s => Core.balance s = ⟨0, 0, 0, 0⟩) ?_
    (fun _ _ hr hs hst => (Step.balance hst hr).trans hs) h
  rintro _ ⟨maxQueueBytes, heap, -, rfl⟩
  rfl

/-- Whoever had no room was closed for it. -/
def RefusedAreClosed (s : Server) : Prop :=
  ∀ k frame, .refused k frame ∈ s.trace → .closed k .queueOverflow ∈ s.trace

theorem RefusedAreClosed.extend {es : List Effect} (hs : RefusedAreClosed s)
    (htrace : t.trace = s.trace ++ es)
    (hes : ∀ k frame, .refused k frame ∈ es → .closed k .queueOverflow ∈ es) :
    RefusedAreClosed t := by
  intro k frame hmem
  rw [htrace, List.mem_append] at hmem ⊢
  exact hmem.imp (hs k frame) (hes k frame)

theorem RefusedAreClosed.concat {e : Effect} (hs : RefusedAreClosed s)
    (htrace : t.trace = s.trace ++ [e]) (he : e.isRefused = false) : RefusedAreClosed t :=
  hs.extend htrace fun k frame hmem => by
    rw [← List.mem_singleton.mp hmem] at he
    cases he

theorem Action.refusedAreClosed {r : Request} (h : Action r s t) (hs : RefusedAreClosed s) :
    RefusedAreClosed t := by
  cases h with
  | push _ _ _ _ => exact hs.concat (pushFrame_trace ..) rfl
  | drop _ hl =>
    refine hs.extend (drop_trace hl) fun k frame hmem => ?_
    rcases List.mem_append.mp hmem with hmem | hmem
    · cases List.mem_singleton.mp hmem
      exact List.mem_append_right _ (List.mem_singleton_self _)
    · cases List.mem_singleton.mp hmem
  | quit hl _ => exact hs.concat (disconnectClient_trace _ _ _ hl) rfl
  | announce _ _ _ _ _ _ => exact hs.concat rfl rfl
  | rename _ _ _ _ | openChannel _ _ _ | join _ _ _ _ | switch _ _ _ _ | leave _ _ | count _ _ =>
    exact hs

theorem Move.refusedAreClosed (h : Move s t) (hs : RefusedAreClosed s) : RefusedAreClosed t := by
  cases h with
  | act ha => exact ha.refusedAreClosed hs
  | accept _ _ => exact hs.concat rfl rfl
  | receive _ _ _ => exact hs.concat rfl rfl
  | handle _ => exact hs.concat rfl rfl
  | malformed _ => exact hs.concat rfl rfl
  | shift _ => exact hs
  | send _ hout _ _ => exact hs.concat (takeSent_trace hout) rfl
  | disconnect hl => exact hs.concat (disconnectClient_trace _ _ _ hl) rfl

theorem refusedAreClosed (h : MoveReachable s) : RefusedAreClosed s := by
  refine MoveReachable.invariant ?_ (fun _ _ _ hs hm => hm.refusedAreClosed hs) h
  exact fun _ _ _ _ _ hmem => absurd hmem List.not_mem_nil

theorem length_posts (trace : List Effect) : (posts trace).length = trace.countP Effect.isSaid := by
  induction trace with
  | nil => rfl
  | cons e trace ih =>
    rw [posts, List.flatMap_cons, List.length_append, List.countP_cons, ← ih, posts]
    cases e <;> simp [Effect.post, Effect.isSaid, Nat.add_comm]

/-- What the counters of a run are, by its trace: the accepted texts, the direct messages that
were delivered, the headers that were rejected and the frames for which there was no room. -/
def tally (trace : List Effect) : ServerStats where
  currentConnections := trace.countP Effect.isAccepted - trace.countP Effect.isClosed
  totalConnections := trace.countP Effect.isAccepted
  channelMessages := (posts trace).length
  directMessages := trace.countP Effect.isDelivery
  malformedFrames := trace.countP Effect.isMalformed
  queueDisconnects := trace.countP Effect.isRefused

/-- **The counters tell the run.** -/
theorem stats_eq_tally (h : Reachable s) : s.stats = tally s.trace := by
  have hslots := slotsOk h.moveReachable
  have hbalance := balance_of_reachable h
  obtain ⟨hchannel, hdirect, hmalformed, hqueue⟩ := Balance.mk.inj hbalance
  have hopened := hslots.opened
  have hclosed := hslots.closed
  unfold tally
  rw [length_posts]
  have heq : ∀ st : ServerStats, st = ⟨st.currentConnections, st.totalConnections,
    st.channelMessages, st.directMessages, st.malformedFrames, st.queueDisconnects⟩ := fun _ => rfl
  rw [heq s.stats]
  congr 1 <;> omega

/-! ## What counts -/

/-- The counters of connections, of texts and of rejections, by what a step meets: a connection that
is made nonblocking while a slot is free, a `SAY` that is accepted, and a header that announces too
much in front of an input buffer. -/
structure CountsInput (s : Server) : Prop where
  accepted : ∀ fd nonblocking, (acceptConnection s fd nonblocking).stats.totalConnections =
    s.stats.totalConnections + if nonblocking = true ∧ ∃ j, ¬ (s.clients j).Live then 1 else 0
  said : ∀ t i turn frame idx text, TakesTurn s t i turn → turn.request = some frame →
    AcceptsSay s i frame idx text → t.stats.channelMessages = s.stats.channelMessages + 1
  rejected : ∀ i, (s.clients i).Live → (drainTurn s i).2.stats.malformedFrames =
    s.stats.malformedFrames +
      if frameHead cwMaxPayloadSize (s.clients i).inbuf = .bad then 1 else 0
  /-- Nothing else is a new connection. -/
  onlyAccepts : ∀ t, Step s t → t.stats.totalConnections ≠ s.stats.totalConnections →
    ∃ fd, FreshFd s fd ∧ t = acceptConnection s fd true
  /-- Nothing else is a text. -/
  onlySays : ∀ t, Step s t → t.stats.channelMessages ≠ s.stats.channelMessages →
    ∃ i turn frame idx text, TakesTurn s t i turn ∧ turn.request = some frame ∧
      AcceptsSay s i frame idx text
  /-- Nothing else is a rejection. -/
  onlyRejections : ∀ t, Step s t → t.stats.malformedFrames ≠ s.stats.malformedFrames →
    ∃ i, (s.clients i).Live ∧ t = (drainTurn s i).2

theorem freeSlot_isSome : (freeSlot s).isSome = true ↔ ∃ j, ¬ (s.clients j).Live := by
  rw [freeSlot, List.find?_isSome]
  exact ⟨fun ⟨j, _, hj⟩ => ⟨j, of_decide_eq_true hj⟩,
    fun ⟨j, hj⟩ => ⟨j, mem_slots j, decide_eq_true hj⟩⟩

/-- A connection counts if it gets a slot. -/
theorem acceptConnection_totalConnections (s : Server) (fd : ℕ) (nonblocking : Bool) :
    (acceptConnection s fd nonblocking).stats.totalConnections = s.stats.totalConnections +
      if nonblocking = true ∧ ∃ j, ¬ (s.clients j).Live then 1 else 0 := by
  simp only [← freeSlot_isSome]
  unfold acceptConnection
  cases freeSlot s <;> cases nonblocking <;> rfl

/-- A turn of `drain_input` rejects a bad header, and nothing else. -/
theorem drainTurn_malformedFrames (hr : Reachable s) (i : Slot) :
    (drainTurn s i).2.stats.malformedFrames = s.stats.malformedFrames +
      if frameHead cwMaxPayloadSize (s.clients i).inbuf = .bad then 1 else 0 := by
  rw [drainTurn_eq]
  cases frameHead cwMaxPayloadSize (s.clients i).inbuf with
  | more => rfl
  | bad => exact enqueueOrDisconnect_malformedFrames ..
  | item frame n =>
    have hending := (handleFrame_ending (s := s.emit (.handled (s.clients i).conn frame))
      ((channelsOk hr.moveReachable).emit _) ((namesOk hr.moveReachable).emit _)
      i frame).malformedFrames
    rw [if_neg (by simp)]
    unfold serveFrame
    simp only
    split_ifs with hlive
    · exact hending
    · exact hending

/-- No turn of `drain_input` is a new connection. -/
theorem drainTurn_totalConnections (hl : (s.clients i).Live) :
    (drainTurn s i).2.stats.totalConnections = s.stats.totalConnections := by
  have hactions : ∀ {r : Request} {u v : Server}, Actions r u v →
      v.stats.totalConnections = u.stats.totalConnections := fun {r u v} h =>
    Transition.preserved_of_run
      (P := fun w => w.stats.totalConnections = u.stats.totalConnections)
      (fun _ _ ha hw => ha.totalConnections.trans hw) h rfl
  rw [drainTurn_eq]
  cases frameHead cwMaxPayloadSize (s.clients i).inbuf with
  | more => rfl
  | bad =>
    have hrejected := hactions (rejectHeader_actions hl)
    exact hrejected
  | item frame n =>
    have hserved := hactions (handleFrame_actions (s := s.emit (.handled (s.clients i).conn frame))
      (i := i) frame.type frame.payload hl)
    unfold serveFrame
    simp only
    split_ifs with hlive
    · exact hserved
    · exact hserved

theorem channelMessages_eq (h : Reachable s) :
    s.stats.channelMessages = (posts s.trace).length := by
  rw [stats_eq_tally h]
  rfl

theorem countsInput (hr : Reachable s) : CountsInput s := by
  refine ⟨acceptConnection_totalConnections s, fun t i turn frame idx text hturn hreq hsay => ?_,
    fun i _ => drainTurn_malformedFrames hr i, fun t h hne => ?_, fun t h hne => ?_,
    fun t h hne => ?_⟩
  · have hst : Step s t := by
      rw [hturn.step]
      exact .drain hturn.live
    rw [channelMessages_eq (hr.step hst), channelMessages_eq hr,
      hturn.posts_of_acceptsSay hr hreq hsay, List.length_append]
    rfl
  · cases h with
    | @accept fd nonblocking hfresh =>
      cases nonblocking with
      | true => exact ⟨fd, hfresh, rfl⟩
      | false => exact absurd (acceptConnection_totalConnections s fd false) (by simpa using hne)
    | recv _ _ _ => exact absurd rfl hne
    | drain hl => exact absurd (drainTurn_totalConnections hl) hne
    | send _ _ _ _ => exact absurd (by rw [takeSent_stats]) hne
    | disconnect _ => exact absurd (disconnectClient_totalConnections ..) hne
  · rcases h.posts hr with hsame | ⟨i, turn, frame, idx, text, hturn, hreq, hsay, -⟩
    · exact absurd (by rw [channelMessages_eq (hr.step h), channelMessages_eq hr, hsame]) hne
    · exact ⟨i, turn, frame, idx, text, hturn, hreq, hsay⟩
  · rcases h.malformedFrames hr with ⟨-, heq⟩ | ⟨i, turn, hturn, -⟩
    · exact absurd heq hne
    · exact ⟨i, hturn.live, hturn.step⟩

end Core
end ChannelWire
