import Mathlib.Data.Fintype.Card
import ChannelWire.Core.Connections
import ChannelWire.Core.Runs

/-!
# The life of a slot

What a move can do to the slots is one of three things (`SlotChange`): they keep their
connections, one connection is closed, or a connection gets a free slot.  The counters of
`server_stats` follow the slots (`SlotsOk`), and whatever the trace says of a connection happens
between its accept and its close (`Lifetimes`).
-/

namespace ChannelWire
namespace Core

open LinkedQueue Relation

/-! ## Slots -/

/-- The slots that hold a connection. -/
def liveSlots (s : Server) : Finset Slot := Finset.univ.filter fun i => (s.clients i).Live

theorem mem_liveSlots {s : Server} {i : Slot} : i ∈ liveSlots s ↔ (s.clients i).Live := by
  simp only [liveSlots, Finset.mem_filter, Finset.mem_univ, true_and]

/-- Nothing is left in the slot. -/
structure Client.IsBlank (c : Client) : Prop where
  fd : c.fd = -1
  registered : c.registered = false
  username : c.username = []
  activeChannel : c.activeChannel = []
  joined : ∀ idx, c.joined idx = false
  inbuf : c.inbuf = []
  out : c.out.toList = []
  queuedBytes : c.queuedBytes = 0

theorem Client.isBlank_blank : Client.blank.IsBlank :=
  ⟨rfl, rfl, rfl, rfl, fun _ => rfl, rfl, Queue.toList_empty, rfl⟩

theorem Client.isBlank_reset (c : Client) : c.reset.IsBlank :=
  ⟨rfl, rfl, rfl, rfl, fun _ => rfl, rfl, c.toList_reset, rfl⟩

/-- A connection was accepted. -/
def Effect.isAccepted : Effect → Bool
  | accepted _ => true
  | _ => false

/-- A connection was closed. -/
def Effect.isClosed : Effect → Bool
  | closed _ _ => true
  | _ => false

/-- The effect opens and closes nothing, and is about live connections. -/
structure Effect.OfLive (s : Server) (e : Effect) : Prop where
  opens : e.isAccepted = false
  closes : e.isClosed = false
  live : ∀ k, e.Mentions k → ∃ i, (s.clients i).Live ∧ (s.clients i).conn = k

/-! ## What a move does to the slots -/

/-- What can happen to the slots. -/
inductive SlotChange (s t : Server) : Prop where
  | keep (es : List Effect) :
      (∀ j, (t.clients j).fd = (s.clients j).fd ∧ (t.clients j).conn = (s.clients j).conn ∧
        (¬ (s.clients j).Live → t.clients j = s.clients j)) →
      t.stats.currentConnections = s.stats.currentConnections →
      t.stats.totalConnections = s.stats.totalConnections →
      t.trace = s.trace ++ es → (∀ e ∈ es, e.OfLive s) → SlotChange s t
  | close (i : Slot) (reason : Reason) (es : List Effect) : (s.clients i).Live →
      t.clients = Function.update s.clients i (s.clients i).reset →
      t.stats.currentConnections = s.stats.currentConnections - 1 →
      t.stats.totalConnections = s.stats.totalConnections →
      t.trace = s.trace ++ (es ++ [.closed (s.clients i).conn reason]) →
      (∀ e ∈ es, e.OfLive s) → SlotChange s t
  | occupy (slot : Slot) (fd : ℕ) : ¬ (s.clients slot).Live → FreshFd s fd →
      t = occupySlot s slot fd → SlotChange s t

theorem disconnectClient_currentConnections {s : Server} {i : Slot} (hl : (s.clients i).Live)
    (r : Reason) : (disconnectClient s i r).stats.currentConnections =
      s.stats.currentConnections - 1 := by
  unfold disconnectClient resetClient
  simp only [if_pos hl, Server.emit_clients, Server.setClient_stats, Server.setStats_stats,
    Server.emit_stats]

theorem overflowDisconnect_currentConnections {s : Server} {i : Slot} (hl : (s.clients i).Live) :
    (overflowDisconnect s i).stats.currentConnections = s.stats.currentConnections - 1 :=
  disconnectClient_currentConnections (s := s.setStats
    { s.stats with queueDisconnects := s.stats.queueDisconnects + 1 }) hl _

namespace SlotChange

variable {s t : Server}

/-- One live slot changes and keeps its connection. -/
theorem setClient {i : Slot} {c : Client} (es : List Effect) (hl : (s.clients i).Live)
    (hclients : t.clients = Function.update s.clients i c) (hfd : c.fd = (s.clients i).fd)
    (hconn : c.conn = (s.clients i).conn) (hstats : t.stats = s.stats)
    (htrace : t.trace = s.trace ++ es) (hes : ∀ e ∈ es, e.OfLive s) : SlotChange s t := by
  refine .keep es (fun j => ?_) (by rw [hstats]) (by rw [hstats]) htrace hes
  rw [hclients]
  rcases eq_or_ne j i with rfl | hne
  · rw [Function.update_self]
    exact ⟨hfd, hconn, fun hdead => absurd hl hdead⟩
  · rw [Function.update_of_ne hne]
    exact ⟨rfl, rfl, fun _ => rfl⟩

/-- No slot changes. -/
theorem emit {e : Effect} (hclients : t.clients = s.clients) (hstats : t.stats = s.stats)
    (htrace : t.trace = s.trace ++ [e]) (he : e.OfLive s) : SlotChange s t := by
  refine .keep [e] (fun j => ?_) (by rw [hstats]) (by rw [hstats]) htrace fun e' he' => ?_
  · rw [hclients]
    exact ⟨rfl, rfl, fun _ => rfl⟩
  · rwa [List.mem_singleton.mp he']

theorem disconnect {i : Slot} {reason : Reason} (hl : (s.clients i).Live) :
    SlotChange s (disconnectClient s i reason) :=
  .close i reason [] hl (disconnectClient_clients ..) (disconnectClient_currentConnections hl _)
    (disconnectClient_totalConnections ..) (disconnectClient_trace _ _ _ hl) (by simp)

end SlotChange

/-- An effect about one live connection. -/
theorem Effect.OfLive.of_conn {s : Server} {i : Slot} {e : Effect} (hl : (s.clients i).Live)
    (hopens : e.isAccepted = false) (hcloses : e.isClosed = false)
    (hmentions : ∀ k, e.Mentions k → k = (s.clients i).conn) : e.OfLive s :=
  ⟨hopens, hcloses, fun k hk => ⟨i, hl, (hmentions k hk).symm⟩⟩

theorem Action.slotChange {r : Request} {s t : Server} (h : Action r s t) : SlotChange s t := by
  cases h with
  | push _ hl _ _ =>
    refine .setClient _ hl (pushFrame_clients ..) rfl rfl rfl (pushFrame_trace ..) fun e he => ?_
    rw [List.mem_singleton.mp he]
    exact .of_conn hl rfl rfl fun k hk => hk.symm
  | @drop i type payload heap _ hl =>
    have hcurrent := overflowDisconnect_currentConnections
      (s := (s.setHeap heap).emit (.refused (s.clients i).conn ⟨type.toByte, payload⟩)) hl
    refine .close i _ _ hl (overflowDisconnect_clients ..) hcurrent
      (overflowDisconnect_totalConnections ..) (drop_trace hl) fun e he => ?_
    rw [List.mem_singleton.mp he]
    exact .of_conn hl rfl rfl fun k hk => hk.symm
  | rename _ hl _ _ => exact .setClient [] hl rfl rfl rfl rfl (List.append_nil _).symm (by simp)
  | openChannel _ _ _ =>
    exact .keep [] (fun _ => ⟨rfl, rfl, fun _ => rfl⟩) rfl rfl (List.append_nil _).symm (by simp)
  | join hl _ _ _ => exact .setClient [] hl rfl rfl rfl rfl (List.append_nil _).symm (by simp)
  | switch hl _ _ _ => exact .setClient [] hl rfl rfl rfl rfl (List.append_nil _).symm (by simp)
  | leave hl _ => exact .setClient [] hl rfl rfl rfl rfl (List.append_nil _).symm (by simp)
  | count hcurrent htotal =>
    exact .keep [] (fun _ => ⟨rfl, rfl, fun _ => rfl⟩) hcurrent htotal (List.append_nil _).symm
      (by simp)
  | quit hl _ => exact .disconnect hl
  | announce entry members _ _ hl hmem =>
    refine .emit rfl rfl rfl ⟨rfl, rfl, fun k hk => ?_⟩
    rcases hk with rfl | hk
    · exact ⟨_, hl, rfl⟩
    · exact hmem k hk

theorem Move.slotChange {s t : Server} (h : Move s t) : SlotChange s t := by
  cases h with
  | act ha => exact ha.slotChange
  | accept hdead hfd => exact .occupy _ _ hdead hfd rfl
  | receive hl _ _ =>
    refine .setClient _ hl rfl rfl rfl rfl rfl fun e he => ?_
    rw [List.mem_singleton.mp he]
    exact .of_conn hl rfl rfl fun k hk => hk.symm
  | handle hl => exact .emit rfl rfl rfl (.of_conn hl rfl rfl fun k hk => hk.symm)
  | malformed hl => exact .emit rfl rfl rfl (.of_conn hl rfl rfl fun k hk => hk.symm)
  | shift hl => exact .setClient [] hl rfl rfl rfl rfl (List.append_nil _).symm (by simp)
  | send hl hout _ _ =>
    obtain ⟨out, queuedBytes, hclients, -⟩ := takeSent_clients hout
    refine .setClient _ hl hclients rfl rfl (takeSent_stats ..) (takeSent_trace hout)
      fun e he => ?_
    rw [List.mem_singleton.mp he]
    exact .of_conn hl rfl rfl fun k hk => hk.symm
  | disconnect hl => exact .disconnect hl

/-! ## The counters follow the slots -/

/-- **The slots and the counters.** -/
structure SlotsOk (s : Server) : Prop where
  current : s.stats.currentConnections = (liveSlots s).card
  fds : ∀ i j, (s.clients i).Live → (s.clients j).Live → (s.clients i).fd = (s.clients j).fd → i = j
  blank : ∀ i, ¬ (s.clients i).Live → (s.clients i).IsBlank
  opened : s.stats.totalConnections = s.trace.countP Effect.isAccepted
  closed : s.stats.totalConnections =
    s.stats.currentConnections + s.trace.countP Effect.isClosed

/-- Effects of live connections are neither opening nor closing. -/
theorem countP_ofLive {s : Server} {es : List Effect} (h : ∀ e ∈ es, e.OfLive s) :
    es.countP Effect.isAccepted = 0 ∧ es.countP Effect.isClosed = 0 := by
  constructor
  · exact List.countP_eq_zero.mpr fun e he => Bool.eq_false_iff.mp (h e he).opens
  · exact List.countP_eq_zero.mpr fun e he => Bool.eq_false_iff.mp (h e he).closes

theorem SlotChange.slotsOk {s t : Server} (h : SlotChange s t) (hs : SlotsOk s) : SlotsOk t := by
  cases h with
  | keep es hclients hcurrent htotal htrace hes =>
    have hlive : ∀ j, (t.clients j).Live ↔ (s.clients j).Live := fun j => by
      rw [Client.Live, Client.Live, (hclients j).1]
    have hslots : liveSlots t = liveSlots s := by
      ext j
      rw [mem_liveSlots, mem_liveSlots, hlive]
    obtain ⟨hopened, hclosed⟩ := countP_ofLive hes
    refine ⟨by rw [hcurrent, hslots, hs.current], fun i j hi hj heq => ?_, fun i hi => ?_, ?_, ?_⟩
    · rw [(hclients i).1, (hclients j).1] at heq
      exact hs.fds i j ((hlive i).mp hi) ((hlive j).mp hj) heq
    · rw [hlive] at hi
      rw [(hclients i).2.2 hi]
      exact hs.blank i hi
    · rw [htotal, htrace, List.countP_append, hopened, hs.opened, Nat.add_zero]
    · rw [htotal, hcurrent, htrace, List.countP_append, hclosed, hs.closed, Nat.add_zero]
  | close i reason es hl hclients hcurrent htotal htrace hes =>
    have hself : (t.clients i) = (s.clients i).reset := by rw [hclients, Function.update_self]
    have hother : ∀ j, j ≠ i → t.clients j = s.clients j := fun j hj => by
      rw [hclients, Function.update_of_ne hj]
    have hne : ∀ j, (t.clients j).Live → j ≠ i := by
      rintro j hj rfl
      rw [hself] at hj
      exact Client.not_live_reset _ hj
    have hslots : liveSlots t = (liveSlots s).erase i := by
      ext j
      rw [Finset.mem_erase, mem_liveSlots, mem_liveSlots]
      constructor
      · intro hj
        have hji := hne j hj
        rw [hother j hji] at hj
        exact ⟨hji, hj⟩
      · rintro ⟨hji, hj⟩
        rwa [hother j hji]
    have hmem : i ∈ liveSlots s := mem_liveSlots.mpr hl
    have hcard := Finset.card_erase_of_mem hmem
    have hpos : 0 < (liveSlots s).card := Finset.card_pos.mpr ⟨i, hmem⟩
    have hclosing : (t.trace.countP Effect.isClosed) = s.trace.countP Effect.isClosed + 1 := by
      rw [htrace, List.countP_append, List.countP_append, (countP_ofLive hes).2, Nat.zero_add]
      rfl
    have hopening : (t.trace.countP Effect.isAccepted) = s.trace.countP Effect.isAccepted := by
      rw [htrace, List.countP_append, List.countP_append, (countP_ofLive hes).1]
      rfl
    have hwas := hs.current
    have hsum := hs.closed
    refine ⟨by rw [hcurrent, hslots, hcard, hwas], fun j k hj hk heq => ?_, fun j hj => ?_,
      by rw [htotal, hopening, hs.opened], by rw [htotal, hcurrent, hclosing]; omega⟩
    · have hji := hne j hj
      have hki := hne k hk
      rw [hother j hji] at hj heq
      rw [hother k hki] at hk heq
      exact hs.fds j k hj hk heq
    · rcases eq_or_ne j i with rfl | hji
      · rw [hself]
        exact Client.isBlank_reset _
      · rw [hother j hji] at hj ⊢
        exact hs.blank j hj
  | occupy slot fd hdead hfresh ht =>
    subst ht
    have hself : (occupySlot s slot fd).clients slot =
        { Client.blank with fd := fd, conn := s.stats.totalConnections + 1 } :=
      Function.update_self ..
    have hother : ∀ j, j ≠ slot → (occupySlot s slot fd).clients j = s.clients j := fun j hj =>
      Function.update_of_ne hj ..
    have hlive : ((occupySlot s slot fd).clients slot).Live := by
      rw [hself]
      exact Int.natCast_nonneg fd
    have hslots : liveSlots (occupySlot s slot fd) = insert slot (liveSlots s) := by
      ext j
      rw [Finset.mem_insert, mem_liveSlots, mem_liveSlots]
      rcases eq_or_ne j slot with rfl | hj
      · exact iff_of_true hlive (.inl rfl)
      · rw [hother j hj, or_iff_right hj]
    have hcard : (liveSlots (occupySlot s slot fd)).card = (liveSlots s).card + 1 := by
      rw [hslots, Finset.card_insert_of_notMem fun hmem => hdead (mem_liveSlots.mp hmem)]
    have htrace : (occupySlot s slot fd).trace =
        s.trace ++ [.accepted (s.stats.totalConnections + 1)] := rfl
    have hwas := hs.current
    have hsum := hs.closed
    refine ⟨?_, fun i j hi hj heq => ?_, fun j hj => ?_, ?_, ?_⟩
    · rw [hcard, ← hwas]
      rfl
    · rcases eq_or_ne i slot with rfl | hi' <;> rcases eq_or_ne j i with rfl | hj'
      · rfl
      · rw [hself, hother j hj'] at heq
        exact absurd heq.symm (hfresh j)
      · rfl
      · rcases eq_or_ne j slot with rfl | hj''
        · rw [hself, hother i hi'] at heq
          exact absurd heq (hfresh i)
        · rw [hother i hi'] at hi heq
          rw [hother j hj''] at hj heq
          exact hs.fds i j hi hj heq
    · rcases eq_or_ne j slot with rfl | hne
      · exact absurd hlive hj
      · rw [hother j hne] at hj ⊢
        exact hs.blank j hj
    · rw [htrace, List.countP_append, ← hs.opened]
      rfl
    · rw [htrace, List.countP_append]
      show s.stats.totalConnections + 1 =
        s.stats.currentConnections + 1 + (s.trace.countP Effect.isClosed + 0)
      omega

theorem slotsOk {s : Server} (h : MoveReachable s) : SlotsOk s := by
  refine MoveReachable.invariant ?_ (fun _ _ _ hs hm => hm.slotChange.slotsOk hs) h
  intro maxQueueBytes heap _
  have hnone : liveSlots (Server.initial maxQueueBytes heap) = ∅ :=
    Finset.filter_eq_empty_iff.mpr fun i _ => Client.not_live_blank
  exact ⟨by rw [hnone]; rfl, fun i _ hi => absurd hi Client.not_live_blank,
    fun i _ => Client.isBlank_blank, rfl, rfl⟩

/-! ## Lifetimes -/

/-- **Whatever is recorded of a connection happens between its accept and its close.** -/
structure Lifetimes (s : Server) : Prop where
  accepted : ∀ i, (s.clients i).Live → .accepted (s.clients i).conn ∈ s.trace
  within : ∀ pre e post, s.trace = pre ++ e :: post → ∀ k, e.Mentions k → e ≠ .accepted k →
    .accepted k ∈ pre ∧ ∀ reason, .closed k reason ∉ pre

/-- A live connection was accepted, and is not closed. -/
theorem Lifetimes.of_live {s : Server} (hs : Lifetimes s) (hn : Numbered s) {i : Slot}
    (hl : (s.clients i).Live) :
    .accepted (s.clients i).conn ∈ s.trace ∧ ∀ reason, .closed (s.clients i).conn reason ∉ s.trace :=
  ⟨hs.accepted i hl, fun reason hmem => hn.closed _ reason hmem i hl rfl⟩

/-- What is recorded of live connections is recorded within their lives. -/
theorem Lifetimes.extend {s t : Server} {es : List Effect} (hs : Lifetimes s) (hn : Numbered s)
    (htrace : t.trace = s.trace ++ es)
    (haccepted : ∀ i, (t.clients i).Live → .accepted (t.clients i).conn ∈ t.trace)
    (hclosing : ∀ e ∈ es.dropLast, e.isClosed = false)
    (hlive : ∀ e ∈ es, ∀ k, e.Mentions k → e ≠ .accepted k →
      ∃ i, (s.clients i).Live ∧ (s.clients i).conn = k) : Lifetimes t := by
  refine ⟨haccepted, fun pre e post heq k hk hne => ?_⟩
  rw [htrace] at heq
  -- the effect is a new one, or an old one
  rcases List.append_eq_append_iff.mp heq with ⟨mid, hpre, hes⟩ | ⟨mid, hold, hnew⟩
  · have hmem : e ∈ es := by
      rw [hes]
      exact List.mem_append_right _ List.mem_cons_self
    obtain ⟨i, hi, rfl⟩ := hlive e hmem k hk hne
    obtain ⟨hopened, hopen⟩ := hs.of_live hn hi
    rw [hpre]
    refine ⟨List.mem_append_left _ hopened, fun reason hclosed => ?_⟩
    rcases List.mem_append.mp hclosed with hclosed | hclosed
    · exact hopen reason hclosed
    · have hlast : Effect.closed (s.clients i).conn reason ∈ es.dropLast := by
        rw [hes, List.dropLast_append_cons]
        exact List.mem_append_left _ hclosed
      exact Bool.noConfusion (hclosing _ hlast)
  · cases mid with
    | nil =>
      have hmem : e ∈ es := by
        rw [show es = e :: post from hnew.symm]
        exact List.mem_cons_self
      obtain ⟨i, hi, rfl⟩ := hlive e hmem k hk hne
      rw [List.append_nil] at hold
      rw [← hold]
      exact hs.of_live hn hi
    | cons e' mid =>
      obtain ⟨rfl, -⟩ := List.cons.inj hnew
      exact hs.within pre _ mid hold k hk hne

theorem SlotChange.lifetimes {s t : Server} (h : SlotChange s t) (hs : Lifetimes s)
    (hn : Numbered s) : Lifetimes t := by
  cases h with
  | keep es hclients _ _ htrace hes =>
    refine hs.extend hn htrace (fun i hi => ?_)
      (fun e he => (hes e (List.mem_of_mem_dropLast he)).closes)
      fun e he k hk _ => (hes e he).live k hk
    rw [Client.Live, (hclients i).1] at hi
    rw [(hclients i).2.1, htrace]
    exact List.mem_append_left _ (hs.accepted i hi)
  | close i reason es hl hclients _ _ htrace hes =>
    refine hs.extend hn htrace (fun j hj => ?_) (fun e he => ?_) fun e he k hk _ => ?_
    · rw [hclients] at hj ⊢
      rcases eq_or_ne j i with rfl | hne
      · rw [Function.update_self] at hj
        exact absurd hj (Client.not_live_reset _)
      · rw [Function.update_of_ne hne] at hj ⊢
        rw [htrace]
        exact List.mem_append_left _ (hs.accepted j hj)
    · rw [List.dropLast_concat] at he
      exact (hes e he).closes
    · rcases List.mem_append.mp he with he | he
      · exact (hes e he).live k hk
      · rw [List.mem_singleton.mp he] at hk
        exact ⟨i, hl, hk⟩
  | occupy slot fd _ _ ht =>
    subst ht
    have htrace : (occupySlot s slot fd).trace =
        s.trace ++ [.accepted (s.stats.totalConnections + 1)] := rfl
    refine hs.extend hn htrace (fun j hj => ?_) (fun e he => absurd he List.not_mem_nil)
      fun e he k hk hne => ?_
    · rw [htrace]
      rcases eq_or_ne j slot with rfl | hj'
      · have hself : ((occupySlot s j fd).clients j).conn = s.stats.totalConnections + 1 := by
          simp [occupySlot]
        rw [hself]
        exact List.mem_concat_self
      · have hother : (occupySlot s slot fd).clients j = s.clients j := Function.update_of_ne hj' ..
        rw [hother] at hj ⊢
        exact List.mem_append_left _ (hs.accepted j hj)
    · rw [List.mem_singleton.mp he] at hk hne
      exact absurd (congrArg Effect.accepted hk) hne

theorem lifetimes {s : Server} (h : MoveReachable s) : Lifetimes s := by
  refine MoveReachable.invariant (fun _ _ _ => ⟨fun i hi => absurd hi Client.not_live_blank, ?_⟩)
    (fun _ _ hreach hs hm => hm.slotChange.lifetimes hs (numbered hreach)) h
  intro pre e post heq
  exact absurd heq.symm (List.append_ne_nil_of_right_ne_nil _ (List.cons_ne_nil _ _))

/-- **Slot life cycle and connection accounting.**  In every reachable state, also in the middle
of a handler: `current_connections` is the number of the slots with a connection, at most 128;
these have different descriptors; a slot without a connection is blank; `total_connections` is
the number of the connections that were given a slot, and exceeds `current_connections` by the
number of the disconnects; and whatever happens to a connection, a frame enqueued to it in
particular, happens after it was accepted and before it was closed.  A new connection starts in
a slot that was blank and is overwritten with a blank one. -/
theorem slot_life_cycle {s : Server} (h : MoveReachable s) :
    s.stats.currentConnections = (liveSlots s).card ∧ (liveSlots s).card ≤ 128 ∧
    (∀ i j, (s.clients i).Live → (s.clients j).Live → (s.clients i).fd = (s.clients j).fd →
      i = j) ∧
    (∀ i, ¬ (s.clients i).Live → (s.clients i).IsBlank) ∧
    s.stats.totalConnections = s.trace.countP Effect.isAccepted ∧
    s.stats.totalConnections = s.stats.currentConnections + s.trace.countP Effect.isClosed ∧
    (∀ pre e post, s.trace = pre ++ e :: post → ∀ k, e.Mentions k → e ≠ .accepted k →
      .accepted k ∈ pre ∧ ∀ reason, .closed k reason ∉ pre) ∧
    ∀ fd nonblocking i, (acceptConnection s fd nonblocking).clients i = s.clients i ∨
      (s.clients i).IsBlank ∧ (acceptConnection s fd nonblocking).clients i =
        { Client.blank with fd := fd, conn := s.stats.totalConnections + 1 } := by
  have hs := slotsOk h
  refine ⟨hs.current, (Finset.card_le_univ _).trans_eq (Fintype.card_fin _), hs.fds, hs.blank,
    hs.opened, hs.closed, (lifetimes h).within, fun fd nonblocking i => ?_⟩
  unfold acceptConnection
  cases hfree : (freeSlot s).filter fun _ => nonblocking with
  | none => exact .inl rfl
  | some slot =>
    have hslot := List.find?_some (Option.filter_eq_some_iff.mp hfree).1
    rcases eq_or_ne i slot with rfl | hne
    · exact .inr ⟨hs.blank i (of_decide_eq_true hslot), Function.update_self ..⟩
    · exact .inl (Function.update_of_ne hne ..)

/-- A connection was closed in slot 0, and another one is in slot 1. -/
theorem slot_life_cycle_room :
    (disconnectClient roomWithText 0 .peerClosed).stats.totalConnections = 2 ∧
      (liveSlots (disconnectClient roomWithText 0 .peerClosed)).card = 1 ∧
      ((disconnectClient roomWithText 0 .peerClosed).clients 0).IsBlank := by
  have hreach : Reachable (disconnectClient roomWithText 0 .peerClosed) :=
    reachable_roomWithText.step (.disconnect (by decide +kernel))
  have hcycle := slot_life_cycle hreach.moveReachable
  refine ⟨by decide +kernel, ?_, hcycle.2.2.2.1 0 (by decide +kernel)⟩
  rw [← hcycle.1]
  decide +kernel

end Core
end ChannelWire
