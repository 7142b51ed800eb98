import ChannelWire.Core.Actions

/-!
# Connections and the trace

The trace names connections by the number `accept_clients` counted them with.  `Numbered` is
what makes that a name: live slots have different numbers, the next number is unused, and a
closed connection is never live again.

The observations of a connection `k` are what the trace holds about it: the bytes received
from it, the frames handled for it, the frames enqueued to it and the bytes sent to it.
-/

namespace ChannelWire
namespace Core

open LinkedQueue

/-! ## Observations of a trace -/

namespace Effect

/-- The effect is about connection `k`. -/
def Mentions (k : ℕ) : Effect → Prop
  | accepted c => c = k
  | received c _ => c = k
  | handled c _ => c = k
  | malformed c => c = k
  | enqueued c _ => c = k
  | refused c _ => c = k
  | said c _ members => c = k ∨ k ∈ members
  | sent c _ => c = k
  | closed c _ => c = k

/-- The bytes the effect received from `k`. -/
def receivedBy (k : ℕ) : Effect → Bytes
  | received c bytes => if c = k then bytes else []
  | _ => []

/-- The frames the effect handled for `k`. -/
def handledBy (k : ℕ) : Effect → List Frame
  | handled c frame => if c = k then [frame] else []
  | _ => []

/-- The frames the effect enqueued to `k`. -/
def enqueuedTo (k : ℕ) : Effect → List Frame
  | enqueued c frame => if c = k then [frame] else []
  | _ => []

/-- The bytes the effect sent to `k`. -/
def sentTo (k : ℕ) : Effect → Bytes
  | sent c bytes => if c = k then bytes else []
  | _ => []

end Effect

/-- The bytes received from connection `k`. -/
def receivedBy (k : ℕ) (trace : List Effect) : Bytes := trace.flatMap (Effect.receivedBy k)

/-- The frames `handle_frame` was called with for connection `k`. -/
def handledBy (k : ℕ) (trace : List Effect) : List Frame := trace.flatMap (Effect.handledBy k)

/-- The frames linked into the queue of connection `k`. -/
def enqueuedTo (k : ℕ) (trace : List Effect) : List Frame := trace.flatMap (Effect.enqueuedTo k)

/-- The bytes `send` took for connection `k`. -/
def sentTo (k : ℕ) (trace : List Effect) : Bytes := trace.flatMap (Effect.sentTo k)

/-- An observation of `k` that only effects about `k` contribute to is empty when there are
none. -/
theorem flatMap_eq_nil_of_not_mentions {α : Type*} {f : Effect → List α} {k : ℕ}
    (hf : ∀ e, ¬ e.Mentions k → f e = []) {trace : List Effect}
    (h : ∀ e ∈ trace, ¬ e.Mentions k) : trace.flatMap f = [] :=
  List.flatMap_eq_nil_iff.mpr fun e he => hf e (h e he)

namespace Effect

variable {k : ℕ} {e : Effect}

theorem receivedBy_of_not_mentions (h : ¬ e.Mentions k) : e.receivedBy k = [] := by
  cases e <;> first | rfl | exact if_neg h

theorem handledBy_of_not_mentions (h : ¬ e.Mentions k) : e.handledBy k = [] := by
  cases e <;> first | rfl | exact if_neg h

theorem enqueuedTo_of_not_mentions (h : ¬ e.Mentions k) : e.enqueuedTo k = [] := by
  cases e <;> first | rfl | exact if_neg h

theorem sentTo_of_not_mentions (h : ¬ e.Mentions k) : e.sentTo k = [] := by
  cases e <;> first | rfl | exact if_neg h

end Effect

/-! ## Numbers -/

/-- **Connection numbers are names.** -/
structure Numbered (s : Server) : Prop where
  conn_le : ∀ i, (s.clients i).Live → (s.clients i).conn ≤ s.stats.totalConnections
  unique : ∀ i j, (s.clients i).Live → (s.clients j).Live →
    (s.clients i).conn = (s.clients j).conn → i = j
  mentions_le : ∀ e ∈ s.trace, ∀ k, e.Mentions k → k ≤ s.stats.totalConnections
  closed : ∀ k reason, .closed k reason ∈ s.trace →
    ∀ i, (s.clients i).Live → (s.clients i).conn ≠ k

namespace Numbered

variable {s t : Server}

/-- No connection is opened, and what happens is about live ones. -/
theorem extend {es : List Effect} (hs : Numbered s)
    (hlive : ∀ i, (t.clients i).Live →
      (s.clients i).Live ∧ (t.clients i).conn = (s.clients i).conn)
    (htotal : t.stats.totalConnections = s.stats.totalConnections)
    (htrace : t.trace = s.trace ++ es)
    (hes : ∀ e ∈ es, ∀ k, e.Mentions k → ∃ i, (s.clients i).Live ∧ (s.clients i).conn = k)
    (hclosed : ∀ k reason, .closed k reason ∈ es →
      ∀ i, (t.clients i).Live → (t.clients i).conn ≠ k) : Numbered t := by
  refine ⟨fun i hi => ?_, fun i j hi hj heq => ?_, fun e he k hk => ?_, fun k r hr i hi => ?_⟩
  · rw [(hlive i hi).2, htotal]
    exact hs.conn_le i (hlive i hi).1
  · rw [(hlive i hi).2, (hlive j hj).2] at heq
    exact hs.unique i j (hlive i hi).1 (hlive j hj).1 heq
  · rw [htotal]
    rw [htrace, List.mem_append] at he
    rcases he with he | he
    · exact hs.mentions_le e he k hk
    · obtain ⟨i, hi, rfl⟩ := hes e he k hk
      exact hs.conn_le i hi
  · rw [htrace, List.mem_append] at hr
    rcases hr with hr | hr
    · rw [(hlive i hi).2]
      exact hs.closed k r hr i (hlive i hi).1
    · exact hclosed k r hr i hi

/-- One slot changes and keeps its connection. -/
theorem setClient {es : List Effect} {i : Slot} {c : Client} (hs : Numbered s)
    (hclients : t.clients = Function.update s.clients i c)
    (hc : c.Live → (s.clients i).Live ∧ c.conn = (s.clients i).conn)
    (htotal : t.stats.totalConnections = s.stats.totalConnections)
    (htrace : t.trace = s.trace ++ es)
    (hes : ∀ e ∈ es, ∀ k, e.Mentions k → ∃ i, (s.clients i).Live ∧ (s.clients i).conn = k)
    (hclosed : ∀ k reason, .closed k reason ∉ es) : Numbered t := by
  refine hs.extend (fun j hj => ?_) htotal htrace hes fun k r hr => absurd hr (hclosed k r)
  rw [hclients] at hj ⊢
  rcases eq_or_ne j i with rfl | hne
  · rw [Function.update_self] at hj ⊢
    exact hc hj
  · rw [Function.update_of_ne hne] at hj ⊢
    exact ⟨hj, rfl⟩

/-- One slot is blanked and its connection closed. -/
theorem close {i : Slot} {reason : Reason} (hs : Numbered s) (es : List Effect)
    (hi : (s.clients i).Live)
    (hclients : t.clients = Function.update s.clients i (s.clients i).reset)
    (htotal : t.stats.totalConnections = s.stats.totalConnections)
    (htrace : t.trace = s.trace ++ (es ++ [.closed (s.clients i).conn reason]))
    (hes : ∀ e ∈ es, (∀ k, e.Mentions k → k = (s.clients i).conn) ∧ ∀ k r, e ≠ .closed k r) :
    Numbered t := by
  have hother : ∀ j, (t.clients j).Live → j ≠ i ∧ t.clients j = s.clients j := by
    intro j hj
    rw [hclients] at hj ⊢
    rcases eq_or_ne j i with rfl | hne
    · rw [Function.update_self] at hj
      exact absurd hj (Client.not_live_reset _)
    · exact ⟨hne, Function.update_of_ne hne ..⟩
  refine hs.extend (fun j hj => ?_) htotal htrace (fun e he k hk => ?_) fun k r hr j hj => ?_
  · obtain ⟨-, heq⟩ := hother j hj
    rw [heq] at hj ⊢
    exact ⟨hj, rfl⟩
  · rcases List.mem_append.mp he with he | he
    · exact ⟨i, hi, ((hes e he).1 k hk).symm⟩
    · rw [List.mem_singleton.mp he] at hk
      exact ⟨i, hi, hk⟩
  · rcases List.mem_append.mp hr with hr | hr
    · exact absurd rfl ((hes _ hr).2 k r)
    · obtain ⟨rfl, -⟩ : k = (s.clients i).conn ∧ r = reason := by simpa using hr
      obtain ⟨hne, heq⟩ := hother j hj
      rw [heq] at hj ⊢
      exact fun hconn => hne (hs.unique j i hj hi hconn)

/-- A connection gets a free slot and the next number. -/
theorem occupy {slot : Slot} {fd : ℕ} (hs : Numbered s) : Numbered (occupySlot s slot fd) := by
  have htotal : (occupySlot s slot fd).stats.totalConnections = s.stats.totalConnections + 1 := rfl
  have htrace : (occupySlot s slot fd).trace =
      s.trace ++ [.accepted (s.stats.totalConnections + 1)] := rfl
  have hself : ((occupySlot s slot fd).clients slot).conn = s.stats.totalConnections + 1 := by
    simp [occupySlot]
  have hother : ∀ j, j ≠ slot → (occupySlot s slot fd).clients j = s.clients j := fun j hj =>
    Function.update_of_ne hj ..
  refine ⟨fun i hi => ?_, fun i j hi hj heq => ?_, fun e he k hk => ?_, fun k r hr i hi => ?_⟩
  · rw [htotal]
    rcases eq_or_ne i slot with rfl | hne
    · rw [hself]
    · rw [hother i hne] at hi ⊢
      exact Nat.le_succ_of_le (hs.conn_le i hi)
  · rcases eq_or_ne i slot with rfl | hi' <;> rcases eq_or_ne j i with rfl | hj'
    · rfl
    · rw [hself, hother j hj'] at heq
      rw [hother j hj'] at hj
      have hle := hs.conn_le j hj
      omega
    · rfl
    · rcases eq_or_ne j slot with rfl | hj''
      · rw [hself, hother i hi'] at heq
        rw [hother i hi'] at hi
        have hle := hs.conn_le i hi
        omega
      · rw [hother i hi'] at hi heq
        rw [hother j hj''] at hj heq
        exact hs.unique i j hi hj heq
  · rw [htotal]
    rw [htrace, List.mem_append, List.mem_singleton] at he
    rcases he with he | rfl
    · exact Nat.le_succ_of_le (hs.mentions_le e he k hk)
    · exact hk.ge
  · have hr' : Effect.closed k r ∈ s.trace := by
      rw [htrace, List.mem_append, List.mem_singleton] at hr
      rcases hr with hr | hr
      · exact hr
      · cases hr
    rcases eq_or_ne i slot with rfl | hne
    · have hle := hs.mentions_le _ hr' k rfl
      rw [hself]
      omega
    · rw [hother i hne] at hi ⊢
      exact hs.closed k r hr' i hi

end Numbered

theorem disconnectClient_totalConnections (s : Server) (i : Slot) (r : Reason) :
    (disconnectClient s i r).stats.totalConnections = s.stats.totalConnections := by
  unfold disconnectClient resetClient
  simp only
  split_ifs <;> rfl

theorem overflowDisconnect_totalConnections (s : Server) (i : Slot) :
    (overflowDisconnect s i).stats.totalConnections = s.stats.totalConnections :=
  disconnectClient_totalConnections ..

/-- No request opens a connection. -/
theorem Action.totalConnections {r : Request} {s t : Server} (h : Action r s t) :
    t.stats.totalConnections = s.stats.totalConnections := by
  cases h with
  | drop _ _ => exact overflowDisconnect_totalConnections ..
  | count _ htotal => exact htotal
  | quit _ _ => exact disconnectClient_totalConnections ..
  | push | rename | openChannel | join | switch | leave | announce => rfl

theorem Action.numbered {r : Request} {s t : Server} (h : Action r s t) (hs : Numbered s) :
    Numbered t := by
  cases h with
  | push _ hl _ _ =>
    refine hs.setClient (pushFrame_clients ..) (fun _ => ⟨hl, rfl⟩) rfl (pushFrame_trace ..)
      (fun e he k hk => ?_) (by simp)
    rw [List.mem_singleton.mp he] at hk
    exact ⟨_, hl, hk⟩
  | drop _ hl =>
    refine hs.close _ hl (overflowDisconnect_clients ..)
      (overflowDisconnect_totalConnections ..) (drop_trace hl) fun e he => ?_
    rw [List.mem_singleton.mp he]
    exact ⟨fun k hk => hk.symm, fun k r hkr => by cases hkr⟩
  | rename _ hl _ _ =>
    exact hs.setClient rfl (fun _ => ⟨hl, rfl⟩) rfl (List.append_nil _).symm (by simp) (by simp)
  | openChannel _ _ _ => exact ⟨hs.conn_le, hs.unique, hs.mentions_le, hs.closed⟩
  | join hl _ _ _ =>
    exact hs.setClient rfl (fun _ => ⟨hl, rfl⟩) rfl (List.append_nil _).symm (by simp) (by simp)
  | switch hl _ _ _ =>
    exact hs.setClient rfl (fun _ => ⟨hl, rfl⟩) rfl (List.append_nil _).symm (by simp) (by simp)
  | leave hl _ =>
    exact hs.setClient rfl (fun _ => ⟨hl, rfl⟩) rfl (List.append_nil _).symm (by simp) (by simp)
  | count _ htotal =>
    exact hs.extend (fun i hi => ⟨hi, rfl⟩) htotal (List.append_nil _).symm (by simp) (by simp)
  | quit hl _ =>
    exact hs.close [] hl (disconnectClient_clients ..)
      (disconnectClient_totalConnections ..) (disconnectClient_trace _ _ _ hl) (by simp)
  | announce entry members _ _ hl hmem =>
    refine hs.extend (fun i hi => ⟨hi, rfl⟩) rfl rfl (fun e he k hk => ?_) (by simp)
    rw [List.mem_singleton.mp he] at hk
    rcases hk with rfl | hk
    · exact ⟨_, hl, rfl⟩
    · exact hmem k hk

theorem Move.numbered {s t : Server} (h : Move s t) (hs : Numbered s) : Numbered t := by
  cases h with
  | act ha => exact ha.numbered hs
  | accept _ _ => exact hs.occupy
  | receive hl _ _ =>
    refine hs.setClient rfl (fun _ => ⟨hl, rfl⟩) rfl rfl (fun e he k hk => ?_) (by simp)
    rw [List.mem_singleton.mp he] at hk
    exact ⟨_, hl, hk⟩
  | handle hl =>
    refine hs.extend (fun i hi => ⟨hi, rfl⟩) rfl rfl (fun e he k hk => ?_) (by simp)
    rw [List.mem_singleton.mp he] at hk
    exact ⟨_, hl, hk⟩
  | malformed hl =>
    refine hs.extend (fun i hi => ⟨hi, rfl⟩) rfl rfl (fun e he k hk => ?_) (by simp)
    rw [List.mem_singleton.mp he] at hk
    exact ⟨_, hl, hk⟩
  | shift hl =>
    exact hs.setClient rfl (fun _ => ⟨hl, rfl⟩) rfl (List.append_nil _).symm (by simp) (by simp)
  | send hl hout _ _ =>
    obtain ⟨out, queuedBytes, hclients, -⟩ := takeSent_clients hout
    refine hs.setClient hclients (fun _ => ⟨hl, rfl⟩) (by rw [takeSent_stats]) (takeSent_trace hout)
      (fun e he k hk => ?_) (by simp)
    rw [List.mem_singleton.mp he] at hk
    exact ⟨_, hl, hk⟩
  | disconnect hl =>
    exact hs.close [] hl (disconnectClient_clients ..)
      (disconnectClient_totalConnections ..) (disconnectClient_trace _ _ _ hl) (by simp)

theorem numbered {s : Server} (h : MoveReachable s) : Numbered s := by
  refine MoveReachable.invariant ?_ (fun _ _ _ hs hm => hm.numbered hs) h
  intro maxQueueBytes heap _
  exact ⟨fun i hi => absurd hi Client.not_live_blank, fun i _ hi => absurd hi Client.not_live_blank,
    fun e he => absurd he List.not_mem_nil, fun k r hr => absurd hr List.not_mem_nil⟩

/-- No effect is about a connection that was not accepted yet. -/
theorem Numbered.not_mentions {s : Server} (hs : Numbered s) {k : ℕ}
    (hk : s.stats.totalConnections < k) : ∀ e ∈ s.trace, ¬ e.Mentions k := fun e he hm =>
  absurd (hs.mentions_le e he k hm) (not_le.mpr hk)

/-! ## What an observer does not see

An invariant about one side of the connections looks at a part of the live clients and at
some kinds of effects.  Whatever changes neither is invisible to it. -/

/-- From `s` to `t` no effect of the kinds `seen` was recorded. -/
def Silent (seen : Effect → Prop) (s t : Server) : Prop :=
  ∃ es, t.trace = s.trace ++ es ∧ ∀ e ∈ es, ¬ seen e

namespace Silent

variable {seen : Effect → Prop} {s t u : Server}

theorem of_eq (htrace : t.trace = s.trace) : Silent seen s t :=
  ⟨[], by rw [htrace, List.append_nil], fun _ he => absurd he List.not_mem_nil⟩

theorem concat {e : Effect} (htrace : t.trace = s.trace ++ [e]) (he : ¬ seen e) :
    Silent seen s t :=
  ⟨[e], htrace, fun e' he' => by rwa [List.mem_singleton.mp he']⟩

theorem trans (h : Silent seen s t) (h' : Silent seen t u) : Silent seen s u := by
  obtain ⟨es, htrace, hes⟩ := h
  obtain ⟨es', htrace', hes'⟩ := h'
  refine ⟨es ++ es', by rw [htrace', htrace, List.append_assoc], fun e he => ?_⟩
  exact (List.mem_append.mp he).elim (hes e) (hes' e)

theorem drop {i : Slot} {heap : ℕ → Bool} {frame : Frame} (hl : (s.clients i).Live)
    (he : ¬ seen (.refused (s.clients i).conn frame))
    (hc : ¬ seen (.closed (s.clients i).conn .queueOverflow)) : Silent seen s
      (overflowDisconnect ((s.setHeap heap).emit (.refused (s.clients i).conn frame)) i) := by
  refine ⟨_, drop_trace hl, fun e' he' => ?_⟩
  rcases List.mem_append.mp he' with he' | he' <;> rwa [List.mem_singleton.mp he']

theorem occupySlot {slot : Slot} {fd : ℕ} (he : ¬ seen (.accepted (s.stats.totalConnections + 1))) :
    Silent seen s (occupySlot s slot fd) := concat rfl he

theorem mono {seen' : Effect → Prop} (h : Silent seen s t) (hseen : ∀ e, seen' e → seen e) :
    Silent seen' s t := by
  obtain ⟨es, htrace, hes⟩ := h
  exact ⟨es, htrace, fun e he he' => hes e he (hseen e he')⟩

/-- The collected observations of seen effects stay. -/
theorem flatMap_eq {β : Type*} {f : Effect → List β} (h : Silent seen s t)
    (hf : ∀ e, ¬ seen e → f e = []) : t.trace.flatMap f = s.trace.flatMap f := by
  obtain ⟨es, htrace, hes⟩ := h
  rw [htrace, List.flatMap_append, List.flatMap_eq_nil_iff.mpr fun e he => hf e (hes e he),
    List.append_nil]

theorem mem_trace {e : Effect} (h : Silent seen s t) (he : e ∈ s.trace) : e ∈ t.trace := by
  obtain ⟨es, htrace, -⟩ := h
  rw [htrace]
  exact List.mem_append_left _ he

theorem mem_trace_iff {e : Effect} (h : Silent seen s t) (he : seen e) :
    e ∈ t.trace ↔ e ∈ s.trace := by
  refine ⟨fun hmem => ?_, h.mem_trace⟩
  obtain ⟨es, htrace, hes⟩ := h
  rw [htrace, List.mem_append] at hmem
  exact hmem.resolve_right fun hes' => hes e hes' he

end Silent

/-- From `s` to `t` no connection was opened, no live client changed in `view`, and no effect of
the kinds `seen` was recorded. -/
structure Unseen {α : Type*} (view : Client → α) (seen : Effect → Prop) (s t : Server) :
    Prop where
  live : ∀ i, (t.clients i).Live → (s.clients i).Live ∧
    (t.clients i).conn = (s.clients i).conn ∧ view (t.clients i) = view (s.clients i)
  silent : Silent seen s t

namespace Unseen

variable {α : Type*} {view : Client → α} {seen : Effect → Prop} {s t u : Server} {i : Slot}

/-- Neither the clients nor the trace changed. -/
theorem of_eq (hclients : t.clients = s.clients) (htrace : t.trace = s.trace) :
    Unseen view seen s t := by
  refine ⟨fun i hi => ?_, .of_eq htrace⟩
  rw [hclients] at hi ⊢
  exact ⟨hi, rfl, rfl⟩

theorem refl (s : Server) : Unseen view seen s s := of_eq rfl rfl

theorem trans (h : Unseen view seen s t) (h' : Unseen view seen t u) : Unseen view seen s u := by
  refine ⟨fun i hi => ?_, h.silent.trans h'.silent⟩
  obtain ⟨hi', hconn', hview'⟩ := h'.live i hi
  obtain ⟨hi'', hconn, hview⟩ := h.live i hi'
  exact ⟨hi'', hconn'.trans hconn, hview'.trans hview⟩

theorem mono {seen' : Effect → Prop} (h : Unseen view seen s t) (hseen : ∀ e, seen' e → seen e) :
    Unseen view seen' s t := ⟨h.live, h.silent.mono hseen⟩

/-- One client changes outside the view, or loses its connection. -/
theorem setClient {c : Client} (hclients : t.clients = Function.update s.clients i c)
    (hc : c.Live → (s.clients i).Live ∧ c.conn = (s.clients i).conn ∧ view c = view (s.clients i))
    (hsilent : Silent seen s t) : Unseen view seen s t := by
  refine ⟨fun j hj => ?_, hsilent⟩
  rw [hclients] at hj ⊢
  rcases eq_or_ne j i with rfl | hne
  · rw [Function.update_self] at hj ⊢
    exact hc hj
  · rw [Function.update_of_ne hne] at hj ⊢
    exact ⟨hj, rfl, rfl⟩

/-- One live client changes outside the view, and nothing is recorded. -/
theorem update {c : Client} (hclients : t.clients = Function.update s.clients i c)
    (htrace : t.trace = s.trace) (hl : (s.clients i).Live) (hconn : c.conn = (s.clients i).conn)
    (hview : view c = view (s.clients i)) : Unseen view seen s t :=
  setClient hclients (fun _ => ⟨hl, hconn, hview⟩) (.of_eq htrace)

/-- The clients stay, and one effect of another kind is recorded. -/
theorem emit {e : Effect} (hclients : t.clients = s.clients) (htrace : t.trace = s.trace ++ [e])
    (he : ¬ seen e) : Unseen view seen s t := by
  refine ⟨fun j hj => ?_, .concat htrace he⟩
  rw [hclients] at hj ⊢
  exact ⟨hj, rfl, rfl⟩

theorem disconnect {reason : Reason} (hl : (s.clients i).Live)
    (he : ¬ seen (.closed (s.clients i).conn reason)) :
    Unseen view seen s (disconnectClient s i reason) :=
  setClient (disconnectClient_clients ..) (fun hc => absurd hc (Client.not_live_reset _))
    (.concat (disconnectClient_trace _ _ _ hl) he)

theorem drop {heap : ℕ → Bool} {frame : Frame} (hl : (s.clients i).Live)
    (he : ¬ seen (.refused (s.clients i).conn frame))
    (hc : ¬ seen (.closed (s.clients i).conn .queueOverflow)) :
    Unseen view seen s
      (overflowDisconnect ((s.setHeap heap).emit (.refused (s.clients i).conn frame)) i) :=
  setClient (overflowDisconnect_clients ..) (fun hc => absurd hc (Client.not_live_reset _))
    (.drop hl he hc)

/-- A linked frame, to an observer of neither queues nor this kind of frame. -/
theorem push {type : ServerMsgType} {payload : Bytes} {heap : ℕ → Bool} (hl : (s.clients i).Live)
    (hview : ∀ c d : Client, (∃ out queuedBytes,
      d = { c with out := out, queuedBytes := queuedBytes }) → view d = view c)
    (he : ¬ seen (.enqueued (s.clients i).conn ⟨type.toByte, payload⟩)) :
    Unseen view seen s (pushFrame (s.setHeap heap) i type payload) :=
  setClient (pushFrame_clients ..) (fun _ => ⟨hl, rfl, hview _ _ ⟨_, _, rfl⟩⟩)
    (.concat (pushFrame_trace ..) he)

/-- `send`, to an observer of neither queues nor sent bytes. -/
theorem takeSent {n : ℕ} {frame : OutFrame} {rest : List OutFrame} (hl : (s.clients i).Live)
    (hout : (s.clients i).out.toList = frame :: rest)
    (hview : ∀ c d : Client, (∃ out queuedBytes,
      d = { c with out := out, queuedBytes := queuedBytes }) → view d = view c)
    (he : ∀ bytes, ¬ seen (.sent (s.clients i).conn bytes)) :
    Unseen view seen s (takeSent s i n) := by
  obtain ⟨out, queuedBytes, hclients, -⟩ := takeSent_clients (n := n) hout
  exact setClient hclients (fun _ => ⟨hl, rfl, hview _ _ ⟨_, _, rfl⟩⟩)
    (.concat (takeSent_trace hout) (he _))

/-- What no action shows, no sequence of actions shows. -/
theorem of_actions {r : Request}
    (haction : ∀ a b, Action r a b → Unseen view seen a b)
    (h : Actions r s t) : Unseen view seen s t := by
  induction h with
  | refl => exact refl s
  | tail _ hab ih => exact ih.trans (haction _ _ hab)

/-- A rejected header, to an observer of neither actions nor rejections. -/
theorem rejectHeader (haction : ∀ a b, Action (request s i 0 []) a b → Unseen view seen a b)
    (hl : (s.clients i).Live) (he : ¬ seen (.malformed (s.clients i).conn)) :
    Unseen view seen s (rejectHeader s i) := by
  have hnote : Unseen view seen s ((s.setStats
      { s.stats with malformedFrames := s.stats.malformedFrames + 1 }).emit
        (.malformed (s.clients i).conn)) := .emit rfl rfl he
  exact hnote.trans (.of_actions haction (rejectHeader_actions hl))

end Unseen

end Core
end ChannelWire
