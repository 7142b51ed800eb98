import ChannelWire.Core.Connections

/-!
# The loops over the members of a channel

`broadcast_chat` and `broadcast_system_to_active_channel` walk through all slots, enqueue one
frame to each member of the channel and disconnect those without room, possibly the very client
whose command they serve.  Seen from one connection `k`, only the turn of its own slot counts:
every other turn happens `Elsewhere`.
-/

namespace ChannelWire
namespace Core

open LinkedQueue

/-- From `s` to `t` nothing happened to connection `k`: its client is as it was, no effect
mentions it, and no other slot became its client. -/
structure Elsewhere (k : ℕ) (s t : Server) : Prop where
  clients : ∀ j, (s.clients j).Live → (s.clients j).conn = k → t.clients j = s.clients j
  live : ∀ j, (t.clients j).Live → (s.clients j).Live ∧ (t.clients j).conn = (s.clients j).conn
  trace : ∃ es, t.trace = s.trace ++ es ∧ ∀ e ∈ es, ¬ e.Mentions k
  maxQueueBytes : t.maxQueueBytes = s.maxQueueBytes

namespace Elsewhere

variable {k : ℕ} {s t u : Server} {i : Slot}

theorem refl (s : Server) : Elsewhere k s s :=
  ⟨fun _ _ _ => rfl, fun _ hj => ⟨hj, rfl⟩,
    ⟨[], (List.append_nil _).symm, fun _ he => absurd he List.not_mem_nil⟩, rfl⟩

theorem trans (h : Elsewhere k s t) (h' : Elsewhere k t u) : Elsewhere k s u := by
  obtain ⟨es, htrace, hes⟩ := h.trace
  obtain ⟨es', htrace', hes'⟩ := h'.trace
  refine ⟨fun j hj hk => ?_, fun j hj => ?_,
    ⟨es ++ es', by rw [htrace', htrace, List.append_assoc], fun e he => ?_⟩,
    h'.maxQueueBytes.trans h.maxQueueBytes⟩
  · have hst := h.clients j hj hk
    rw [h'.clients j (by rwa [hst]) (by rwa [hst]), hst]
  · obtain ⟨hj', hconn'⟩ := h'.live j hj
    obtain ⟨hj'', hconn⟩ := h.live j hj'
    exact ⟨hj'', hconn'.trans hconn⟩
  · exact (List.mem_append.mp he).elim (hes e) (hes' e)

/-- The client of another connection changes, or loses its connection. -/
theorem setClient {c : Client} (hk : (s.clients i).conn ≠ k)
    (hclients : t.clients = Function.update s.clients i c)
    (hc : c.Live → (s.clients i).Live ∧ c.conn = (s.clients i).conn)
    (htrace : ∃ es, t.trace = s.trace ++ es ∧ ∀ e ∈ es, ¬ e.Mentions k)
    (hmax : t.maxQueueBytes = s.maxQueueBytes) : Elsewhere k s t := by
  refine ⟨fun j _ hjk => ?_, fun j hj => ?_, htrace, hmax⟩
  · have hne : j ≠ i := by
      rintro rfl
      exact hk hjk
    rw [hclients, Function.update_of_ne hne]
  · rw [hclients] at hj ⊢
    rcases eq_or_ne j i with rfl | hne
    · rw [Function.update_self] at hj ⊢
      exact hc hj
    · rw [Function.update_of_ne hne] at hj ⊢
      exact ⟨hj, rfl⟩

/-- The observations of `k` do not change. -/
theorem flatMap_eq {α : Type*} {f : Effect → List α} (h : Elsewhere k s t)
    (hf : ∀ e, ¬ e.Mentions k → f e = []) : t.trace.flatMap f = s.trace.flatMap f := by
  obtain ⟨es, htrace, hes⟩ := h.trace
  rw [htrace, List.flatMap_append, flatMap_eq_nil_of_not_mentions hf hes, List.append_nil]

theorem mem_trace {e : Effect} (h : Elsewhere k s t) (he : e ∈ s.trace) : e ∈ t.trace := by
  obtain ⟨es, htrace, -⟩ := h.trace
  rw [htrace]
  exact List.mem_append_left _ he

end Elsewhere

theorem enqueueOrDisconnect_elsewhere {k : ℕ} {s : Server} {j : Slot} (type : ServerMsgType)
    (payload : Bytes) (hl : (s.clients j).Live) (hk : (s.clients j).conn ≠ k) :
    Elsewhere k s (enqueueOrDisconnect s j type payload) := by
  by_cases h : Accepts s j payload
  · rw [enqueueOrDisconnect_of_accepts h]
    refine .setClient hk (pushFrame_clients ..) (fun _ => ⟨hl, rfl⟩)
      ⟨_, pushFrame_trace .., fun e he => ?_⟩ rfl
    rw [List.mem_singleton.mp he]
    exact hk
  · obtain ⟨heap, hq⟩ := enqueueOrDisconnect_of_not_accepts type h
    rw [hq]
    refine .setClient hk (overflowDisconnect_clients ..)
      (fun hc => absurd hc (Client.not_live_reset _)) ⟨_, drop_trace hl, fun e he => ?_⟩
      (overflowDisconnect_maxQueueBytes ..)
    rcases List.mem_append.mp he with he | he <;> rw [List.mem_singleton.mp he] <;> exact hk

theorem chatTurn_elsewhere {k : ℕ} {s : Server} {j : Slot} (idx : ℕ) (payload : Bytes)
    (hk : (s.clients j).Live → (s.clients j).conn ≠ k) :
    Elsewhere k s (chatTurn idx payload s j) := by
  unfold chatTurn
  split_ifs with hm
  · have hl := (Client.isMember_iff.mp hm).1
    exact enqueueOrDisconnect_elsewhere _ _ hl (hk hl)
  · exact .refl s

theorem systemTurn_elsewhere {k : ℕ} {s : Server} {j : Slot} (sender : Slot) (idx : ℕ)
    (text : Bytes) (hk : j ≠ sender → (s.clients j).Live → (s.clients j).conn ≠ k) :
    Elsewhere k s (systemTurn sender idx text s j) := by
  unfold systemTurn
  split_ifs with hm
  · have hl := (Client.isMember_iff.mp hm.2).1
    exact enqueueOrDisconnect_elsewhere _ _ hl (hk hm.1 hl)
  · exact .refl s

/-- A client that is live after a frame was enqueued to it got it. -/
theorem enqueueOrDisconnect_clients_self {s : Server} {i : Slot} {type : ServerMsgType}
    {payload : Bytes} (hl : ((enqueueOrDisconnect s i type payload).clients i).Live) :
    (enqueueOrDisconnect s i type payload).clients i = { s.clients i with
      out := (s.clients i).out.push (OutFrame.make type payload)
      queuedBytes := (s.clients i).queuedBytes + (OutFrame.make type payload).len } := by
  by_cases h : Accepts s i payload
  · rw [enqueueOrDisconnect_of_accepts h, pushFrame_clients, Function.update_self]
    rfl
  · obtain ⟨heap, hq⟩ := enqueueOrDisconnect_of_not_accepts type h
    rw [hq, overflowDisconnect_clients, Function.update_self] at hl
    exact absurd hl (Client.not_live_reset _)

/-- The only live client of connection `k` can be the one in slot `i`. -/
def OnlyAt (k : ℕ) (i : Slot) (s : Server) : Prop :=
  ∀ j, j ≠ i → (s.clients j).Live → (s.clients j).conn ≠ k

theorem OnlyAt.elsewhere {k : ℕ} {i : Slot} {s t : Server} (h : Elsewhere k s t)
    (hs : OnlyAt k i s) : OnlyAt k i t := by
  intro j hne hj
  obtain ⟨hj', hconn⟩ := h.live j hj
  rw [hconn]
  exact hs j hne hj'

theorem Numbered.onlyAt {s : Server} (hs : Numbered s) {i : Slot} (hl : (s.clients i).Live) :
    OnlyAt (s.clients i).conn i s := fun j hne hj heq => hne (hs.unique j i hj hl heq)

theorem enqueueOrDisconnect_clients_of_ne {s : Server} {i j : Slot} (type : ServerMsgType)
    (payload : Bytes) (hne : j ≠ i) :
    (enqueueOrDisconnect s i type payload).clients j = s.clients j := by
  by_cases h : Accepts s i payload
  · rw [enqueueOrDisconnect_of_accepts h, pushFrame_clients, Function.update_of_ne hne]
    rfl
  · obtain ⟨heap, hq⟩ := enqueueOrDisconnect_of_not_accepts type h
    rw [hq, overflowDisconnect_clients, Function.update_of_ne hne]
    rfl

theorem OnlyAt.of_clients {k : ℕ} {i : Slot} {s t : Server}
    (h : ∀ j, j ≠ i → t.clients j = s.clients j) (hs : OnlyAt k i s) : OnlyAt k i t := by
  intro j hne hj
  rw [h j hne] at hj ⊢
  exact hs j hne hj

theorem OnlyAt.chatTurn {k : ℕ} {i : Slot} {s : Server} {idx : ℕ} {payload : Bytes}
    (hs : OnlyAt k i s) : OnlyAt k i (chatTurn idx payload s i) := by
  unfold Core.chatTurn
  split_ifs
  · exact hs.of_clients fun j hne => enqueueOrDisconnect_clients_of_ne _ _ hne
  · exact hs

/-- **The loop of `broadcast_chat`, seen from the connection in slot `i`**: its own turn. -/
theorem chatLoop_turn {k : ℕ} {i : Slot} {s : Server} (idx : ℕ) (payload : Bytes)
    (hs : OnlyAt k i s) :
    ∃ t, Elsewhere k s t ∧
      Elsewhere k (chatTurn idx payload t i) (chatLoop s idx payload) :=
  Transition.foldl_turn (P := OnlyAt k i) (R := Elsewhere k) .refl (fun _ _ _ => .trans)
    (fun _ _ => OnlyAt.elsewhere) (fun _ hs j hne => chatTurn_elsewhere idx payload (hs j hne))
    (fun _ => OnlyAt.chatTurn)
    nodup_slots (mem_slots i) hs

/-- The loop of `broadcast_chat`, seen from a connection that is closed. -/
theorem chatLoop_elsewhere {k : ℕ} {s : Server} (idx : ℕ) (payload : Bytes)
    (hs : ∀ j, (s.clients j).Live → (s.clients j).conn ≠ k) :
    Elsewhere k s (chatLoop s idx payload) := by
  refine Transition.foldl_invisible (P := fun u => ∀ j, (u.clients j).Live →
    (u.clients j).conn ≠ k) (R := Elsewhere k) .refl (fun _ _ _ => .trans)
    (fun u v h hu j hj => ?_) (fun u hu j _ => chatTurn_elsewhere idx payload (hu j)) hs
  obtain ⟨hj', hconn⟩ := h.live j hj
  rw [hconn]
  exact hu j hj'

/-- The notice of a rename, seen from the connection that renamed itself. -/
theorem broadcastSystem_elsewhere {k : ℕ} {i : Slot} {s : Server} (text : Bytes)
    (hs : OnlyAt k i s) : Elsewhere k s (broadcastSystemToActiveChannel s i text) := by
  unfold broadcastSystemToActiveChannel
  split
  · exact .refl s
  · exact Transition.foldl_invisible (P := OnlyAt k i) (R := Elsewhere k) .refl
      (fun _ _ _ => .trans) (fun _ _ => OnlyAt.elsewhere)
      (fun u hu j _ => systemTurn_elsewhere i _ text (hu j)) hs

end Core
end ChannelWire
