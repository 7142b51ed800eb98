import ChannelWire.Core.Posts

/-!
# Where memberships come from

A bit of the bitmap `joined` is set by a `JOIN` alone, and a `JOIN` that sets one is answered with
`OK` and the name of the channel, unless the client is disconnected for want of room.  So every
member of a channel has such an answer behind it (`JoinsOk`), and so has everyone who was sent a
text of the channel.
-/

namespace ChannelWire
namespace Core

/-- The server answered a `JOIN` of connection `k` with `joined` and the name of the channel. -/
def JoinedOn (k : ℕ) (name : Bytes) (trace : List Effect) : Prop :=
  ∃ f : Frame, f.type = ClientMsgType.join.toByte ∧
    readName f.payload cwChannelCap = some name ∧
    ⟨some f, ⟨ServerMsgType.ok.toByte, ascii "joined " ++ name⟩⟩ ∈ answers k trace

section Handlers

variable {s t : Server} {i j : Slot} {frame : Frame} {idx : ℕ}

theorem Spared.joined (h : Spared j s t) : (t.clients j).joined = (s.clients j).joined := by
  rw [h.clients]

theorem Gets.joined {type : ServerMsgType} {payload : Bytes} (h : Gets j type payload s t)
    (hj : (t.clients j).joined idx = true) : (s.clients j).joined idx = true := by
  cases h with
  | appended _ hclient => rwa [hclient] at hj
  | reset _ hclient =>
    rw [hclient] at hj
    cases hj

theorem enqueueOrDisconnect_joined {type : ServerMsgType} {payload : Bytes}
    (hj : ((enqueueOrDisconnect s i type payload).clients j).joined idx = true) :
    (s.clients j).joined idx = true := by
  rcases eq_or_ne j i with rfl | hne
  · exact (enqueueOrDisconnect_gets ..).joined hj
  · rwa [(enqueueOrDisconnect_spared _ _ hne).joined] at hj

theorem broadcastSystem_joined {text : Bytes}
    (hj : ((broadcastSystemToActiveChannel s i text).clients j).joined idx = true) :
    (s.clients j).joined idx = true := by
  obtain ⟨hshare, hother⟩ := broadcastSystem_slot (s := s) (j := j) i text
  by_cases h : j ≠ i ∧ SharesChannel s i j
  · exact (hshare h.1 h.2).joined hj
  · rw [(hother (by tauto)).joined] at hj
    exact hj

/-- One client changes, and none of its bits is set. -/
theorem setClient_joined {c : Client} (ht : t = s.setClient i c)
    (hc : c.joined idx = true → (s.clients i).joined idx = true)
    (hj : (t.clients j).joined idx = true) : (s.clients j).joined idx = true := by
  subst ht
  rcases eq_or_ne j i with rfl | hne
  · rw [Server.setClient_self] at hj
    exact hc hj
  · rwa [Server.setClient_of_ne hne] at hj

/-- The `JOIN` that set the bit, with its answer. -/
structure Joins (s t : Server) (i : Slot) (frame : Frame) (idx : ℕ) (name : Bytes) : Prop where
  type : frame.type = ClientMsgType.join.toByte
  read : readName frame.payload cwChannelCap = some name
  channel : t.channels[idx]? = some name
  answer : .enqueued (s.clients i).conn ⟨ServerMsgType.ok.toByte, ascii "joined " ++ name⟩ ∈
    recorded s t

/-- **Only a `JOIN` sets a bit of a client that stays**, and that `JOIN` is answered. -/
theorem Ending.joined_cases (h : Ending s i frame t)
    (hj : (t.clients j).joined idx = true) :
    (s.clients j).joined idx = true ∨ j = i ∧ ∃ name, Joins s t i frame idx name := by
  cases h with
  | refused text | queried text _ _ => exact .inl (enqueueOrDisconnect_joined hj)
  | @registered name _ _ =>
    have hname := enqueueOrDisconnect_joined hj
    exact .inl (setClient_joined rfl (fun h => by exact h) hname)
  | @renamed name _ _ =>
    have hname := enqueueOrDisconnect_joined (broadcastSystem_joined hj)
    exact .inl (setClient_joined rfl (fun h => by exact h) hname)
  | @joined u idx' name htype hreg hread hensure =>
    obtain ⟨-, -, hname⟩ := readName_eq_some hread
    obtain ⟨hfind, hu⟩ := ensureChannel_channels hname hensure
    have hclients : u.clients = s.clients := (joined_confined hread hensure).1
    have hutrace : u.trace = s.trace := by
      rcases hu with rfl | ⟨-, rfl⟩ <;> rfl
    by_cases hset : j = i ∧ idx = idx'
    · obtain ⟨rfl, rfl⟩ := hset
      by_cases haccepts : Accepts (enterChannel u j idx name) j (ascii "joined " ++ name)
      · refine .inr ⟨rfl, name, htype, hread, ?_, ?_⟩
        · rw [safeEnqueueText, enqueueOrDisconnect_channels]
          exact findChannel_eq_some hfind
        · rw [safeEnqueueText, enqueueOrDisconnect_of_accepts haccepts, recorded, pushFrame_trace,
            Server.setHeap_trace, enterChannel, Server.setClient_trace, hutrace, List.drop_left,
            Server.setHeap_clients, Server.setClient_self, hclients]
          exact List.mem_singleton_self _
      · -- there was no room for the answer
        obtain ⟨heap, hq⟩ := enqueueOrDisconnect_of_not_accepts .ok haccepts
        rw [safeEnqueueText, hq, overflowDisconnect_clients, Function.update_self] at hj
        cases hj
    · have hj := enqueueOrDisconnect_joined hj
      rw [enterChannel] at hj
      rw [← hclients]
      rcases eq_or_ne j i with rfl | hne
      · rw [Server.setClient_self] at hj
        simp only [Function.update_of_ne fun h => hset ⟨rfl, h⟩] at hj
        exact .inl hj
      · rw [Server.setClient_of_ne hne] at hj
        exact .inl hj
  | switched _ _ _ _ =>
    have hactive := enqueueOrDisconnect_joined hj
    exact .inl (setClient_joined rfl (fun h => by exact h) hactive)
  | @left idx' name _ _ _ _ =>
    have hexit := enqueueOrDisconnect_joined hj
    refine .inl (setClient_joined rfl (fun h => ?_) hexit)
    rcases eq_or_ne idx idx' with rfl | hne
    · simp only [Function.update_self] at h
      cases h
    · simp only [Function.update_of_ne hne] at h
      exact h
  | said haccepts =>
    obtain ⟨hshare, hother⟩ := chatSent_slot (j := j) haccepts
    by_cases h : SharesChannel s i j
    · exact .inl ((hshare h).joined hj)
    · rw [(hother h).joined] at hj
      exact .inl hj
  | sentDm _ _ =>
    have hsent := enqueueOrDisconnect_joined hj
    exact .inl (enqueueOrDisconnect_joined hsent)
  | lostDm _ _ => exact .inl (enqueueOrDisconnect_joined hj)
  | quit _ =>
    rw [disconnectClient_clients] at hj
    rcases eq_or_ne j i with rfl | hne
    · rw [Function.update_self] at hj
      cases hj
    · rw [Function.update_of_ne hne] at hj
      exact .inl hj

end Handlers

/-! ## One step -/

variable {s t : Server} {i j : Slot} {idx : ℕ} {turn : Turn}

theorem JoinedOn.mono {k : ℕ} {name : Bytes} (h : JoinedOn k name s.trace) (hst : Step s t) :
    JoinedOn k name t.trace := by
  obtain ⟨f, htype, hread, hmem⟩ := h
  exact ⟨f, htype, hread, (hst.answers_prefix k).subset hmem⟩

/-- The `OK` of a turn is the answer to its request. -/
theorem TakesTurn.joinedOn (h : TakesTurn s t i turn) {frame : Frame} {v : Server} {name : Bytes}
    (hserves : Serves s t i turn frame v) (hreq : turn.request = some frame)
    (hjoins : Joins (s.emit (.handled (s.clients i).conn frame)) v i frame idx name) :
    JoinedOn (s.clients i).conn name t.trace := by
  refine ⟨frame, hjoins.type, hjoins.read, ?_⟩
  rw [h.answers_eq, if_pos h.conn, Turn.answers, hreq]
  refine List.mem_append_right _ (List.mem_map.mpr ⟨_, List.mem_filter.mpr ⟨?_, ?_⟩, rfl⟩)
  · rw [h.conn]
    refine mem_outputTo.mpr ?_
    rw [← hserves.output]
    exact List.mem_flatMap.mpr ⟨_, hjoins.answer, List.mem_singleton_self _⟩
  · rw [isReply_make]
    rfl

/-- What a step does to the bits of a client that is live after it. -/
inductive JoinedCase (s t : Server) (j : Slot) (idx : ℕ) : Prop where
  | same : (s.clients j).Live → (t.clients j).conn = (s.clients j).conn →
      (s.clients j).joined idx = true → JoinedCase s t j idx
  | joins (name : Bytes) : t.channels[idx]? = some name →
      JoinedOn (t.clients j).conn name t.trace → JoinedCase s t j idx

theorem TakesTurn.joined_cases (h : TakesTurn s t i turn) (hr : Reachable s)
    (hl : (t.clients j).Live) (hj : (t.clients j).joined idx = true) : JoinedCase s t j idx := by
  obtain ⟨hlj, hconn⟩ := h.after j hl
  cases hreq : turn.request with
  | none =>
    rw [h.rejects hreq] at hj
    have hold := enqueueOrDisconnect_joined hj
    exact .same hlj hconn hold
  | some frame =>
    obtain ⟨v, hserves⟩ := h.serves hr hreq
    obtain ⟨inbuf, hclient⟩ := hserves.clients j
    rw [hclient] at hj
    rcases hserves.ending.joined_cases hj with hold | ⟨rfl, name, hjoins⟩
    · exact .same hlj hconn hold
    · refine .joins name ?_ ?_
      · rw [hserves.channels]
        exact hjoins.channel
      · rw [hconn]
        exact h.joinedOn hserves hreq hjoins

theorem Step.joined_cases (h : Step s t) (hr : Reachable s) (hl : (t.clients j).Live)
    (hj : (t.clients j).joined idx = true) : JoinedCase s t j idx := by
  have hsame : ∀ {k : Slot} {c : Client}, t.clients = Function.update s.clients k c →
      (c.Live → c.joined idx = true → (s.clients k).Live ∧ c.conn = (s.clients k).conn ∧
        (s.clients k).joined idx = true) → JoinedCase s t j idx := by
    intro k c hclients hc
    rw [hclients] at hl hj
    rcases eq_or_ne j k with rfl | hne
    · rw [Function.update_self] at hl hj
      obtain ⟨hlive, hconn, hjoined⟩ := hc hl hj
      refine .same hlive ?_ hjoined
      rw [hclients, Function.update_self, hconn]
    · rw [Function.update_of_ne hne] at hl hj
      refine .same hl ?_ hj
      rw [hclients, Function.update_of_ne hne]
  cases h with
  | accept hfd =>
    rcases acceptConnection_cases s _ _ with heq | ⟨slot, heq⟩
    · rw [heq] at hl hj ⊢
      exact .same hl rfl hj
    · exact hsame (by rw [heq]; rfl) fun _ hnone => by cases hnone
  | recv hlive _ _ => exact hsame rfl fun _ hold => ⟨hlive, rfl, hold⟩
  | drain hlive =>
    rcases drainTurn_quiet_or_turn hlive with heq | ⟨turn, hturn⟩
    · rw [heq] at hl hj ⊢
      exact .same hl rfl hj
    · exact hturn.joined_cases hr hl hj
  | send hlive hout _ _ =>
    obtain ⟨out, queuedBytes, hclients, -⟩ := takeSent_clients hout
    exact hsame hclients fun _ hold => ⟨hlive, rfl, hold⟩
  | disconnect hlive =>
    exact hsame (disconnectClient_clients ..) fun hc => absurd hc (Client.not_live_reset _)

/-! ## Every run -/

/-- **Every membership has an accepted `JOIN` behind it**, that of a client that is connected and
that of one that was sent a text. -/
structure JoinsOk (s : Server) : Prop where
  joined : ∀ i idx name, (s.clients i).Live → (s.clients i).joined idx = true →
    s.channels[idx]? = some name → JoinedOn (s.clients i).conn name s.trace
  posts : ∀ p ∈ posts s.trace, ∀ k ∈ p.members, JoinedOn k p.entry.channel s.trace

theorem JoinsOk.step (hs : JoinsOk s) (hr : Reachable s) (h : Step s t) : JoinsOk t := by
  have hc := channelsOk hr.moveReachable
  constructor
  · intro j idx name hl hj hname
    cases h.joined_cases hr hl hj with
    | same hlj hconn hold =>
      obtain ⟨more, hmore⟩ := channels_prefix_of_run (.single h)
      have hlt := (hc.clients j).joined_lt idx hold
      rw [← hmore, List.getElem?_append_left hlt] at hname
      rw [hconn]
      exact (hs.joined j idx name hlj hold hname).mono h
    | joins name' hname' hjoined =>
      obtain rfl : name' = name := Option.some.inj (hname'.symm.trans hname)
      exact hjoined
  · have hold : ∀ p ∈ Core.posts s.trace, ∀ k ∈ p.members, JoinedOn k p.entry.channel t.trace :=
      fun p hp k hk => (hs.posts p hp k hk).mono h
    rcases h.posts hr with hsame | ⟨i, turn, frame, idx, text, hturn, -, haccepts, hnew⟩
    · rw [hsame]
      exact hold
    · rw [hnew]
      intro p hp k hk
      rcases List.mem_append.mp hp with hp | hp
      · exact hold p hp k hk
      · obtain rfl := List.mem_singleton.mp hp
        obtain ⟨j, hj, rfl⟩ := mem_memberConns.mp hk
        obtain ⟨hlj, -, hjoined⟩ := mem_members.mp hj
        exact (hs.joined j idx _ hlj hjoined (findChannel_eq_some haccepts.channel)).mono h

theorem joinsOk (h : Reachable s) : JoinsOk s := by
  refine Transition.Reachable.invariant ?_ (fun _ _ hr hs hst => hs.step hr hst) h
  rintro _ ⟨maxQueueBytes, heap, -, rfl⟩
  exact ⟨fun i _ _ hi => absurd hi Client.not_live_blank, fun p hp => absurd hp List.not_mem_nil⟩

end Core
end ChannelWire
