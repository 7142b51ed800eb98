import ChannelWire.Core.Endings
import ChannelWire.Core.Runs

/-!
# What a request leaves alone

Every handler can write every slot, the channel table and the counters.  What it does write is
little: a slot other than the client's gets one frame, from an accepted `SAY`, `DM` or `NICK`, or
is reset because that frame found no room (`effects_confined`), and a request that is answered
with an `ERROR` writes nothing but this answer (`replies_tell_the_state`).

The loops over the slots are read slot by slot: to slot `j` the turns of the other slots are
`Spared`, and its own turn is what it `Gets`.
-/

namespace ChannelWire
namespace Core

open LinkedQueue

/-! ## One slot -/

/-- From `s` to `t` slot `j` was left alone.  Memory was asked for, but not for it. -/
structure Spared (j : Slot) (s t : Server) : Prop where
  clients : t.clients j = s.clients j
  maxQueueBytes : t.maxQueueBytes = s.maxQueueBytes
  heap : ∃ n, ∀ m, t.heap m = s.heap (n + m)

/-- The queue of slot `j` has room for the payload. -/
def HasRoom (s : Server) (j : Slot) (payload : Bytes) : Prop :=
  payload.length ≤ cwMaxPayloadSize ∧
    (s.clients j).queuedBytes + cwFrameHeaderSize + payload.length ≤ s.maxQueueBytes

/-- From `s` to `t` slot `j` got exactly one frame, or it was reset: its queue had no room for
the frame, or one of the `c` calls of `calloc` in between failed. -/
inductive Gets (j : Slot) (type : ServerMsgType) (payload : Bytes) (s t : Server) : Prop where
  | appended : HasRoom s j payload → t.clients j = { s.clients j with
      out := (s.clients j).out.push (OutFrame.make type payload)
      queuedBytes := (s.clients j).queuedBytes + (OutFrame.make type payload).len } →
      Gets j type payload s t
  | reset : (HasRoom s j payload →
      ∃ c, (∀ m, t.heap m = s.heap (c + m)) ∧ ∃ n < c, s.heap n = false) →
      t.clients j = (s.clients j).reset → Gets j type payload s t

namespace Spared

variable {j : Slot} {s t u : Server}

theorem refl (s : Server) : Spared j s s := ⟨rfl, rfl, 0, fun m => by rw [Nat.zero_add]⟩

theorem trans (h : Spared j s t) (h' : Spared j t u) : Spared j s u := by
  obtain ⟨n, hn⟩ := h.heap
  obtain ⟨n', hn'⟩ := h'.heap
  refine ⟨h'.clients.trans h.clients, h'.maxQueueBytes.trans h.maxQueueBytes, n + n', fun m => ?_⟩
  rw [hn', hn, Nat.add_assoc]

/-- One slot changes, and the memory stays as it is. -/
theorem of_clients (hclients : t.clients j = s.clients j)
    (hmax : t.maxQueueBytes = s.maxQueueBytes) (hheap : t.heap = s.heap) : Spared j s t :=
  ⟨hclients, hmax, 0, fun m => by rw [hheap, Nat.zero_add]⟩

theorem setStats (s : Server) (stats : ServerStats) : Spared j s (s.setStats stats) :=
  .of_clients rfl rfl rfl

theorem hasRoom_iff (h : Spared j s t) {payload : Bytes} :
    HasRoom t j payload ↔ HasRoom s j payload := by
  rw [HasRoom, HasRoom, h.clients, h.maxQueueBytes]

/-- What a slot gets, seen from before and after. -/
theorem gets {type : ServerMsgType} {payload : Bytes} {v : Server} (h : Spared j s t)
    (hget : Gets j type payload t u) (h' : Spared j u v) : Gets j type payload s v := by
  cases hget with
  | appended hroom hclient =>
    refine .appended (h.hasRoom_iff.mp hroom) ?_
    rw [h'.clients, hclient, h.clients]
  | reset hroom hclient =>
    refine .reset (fun hs => ?_) (by rw [h'.clients, hclient, h.clients])
    obtain ⟨c, hc, n, hlt, hn⟩ := hroom (h.hasRoom_iff.mpr hs)
    obtain ⟨a, ha⟩ := h.heap
    obtain ⟨b, hb⟩ := h'.heap
    refine ⟨a + (c + b), fun m => ?_, a + n, by omega, by rw [← ha, hn]⟩
    rw [hb, hc, ha, Nat.add_assoc, Nat.add_assoc]

end Spared

section Enqueuing

variable {s : Server} {i j : Slot} (type : ServerMsgType) (payload : Bytes)

theorem resetClient_heap (s : Server) (i : Slot) : (resetClient s i).heap = s.heap := by
  unfold resetClient
  simp only
  split_ifs <;> rfl

theorem disconnectClient_heap (s : Server) (i : Slot) (r : Reason) :
    (disconnectClient s i r).heap = s.heap := by
  unfold disconnectClient
  simp only [resetClient_heap]
  split_ifs <;> rfl

/-- At most one answer of `calloc` is used up. -/
theorem enqueueOrDisconnect_heap : ∃ n, ∀ m,
    (enqueueOrDisconnect s i type payload).heap m = s.heap (n + m) := by
  have hone : ∀ m, s.heap (m + 1) = s.heap (1 + m) := fun m => by rw [Nat.add_comm]
  have hzero : ∀ m, s.heap m = s.heap (0 + m) := fun m => by rw [Nat.zero_add]
  unfold enqueueOrDisconnect enqueuePayload overflowDisconnect
  simp only
  split_ifs
  · exact ⟨0, fun m => by rw [disconnectClient_heap]; exact hzero m⟩
  · exact ⟨0, fun m => by rw [disconnectClient_heap]; exact hzero m⟩
  · exact ⟨1, hone⟩
  · exact ⟨1, fun m => by rw [disconnectClient_heap]; exact hone m⟩

/-- With room in the queue, `calloc` is asked once. -/
theorem enqueueOrDisconnect_heap_of_hasRoom (h : HasRoom s i payload) (m : ℕ) :
    (enqueueOrDisconnect s i type payload).heap m = s.heap (1 + m) := by
  rw [Nat.add_comm]
  unfold enqueueOrDisconnect enqueuePayload overflowDisconnect
  simp only [if_neg (not_lt.mpr h.1), if_neg (not_lt.mpr h.2)]
  split_ifs
  · rfl
  · rw [disconnectClient_heap]
    rfl

@[simp] theorem enqueueOrDisconnect_maxQueueBytes :
    (enqueueOrDisconnect s i type payload).maxQueueBytes = s.maxQueueBytes := by
  by_cases h : Accepts s i payload
  · rw [enqueueOrDisconnect_of_accepts h]
    rfl
  · obtain ⟨heap, hq⟩ := enqueueOrDisconnect_of_not_accepts type h
    rw [hq, overflowDisconnect_maxQueueBytes]
    rfl

@[simp] theorem enqueueOrDisconnect_channels :
    (enqueueOrDisconnect s i type payload).channels = s.channels := by
  by_cases h : Accepts s i payload
  · rw [enqueueOrDisconnect_of_accepts h]
    rfl
  · obtain ⟨heap, hq⟩ := enqueueOrDisconnect_of_not_accepts type h
    rw [hq, overflowDisconnect_channels]
    rfl

@[simp] theorem safeEnqueueText_channels :
    (safeEnqueueText s i type payload).channels = s.channels := enqueueOrDisconnect_channels ..

theorem enqueueOrDisconnect_spared (hne : j ≠ i) :
    Spared j s (enqueueOrDisconnect s i type payload) :=
  ⟨enqueueOrDisconnect_clients_of_ne type payload hne, enqueueOrDisconnect_maxQueueBytes ..,
    enqueueOrDisconnect_heap type payload⟩

theorem enqueueOrDisconnect_gets : Gets j type payload s (enqueueOrDisconnect s j type payload) := by
  by_cases h : Accepts s j payload
  · refine .appended ⟨h.1, h.2.1⟩ ?_
    rw [enqueueOrDisconnect_of_accepts h, pushFrame_clients, Function.update_self]
    rfl
  · obtain ⟨heap, hq⟩ := enqueueOrDisconnect_of_not_accepts type h
    refine .reset (fun hroom =>
      ⟨1, enqueueOrDisconnect_heap_of_hasRoom type payload hroom, 0, Nat.one_pos, ?_⟩) ?_
    · by_contra hheap
      exact h ⟨hroom.1, hroom.2, by simpa using hheap⟩
    · rw [hq, overflowDisconnect_clients, Function.update_self]
      rfl

end Enqueuing

/-! ## The loops -/

section Loops

variable {s : Server} {j : Slot} (idx : ℕ)

/-- A loop over all slots whose turns spare the other slots is, to slot `j`, its own turn. -/
theorem foldl_slot {body : Server → Slot → Server}
    (hbody : ∀ u i, i ≠ j → Spared j u (body u i)) (s : Server) :
    ∃ t, Spared j s t ∧ Spared j (body t j) (slots.foldl body s) :=
  Transition.foldl_turn (P := fun _ => True) (R := Spared j) .refl (fun _ _ _ => .trans)
    (fun _ _ _ _ => trivial) (fun u _ i hne => hbody u i hne) (fun _ _ => trivial) nodup_slots
    (mem_slots j) trivial

theorem chatTurn_spared {i : Slot} (payload : Bytes) (hne : j ≠ i) :
    Spared j s (chatTurn idx payload s i) := by
  unfold chatTurn
  split_ifs
  · exact enqueueOrDisconnect_spared _ _ hne
  · exact .refl s

/-- A member of the channel gets the frame, and nobody else does. -/
theorem chatLoop_slot (payload : Bytes) :
    ((s.clients j).isMember idx = true → Gets j .chat payload s (chatLoop s idx payload)) ∧
      (¬ (s.clients j).isMember idx = true → Spared j s (chatLoop s idx payload)) := by
  obtain ⟨t, hst, htu⟩ := foldl_slot (j := j)
    (fun u i hne => chatTurn_spared (s := u) idx payload hne.symm) s
  rw [chatTurn, hst.clients] at htu
  constructor
  · intro hm
    rw [if_pos hm] at htu
    exact hst.gets (enqueueOrDisconnect_gets _ _) htu
  · intro hm
    rw [if_neg hm] at htu
    exact hst.trans htu

theorem systemTurn_spared {sender i : Slot} (text : Bytes) (hne : j ≠ i) :
    Spared j s (systemTurn sender idx text s i) := by
  unfold systemTurn
  split_ifs
  · exact enqueueOrDisconnect_spared _ _ hne
  · exact .refl s

/-- The client in slot `j` is a member of the active channel of the one in slot `i`. -/
def SharesChannel (s : Server) (i j : Slot) : Prop :=
  ∃ idx, findChannel s (s.clients i).activeChannel = some idx ∧ (s.clients j).isMember idx = true

/-- The other members of the sender's active channel get the notice, and nobody else does. -/
theorem broadcastSystem_slot (sender : Slot) (text : Bytes) :
    (j ≠ sender → SharesChannel s sender j →
        Gets j .system text s (broadcastSystemToActiveChannel s sender text)) ∧
      (j = sender ∨ ¬ SharesChannel s sender j →
        Spared j s (broadcastSystemToActiveChannel s sender text)) := by
  unfold broadcastSystemToActiveChannel
  cases hf : findChannel s (s.clients sender).activeChannel with
  | none =>
    refine ⟨fun _ hshare => ?_, fun _ => .refl s⟩
    obtain ⟨idx, hidx, -⟩ := hshare
    cases hf.symm.trans hidx
  | some idx =>
    obtain ⟨t, hst, htu⟩ := foldl_slot (j := j)
      (fun u i hne => show Spared j u (systemTurn sender idx text u i) from
        systemTurn_spared idx text hne.symm) s
    rw [systemTurn, hst.clients] at htu
    constructor
    · rintro hne ⟨idx', hidx', hm⟩
      obtain rfl : idx = idx' := Option.some.inj (hf.symm.trans hidx')
      rw [if_pos ⟨hne, hm⟩] at htu
      exact hst.gets (enqueueOrDisconnect_gets _ _) htu
    · intro hnot
      rw [if_neg] at htu
      · exact hst.trans htu
      · rintro ⟨hne, hm⟩
        exact hnot.elim hne fun h => h ⟨idx, hf, hm⟩

theorem foldl_channels {body : Server → Slot → Server}
    (hbody : ∀ u i, (body u i).channels = u.channels) (l : List Slot) (s : Server) :
    (l.foldl body s).channels = s.channels := by
  induction l generalizing s with
  | nil => rfl
  | cons i l ih => rw [List.foldl_cons, ih, hbody]

@[simp] theorem chatLoop_channels (payload : Bytes) :
    (chatLoop s idx payload).channels = s.channels := by
  refine foldl_channels (fun u i => ?_) slots s
  unfold chatTurn
  split_ifs
  · exact enqueueOrDisconnect_channels ..
  · rfl

@[simp] theorem broadcastSystem_channels (sender : Slot) (text : Bytes) :
    (broadcastSystemToActiveChannel s sender text).channels = s.channels := by
  unfold broadcastSystemToActiveChannel
  split
  · rfl
  · refine foldl_channels (fun u i => ?_) slots s
    unfold systemTurn
    split_ifs
    · exact enqueueOrDisconnect_channels ..
    · rfl

end Loops

/-! ## Effects on others -/

/-- **What a request does to the other slots and to the channel table.** -/
structure Confined (s : Server) (i : Slot) (frame : Frame) (t : Server) : Prop where
  /-- An accepted text goes to the members of the client's active channel. -/
  say : ∀ idx text, AcceptsSay s i frame idx text → ∀ j, j ≠ i →
    (SharesChannel s i j → Gets j .chat (chatPayload (s.clients i) text) s t) ∧
      (¬ SharesChannel s i j → t.clients j = s.clients j)
  /-- A direct message goes to the client it names. -/
  dm : ∀ target text, AcceptsDm s i frame target text → ∀ j, j ≠ i →
    (j = target → Gets j .dmRecv (dmPayload (s.clients i) text) s t) ∧
      (j ≠ target → t.clients j = s.clients j)
  /-- The notice of a new name goes to the members of the client's active channel. -/
  nick : ∀ name, frame.type = ClientMsgType.nick.toByte → AcceptsName s i frame name →
    (t.clients i).Live → ∀ j, j ≠ i →
      (SharesChannel s i j → Gets j .system (nickNotice (s.clients i) name) s t) ∧
        (¬ SharesChannel s i j → t.clients j = s.clients j)
  /-- Nothing else touches another slot. -/
  rest : (∀ idx text, ¬ AcceptsSay s i frame idx text) →
    (∀ target text, ¬ AcceptsDm s i frame target text) →
    (∀ name, frame.type = ClientMsgType.nick.toByte → AcceptsName s i frame name →
      ¬ (t.clients i).Live) → ∀ j, j ≠ i → t.clients j = s.clients j
  /-- A `JOIN` of a new valid name appends it to the table. -/
  channels : t.channels = s.channels ∨ ∃ name, frame.type = ClientMsgType.join.toByte ∧
    (s.clients i).registered = true ∧ readName frame.payload cwChannelCap = some name ∧
    name ∉ s.channels ∧ t.channels = s.channels ++ [name]

section Confined

variable {s : Server} {i j : Slot} {frame : Frame}

theorem findChannel_congr {s t : Server} (h : t.channels = s.channels) (name : Bytes) :
    findChannel t name = findChannel s name := by rw [findChannel, findChannel, h]

theorem takeName_spared (name : Bytes) (hne : j ≠ i) : Spared j s (takeName s i name) :=
  .of_clients (Server.setClient_of_ne hne) rfl rfl

/-- The end of an accepted `SAY`, seen from any slot. -/
theorem chatSent_slot {idx : ℕ} {text : Bytes} (h : AcceptsSay s i frame idx text) :
    (SharesChannel s i j → Gets j .chat (chatPayload (s.clients i) text) s (chatSent s i idx text)) ∧
      (¬ SharesChannel s i j → Spared j s (chatSent s i idx text)) := by
  have hannounce : Spared j s
      (announce s i idx ⟨(s.clients i).activeChannel, (s.clients i).username, text⟩) :=
    .of_clients rfl rfl rfl
  obtain ⟨hmember, hother⟩ := chatLoop_slot (j := j)
    (s := announce s i idx ⟨(s.clients i).activeChannel, (s.clients i).username, text⟩) idx
    (chatPayload (s.clients i) text)
  unfold chatSent
  constructor
  · rintro ⟨idx', hidx', hm⟩
    obtain rfl : idx = idx' := Option.some.inj (h.channel.symm.trans hidx')
    exact hannounce.gets (hmember hm) (.setStats _ _)
  · intro hnot
    have hm : ¬ (s.clients j).isMember idx = true := fun hm => hnot ⟨idx, h.channel, hm⟩
    exact (hannounce.trans (hother hm)).trans (.setStats _ _)

/-- The client that takes a name tells the members of its active channel, unless the `OK` found no
room: then it has been reset and has no active channel. -/
theorem renamed_slot (hc : ChannelsOk s) (hl : (s.clients i).Live) (name : Bytes) (hne : j ≠ i)
    {t : Server} (ht : t = broadcastSystemToActiveChannel
      (safeEnqueueText (takeName s i name) i .ok (ascii "username changed")) i
      (nickNotice (s.clients i) name)) :
    ((t.clients i).Live → SharesChannel s i j →
        Gets j .system (nickNotice (s.clients i) name) s t) ∧
      (¬ (t.clients i).Live ∨ ¬ SharesChannel s i j → Spared j s t) := by
  let u := safeEnqueueText (takeName s i name) i .ok (ascii "username changed")
  have hsu : Spared j s u := (takeName_spared name hne).trans (enqueueOrDisconnect_spared _ _ hne)
  have hchannels : u.channels = s.channels := enqueueOrDisconnect_channels ..
  obtain ⟨hshare, hother⟩ := broadcastSystem_slot (s := u) (j := j) i (nickNotice (s.clients i) name)
  have hself : t.clients i = u.clients i := by
    rw [ht]
    exact ((broadcastSystem_slot (s := u) (j := i) i _).2 (.inl rfl)).clients
  have hshares : (u.clients i).Live → (SharesChannel u i j ↔ SharesChannel s i j) := by
    intro hlive
    have hactive : (u.clients i).activeChannel = (s.clients i).activeChannel := by
      show ((enqueueOrDisconnect (takeName s i name) i .ok _).clients i).activeChannel = _
      rw [enqueueOrDisconnect_clients_self hlive, takeName, Server.setClient_self]
    rw [SharesChannel, SharesChannel, hactive, hsu.clients, findChannel_congr hchannels]
  have hreset : ¬ (u.clients i).Live → ¬ SharesChannel u i j := by
    rintro hlive ⟨idx, hidx, -⟩
    have hcu : u.clients i = ((takeName s i name).clients i).reset := by
      rcases enqueueOrDisconnect_gets (s := takeName s i name) (j := i) .ok
        (ascii "username changed") with ⟨-, hclient⟩ | ⟨-, hclient⟩
      · refine absurd ?_ hlive
        show ((enqueueOrDisconnect (takeName s i name) i .ok _).clients i).Live
        rw [hclient, takeName, Server.setClient_self]
        exact hl
      · exact hclient
    rw [hcu, findChannel_congr hchannels] at hidx
    exact (hc.valid _ (List.mem_of_getElem? (findChannel_eq_some hidx))).ne_nil rfl
  rw [hself]
  subst ht
  constructor
  · intro hlive hs
    exact hsu.gets (hshare hne ((hshares hlive).mpr hs)) (.refl _)
  · intro hnot
    refine hsu.trans (hother (.inr ?_))
    by_cases hlive : (u.clients i).Live
    · exact fun hs => hnot.elim (fun h => h hlive) fun h => h ((hshares hlive).mp hs)
    · exact hreset hlive

/-- What `ensure_channel` does to the table. -/
theorem ensureChannel_channels {t : Server} {name : Bytes} {idx : ℕ}
    (hname : snprintf (cwChannelCap + 1) name = name) (h : ensureChannel s name = (some idx, t)) :
    findChannel t name = some idx ∧
      (t = s ∨ name ∉ s.channels ∧ t = s.setChannels (s.channels ++ [name])) := by
  unfold ensureChannel at h
  cases hf : findChannel s name with
  | some idx' =>
    rw [hf] at h
    obtain ⟨hidx, rfl⟩ := Prod.mk.inj h
    exact ⟨hf.trans hidx, .inl rfl⟩
  | none =>
    rw [hf] at h
    simp only at h
    split_ifs at h with hfull
    · cases (Prod.mk.inj h).1
    obtain ⟨hidx, rfl⟩ := Prod.mk.inj h
    rw [hname]
    refine ⟨?_, .inr ⟨findChannel_eq_none_iff.mp hf, rfl⟩⟩
    rw [findChannel] at hf
    rw [findChannel, Server.setChannels_channels, List.findIdx?_append, hf, ← hidx]
    simp

theorem joined_confined {t : Server} {idx : ℕ} {name : Bytes}
    (hread : readName frame.payload cwChannelCap = some name)
    (hensure : ensureChannel s name = (some idx, t)) :
    t.clients = s.clients ∧ (t.channels = s.channels ∨
      name ∉ s.channels ∧ t.channels = s.channels ++ [name]) := by
  obtain ⟨-, -, hs⟩ := readName_eq_some hread
  obtain ⟨-, rfl | ⟨hnew, rfl⟩⟩ := ensureChannel_channels hs hensure
  · exact ⟨rfl, .inl rfl⟩
  · exact ⟨rfl, .inr ⟨hnew, rfl⟩⟩

/-- A request that neither `SAY`, `DM` nor `NICK` accepts leaves the other slots alone. -/
theorem Ending.others {t : Server} (h : Ending s i frame t) (hc : ChannelsOk s)
    (hl : (s.clients i).Live) (hsay : ∀ idx text, ¬ AcceptsSay s i frame idx text)
    (hdm : ∀ target text, ¬ AcceptsDm s i frame target text)
    (hnick : ∀ name, frame.type = ClientMsgType.nick.toByte → AcceptsName s i frame name →
      ¬ (t.clients i).Live) (hne : j ≠ i) : t.clients j = s.clients j := by
  have hreply : ∀ (u : Server) (type : ServerMsgType) (text : Bytes),
      u.clients j = s.clients j → (safeEnqueueText u i type text).clients j = s.clients j :=
    fun u type text hu => (enqueueOrDisconnect_clients_of_ne type text hne).trans hu
  cases h with
  | refused text => exact hreply s _ _ rfl
  | registered _ _ => exact hreply _ _ _ (Server.setClient_of_ne hne)
  | @renamed name htype hname =>
    exact ((renamed_slot hc hl name hne rfl).2 (.inl (hnick name htype hname))).clients
  | joined _ _ hread hensure =>
    refine hreply _ _ _ ((Server.setClient_of_ne hne).trans ?_)
    rw [(joined_confined hread hensure).1]
  | switched _ _ _ _ => exact hreply _ _ _ (Server.setClient_of_ne hne)
  | left _ _ _ _ => exact hreply _ _ _ (Server.setClient_of_ne hne)
  | said h => exact absurd h (hsay _ _)
  | sentDm h _ => exact absurd h (hdm _ _)
  | lostDm h _ => exact absurd h (hdm _ _)
  | queried text _ _ => exact hreply s _ _ rfl
  | quit _ => rw [disconnectClient_clients, Function.update_of_ne hne]

/-- Only a `JOIN` changes the channel table. -/
theorem Ending.channels {t : Server} (h : Ending s i frame t) :
    t.channels = s.channels ∨ ∃ name, frame.type = ClientMsgType.join.toByte ∧
      (s.clients i).registered = true ∧ readName frame.payload cwChannelCap = some name ∧
      name ∉ s.channels ∧ t.channels = s.channels ++ [name] := by
  cases h with
  | @joined u idx name htype hreg hread hensure =>
    rw [safeEnqueueText, enqueueOrDisconnect_channels]
    obtain ⟨-, hsame | ⟨hnew, happend⟩⟩ := joined_confined hread hensure
    · exact .inl hsame
    · exact .inr ⟨name, htype, hreg, hread, hnew, happend⟩
  | refused _ | registered _ _ | switched _ _ _ _ | left _ _ _ _ | queried _ _ _ | lostDm _ _ =>
    exact .inl (enqueueOrDisconnect_channels ..)
  | renamed _ _ =>
    rw [broadcastSystem_channels]
    exact .inl (enqueueOrDisconnect_channels ..)
  | said _ =>
    rw [chatSent, Server.setStats_channels, chatLoop_channels]
    exact .inl rfl
  | sentDm _ _ =>
    rw [safeEnqueueText, enqueueOrDisconnect_channels]
    exact .inl (enqueueOrDisconnect_channels ..)
  | quit _ => exact .inl (disconnectClient_channels ..)

/-- A direct message that is accepted, seen from the slots of the others. -/
theorem dm_slot (hv : NamesOk s) {target : Slot} {text : Bytes}
    (h : AcceptsDm s i frame target text) (hne : j ≠ i) :
    (j = target → Gets j .dmRecv (dmPayload (s.clients i) text) s
        (handleFrame s i frame.type frame.payload)) ∧
      (j ≠ target → Spared j s (handleFrame s i frame.type frame.payload)) := by
  have hafter : ∀ u, Spared j u (safeEnqueueText (countDm u) i .ok sentText) := fun u =>
    (Spared.setStats u _).trans (enqueueOrDisconnect_spared _ _ hne)
  rw [handleFrame_of_acceptsDm hv h]
  constructor
  · rintro rfl
    have hget := enqueueOrDisconnect_gets (s := s) (j := j) .dmRecv (dmPayload (s.clients i) text)
    split_ifs
    · exact (Spared.refl s).gets hget (hafter _)
    · exact hget
  · intro hother
    have hspared := enqueueOrDisconnect_spared (s := s) .dmRecv (dmPayload (s.clients i) text) hother
    split_ifs
    · exact hspared.trans (hafter _)
    · exact hspared

end Confined

/-- **Effects on others are confined.**  In every reachable state and for every frame of a live
client: the slots of the others are left as they were, but for the one frame that an accepted
text, an accepted direct message or a new name sends to those it concerns, each of whom gets it or
is reset because its queue has no room; and the channel table is left as it was, but for the
entry a `JOIN` of a new name appends. -/
theorem effects_confined {s : Server} (h : Reachable s) {i : Slot} (hl : (s.clients i).Live)
    (frame : Frame) : Confined s i frame (handleFrame s i frame.type frame.payload) := by
  have hc := channelsOk h.moveReachable
  have hv := namesOk h.moveReachable
  have hending := handleFrame_ending hc hv i frame
  refine ⟨fun idx text hsay j _ => ?_, fun target text hdm j hne => ?_,
    fun name htype hname hlive j hne => ?_, fun hsay hdm hnick j hne => ?_, hending.channels⟩
  · rw [handleFrame_of_acceptsSay hc hv hsay]
    obtain ⟨hmember, hother⟩ := chatSent_slot (j := j) hsay
    exact ⟨hmember, fun hnot => (hother hnot).clients⟩
  · obtain ⟨htarget, hother⟩ := dm_slot hv hdm hne
    exact ⟨htarget, fun hj => (hother hj).clients⟩
  · obtain ⟨hshare, hother⟩ := renamed_slot hc hl name hne (handleFrame_of_nick htype hname)
    exact ⟨hshare hlive, fun hnot => (hother (.inr hnot)).clients⟩
  · exact hending.others hc hl hsay hdm hnick hne

/-- `alice` says another word in the room. -/
theorem effects_confined_room : Confined roomWithText 0 ⟨5, stringField (ascii "again")⟩
    (handleFrame roomWithText 0 5 (stringField (ascii "again"))) :=
  effects_confined reachable_roomWithText (by decide +kernel) ⟨5, stringField (ascii "again")⟩

/-! ## What was enqueued -/

/-- What was recorded from `s` to `t`. -/
def recorded (s t : Server) : List Effect := t.trace.drop s.trace.length

/-- From `s` to `t` only frames with property `P` were enqueued. -/
def Enqueues (P : Frame → Prop) (s t : Server) : Prop :=
  ∃ es, t.trace = s.trace ++ es ∧ ∀ k frame, .enqueued k frame ∈ es → P frame

namespace Enqueues

variable {P : Frame → Prop} {s t u : Server}

theorem of_trace (h : t.trace = s.trace) : Enqueues P s t :=
  ⟨[], by rw [h, List.append_nil], fun _ _ he => absurd he List.not_mem_nil⟩

theorem trans (h : Enqueues P s t) (h' : Enqueues P t u) : Enqueues P s u := by
  obtain ⟨es, htrace, hes⟩ := h
  obtain ⟨es', htrace', hes'⟩ := h'
  refine ⟨es ++ es', by rw [htrace', htrace, List.append_assoc], fun k frame he => ?_⟩
  exact (List.mem_append.mp he).elim (hes k frame) (hes' k frame)

theorem mono {Q : Frame → Prop} (h : Enqueues P s t) (hPQ : ∀ frame, P frame → Q frame) :
    Enqueues Q s t := by
  obtain ⟨es, htrace, hes⟩ := h
  exact ⟨es, htrace, fun k frame he => hPQ frame (hes k frame he)⟩

/-- An effect that enqueues nothing is recorded. -/
theorem emit {e : Effect} (he : ∀ k frame, e ≠ .enqueued k frame) : Enqueues P s (s.emit e) :=
  ⟨[e], rfl, fun k frame hmem => absurd (List.mem_singleton.mp hmem).symm (he k frame)⟩

theorem mem_recorded (h : Enqueues P s t) {k : ℕ} {frame : Frame}
    (he : .enqueued k frame ∈ recorded s t) : P frame := by
  obtain ⟨es, htrace, hes⟩ := h
  rw [recorded, htrace, List.drop_left] at he
  exact hes k frame he

theorem disconnect (i : Slot) (r : Reason) : Enqueues P s (disconnectClient s i r) := by
  unfold disconnectClient
  simp only
  split_ifs
  · exact (emit (fun _ _ h => by cases h)).trans (of_trace (resetClient_trace ..))
  · exact of_trace (resetClient_trace ..)

/-- A payload is enqueued in a frame of its type, or not at all. -/
theorem enqueue (i : Slot) (type : ServerMsgType) (payload : Bytes) :
    Enqueues (fun frame => Accepts s i payload ∧ frame = ⟨type.toByte, payload⟩) s
      (enqueueOrDisconnect s i type payload) := by
  by_cases h : Accepts s i payload
  · rw [enqueueOrDisconnect_of_accepts h]
    refine ⟨_, pushFrame_trace .., fun k frame hmem => ⟨h, ?_⟩⟩
    cases List.mem_singleton.mp hmem
    rfl
  · obtain ⟨heap, hq⟩ := enqueueOrDisconnect_of_not_accepts type h
    rw [hq, overflowDisconnect]
    refine Enqueues.trans (t := (s.setHeap heap).emit
      (.refused (s.clients i).conn ⟨type.toByte, payload⟩)) ?_ (.trans (.of_trace rfl)
      (.disconnect i _))
    exact (Enqueues.of_trace rfl).trans (.emit fun _ _ h => by cases h)

theorem foldl {body : Server → Slot → Server} (hbody : ∀ u i, Enqueues P u (body u i))
    (l : List Slot) (s : Server) : Enqueues P s (l.foldl body s) := by
  induction l generalizing s with
  | nil => exact of_trace rfl
  | cons i l ih => exact (hbody s i).trans (ih (body s i))

/-- The notice of a new name is a `SYSTEM` message. -/
theorem broadcastSystem (sender : Slot) (text : Bytes) :
    Enqueues (fun frame => frame.type = ServerMsgType.system.toByte) s
      (broadcastSystemToActiveChannel s sender text) := by
  unfold broadcastSystemToActiveChannel
  split
  · exact of_trace rfl
  · refine foldl (fun u i => ?_) slots s
    unfold systemTurn
    split_ifs
    · exact (enqueue i .system text).mono fun frame h => by rw [h.2]
    · exact of_trace rfl

/-- An accepted text is broadcast in `CHAT` frames. -/
theorem chatSent (i : Slot) (idx : ℕ) (text : Bytes) :
    Enqueues (fun frame => frame = ⟨ServerMsgType.chat.toByte, chatPayload (s.clients i) text⟩) s
      (chatSent s i idx text) := by
  have hsaid : Enqueues (fun frame =>
      frame = ⟨ServerMsgType.chat.toByte, chatPayload (s.clients i) text⟩) s
      (announce s i idx ⟨(s.clients i).activeChannel, (s.clients i).username, text⟩) :=
    .emit fun _ _ h => by cases h
  have hturn : ∀ u j, Enqueues (fun frame =>
      frame = ⟨ServerMsgType.chat.toByte, chatPayload (s.clients i) text⟩) u
      (chatTurn idx (chatPayload (s.clients i) text) u j) := by
    intro u j
    unfold chatTurn
    split_ifs
    · exact (enqueue j .chat _).mono fun frame h => h.2
    · exact of_trace rfl
  exact (hsaid.trans (foldl hturn slots _)).trans (of_trace (Server.setStats_trace ..))

/-- A direct message that is delivered is acknowledged. -/
theorem sentDm (i target : Slot) (payload : Bytes) :
    Enqueues (fun frame => frame = ⟨ServerMsgType.dmRecv.toByte, payload⟩ ∨
      frame = ⟨ServerMsgType.ok.toByte, sentText⟩) s (safeEnqueueText
        (countDm (enqueueOrDisconnect s target .dmRecv payload)) i .ok sentText) := by
  have hcount : Enqueues (fun frame => frame = ⟨ServerMsgType.dmRecv.toByte, payload⟩ ∨
      frame = ⟨ServerMsgType.ok.toByte, sentText⟩) s
      (countDm (enqueueOrDisconnect s target .dmRecv payload)) :=
    ((enqueue target .dmRecv payload).mono fun frame h => .inl h.2).trans
      (of_trace (Server.setStats_trace ..))
  exact hcount.trans ((enqueue i .ok sentText).mono fun frame h => .inr h.2)

end Enqueues

/-! ## What an answer means -/

/-- The client is registered under the name of its request. -/
def HasName (t : Server) (i : Slot) (frame : Frame) : Prop :=
  ∃ name, readName frame.payload cwNameCap = some name ∧ (t.clients i).registered = true ∧
    (t.clients i).username = name

/-- The client is a member of the channel, and it is its active one. -/
def IsActiveIn (t : Server) (i : Slot) (name : Bytes) : Prop :=
  ∃ idx, findChannel t name = some idx ∧ (t.clients i).joined idx = true ∧
    (t.clients i).activeChannel = name

/-- The client is no member of the channel of its request, and has another active one or none. -/
def HasLeft (t : Server) (i : Slot) (frame : Frame) : Prop :=
  ∃ name idx, readName frame.payload cwChannelCap = some name ∧ findChannel t name = some idx ∧
    (t.clients i).joined idx = false ∧ (t.clients i).activeChannel ≠ name

/-- What the text of an `OK` says is so in state `t`. -/
structure Reports (t : Server) (i : Slot) (frame : Frame) (text : Bytes) : Prop where
  registered : text = ascii "registered" → HasName t i frame
  renamed : text = ascii "username changed" → HasName t i frame
  joined : ∀ name, text = ascii "joined " ++ name → IsActiveIn t i name
  switched : ∀ name, text = ascii "switched " ++ name → IsActiveIn t i name
  left : text = ascii "left channel" → HasLeft t i frame

section Replies

variable {s t u : Server} {i : Slot} {frame : Frame} {k : ℕ} {type type' : ServerMsgType}
  {text text' : Bytes}

/-- A frame that was enqueued is the one the answer was to be, and there was room for it. -/
theorem reply_recorded (htrace : u.trace = s.trace)
    (he : .enqueued k ⟨type'.toByte, text'⟩ ∈ recorded s (safeEnqueueText u i type text)) :
    Accepts u i text ∧ type' = type ∧ text' = text := by
  rw [recorded, ← htrace] at he
  obtain ⟨haccepts, hframe⟩ := (Enqueues.enqueue i type text).mem_recorded he
  obtain ⟨htype, htext⟩ := Frame.mk.inj hframe
  exact ⟨haccepts, ServerMsgType.toByte_inj.mp htype, htext⟩

/-- The client after an answer that found room. -/
theorem reply_client (h : Accepts u i text) :
    ∃ out queuedBytes, (safeEnqueueText u i type text).clients i =
      { u.clients i with out := out, queuedBytes := queuedBytes } := by
  rw [safeEnqueueText, enqueueOrDisconnect_of_accepts h, pushFrame_clients, Function.update_self]
  exact ⟨_, _, rfl⟩

/-- The frame is no `ERROR`. -/
def NoError (frame : Frame) : Prop := frame.type ≠ ServerMsgType.error.toByte

theorem Enqueues.noError (i : Slot) (text : Bytes) (htrace : u.trace = s.trace)
    (hne : type ≠ .error) : Enqueues NoError s (enqueueOrDisconnect u i type text) := by
  refine (Enqueues.of_trace htrace).trans ((Enqueues.enqueue i type text).mono fun frame h => ?_)
  rw [NoError, h.2]
  exact fun heq => hne (ServerMsgType.toByte_inj.mp heq)

/-- A request is refused, or no `ERROR` is enqueued. -/
theorem Ending.refused_or_noError (h : Ending s i frame t) :
    (∃ text, t = safeEnqueueText s i .error text) ∨ Enqueues NoError s t := by
  have hne : ∀ type : ServerMsgType, type ≠ .error → ∀ frame : Frame,
      frame.type = type.toByte → NoError frame := by
    intro type hne frame htype
    rw [NoError, htype]
    exact fun heq => hne (ServerMsgType.toByte_inj.mp heq)
  cases h with
  | refused text => exact .inl ⟨text, rfl⟩
  | @renamed name _ _ =>
    have hok : Enqueues NoError s
        (safeEnqueueText (takeName s i name) i .ok (ascii "username changed")) :=
      .noError i _ rfl (by decide)
    exact .inr (hok.trans ((Enqueues.broadcastSystem i _).mono (hne .system (by decide))))
  | joined _ _ hread hensure =>
    obtain ⟨-, -, hs⟩ := readName_eq_some hread
    obtain ⟨-, rfl | ⟨-, rfl⟩⟩ := ensureChannel_channels hs hensure <;>
      exact .inr (.noError i _ rfl (by decide))
  | registered _ _ | switched _ _ _ _ | left _ _ _ _ =>
    exact .inr (.noError i _ rfl (by decide))
  | said _ =>
    exact .inr ((Enqueues.chatSent ..).mono fun frame h => hne .chat (by decide) frame (by rw [h]))
  | @sentDm target text _ _ =>
    have hdm : Enqueues NoError s
        (enqueueOrDisconnect s target .dmRecv (dmPayload (s.clients i) text)) :=
      .noError target _ rfl (by decide)
    exact .inr (hdm.trans (.noError i _ rfl (by decide)))
  | lostDm _ _ => exact .inr (.noError _ _ rfl (by decide))
  | queried text htype _ =>
    refine .inr (.noError i _ rfl ?_)
    rintro rfl
    exact absurd htype (by decide)
  | quit _ => exact .inr (.disconnect i _)

/-- **An `ERROR` is all there is.** -/
theorem Ending.error_only (h : Ending s i frame t)
    (he : .enqueued k ⟨ServerMsgType.error.toByte, text⟩ ∈ recorded s t) :
    t = pushFrame (s.setHeap fun n => s.heap (n + 1)) i .error text := by
  rcases h.refused_or_noError with ⟨text', rfl⟩ | hnone
  · obtain ⟨haccepts, -, rfl⟩ := reply_recorded rfl he
    exact enqueueOrDisconnect_of_accepts haccepts
  · exact absurd rfl (hnone.mem_recorded he)

/-- The client after an `OK` that was enqueued. -/
theorem ok_client (htrace : u.trace = s.trace)
    (he : .enqueued k ⟨ServerMsgType.ok.toByte, text⟩ ∈ recorded s (safeEnqueueText u i .ok text')) :
    text = text' ∧ ∃ out queuedBytes, (safeEnqueueText u i .ok text').clients i =
      { u.clients i with out := out, queuedBytes := queuedBytes } := by
  obtain ⟨haccepts, -, rfl⟩ := reply_recorded htrace he
  exact ⟨rfl, reply_client haccepts⟩

/-- An `OK` that was enqueued before the notices of a new name. -/
theorem recorded_ok_of_broadcastSystem (hu : ∃ es, u.trace = s.trace ++ es) {notice : Bytes}
    (he : .enqueued k ⟨ServerMsgType.ok.toByte, text⟩ ∈
      recorded s (broadcastSystemToActiveChannel u i notice)) :
    .enqueued k ⟨ServerMsgType.ok.toByte, text⟩ ∈ recorded s u := by
  obtain ⟨es, hes⟩ := hu
  obtain ⟨es', hes', hsystem⟩ := Enqueues.broadcastSystem (s := u) i notice
  rw [recorded, hes', hes, List.append_assoc, List.drop_left] at he
  rw [recorded, hes, List.drop_left]
  refine (List.mem_append.mp he).resolve_right fun hmem => ?_
  have htype := hsystem k _ hmem
  cases htype

/-- A text that is none of the five reports nothing. -/
theorem Reports.of_ne (hfirst : ∀ b ∈ text.head?, b ∉ [114, 117, 106, 115, 108]) :
    Reports t i frame text := by
  have hne : ∀ {b : UInt8} {rest : Bytes}, b ∈ [114, 117, 106, 115, 108] → text ≠ b :: rest := by
    rintro b rest hmem rfl
    exact hfirst b rfl hmem
  exact ⟨fun h => absurd h (hne (by decide)), fun h => absurd h (hne (by decide)),
    fun _ h => absurd h (hne (by decide)), fun _ h => absurd h (hne (by decide)),
    fun h => absurd h (hne (by decide))⟩

/-- **An `OK` says what is the case.** -/
theorem Ending.reports (h : Ending s i frame t)
    (he : .enqueued k ⟨ServerMsgType.ok.toByte, text⟩ ∈ recorded s t) :
    Reports t i frame text := by
  cases h with
  | refused _ => cases (reply_recorded rfl he).2.1
  | @registered name _ hname =>
    obtain ⟨rfl, out, queuedBytes, hclient⟩ := ok_client (u := takeName s i name) rfl he
    have hhas : HasName (safeEnqueueText (takeName s i name) i .ok (ascii "registered")) i frame := by
      refine ⟨name, hname.read, ?_, ?_⟩ <;> rw [hclient, takeName, Server.setClient_self]
    exact ⟨fun _ => hhas, fun _ => hhas, fun _ h => absurd (List.cons.inj h).1 (by decide),
      fun _ h => absurd (List.cons.inj h).1 (by decide), fun h => absurd h (by decide)⟩
  | @renamed name _ hname =>
    have hu : ∃ es, (safeEnqueueText (takeName s i name) i .ok (ascii "username changed")).trace =
        s.trace ++ es := by
      obtain ⟨es, htrace, -⟩ := Enqueues.enqueue (s := takeName s i name) i .ok
        (ascii "username changed")
      exact ⟨es, htrace⟩
    have hself := ((broadcastSystem_slot
      (s := safeEnqueueText (takeName s i name) i .ok (ascii "username changed")) (j := i) i
      (nickNotice (s.clients i) name)).2 (.inl rfl)).clients
    obtain ⟨rfl, out, queuedBytes, hclient⟩ := ok_client (u := takeName s i name) rfl
      (recorded_ok_of_broadcastSystem hu he)
    have hhas : HasName (broadcastSystemToActiveChannel
        (safeEnqueueText (takeName s i name) i .ok (ascii "username changed")) i
        (nickNotice (s.clients i) name)) i frame := by
      refine ⟨name, hname.read, ?_, ?_⟩ <;> rw [hself, hclient, takeName, Server.setClient_self]
    exact ⟨fun _ => hhas, fun _ => hhas, fun _ h => absurd (List.cons.inj h).1 (by decide),
      fun _ h => absurd (List.cons.inj h).1 (by decide), fun h => absurd h (by decide)⟩
  | @joined u idx name _ _ hread hensure =>
    obtain ⟨-, -, hs⟩ := readName_eq_some hread
    obtain ⟨hfind, hu⟩ := ensureChannel_channels hs hensure
    have htrace : u.trace = s.trace := by
      rcases hu with rfl | ⟨-, rfl⟩ <;> rfl
    obtain ⟨rfl, out, queuedBytes, hclient⟩ := ok_client (u := enterChannel u i idx name) htrace he
    have hactive : IsActiveIn (safeEnqueueText (enterChannel u i idx name) i .ok
        (ascii "joined " ++ name)) i name := by
      refine ⟨idx, ?_, ?_, ?_⟩
      · rw [findChannel_congr (safeEnqueueText_channels ..)]
        exact hfind
      · rw [hclient, enterChannel, Server.setClient_self]
        exact Function.update_self ..
      · rw [hclient, enterChannel, Server.setClient_self]
    refine ⟨fun h => absurd (List.cons.inj h).1 (by decide),
      fun h => absurd (List.cons.inj h).1 (by decide), fun name' h => ?_,
      fun _ h => absurd (List.cons.inj h).1 (by decide),
      fun h => absurd (List.cons.inj h).1 (by decide)⟩
    rwa [← List.append_cancel_left h]
  | @switched idx name _ _ hfind hj =>
    obtain ⟨rfl, out, queuedBytes, hclient⟩ := ok_client
      (u := s.setClient i { s.clients i with activeChannel := name }) rfl he
    have hactive : IsActiveIn (safeEnqueueText (s.setClient i
        { s.clients i with activeChannel := name }) i .ok (ascii "switched " ++ name)) i name := by
      refine ⟨idx, ?_, ?_, ?_⟩
      · rw [findChannel_congr (safeEnqueueText_channels ..)]
        exact hfind
      · rw [hclient, Server.setClient_self]
        exact hj
      · rw [hclient, Server.setClient_self]
    refine ⟨fun h => absurd (List.cons.inj h).1 (by decide),
      fun h => absurd (List.cons.inj h).1 (by decide),
      fun _ h => absurd (List.cons.inj h).1 (by decide), fun name' h => ?_,
      fun h => absurd (List.cons.inj h).1 (by decide)⟩
    rwa [← List.append_cancel_left h]
  | @left idx name _ hread hfind _ =>
    obtain ⟨rfl, out, queuedBytes, hclient⟩ := ok_client (u := exitChannel s i idx name) rfl he
    obtain ⟨-, hvalid, -⟩ := readName_eq_some hread
    have hleft : HasLeft (safeEnqueueText (exitChannel s i idx name) i .ok
        (ascii "left channel")) i frame := by
      refine ⟨name, idx, hread, ?_, ?_, ?_⟩
      · rw [findChannel_congr (safeEnqueueText_channels ..)]
        exact hfind
      · rw [hclient, exitChannel, Server.setClient_self]
        exact Function.update_self ..
      · rw [hclient, exitChannel, Server.setClient_self]
        show (if (s.clients i).activeChannel = name then [] else (s.clients i).activeChannel) ≠ name
        split_ifs with hact
        · exact (ValidName.ne_nil hvalid).symm
        · exact hact
    exact ⟨fun h => absurd h (by decide), fun h => absurd h (by decide),
      fun _ h => absurd (List.cons.inj h).1 (by decide),
      fun _ h => absurd (List.cons.inj h).1 (by decide), fun _ => hleft⟩
  | said _ =>
    have hframe := (Enqueues.chatSent ..).mem_recorded he
    cases hframe
  | @sentDm target text' hdm haccepts =>
    rcases (Enqueues.sentDm i target (dmPayload (s.clients i) text')).mem_recorded he with h | h
    · cases h
    · obtain rfl := (Frame.mk.inj h).2
      exact .of_ne (by decide +kernel)
  | lostDm _ _ =>
    have hframe := ((Enqueues.enqueue ..).mem_recorded he).2
    cases hframe
  | queried _ htype _ =>
    obtain ⟨-, rfl, -⟩ := reply_recorded rfl he
    exact absurd htype (by decide)
  | quit _ => exact ((Enqueues.disconnect (P := fun _ => False) i _).mem_recorded he).elim

end Replies

/-- **An `ERROR` reply means that nothing changed, and an `OK` that what it says did.**  In every
reachable state, for every client: if a frame or a malformed header of it makes the server
enqueue an `ERROR` to it, then this one frame is all that happens, and the count of malformed
frames if it was a header; and if it makes the server enqueue an `OK`, then the change that its
text names is in the state. -/
theorem replies_tell_the_state {s : Server} (h : Reachable s) (i : Slot) :
    (∀ (frame : Frame) (text : Bytes), .enqueued (s.clients i).conn ⟨ServerMsgType.error.toByte, text⟩ ∈
        recorded s (handleFrame s i frame.type frame.payload) →
      handleFrame s i frame.type frame.payload =
        pushFrame (s.setHeap fun n => s.heap (n + 1)) i .error text) ∧
    (∀ text : Bytes, .enqueued (s.clients i).conn ⟨ServerMsgType.error.toByte, text⟩ ∈
        recorded s (rejectHeader s i) →
      rejectHeader s i = pushFrame (((s.setStats
        { s.stats with malformedFrames := s.stats.malformedFrames + 1 }).emit
          (.malformed (s.clients i).conn)).setHeap fun n => s.heap (n + 1)) i .error text) ∧
    ∀ (frame : Frame) (text : Bytes), .enqueued (s.clients i).conn ⟨ServerMsgType.ok.toByte, text⟩ ∈
        recorded s (handleFrame s i frame.type frame.payload) →
      Reports (handleFrame s i frame.type frame.payload) i frame text := by
  have hending := handleFrame_ending (channelsOk h.moveReachable) (namesOk h.moveReachable) i
  refine ⟨fun frame text he => (hending frame).error_only he, fun text he => ?_,
    fun frame text he => (hending frame).reports he⟩
  let u := (s.setStats { s.stats with malformedFrames := s.stats.malformedFrames + 1 }).emit
    (.malformed (s.clients i).conn)
  have hrejected : Enqueues (fun frame => Accepts u i (ascii "malformed frame") ∧
      frame = ⟨ServerMsgType.error.toByte, ascii "malformed frame"⟩) s (rejectHeader s i) :=
    (Enqueues.trans (.of_trace (Server.setStats_trace s _)) (.emit fun _ _ h => by cases h)).trans
      (.enqueue (s := u) i .error (ascii "malformed frame"))
  obtain ⟨haccepts, hframe⟩ := hrejected.mem_recorded he
  obtain rfl := (Frame.mk.inj hframe).2
  exact enqueueOrDisconnect_of_accepts haccepts

/-- `alice` asks for a name that is taken. -/
theorem replies_tell_the_state_room : handleFrame roomWithText 0 9 (stringField (ascii "bob")) =
    pushFrame (roomWithText.setHeap fun n => roomWithText.heap (n + 1)) 0 .error
      (ascii "username already in use") :=
  (replies_tell_the_state reachable_roomWithText 0).1
    ⟨9, stringField (ascii "bob")⟩ _ (by decide +kernel)

end Core
end ChannelWire
