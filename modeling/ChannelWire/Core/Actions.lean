import Mathlib.Logic.Relation
import ChannelWire.Core.Loop
import ChannelWire.Protocol.Strings

/-!
# What a handler can do

Every handler of `server.c` is a sequence of a few elementary actions: link a frame into the
queue of a live client, give up on a live client that has no room, take a free valid name,
append to the channel table, join, switch or leave, count, announce an accepted text.
`Action` lists them with the guards under which the handlers perform them, and
`handleFrame_actions` is the only place where the branches of all handlers are taken apart:
an invariant of the server is shown for the ten actions, not for the handlers.

The actions are those of one `Request`: the slot it came from, its frame, and the client as it
was when the request was made.  Only that slot changes its name and its channels, answers go to
it alone, every `CHAT` and `DM_RECV` carries the name the client had, and only a `DM` is
acknowledged as one (`Request.Emits`).
-/

namespace ChannelWire
namespace Core

open LinkedQueue

/-! ## The fields after the primitive updates -/

section Primitives

variable (s : Server) (i : Slot) (r : Reason) (type : ServerMsgType) (payload : Bytes)

@[simp] theorem Server.setClient_clients (c : Client) :
    (s.setClient i c).clients = Function.update s.clients i c := rfl

@[simp] theorem resetClient_clients :
    (resetClient s i).clients = Function.update s.clients i (s.clients i).reset := by
  unfold resetClient
  simp only
  split_ifs <;> rfl

@[simp] theorem resetClient_channels : (resetClient s i).channels = s.channels := by
  unfold resetClient
  simp only
  split_ifs <;> rfl

@[simp] theorem resetClient_maxQueueBytes :
    (resetClient s i).maxQueueBytes = s.maxQueueBytes := by
  unfold resetClient
  simp only
  split_ifs <;> rfl

@[simp] theorem resetClient_trace : (resetClient s i).trace = s.trace := by
  unfold resetClient
  simp only
  split_ifs <;> rfl

@[simp] theorem disconnectClient_clients :
    (disconnectClient s i r).clients = Function.update s.clients i (s.clients i).reset := by
  unfold disconnectClient
  simp only [resetClient_clients]
  split_ifs <;> rfl

@[simp] theorem disconnectClient_channels : (disconnectClient s i r).channels = s.channels := by
  unfold disconnectClient
  simp only [resetClient_channels]
  split_ifs <;> rfl

@[simp] theorem disconnectClient_maxQueueBytes :
    (disconnectClient s i r).maxQueueBytes = s.maxQueueBytes := by
  unfold disconnectClient
  simp only [resetClient_maxQueueBytes]
  split_ifs <;> rfl

theorem disconnectClient_trace (h : (s.clients i).Live) :
    (disconnectClient s i r).trace = s.trace ++ [.closed (s.clients i).conn r] := by
  unfold disconnectClient
  simp only [resetClient_trace, if_pos h, Server.emit_trace]

@[simp] theorem overflowDisconnect_clients :
    (overflowDisconnect s i).clients = Function.update s.clients i (s.clients i).reset :=
  disconnectClient_clients ..

@[simp] theorem overflowDisconnect_channels : (overflowDisconnect s i).channels = s.channels :=
  disconnectClient_channels ..

@[simp] theorem overflowDisconnect_maxQueueBytes :
    (overflowDisconnect s i).maxQueueBytes = s.maxQueueBytes :=
  disconnectClient_maxQueueBytes ..

theorem overflowDisconnect_trace (h : (s.clients i).Live) :
    (overflowDisconnect s i).trace = s.trace ++ [.closed (s.clients i).conn .queueOverflow] :=
  disconnectClient_trace _ _ _ h

@[simp] theorem pushFrame_clients :
    (pushFrame s i type payload).clients = Function.update s.clients i
      { s.clients i with
        out := (s.clients i).out.push (OutFrame.make type payload)
        queuedBytes := (s.clients i).queuedBytes + (OutFrame.make type payload).len } := rfl

@[simp] theorem pushFrame_channels : (pushFrame s i type payload).channels = s.channels := rfl

@[simp] theorem pushFrame_maxQueueBytes :
    (pushFrame s i type payload).maxQueueBytes = s.maxQueueBytes := rfl

@[simp] theorem pushFrame_stats : (pushFrame s i type payload).stats = s.stats := rfl

@[simp] theorem pushFrame_trace :
    (pushFrame s i type payload).trace =
      s.trace ++ [.enqueued (s.clients i).conn ⟨type.toByte, payload⟩] := rfl

end Primitives

/-! ## Enqueuing -/

/-- `calloc` is reached and answers: the queue of the slot takes the payload. -/
def Accepts (s : Server) (i : Slot) (payload : Bytes) : Prop :=
  payload.length ≤ cwMaxPayloadSize ∧
    (s.clients i).queuedBytes + cwFrameHeaderSize + payload.length ≤ s.maxQueueBytes ∧
    s.heap 0 = true

instance (s : Server) (i : Slot) (payload : Bytes) : Decidable (Accepts s i payload) :=
  inferInstanceAs (Decidable (_ ∧ _ ∧ _))

theorem enqueuePayload_of_accepts {s : Server} {i : Slot} {type : ServerMsgType} {payload : Bytes}
    (h : Accepts s i payload) :
    enqueuePayload s i type payload =
      (true, pushFrame (s.setHeap fun n => s.heap (n + 1)) i type payload) := by
  obtain ⟨hlen, hroom, hheap⟩ := h
  simp only [enqueuePayload, if_neg (not_lt.mpr hlen), if_neg (not_lt.mpr hroom), hheap, if_true]

theorem enqueuePayload_of_not_accepts {s : Server} {i : Slot} (type : ServerMsgType)
    {payload : Bytes} (h : ¬ Accepts s i payload) :
    ∃ heap, enqueuePayload s i type payload =
      (false, (s.setHeap heap).emit (.refused (s.clients i).conn ⟨type.toByte, payload⟩)) := by
  unfold enqueuePayload
  simp only
  by_cases hlen : cwMaxPayloadSize < payload.length
  · exact ⟨s.heap, by rw [if_pos hlen]; rfl⟩
  · by_cases hroom : s.maxQueueBytes <
        (s.clients i).queuedBytes + cwFrameHeaderSize + payload.length
    · exact ⟨s.heap, by rw [if_neg hlen, if_pos hroom]; rfl⟩
    · have hheap : s.heap 0 = false := by
        by_contra hne
        exact h ⟨not_lt.mp hlen, not_lt.mp hroom, by simpa using hne⟩
      refine ⟨fun n => s.heap (n + 1), ?_⟩
      rw [if_neg hlen, if_neg hroom, hheap]
      rfl

theorem enqueueOrDisconnect_of_accepts {s : Server} {i : Slot} {type : ServerMsgType}
    {payload : Bytes} (h : Accepts s i payload) :
    enqueueOrDisconnect s i type payload =
      pushFrame (s.setHeap fun n => s.heap (n + 1)) i type payload := by
  simp only [enqueueOrDisconnect, enqueuePayload_of_accepts h]

theorem enqueueOrDisconnect_of_not_accepts {s : Server} {i : Slot} (type : ServerMsgType)
    {payload : Bytes} (h : ¬ Accepts s i payload) :
    ∃ heap, enqueueOrDisconnect s i type payload = overflowDisconnect
      ((s.setHeap heap).emit (.refused (s.clients i).conn ⟨type.toByte, payload⟩)) i := by
  obtain ⟨heap, hq⟩ := enqueuePayload_of_not_accepts type h
  exact ⟨heap, by simp only [enqueueOrDisconnect, hq]⟩

/-! ## The actions -/

/-- A valid user or channel name: 1 to 32 characters of `[A-Za-z0-9_.-]`. -/
def ValidName (name : Bytes) : Prop := cwValidName name 1 cwNameCap = true

theorem ValidName.length_le {name : Bytes} (h : ValidName name) : name.length ≤ cwNameCap :=
  (cwValidName_eq_true.mp h).2.1

theorem ValidName.ne_nil {name : Bytes} (h : ValidName name) : name ≠ [] := by
  rintro rfl
  exact absurd (cwValidName_eq_true.mp h).1 (by decide)

/-- What a handler is called for. -/
structure Request where
  slot : Slot
  type : UInt8
  payload : Bytes
  /-- The client when the handler was called. -/
  client : Client

/-- The request of a client. -/
def request (s : Server) (i : Slot) (type : UInt8) (payload : Bytes) : Request :=
  ⟨i, type, payload, s.clients i⟩

/-- The text that acknowledges a direct message. -/
def sentText : Bytes := ascii "direct message sent"

/-- The frames the handler of a request may enqueue to the client of a slot. -/
def Request.Emits (r : Request) (i : Slot) (type : ServerMsgType) (payload : Bytes) : Prop :=
  match type with
  | .chat => r.type = ClientMsgType.say.toByte ∧ r.client.registered = true ∧
    ∃ channel text, payload = ([channel, r.client.username, text].map stringField).flatten
  | .dmRecv => r.type = ClientMsgType.dm.toByte ∧ r.client.registered = true ∧
    ∃ text, payload = ([r.client.username, text].map stringField).flatten
  | .system => r.type = ClientMsgType.nick.toByte ∧ i ≠ r.slot
  | .ok => i = r.slot ∧ ∃ t : ClientMsgType, r.type = t.toByte ∧ (payload = sentText ↔ t = .dm)
  | .error => i = r.slot
  | .whoResp | .listResp | .statsResp => i = r.slot ∧ r.type ≠ ClientMsgType.dm.toByte

/-- The elementary actions of the handler of a request, with their guards. -/
inductive Action (r : Request) : Server → Server → Prop where
  /-- A frame is linked into the queue of a live client. -/
  | push {s : Server} {i : Slot} {type : ServerMsgType} {payload : Bytes} {heap : ℕ → Bool} :
      r.Emits i type payload → (s.clients i).Live → payload.length ≤ cwMaxPayloadSize →
      (s.clients i).queuedBytes + cwFrameHeaderSize + payload.length ≤ s.maxQueueBytes →
      Action r s (pushFrame (s.setHeap heap) i type payload)
  /-- A live client has no room for a frame and is disconnected. -/
  | drop {s : Server} {i : Slot} {type : ServerMsgType} {payload : Bytes} {heap : ℕ → Bool} :
      r.Emits i type payload → (s.clients i).Live →
      Action r s (overflowDisconnect
        ((s.setHeap heap).emit (.refused (s.clients i).conn ⟨type.toByte, payload⟩)) i)
  /-- The client takes the valid name of its request, which no other client has. -/
  | rename {s : Server} {name : Bytes} :
      r.type = ClientMsgType.hello.toByte ∨ r.type = ClientMsgType.nick.toByte →
      (s.clients r.slot).Live → readName r.payload cwNameCap = some name →
      usernameInUse s name r.slot = false →
      Action r s (s.setClient r.slot
        { s.clients r.slot with username := name, registered := true })
  /-- A valid name that is not in the channel table is appended to it. -/
  | openChannel {s : Server} {name : Bytes} : ValidName name → findChannel s name = none →
      s.channels.length < cwMaxChannels → Action r s (s.setChannels (s.channels ++ [name]))
  /-- The client, registered, joins a channel and makes it its active one. -/
  | join {s : Server} {idx : ℕ} {name : Bytes} : (s.clients r.slot).Live →
      (s.clients r.slot).registered = true → s.channels[idx]? = some name →
      name.length ≤ cwNameCap →
      Action r s (s.setClient r.slot { s.clients r.slot with
        joined := Function.update (s.clients r.slot).joined idx true, activeChannel := name })
  /-- The client makes a channel it has joined its active one. -/
  | switch {s : Server} {idx : ℕ} {name : Bytes} : (s.clients r.slot).Live →
      s.channels[idx]? = some name → (s.clients r.slot).joined idx = true →
      name.length ≤ cwNameCap →
      Action r s (s.setClient r.slot { s.clients r.slot with activeChannel := name })
  /-- The client leaves a channel; it keeps its active channel unless it left that one. -/
  | leave {s : Server} {idx : ℕ} {name : Bytes} : (s.clients r.slot).Live →
      s.channels[idx]? = some name →
      Action r s (s.setClient r.slot { s.clients r.slot with
        joined := Function.update (s.clients r.slot).joined idx false
        activeChannel := if (s.clients r.slot).activeChannel = name then []
          else (s.clients r.slot).activeChannel })
  /-- A counter of messages or malformed frames goes up. -/
  | count {s : Server} {stats : ServerStats} :
      stats.currentConnections = s.stats.currentConnections →
      stats.totalConnections = s.stats.totalConnections → Action r s (s.setStats stats)
  /-- A live client is disconnected, on its own request or because it has no room. -/
  | quit {s : Server} {i : Slot} {reason : Reason} : (s.clients i).Live →
      i = r.slot ∧ reason = .clientQuit ∨ reason = .queueOverflow →
      Action r s (disconnectClient s i reason)
  /-- A text of the client is accepted; it is meant for live clients. -/
  | announce {s : Server} (entry : ChatEntry) (members : List ℕ) :
      r.type = ClientMsgType.say.toByte → entry.sender = r.client.username →
      (s.clients r.slot).Live →
      (∀ k ∈ members, ∃ j, (s.clients j).Live ∧ (s.clients j).conn = k) →
      Action r s (s.emit (.said (s.clients r.slot).conn entry members))

/-- A sequence of actions. -/
abbrev Actions (r : Request) : Server → Server → Prop := Relation.ReflTransGen (Action r)

/-- What the trace says of a client without room. -/
theorem drop_trace {s : Server} {i : Slot} {heap : ℕ → Bool} {frame : Frame}
    (hl : (s.clients i).Live) :
    (overflowDisconnect ((s.setHeap heap).emit (.refused (s.clients i).conn frame)) i).trace =
      s.trace ++ ([.refused (s.clients i).conn frame] ++
        [.closed (s.clients i).conn .queueOverflow]) := by
  rw [overflowDisconnect_trace ((s.setHeap heap).emit (.refused (s.clients i).conn frame)) i hl,
    Server.emit_trace, List.append_assoc]
  rfl

/-! ## The handlers as actions -/

section Requests

variable {r : Request}

theorem enqueueOrDisconnect_action {s : Server} {i : Slot} {type : ServerMsgType}
    {payload : Bytes} (htype : r.Emits i type payload) (hl : (s.clients i).Live) :
    Action r s (enqueueOrDisconnect s i type payload) := by
  by_cases h : Accepts s i payload
  · rw [enqueueOrDisconnect_of_accepts h]
    exact .push htype hl h.1 h.2.1
  · obtain ⟨heap, hq⟩ := enqueueOrDisconnect_of_not_accepts type h
    rw [hq]
    exact .drop htype hl

theorem safeEnqueueText_actions {s : Server} {i : Slot} {type : ServerMsgType} {text : Bytes}
    (htype : r.Emits i type text) (hl : (s.clients i).Live) :
    Actions r s (safeEnqueueText s i type text) := .single (enqueueOrDisconnect_action htype hl)

theorem error_actions {s : Server} {text : Bytes} (hl : (s.clients r.slot).Live) :
    Actions r s (safeEnqueueText s r.slot .error text) := safeEnqueueText_actions rfl hl

theorem ok_actions {s : Server} {text : Bytes} {t : ClientMsgType} (hr : r.type = t.toByte)
    (htext : text = sentText ↔ t = .dm) (hl : (s.clients r.slot).Live) :
    Actions r s (safeEnqueueText s r.slot .ok text) := safeEnqueueText_actions ⟨rfl, t, hr, htext⟩ hl

/-- A loop of turns each of which is a sequence of actions. -/
theorem foldl_actions {body : Server → Slot → Server} (hbody : ∀ s i, Actions r s (body s i))
    (l : List Slot) (s : Server) : Actions r s (l.foldl body s) := by
  induction l generalizing s with
  | nil => exact .refl
  | cons i l ih => exact (hbody s i).trans (ih (body s i))

theorem systemTurn_actions (hr : r.type = ClientMsgType.nick.toByte) (idx : ℕ) (text : Bytes)
    (s : Server) (i : Slot) : Actions r s (systemTurn r.slot idx text s i) := by
  unfold systemTurn
  split_ifs with h
  · exact safeEnqueueText_actions ⟨hr, h.1⟩ (Client.isMember_iff.mp h.2).1
  · exact .refl

theorem broadcastSystem_actions (hr : r.type = ClientMsgType.nick.toByte) (s : Server)
    (text : Bytes) : Actions r s (broadcastSystemToActiveChannel s r.slot text) := by
  unfold broadcastSystemToActiveChannel
  split
  · exact .refl
  · exact foldl_actions (systemTurn_actions hr _ text) slots s

theorem chatTurn_actions {payload : Bytes} (hr : ∀ i, r.Emits i .chat payload) (idx : ℕ)
    (s : Server) (i : Slot) : Actions r s (chatTurn idx payload s i) := by
  unfold chatTurn
  split_ifs with h
  · exact .single (enqueueOrDisconnect_action (hr i) (Client.isMember_iff.mp h).1)
  · exact .refl

theorem countChat_action (s : Server) :
    Action r s (s.setStats { s.stats with channelMessages := s.stats.channelMessages + 1 }) :=
  .count rfl rfl

theorem countDm_action (s : Server) :
    Action r s (s.setStats { s.stats with directMessages := s.stats.directMessages + 1 }) :=
  .count rfl rfl

end Requests

theorem mem_members {s : Server} {idx : ℕ} {i : Slot} :
    i ∈ members s idx ↔ (s.clients i).Live ∧ (s.clients i).registered = true ∧
      (s.clients i).joined idx = true := by
  rw [members, List.mem_filter, Client.isMember_iff]
  exact and_iff_right (mem_slots i)

theorem mem_memberConns {s : Server} {idx k : ℕ} :
    k ∈ memberConns s idx ↔ ∃ i ∈ members s idx, (s.clients i).conn = k := List.mem_map

/-- The record of an accepted text, as an action. -/
theorem announce_action {s : Server} {sender : Slot} (payload : Bytes) (idx : ℕ)
    (entry : ChatEntry) (hsender : entry.sender = (s.clients sender).username)
    (hl : (s.clients sender).Live) :
    Action (request s sender ClientMsgType.say.toByte payload) s (announce s sender idx entry) := by
  refine .announce (r := request s sender ClientMsgType.say.toByte payload) _ _ rfl hsender hl
    fun k hk => ?_
  obtain ⟨j, hj, hjk⟩ := mem_memberConns.mp hk
  exact ⟨j, (mem_members.mp hj).1, hjk⟩

theorem chatLoop_actions {r : Request} {payload : Bytes} (hr : ∀ i, r.Emits i .chat payload)
    (s : Server) (idx : ℕ) : Actions r s (chatLoop s idx payload) :=
  foldl_actions (chatTurn_actions hr idx) slots s

theorem broadcastChat_actions {s : Server} {sender : Slot} (payload text : Bytes)
    (hreg : (s.clients sender).registered = true) (hl : (s.clients sender).Live) :
    Actions (request s sender ClientMsgType.say.toByte payload) s
      (broadcastChat s sender text) := by
  unfold broadcastChat
  simp only
  split
  · exact safeEnqueueText_actions rfl hl
  · split
    · exact safeEnqueueText_actions rfl hl
    · next chat hwrite =>
      have hchat := (cwWriteStrings_eq_some hwrite).1
      rw [List.nil_append] at hchat
      exact .tail (.head (announce_action _ _ _ rfl hl)
        (chatLoop_actions (fun _ => ⟨rfl, hreg, _, _, hchat⟩) _ _)) (countChat_action _)

/-- What `readName` accepts is a valid name, and `snprintf` stores it whole. -/
theorem readName_eq_some {payload name : Bytes} {cap : ℕ} (h : readName payload cap = some name) :
    readOneStringPayload payload (cap + 1) = some name ∧ cwValidName name 1 cap = true ∧
      snprintf (cap + 1) name = name := by
  unfold readName at h
  cases hr : readOneStringPayload payload (cap + 1) with
  | none => simp [hr] at h
  | some out =>
    simp only [hr] at h
    split_ifs at h with hv
    obtain rfl := Option.some.inj h
    refine ⟨rfl, hv, ?_⟩
    rw [snprintf, List.take_of_length_le]
    have hle := (cwValidName_eq_true.mp hv).2.1
    omega

theorem handleHello_actions {r : Request} {s : Server} (hr : r.type = ClientMsgType.hello.toByte)
    (hl : (s.clients r.slot).Live) : Actions r s (handleHello s r.slot r.payload) := by
  unfold handleHello
  cases hname : readName r.payload cwNameCap with
  | none => exact error_actions hl
  | some name =>
    obtain ⟨-, -, hs⟩ := readName_eq_some hname
    simp only [hs]
    split_ifs with hu
    · exact error_actions hl
    · refine .head (.rename (.inl hr) hl hname (by simpa using hu))
        (ok_actions hr (iff_of_false (by decide) (by decide)) ?_)
      rw [Server.setClient_self]
      exact hl

theorem findChannel_eq_some {s : Server} {name : Bytes} {idx : ℕ}
    (h : findChannel s name = some idx) : s.channels[idx]? = some name := by
  obtain ⟨hlt, hp, -⟩ := List.findIdx?_eq_some_iff_getElem.mp h
  rw [List.getElem?_eq_getElem hlt]
  exact congrArg some (by simpa using hp)

theorem findChannel_eq_none_iff {s : Server} {name : Bytes} :
    findChannel s name = none ↔ name ∉ s.channels := by
  rw [findChannel, List.findIdx?_eq_none_iff]
  constructor
  · intro h hm
    simpa using h name hm
  · intro h ch hch
    have hne : ch ≠ name := by
      rintro rfl
      exact h hch
    simpa using hne

@[simp] theorem ensureChannel_clients (s : Server) (name : Bytes) :
    (ensureChannel s name).2.clients = s.clients := by
  unfold ensureChannel
  split
  · rfl
  · split_ifs <;> rfl

/-- The text of an `OK` that names a channel acknowledges no direct message. -/
theorem channelText_ne_sentText {word channel : Bytes} (hword : ∃ b ∈ word.head?, b ≠ 100) :
    snprintf 96 (word ++ channel) ≠ sentText := by
  obtain ⟨b, hb, hne⟩ := hword
  obtain ⟨rest, rfl⟩ := List.head?_eq_some_iff.mp hb
  intro h
  exact hne (List.cons.inj h).1

theorem joinChannel_actions {r : Request} {s : Server} (payload : Bytes)
    (hr : r.type = ClientMsgType.join.toByte) (hl : (s.clients r.slot).Live) :
    Actions r s (joinChannel s r.slot payload true) := by
  unfold joinChannel
  by_cases hreg : (s.clients r.slot).registered = false
  · rw [if_pos hreg]
    exact error_actions hl
  · rw [if_neg hreg]
    have hreg' : (s.clients r.slot).registered = true := by simpa using hreg
    cases hname : readName payload cwChannelCap with
    | none => exact error_actions hl
    | some name =>
      obtain ⟨-, hv, hs⟩ := readName_eq_some hname
      have hlen : name.length ≤ cwNameCap := (cwValidName_eq_true.mp hv).2.1
      simp only [ensureChannel, hs, if_true]
      cases hf : findChannel s name with
      | some idx =>
        refine .head (.join hl hreg' (findChannel_eq_some hf) hlen)
          (ok_actions hr (iff_of_false (channelText_ne_sentText ⟨106, rfl, by decide⟩) (by decide)) ?_)
        rw [Server.setClient_self]
        exact hl
      | none =>
        simp only
        split_ifs with hfull
        · exact error_actions hl
        · refine .head (.openChannel hv hf (not_le.mp hfull)) (.head
            (.join hl hreg' (List.getElem?_concat_length ..) hlen)
            (ok_actions hr (iff_of_false (channelText_ne_sentText ⟨106, rfl, by decide⟩) (by decide)) ?_))
          rw [Server.setClient_self]
          exact hl

/-- `find_channel` followed by the test of `joined`. -/
theorem findChannel_filter_eq_some {s : Server} {name : Bytes} {p : ℕ → Bool} {idx : ℕ}
    (h : (findChannel s name).filter p = some idx) :
    s.channels[idx]? = some name ∧ p idx = true := by
  obtain ⟨hf, hp⟩ := Option.filter_eq_some_iff.mp h
  exact ⟨findChannel_eq_some hf, hp⟩

theorem switchChannel_actions {r : Request} {s : Server} (payload : Bytes)
    (hr : r.type = ClientMsgType.switch.toByte) (hl : (s.clients r.slot).Live) :
    Actions r s (switchChannel s r.slot payload) := by
  unfold switchChannel
  split_ifs with hreg
  · exact error_actions hl
  · cases hname : readName payload cwChannelCap with
    | none => exact error_actions hl
    | some name =>
      obtain ⟨-, hv, hs⟩ := readName_eq_some hname
      simp only [hs]
      cases hf : (findChannel s name).filter (s.clients r.slot).joined with
      | none => exact error_actions hl
      | some idx =>
        obtain ⟨hi, hj⟩ := findChannel_filter_eq_some hf
        refine .head (.switch hl hi hj (cwValidName_eq_true.mp hv).2.1)
          (ok_actions hr (iff_of_false (channelText_ne_sentText ⟨115, rfl, by decide⟩) (by decide)) ?_)
        rw [Server.setClient_self]
        exact hl

theorem leaveChannel_actions {r : Request} {s : Server} (payload : Bytes)
    (hr : r.type = ClientMsgType.leave.toByte) (hl : (s.clients r.slot).Live) :
    Actions r s (leaveChannel s r.slot payload) := by
  unfold leaveChannel
  cases hname : readName payload cwChannelCap with
  | none => exact error_actions hl
  | some name =>
    simp only
    cases hf : (findChannel s name).filter (s.clients r.slot).joined with
    | none => exact error_actions hl
    | some idx =>
      refine .head (.leave hl (findChannel_filter_eq_some hf).1)
        (ok_actions hr (iff_of_false (by decide) (by decide)) ?_)
      rw [Server.setClient_self]
      exact hl

theorem findUser_eq_some {s : Server} {name : Bytes} {t : Slot} (h : findUser s name = some t) :
    (s.clients t).Live ∧ (s.clients t).registered = true ∧ (s.clients t).username = name := by
  have hp := List.find?_some (p := fun i => decide ((s.clients i).Live ∧
    (s.clients i).registered = true ∧ (s.clients i).username = name)) h
  exact of_decide_eq_true hp

theorem overflowDisconnect_actions {r : Request} {s : Server} {i : Slot}
    (hl : (s.clients i).Live) : Actions r s (overflowDisconnect s i) := by
  refine .head (b := s.setStats { s.stats with queueDisconnects := s.stats.queueDisconnects + 1 })
    (.count rfl rfl) (.single ?_)
  exact .quit hl (.inr rfl)

theorem handleDm_actions {s : Server} {i : Slot} (payload : Bytes) (hl : (s.clients i).Live) :
    Actions (request s i ClientMsgType.dm.toByte payload) s (handleDm s i payload) := by
  unfold handleDm
  split_ifs with hreg
  · exact error_actions hl
  · have hreg' : (s.clients i).registered = true := by simpa using hreg
    cases hr : readDmPayload payload with
    | none => exact error_actions hl
    | some tt =>
      obtain ⟨targetName, text⟩ := tt
      simp only
      cases hu : findUser s targetName with
      | none => exact error_actions hl
      | some t =>
        have hlt := (findUser_eq_some hu).1
        simp only [enqueueStrings]
        cases hp : cwWriteStrings cwMaxPayloadSize [] [(s.clients i).username, text] with
        | none => exact overflowDisconnect_actions hlt
        | some p =>
          have hpayload := (cwWriteStrings_eq_some hp).1
          rw [List.nil_append] at hpayload
          have hemits : (request s i ClientMsgType.dm.toByte payload).Emits t .dmRecv p :=
            ⟨rfl, hreg', text, hpayload⟩
          simp only
          by_cases ha : Accepts s t p
          · simp only [enqueuePayload_of_accepts ha]
            refine .head (.push hemits hlt ha.1 ha.2.1) (.head (countDm_action _)
              (ok_actions (t := .dm) rfl (iff_of_true rfl rfl) ?_))
            show (Function.update s.clients t _ i).Live
            rcases eq_or_ne i t with rfl | hit
            · rwa [Function.update_self]
            · rwa [Function.update_of_ne hit]
          · obtain ⟨heap, hq⟩ := enqueuePayload_of_not_accepts .dmRecv ha
            simp only [hq]
            exact .single (.drop hemits hlt)

theorem handleNick_actions {r : Request} {s : Server} (hr : r.type = ClientMsgType.nick.toByte)
    (hl : (s.clients r.slot).Live) : Actions r s (handleNick s r.slot r.payload) := by
  unfold handleNick
  cases hname : readName r.payload cwNameCap with
  | none => exact error_actions hl
  | some name =>
    obtain ⟨-, -, hs⟩ := readName_eq_some hname
    simp only [hs]
    split_ifs with hu
    · exact error_actions hl
    all_goals
      refine .head (.rename (.inr hr) hl hname (by simpa using hu))
        (.trans (ok_actions hr (iff_of_false (by decide) (by decide)) ?_)
          (broadcastSystem_actions hr _ _))
      rw [Server.setClient_self]
      exact hl

theorem sendWho_actions {r : Request} {s : Server} (hr : r.type ≠ ClientMsgType.dm.toByte)
    (hl : (s.clients r.slot).Live) : Actions r s (sendWho s r.slot) := by
  unfold sendWho
  split
  · exact error_actions hl
  · split
    · exact error_actions hl
    · exact safeEnqueueText_actions ⟨rfl, hr⟩ hl

theorem sendList_actions {r : Request} {s : Server} (hr : r.type ≠ ClientMsgType.dm.toByte)
    (hl : (s.clients r.slot).Live) : Actions r s (sendList s r.slot) := by
  unfold sendList
  split
  · exact error_actions hl
  · exact safeEnqueueText_actions ⟨rfl, hr⟩ hl

theorem sendStats_actions {r : Request} {s : Server} (hr : r.type ≠ ClientMsgType.dm.toByte)
    (hl : (s.clients r.slot).Live) : Actions r s (sendStats s r.slot) := by
  unfold sendStats
  simp only
  split_ifs
  · exact error_actions hl
  · exact safeEnqueueText_actions ⟨rfl, hr⟩ hl

theorem handleSay_actions {s : Server} {i : Slot} (payload : Bytes) (hl : (s.clients i).Live) :
    Actions (request s i ClientMsgType.say.toByte payload) s (handleSay s i payload) := by
  unfold handleSay
  split_ifs with hreg
  · exact error_actions hl
  · exact error_actions hl
  · split
    · exact error_actions hl
    · exact broadcastChat_actions _ _ (by simpa using hreg) hl

/-- **The handlers as actions.** -/
theorem handleFrame_actions {s : Server} {i : Slot} (type : UInt8) (payload : Bytes)
    (hl : (s.clients i).Live) :
    Actions (request s i type payload) s (handleFrame s i type payload) := by
  unfold handleFrame
  cases ht : ClientMsgType.ofByte type with
  | none => exact error_actions hl
  | some t =>
    obtain rfl := ClientMsgType.ofByte_eq_some.mp ht
    cases t with
    | hello => exact handleHello_actions (r := request s i _ payload) rfl hl
    | join => exact joinChannel_actions (r := request s i _ payload) payload rfl hl
    | switch => exact switchChannel_actions (r := request s i _ payload) payload rfl hl
    | leave => exact leaveChannel_actions (r := request s i _ payload) payload rfl hl
    | say => exact handleSay_actions payload hl
    | dm => exact handleDm_actions payload hl
    | who =>
      have hne : ClientMsgType.who.toByte ≠ ClientMsgType.dm.toByte := by decide
      exact sendWho_actions (r := request s i _ payload) hne hl
    | list =>
      have hne : ClientMsgType.list.toByte ≠ ClientMsgType.dm.toByte := by decide
      exact sendList_actions (r := request s i _ payload) hne hl
    | nick => exact handleNick_actions (r := request s i _ payload) rfl hl
    | quit => exact .single (.quit hl (.inl ⟨rfl, rfl⟩))
    | stats =>
      have hne : ClientMsgType.stats.toByte ≠ ClientMsgType.dm.toByte := by decide
      exact sendStats_actions (r := request s i _ payload) hne hl

/-- The answer to a rejected header goes to the connection it came from. -/
theorem rejectHeader_actions {s : Server} {i : Slot} (hl : (s.clients i).Live) :
    Actions (request s i 0 []) ((s.setStats
      { s.stats with malformedFrames := s.stats.malformedFrames + 1 }).emit
        (.malformed (s.clients i).conn)) (rejectHeader s i) :=
  error_actions (r := request s i 0 []) hl

/-! ## Moves -/

/-- What the steps of the server are made of: the actions of the handlers, and what the event
loop does between them. -/
inductive Move : Server → Server → Prop where
  | act {r : Request} {s t : Server} : Action r s t → Move s t
  /-- A connection gets a free slot. -/
  | accept {s : Server} {slot : Slot} {fd : ℕ} : ¬ (s.clients slot).Live → FreshFd s fd →
      Move s (occupySlot s slot fd)
  /-- Bytes arrive. -/
  | receive {s : Server} {i : Slot} {chunk : Bytes} : (s.clients i).Live → chunk ≠ [] →
      (s.clients i).inbuf.length + chunk.length ≤ cwInbufCap → Move s (recvChunk s i chunk)
  /-- A frame is handed to `handle_frame`. -/
  | handle {s : Server} {i : Slot} {frame : Frame} : (s.clients i).Live →
      Move s (s.emit (.handled (s.clients i).conn frame))
  /-- A header is rejected. -/
  | malformed {s : Server} {i : Slot} : (s.clients i).Live →
      Move s (s.emit (.malformed (s.clients i).conn))
  /-- `memmove` of the input buffer. -/
  | shift {s : Server} {i : Slot} {n : ℕ} : (s.clients i).Live →
      Move s (s.setClient i { s.clients i with inbuf := (s.clients i).inbuf.drop n })
  /-- `send` takes bytes of the first frame. -/
  | send {s : Server} {i : Slot} {n : ℕ} {frame : OutFrame} {rest : List OutFrame} :
      (s.clients i).Live → (s.clients i).out.toList = frame :: rest → 0 < n →
      n ≤ frame.len - frame.sent → Move s (takeSent s i n)
  /-- The event loop gives up on a connection. -/
  | disconnect {s : Server} {i : Slot} {reason : Reason} : (s.clients i).Live →
      Move s (disconnectClient s i reason)

/-- `send` took `n` bytes of the first frame: the frame stays, with these bytes sent, unless
they were its last ones. -/
theorem takeSent_clients {s : Server} {i : Slot} {n : ℕ} {frame : OutFrame}
    {rest : List OutFrame} (h : (s.clients i).out.toList = frame :: rest) :
    ∃ out queuedBytes, (takeSent s i n).clients = Function.update s.clients i
        { s.clients i with out := out, queuedBytes := queuedBytes } ∧
      ((frame.sent + n = frame.len ∧ out.toList = rest ∧
          queuedBytes = (s.clients i).queuedBytes - frame.len) ∨
        (frame.sent + n ≠ frame.len ∧
          out.toList = { frame with sent := frame.sent + n } :: rest ∧
          queuedBytes = (s.clients i).queuedBytes)) := by
  simp only [takeSent, h]
  split_ifs with hlen
  · exact ⟨_, _, rfl, .inl ⟨hlen, by simp [h], rfl⟩⟩
  · exact ⟨_, _, rfl, .inr ⟨hlen, by simp [h], rfl⟩⟩

theorem takeSent_trace {s : Server} {i : Slot} {n : ℕ} {frame : OutFrame}
    {rest : List OutFrame} (h : (s.clients i).out.toList = frame :: rest) :
    (takeSent s i n).trace =
      s.trace ++ [.sent (s.clients i).conn ((frame.data.drop frame.sent).take n)] := by
  simp only [takeSent, h]
  split_ifs <;> rfl

@[simp] theorem takeSent_channels (s : Server) (i : Slot) (n : ℕ) :
    (takeSent s i n).channels = s.channels := by
  unfold takeSent
  simp only
  split
  · rfl
  · split_ifs <;> rfl

@[simp] theorem takeSent_maxQueueBytes (s : Server) (i : Slot) (n : ℕ) :
    (takeSent s i n).maxQueueBytes = s.maxQueueBytes := by
  unfold takeSent
  simp only
  split
  · rfl
  · split_ifs <;> rfl

@[simp] theorem takeSent_stats (s : Server) (i : Slot) (n : ℕ) :
    (takeSent s i n).stats = s.stats := by
  unfold takeSent
  simp only
  split
  · rfl
  · split_ifs <;> rfl

theorem Actions.moves {r : Request} {s t : Server} (h : Actions r s t) :
    Relation.ReflTransGen Move s t := Relation.ReflTransGen.mono (fun _ _ hab => .act hab) _ _ h

theorem rejectHeader_moves {s : Server} {i : Slot} (hl : (s.clients i).Live) :
    Relation.ReflTransGen Move s (rejectHeader s i) := by
  have hcount : Action (request s i 0 []) s (s.setStats
      { s.stats with malformedFrames := s.stats.malformedFrames + 1 }) := .count rfl rfl
  exact .head (.act hcount) (.head (.malformed hl) (rejectHeader_actions hl).moves)

theorem serveFrame_moves {s : Server} {i : Slot} (frame : Frame) (n : ℕ)
    (hl : (s.clients i).Live) : Relation.ReflTransGen Move s (serveFrame s i frame n).2 := by
  have hhandled := (handleFrame_actions (s := s.emit (.handled (s.clients i).conn frame))
    frame.type frame.payload hl).moves
  unfold serveFrame
  simp only
  split_ifs with hlive
  · exact .head (.handle hl) (hhandled.tail (.shift hlive))
  · exact .head (.handle hl) hhandled

theorem drainTurn_moves {s : Server} {i : Slot} (hl : (s.clients i).Live) :
    Relation.ReflTransGen Move s (drainTurn s i).2 := by
  rw [drainTurn_eq]
  split
  · exact .refl
  · exact rejectHeader_moves hl
  · exact serveFrame_moves _ _ hl

/-- **Every step is a sequence of moves.** -/
theorem Step.moves {s t : Server} (h : Step s t) : Relation.ReflTransGen Move s t := by
  cases h with
  | accept hfd =>
    rename_i fd nonblocking
    unfold acceptConnection
    cases hs : (freeSlot s).filter fun _ => nonblocking with
    | none => exact .refl
    | some slot =>
      have hslot := List.find?_some (Option.filter_eq_some_iff.mp hs).1
      exact .single (.accept (of_decide_eq_true hslot) hfd)
  | recv hl hne hcap => exact .single (.receive hl hne hcap)
  | drain hl => exact drainTurn_moves hl
  | send hl hout hn hle => exact .single (.send hl hout hn hle)
  | disconnect hl => exact .single (.disconnect hl)

/-- The server with moves for steps. -/
def moveSystem : Transition.System Server where
  init := system.init
  step := Move

/-- The states between two moves; some of them lie in the middle of a handler. -/
abbrev MoveReachable (s : Server) : Prop := Transition.Reachable moveSystem s

theorem Reachable.moveReachable {s : Server} (h : Reachable s) : MoveReachable s := by
  induction h with
  | init h => exact .init h
  | step _ hst ih => exact ih.trans (Step.moves hst)

/-- A property of the start that every move preserves holds between any two moves. -/
theorem MoveReachable.invariant {P : Server → Prop}
    (hinit : ∀ maxQueueBytes heap, 0 < maxQueueBytes → P (Server.initial maxQueueBytes heap))
    (hmove : ∀ s t, MoveReachable s → P s → Move s t → P t) {s : Server} (h : MoveReachable s) :
    P s := by
  refine Transition.Reachable.invariant ?_ hmove h
  rintro _ ⟨maxQueueBytes, heap, hq, rfl⟩
  exact hinit maxQueueBytes heap hq

/-- What holds of every client and of the new value of one slot holds of every client after. -/
theorem forall_update {P : Client → Prop} {clients : Slot → Client} {i : Slot} {c : Client}
    (h : ∀ j, P (clients j)) (hc : P c) (j : Slot) : P (Function.update clients i c j) := by
  rcases eq_or_ne j i with rfl | hj
  · rwa [Function.update_self]
  · rw [Function.update_of_ne hj]
    exact h j

/-- A change of one client that an observation of clients does not see. -/
theorem observe_update {α : Type*} (observe : Client → α) (clients : Slot → Client) {i : Slot}
    {c : Client} (h : observe c = observe (clients i)) (j : Slot) :
    observe (Function.update clients i c j) = observe (clients j) := by
  rcases eq_or_ne j i with rfl | hj
  · rw [Function.update_self, h]
  · rw [Function.update_of_ne hj]

end Core
end ChannelWire
