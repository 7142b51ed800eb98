import ChannelWire.Core.Endings
import ChannelWire.Core.Runs

/-!
# Message bodies do not leak

Two runs of the server on one schedule: the same connections are accepted, `recv` returns chunks
of the same lengths, `send` takes as many bytes.  What the clients send differs in some texts
that are not meant for connection `k`.  Then connection `k` cannot tell the runs apart, and neither
do names, memberships, channels or counters.

`Alike k` relates the states of such runs: they differ in bytes of input buffers, in bytes of
frames on their way to others than `k`, and in what the trace says of these.  No branch of the
server looks at any of them, only at their lengths.

## Results

- `Alike.handleFrame`: two frames that are equal but for such a text (`SameButText`) lead alike
  states to alike states.
- `Alike.drainTurn`: a turn of `drain_input` ends or goes on in both servers, and leaves alike
  states.
- `twoRuns_alike`: at every point of two runs on one schedule the states are alike.
- `bodies_do_not_leak`: connection `k` was sent the same frames, and the tables are the same.
- `TwoCalls.together`, `calls_do_not_leak`: the same call by call, where only what `recv` returns is
  given for both servers; that both take the same turns is proved (`Together.drainInput`).
-/

namespace ChannelWire
namespace Core

open LinkedQueue

/-! ## Alike states -/

/-- What a queued frame is without its bytes: how long it is, and how much of it was sent. -/
def OutFrame.shape (f : OutFrame) : ℕ × ℕ := (f.len, f.sent)

/-- Two clients that differ in the bytes of their buffer and queue only. -/
structure Client.Alike (c d : Client) : Prop where
  fd : c.fd = d.fd
  registered : c.registered = d.registered
  username : c.username = d.username
  activeChannel : c.activeChannel = d.activeChannel
  joined : c.joined = d.joined
  inbuf : c.inbuf.length = d.inbuf.length
  out : c.out.toList.map OutFrame.shape = d.out.toList.map OutFrame.shape
  queuedBytes : c.queuedBytes = d.queuedBytes
  conn : c.conn = d.conn

/-- Two states that differ in such bytes only, and not in what was enqueued to connection `k`. -/
structure Alike (k : ℕ) (s t : Server) : Prop where
  clients : ∀ i, (s.clients i).Alike (t.clients i)
  channels : s.channels = t.channels
  maxQueueBytes : s.maxQueueBytes = t.maxQueueBytes
  stats : s.stats = t.stats
  heap : s.heap = t.heap
  output : enqueuedTo k s.trace = enqueuedTo k t.trace

namespace Client.Alike

variable {c d : Client}

theorem refl (c : Client) : c.Alike c := ⟨rfl, rfl, rfl, rfl, rfl, rfl, rfl, rfl, rfl⟩

theorem live_iff (h : c.Alike d) : c.Live ↔ d.Live := by rw [Live, Live, h.fd]

theorem isMember (h : c.Alike d) (idx : ℕ) : c.isMember idx = d.isMember idx := by
  rw [Client.isMember, Client.isMember, h.registered, h.joined, decide_eq_decide.mpr h.live_iff]

theorem reset (c d : Client) : c.reset.Alike d.reset := by
  refine ⟨rfl, rfl, rfl, rfl, rfl, rfl, ?_, rfl, rfl⟩
  rw [toList_reset, toList_reset]

/-- A frame of the same length is linked behind each queue. -/
theorem push (h : c.Alike d) (type : ServerMsgType) {p p' : Bytes} (hlen : p.length = p'.length) :
    Client.Alike
      { c with
        out := c.out.push (OutFrame.make type p)
        queuedBytes := c.queuedBytes + (OutFrame.make type p).len }
      { d with
        out := d.out.push (OutFrame.make type p')
        queuedBytes := d.queuedBytes + (OutFrame.make type p').len } := by
  have hframe : (OutFrame.make type p).shape = (OutFrame.make type p').shape := by
    rw [OutFrame.make, OutFrame.make, OutFrame.shape, OutFrame.shape, hlen]
  refine { h with out := ?_, queuedBytes := ?_ }
  · simp only [Queue.toList_push, List.map_append, h.out, List.map_cons, List.map_nil, hframe]
  · show c.queuedBytes + (OutFrame.make type p).shape.1 = d.queuedBytes + (OutFrame.make type p').shape.1
    rw [h.queuedBytes, hframe]

end Client.Alike

namespace Alike

variable {k : ℕ} {s t : Server} {i : Slot}

theorem refl (k : ℕ) (s : Server) : Alike k s s := ⟨fun _ => .refl _, rfl, rfl, rfl, rfl, rfl⟩

theorem live_iff (h : Alike k s t) (i : Slot) : (s.clients i).Live ↔ (t.clients i).Live :=
  (h.clients i).live_iff

theorem setClient (h : Alike k s t) {c d : Client} (hc : c.Alike d) :
    Alike k (s.setClient i c) (t.setClient i d) := by
  refine { h with clients := fun j => ?_ }
  rw [Server.setClient_clients, Server.setClient_clients]
  rcases eq_or_ne j i with rfl | hne
  · rw [Function.update_self, Function.update_self]
    exact hc
  · rw [Function.update_of_ne hne, Function.update_of_ne hne]
    exact h.clients j

theorem setStats (h : Alike k s t) (f : ServerStats → ServerStats) :
    Alike k (s.setStats (f s.stats)) (t.setStats (f t.stats)) :=
  { h with stats := congrArg f h.stats }

theorem setHeap (h : Alike k s t) (heap : ℕ → Bool) : Alike k (s.setHeap heap) (t.setHeap heap) :=
  { h with heap := rfl }

theorem setChannels (h : Alike k s t) (channels : List Bytes) :
    Alike k (s.setChannels channels) (t.setChannels channels) :=
  { h with channels := rfl }

theorem emit (h : Alike k s t) {e e' : Effect} (he : e.enqueuedTo k = e'.enqueuedTo k) :
    Alike k (s.emit e) (t.emit e') := by
  refine { h with output := ?_ }
  rw [Server.emit_trace, Server.emit_trace, enqueuedTo, enqueuedTo, List.flatMap_append,
    List.flatMap_append, List.flatMap_singleton, List.flatMap_singleton, he]
  exact congrArg (· ++ _) h.output

/-! ### Closing and enqueuing -/

theorem resetClient (h : Alike k s t) (i : Slot) :
    Alike k (resetClient s i) (resetClient t i) := by
  unfold Core.resetClient
  by_cases hl : (s.clients i).Live
  · simp only [if_pos hl, if_pos ((h.live_iff i).mp hl)]
    exact (h.setStats fun st => { st with currentConnections := st.currentConnections - 1 }).setClient
      (.reset _ _)
  · simp only [if_neg hl, if_neg (mt (h.live_iff i).mpr hl)]
    exact h.setClient (.reset _ _)

theorem disconnectClient (h : Alike k s t) (i : Slot) (r : Reason) :
    Alike k (disconnectClient s i r) (disconnectClient t i r) := by
  unfold Core.disconnectClient
  by_cases hl : (s.clients i).Live
  · simp only [if_pos hl, if_pos ((h.live_iff i).mp hl)]
    have hclosed : Alike k (s.emit (.closed (s.clients i).conn r))
        (t.emit (.closed (t.clients i).conn r)) := h.emit rfl
    exact hclosed.resetClient i
  · simp only [if_neg hl, if_neg (mt (h.live_iff i).mpr hl)]
    exact h.resetClient i

theorem overflowDisconnect (h : Alike k s t) (i : Slot) :
    Alike k (overflowDisconnect s i) (overflowDisconnect t i) :=
  (h.setStats fun st => { st with queueDisconnects := st.queueDisconnects + 1 }).disconnectClient i _

/-- A payload of the same length, and the same one for connection `k`. -/
theorem enqueuePayload (h : Alike k s t) (i : Slot) (type : ServerMsgType) {p p' : Bytes}
    (hlen : p.length = p'.length) (hsame : (s.clients i).conn = k → p = p') :
    (enqueuePayload s i type p).1 = (enqueuePayload t i type p').1 ∧
      Alike k (enqueuePayload s i type p).2 (enqueuePayload t i type p').2 := by
  have hrefused : Alike k (s.emit (.refused (s.clients i).conn ⟨type.toByte, p⟩))
      (t.emit (.refused (t.clients i).conn ⟨type.toByte, p'⟩)) := h.emit rfl
  unfold Core.enqueuePayload
  rw [← hlen, ← h.maxQueueBytes, ← (h.clients i).queuedBytes, ← h.heap]
  simp only
  split_ifs with hlarge hroom hheap
  · exact ⟨rfl, hrefused⟩
  · exact ⟨rfl, hrefused⟩
  · refine ⟨rfl, ?_⟩
    have hheap' := h.setHeap fun n => s.heap (n + 1)
    refine (hheap'.setClient ((h.clients i).push type hlen)).emit ?_
    show (if (s.clients i).conn = k then _ else _) = if (t.clients i).conn = k then _ else _
    rw [← (h.clients i).conn]
    split_ifs with hconn
    · rw [hsame hconn]
    · rfl
  · refine ⟨rfl, ?_⟩
    have hheap' := h.setHeap fun n => s.heap (n + 1)
    exact hheap'.emit rfl

theorem enqueueOrDisconnect (h : Alike k s t) (i : Slot) (type : ServerMsgType) {p p' : Bytes}
    (hlen : p.length = p'.length) (hsame : (s.clients i).conn = k → p = p') :
    Alike k (enqueueOrDisconnect s i type p) (enqueueOrDisconnect t i type p') := by
  obtain ⟨hresult, halike⟩ := h.enqueuePayload i type hlen hsame
  unfold Core.enqueueOrDisconnect
  cases hs : Core.enqueuePayload s i type p with
  | mk taken u =>
    cases ht : Core.enqueuePayload t i type p' with
    | mk taken' v =>
      rw [hs, ht] at hresult halike
      obtain rfl : taken = taken' := hresult
      cases taken with
      | true => exact halike
      | false => exact halike.overflowDisconnect i

/-- The same answer to the same client. -/
theorem reply (h : Alike k s t) (i : Slot) (type : ServerMsgType) (text : Bytes) :
    Alike k (safeEnqueueText s i type text) (safeEnqueueText t i type text) :=
  h.enqueueOrDisconnect i type rfl fun _ => rfl

/-! ### Lookups -/

theorem findChannel (h : Alike k s t) (name : Bytes) : findChannel s name = findChannel t name := by
  rw [Core.findChannel, Core.findChannel, h.channels]

theorem usernameInUse (h : Alike k s t) (name : Bytes) (i : Slot) :
    usernameInUse s name i = usernameInUse t name i := by
  unfold Core.usernameInUse
  congr 1
  ext j
  rw [decide_eq_decide, h.live_iff j, (h.clients j).registered, (h.clients j).username]

theorem findUser (h : Alike k s t) (name : Bytes) : findUser s name = findUser t name := by
  unfold Core.findUser
  congr 1
  ext j
  rw [decide_eq_decide, h.live_iff j, (h.clients j).registered, (h.clients j).username]

theorem members (h : Alike k s t) (idx : ℕ) : members s idx = members t idx :=
  List.filter_congr fun j _ => (h.clients j).isMember idx

theorem statsText (h : Alike k s t) : statsText s = statsText t := by
  have hregistered : (slots.filter fun i => (s.clients i).Live ∧ (s.clients i).registered = true) =
      slots.filter fun i => (t.clients i).Live ∧ (t.clients i).registered = true :=
    List.filter_congr fun j _ => by
      rw [decide_eq_decide, h.live_iff j, (h.clients j).registered]
  unfold Core.statsText
  rw [hregistered, h.stats, h.channels, h.maxQueueBytes]

theorem ensureChannel (h : Alike k s t) (name : Bytes) :
    (ensureChannel s name).1 = (ensureChannel t name).1 ∧
      Alike k (ensureChannel s name).2 (ensureChannel t name).2 := by
  unfold Core.ensureChannel
  rw [← h.findChannel, ← h.channels]
  cases Core.findChannel s name with
  | some idx => exact ⟨rfl, h⟩
  | none =>
    simp only
    split_ifs
    · exact ⟨rfl, h⟩
    · exact ⟨rfl, h.setChannels _⟩

/-! ### The loops -/

/-- A loop over slots whose turns keep the states alike. -/
theorem foldl {body body' : Server → Slot → Server} {P : Server → Prop}
    (hbody : ∀ s t, Alike k s t → P s → ∀ i, Alike k (body s i) (body' t i))
    (hP : ∀ s i, P s → P (body s i)) (l : List Slot) {s t : Server} (h : Alike k s t) (hs : P s) :
    Alike k (l.foldl body s) (l.foldl body' t) := by
  induction l generalizing s t with
  | nil => exact h
  | cons i l ih => exact ih (hbody s t h hs i) (hP s i hs)

theorem broadcastSystem (h : Alike k s t) (sender : Slot) (text : Bytes) :
    Alike k (broadcastSystemToActiveChannel s sender text)
      (broadcastSystemToActiveChannel t sender text) := by
  unfold broadcastSystemToActiveChannel
  rw [← (h.clients sender).activeChannel, ← h.findChannel]
  cases Core.findChannel s (s.clients sender).activeChannel with
  | none => exact h
  | some idx =>
    refine foldl (P := fun _ => True) (fun u v huv _ i => ?_) (fun _ _ _ => trivial) slots h trivial
    unfold systemTurn
    rw [← (huv.clients i).isMember]
    split_ifs
    · exact huv.reply i _ _
    · exact huv

end Alike

/-- Connection `k` has not joined the channel with this index. -/
def Unheard (k idx : ℕ) (s : Server) : Prop :=
  ∀ j, (s.clients j).Live → (s.clients j).conn = k → (s.clients j).joined idx = false

theorem Unheard.enqueueOrDisconnect {k idx : ℕ} {s : Server} (h : Unheard k idx s) (i : Slot)
    (type : ServerMsgType) (payload : Bytes) :
    Unheard k idx (enqueueOrDisconnect s i type payload) := by
  intro j
  rcases eq_or_ne j i with rfl | hne
  · intro hl
    have hclient := enqueueOrDisconnect_clients_self hl
    rw [hclient] at hl ⊢
    exact h j hl
  · rw [enqueueOrDisconnect_clients_of_ne type payload hne]
    exact h j

namespace Alike

variable {k : ℕ} {s t : Server} {i : Slot}

/-- The loop of `broadcast_chat`, for two texts of a length that are the same or that connection
`k` does not hear. -/
theorem chatLoop (h : Alike k s t) {idx : ℕ} {p p' : Bytes} (hlen : p.length = p'.length)
    (hhidden : p = p' ∨ Unheard k idx s) : Alike k (chatLoop s idx p) (chatLoop t idx p') := by
  refine foldl (P := fun u => p = p' ∨ Unheard k idx u) (fun u v huv hu i => ?_) (fun u i hu => ?_)
    slots h hhidden
  · unfold chatTurn
    rw [← (huv.clients i).isMember]
    split_ifs with hm
    · refine huv.enqueueOrDisconnect i _ hlen fun hconn => hu.resolve_right fun hunheard => ?_
      obtain ⟨hl, -, hj⟩ := Client.isMember_iff.mp hm
      rw [hunheard i hl hconn] at hj
      cases hj
    · exact huv
  · refine hu.imp_right fun hu => ?_
    unfold chatTurn
    split_ifs
    · exact hu.enqueueOrDisconnect i _ _
    · exact hu

/-! ### The handlers, for equal requests -/

theorem handleHello (h : Alike k s t) (i : Slot) (payload : Bytes) :
    Alike k (handleHello s i payload) (handleHello t i payload) := by
  unfold Core.handleHello
  cases readName payload cwNameCap with
  | none => exact h.reply i _ _
  | some name =>
    simp only
    rw [← h.usernameInUse]
    split_ifs
    · exact h.reply i _ _
    · refine reply (h.setClient ?_) i _ _
      exact { h.clients i with username := rfl, registered := rfl }

theorem handleNick (h : Alike k s t) (i : Slot) (payload : Bytes) :
    Alike k (handleNick s i payload) (handleNick t i payload) := by
  unfold Core.handleNick
  cases readName payload cwNameCap with
  | none => exact h.reply i _ _
  | some name =>
    simp only
    rw [← h.usernameInUse, ← (h.clients i).username]
    by_cases hu : Core.usernameInUse s name i = true
    · rw [if_pos hu, if_pos hu]
      exact h.reply i _ _
    · rw [if_neg hu, if_neg hu]
      refine broadcastSystem (reply (h.setClient ?_) i _ _) i _
      exact { h.clients i with username := rfl, registered := rfl }

theorem joinChannel (h : Alike k s t) (i : Slot) (payload : Bytes) :
    Alike k (joinChannel s i payload true) (joinChannel t i payload true) := by
  unfold Core.joinChannel
  rw [← (h.clients i).registered]
  by_cases hreg : (s.clients i).registered = false
  · rw [if_pos hreg, if_pos hreg]
    exact h.reply i _ _
  · rw [if_neg hreg, if_neg hreg]
    cases readName payload cwChannelCap with
    | none => exact h.reply i _ _
    | some name =>
      obtain ⟨hidx, halike⟩ := h.ensureChannel name
      simp only
      cases hs : Core.ensureChannel s name with
      | mk found u =>
        cases ht : Core.ensureChannel t name with
        | mk found' v =>
          rw [hs, ht] at hidx halike
          obtain rfl : found = found' := hidx
          cases found with
          | none => exact Alike.reply halike i _ _
          | some idx =>
            refine reply (halike.setClient ?_) i _ _
            exact { halike.clients i with
              joined := congrArg (fun joined => Function.update joined idx true)
                (halike.clients i).joined
              activeChannel := rfl }

theorem switchChannel (h : Alike k s t) (i : Slot) (payload : Bytes) :
    Alike k (switchChannel s i payload) (switchChannel t i payload) := by
  unfold Core.switchChannel
  rw [← (h.clients i).registered]
  split_ifs
  · exact h.reply i _ _
  · cases readName payload cwChannelCap with
    | none => exact h.reply i _ _
    | some name =>
      simp only
      rw [← h.findChannel, ← (h.clients i).joined]
      cases (Core.findChannel s name).filter (s.clients i).joined with
      | none => exact h.reply i _ _
      | some idx =>
        refine reply (h.setClient ?_) i _ _
        exact { h.clients i with joined := rfl, activeChannel := rfl }

theorem leaveChannel (h : Alike k s t) (i : Slot) (payload : Bytes) :
    Alike k (leaveChannel s i payload) (leaveChannel t i payload) := by
  unfold Core.leaveChannel
  cases readName payload cwChannelCap with
  | none => exact h.reply i _ _
  | some name =>
    simp only
    rw [← h.findChannel, ← (h.clients i).joined, ← (h.clients i).activeChannel]
    cases (Core.findChannel s name).filter (s.clients i).joined with
    | none => exact h.reply i _ _
    | some idx =>
      refine reply (h.setClient ?_) i _ _
      exact { h.clients i with joined := rfl, activeChannel := rfl }

theorem sendWho (h : Alike k s t) (i : Slot) : Alike k (sendWho s i) (sendWho t i) := by
  have hnames : ∀ idx, (Core.members s idx).map (fun j => (s.clients j).username) =
      (Core.members t idx).map fun j => (t.clients j).username := by
    intro idx
    rw [← h.members]
    exact List.map_congr_left fun j _ => (h.clients j).username
  unfold Core.sendWho
  rw [← (h.clients i).activeChannel, ← h.findChannel]
  cases Core.findChannel s (s.clients i).activeChannel with
  | none => exact h.reply i _ _
  | some idx =>
    simp only
    rw [← hnames]
    split <;> exact h.reply i _ _

theorem sendList (h : Alike k s t) (i : Slot) : Alike k (sendList s i) (sendList t i) := by
  unfold Core.sendList
  rw [← h.channels]
  split <;> exact h.reply i _ _

theorem sendStats (h : Alike k s t) (i : Slot) : Alike k (sendStats s i) (sendStats t i) := by
  unfold Core.sendStats
  rw [← h.statsText]
  simp only
  split_ifs <;> exact h.reply i _ _

end Alike

/-! ## Requests with texts that `k` does not see -/

/-- Connection `k` is not registered under the name. -/
def Unnamed (k : ℕ) (name : Bytes) (s : Server) : Prop :=
  ∀ j, (s.clients j).Live → (s.clients j).conn = k → (s.clients j).registered = true →
    (s.clients j).username ≠ name

/-- Connection `k` has not joined the active channel of the client. -/
def OutOfEarshot (k : ℕ) (s : Server) (i : Slot) : Prop :=
  ∀ idx, findChannel s (s.clients i).activeChannel = some idx → Unheard k idx s

/-- Two texts of a length, neither empty nor with a zero byte. -/
structure SameLength (text text' : Bytes) : Prop where
  length : text.length = text'.length
  nonempty : text ≠ []
  zero_notMem : (0 : UInt8) ∉ text
  zero_notMem' : (0 : UInt8) ∉ text'

/-- Two frames of the client in slot `i` that are equal, but for the text of a `SAY` in a channel
that connection `k` has not joined, or of a `DM` to another name than that of `k`. -/
inductive SameButText (k : ℕ) (s : Server) (i : Slot) : Frame → Frame → Prop where
  | same (frame : Frame) : SameButText k s i frame frame
  | say {text text' : Bytes} : SameLength text text' → OutOfEarshot k s i →
      SameButText k s i ⟨ClientMsgType.say.toByte, stringField text⟩
        ⟨ClientMsgType.say.toByte, stringField text'⟩
  | dm {target text text' : Bytes} : SameLength text text' → Unnamed k (cstr target) s →
      SameButText k s i ⟨ClientMsgType.dm.toByte, stringField target ++ stringField text⟩
        ⟨ClientMsgType.dm.toByte, stringField target ++ stringField text'⟩

/-- The text of a `SAY` as `handle_frame` reads it. -/
theorem readOneStringPayload_stringField {text : Bytes} (hlen : text.length < 65536)
    (hzero : (0 : UInt8) ∉ text) :
    readOneStringPayload (stringField text) (cwTextCap + 1) =
      if text.length ≤ cwMaxStringSize then some text else none := by
  unfold readOneStringPayload
  split_ifs with hfits
  · have hread := @cwReadString_stringField [] text [] _ hfits (Nat.lt_succ_of_le hfits)
    rw [List.append_nil] at hread
    simp only [List.nil_append, List.length_nil] at hread
    rw [show cwTextCap + 1 = cwMaxStringSize.succ from rfl, hread]
    simp only
    rw [if_pos (by rw [length_stringField]; omega), cstr_of_zero_notMem hzero]
  · have hread := @cwReadString_stringField_of_large [] text [] (cwTextCap + 1) hlen
      (.inl (not_le.mp hfits))
    rw [List.append_nil] at hread
    simp only [List.nil_append, List.length_nil] at hread
    rw [hread]

/-- The strings of a `DM` as `handle_dm` reads them. -/
theorem readDmPayload_stringField {target text : Bytes} (htarget : target.length < 65536)
    (hlen : text.length < 65536) (hne : text ≠ []) (hzero : (0 : UInt8) ∉ text) :
    readDmPayload (stringField target ++ stringField text) =
      if target.length ≤ cwNameCap ∧ text.length ≤ cwMaxStringSize then some (cstr target, text)
      else none := by
  unfold readDmPayload
  by_cases hname : target.length ≤ cwNameCap
  · have hmax : target.length ≤ cwMaxStringSize := by
      unfold cwNameCap at hname
      unfold cwMaxStringSize
      omega
    have hfirst := @cwReadString_stringField [] target (stringField text) _ hmax
      (Nat.lt_succ_of_le hname)
    simp only [List.nil_append, List.length_nil] at hfirst
    rw [show cwNameCap + 1 = cwNameCap.succ from rfl, hfirst]
    have hoffset : 0 + 2 + target.length = (stringField target).length := by
      rw [length_stringField]
      omega
    simp only
    rw [hoffset]
    by_cases hfits : text.length ≤ cwMaxStringSize
    · have hsecond := @cwReadString_stringField (stringField target) text [] _ hfits
        (Nat.lt_succ_of_le hfits)
      rw [List.append_nil] at hsecond
      rw [show cwTextCap + 1 = cwMaxStringSize.succ from rfl, hsecond, if_pos ⟨hname, hfits⟩]
      simp only
      rw [cstr_of_zero_notMem hzero, if_neg]
      simp only [List.length_append, length_stringField, hne, or_false]
      omega
    · have hsecond := @cwReadString_stringField_of_large (stringField target) text [] (cwTextCap + 1)
        hlen (.inl (not_le.mp hfits))
      rw [List.append_nil] at hsecond
      rw [hsecond, if_neg (fun h => hfits h.2)]
  · have hfirst := @cwReadString_stringField_of_large [] target (stringField text)
      (cwNameCap + 1) htarget (.inr (not_le.mp hname))
    simp only [List.nil_append, List.length_nil] at hfirst
    rw [hfirst, if_neg (fun h => hname h.1)]

namespace Alike

variable {k : ℕ} {s t : Server} {i : Slot}

theorem broadcastChat (h : Alike k s t) (hc : ChannelsOk s) (hv : NamesOk s) {text text' : Bytes}
    (hlen : text.length = text'.length) (htext : text.length ≤ cwTextCap)
    (hhidden : text = text' ∨ OutOfEarshot k s i) :
    Alike k (broadcastChat s i text) (broadcastChat t i text') := by
  have hlength : (chatPayload (s.clients i) text).length = (chatPayload (s.clients i) text').length := by
    simp only [chatPayload, List.map_cons, List.flatten_cons, List.length_append,
      length_stringField, hlen]
  unfold Core.broadcastChat
  simp only
  rw [← (h.clients i).activeChannel, ← (h.clients i).username, ← h.findChannel]
  cases hfind : Core.findChannel s (s.clients i).activeChannel with
  | none => exact h.reply i _ _
  | some idx =>
    simp only [cwWriteStrings_chat hc hv htext, cwWriteStrings_chat hc hv (hlen ▸ htext)]
    have hannounce : Alike k
        (announce s i idx ⟨(s.clients i).activeChannel, (s.clients i).username, text⟩)
        (announce t i idx ⟨(s.clients i).activeChannel, (s.clients i).username, text'⟩) :=
      h.emit rfl
    have hhidden' : chatPayload (s.clients i) text = chatPayload (s.clients i) text' ∨
        Unheard k idx (announce s i idx
          ⟨(s.clients i).activeChannel, (s.clients i).username, text⟩) :=
      hhidden.imp (congrArg _) fun hout => hout idx hfind
    exact (hannounce.chatLoop hlength hhidden').setStats fun st =>
      { st with channelMessages := st.channelMessages + 1 }

/-- A `SAY`, by what is read of it. -/
theorem handleSay (h : Alike k s t) (hc : ChannelsOk s) (hv : NamesOk s) {p p' : Bytes}
    (hread : readOneStringPayload p (cwTextCap + 1) = readOneStringPayload p' (cwTextCap + 1) ∨
      ∃ text text', readOneStringPayload p (cwTextCap + 1) = some text ∧
        readOneStringPayload p' (cwTextCap + 1) = some text' ∧ text.length = text'.length ∧
        OutOfEarshot k s i) :
    Alike k (handleSay s i p) (handleSay t i p') := by
  unfold Core.handleSay
  rw [← (h.clients i).registered, ← (h.clients i).activeChannel]
  split_ifs
  · exact h.reply i _ _
  · exact h.reply i _ _
  · rcases hread with heq | ⟨text, text', hs, ht, hlen, hhidden⟩
    · rw [← heq]
      cases hs : readOneStringPayload p (cwTextCap + 1) with
      | none => exact h.reply i _ _
      | some text =>
        have htext := Nat.le_of_lt_succ (length_readOneStringPayload p hs)
        by_cases hne : text = []
        · rw [hne]
          exact h.reply i _ _
        · rw [Option.filter_some, decide_eq_true hne]
          exact h.broadcastChat hc hv rfl htext (.inl rfl)
    · have htext := Nat.le_of_lt_succ (length_readOneStringPayload p hs)
      have hempty : text = [] ↔ text' = [] := by
        rw [← List.length_eq_zero_iff, hlen, List.length_eq_zero_iff]
      rw [hs, ht]
      by_cases hne : text = []
      · rw [hempty.mp hne, hne]
        exact h.reply i _ _
      · rw [Option.filter_some, Option.filter_some, decide_eq_true hne,
          decide_eq_true (mt hempty.mpr hne)]
        exact h.broadcastChat hc hv hlen htext (.inr hhidden)

/-- A `DM`, by what is read of it. -/
theorem handleDm (h : Alike k s t) (hv : NamesOk s) {p p' : Bytes}
    (hread : readDmPayload p = readDmPayload p' ∨
      ∃ name text text', readDmPayload p = some (name, text) ∧
        readDmPayload p' = some (name, text') ∧ text.length = text'.length ∧ Unnamed k name s) :
    Alike k (handleDm s i p) (handleDm t i p') := by
  have hfields : ∀ {name text text' : Bytes}, readDmPayload p = some (name, text) →
      readDmPayload p' = some (name, text') → text.length = text'.length →
      (text = text' ∨ Unnamed k name s) → Alike k (Core.handleDm s i p) (Core.handleDm t i p') := by
    intro name text text' hs ht hlen hhidden
    unfold Core.handleDm
    rw [hs, ht, ← (h.clients i).registered, ← (h.clients i).username]
    split_ifs
    · exact h.reply i _ _
    · simp only
      rw [← h.findUser]
      cases hfind : Core.findUser s name with
      | none => exact h.reply i _ _
      | some target =>
        obtain ⟨hl, hreg, hname⟩ := findUser_eq_some hfind
        have hlength : (dmPayload (s.clients i) text).length =
            (dmPayload (s.clients i) text').length := by
          simp only [dmPayload, List.map_cons, List.flatten_cons, List.length_append,
            length_stringField, hlen]
        have hsame : (s.clients target).conn = k →
            dmPayload (s.clients i) text = dmPayload (s.clients i) text' := by
          intro hconn
          rcases hhidden with rfl | hunnamed
          · rfl
          · exact absurd hname (hunnamed target hl hconn hreg)
        simp only [enqueueStrings, cwWriteStrings_dm hv hs, cwWriteStrings_dm hv ht]
        obtain ⟨hresult, halike⟩ := h.enqueuePayload target .dmRecv hlength hsame
        cases hsq : Core.enqueuePayload s target .dmRecv (dmPayload (s.clients i) text) with
        | mk taken u =>
          cases htq : Core.enqueuePayload t target .dmRecv (dmPayload (s.clients i) text') with
          | mk taken' v =>
            rw [hsq, htq] at hresult halike
            obtain rfl : taken = taken' := hresult
            cases taken with
            | false => exact Alike.overflowDisconnect halike target
            | true =>
              exact (Alike.setStats halike fun st =>
                { st with directMessages := st.directMessages + 1 }).reply i _ _
  rcases hread with heq | ⟨name, text, text', hs, ht, hlen, hhidden⟩
  · cases hs : readDmPayload p with
    | none =>
      unfold Core.handleDm
      rw [← heq, hs, ← (h.clients i).registered]
      split_ifs <;> exact h.reply i _ _
    | some fields =>
      obtain ⟨name, text⟩ := fields
      exact hfields hs (heq ▸ hs) rfl (.inl rfl)
  · exact hfields hs ht hlen (.inr hhidden)

/-- **A request keeps alike states alike**, if the two frames are equal but for a text that
connection `k` does not see. -/
theorem handleFrame (h : Alike k s t) (hc : ChannelsOk s) (hv : NamesOk s) {frame frame' : Frame}
    (hframe : SameButText k s i frame frame') (hlen : frame.payload.length ≤ cwMaxPayloadSize) :
    Alike k (handleFrame s i frame.type frame.payload)
      (handleFrame t i frame'.type frame'.payload) := by
  cases hframe with
  | same =>
    unfold Core.handleFrame
    cases ClientMsgType.ofByte frame.type with
    | none => exact h.reply i _ _
    | some type =>
      cases type with
      | hello => exact h.handleHello i _
      | join => exact h.joinChannel i _
      | switch => exact h.switchChannel i _
      | leave => exact h.leaveChannel i _
      | say => exact h.handleSay hc hv (.inl rfl)
      | dm => exact h.handleDm hv (.inl rfl)
      | who => exact h.sendWho i
      | list => exact h.sendList i
      | nick => exact h.handleNick i _
      | quit => exact h.disconnectClient i _
      | stats => exact h.sendStats i
  | @say text text' htexts hhidden =>
    unfold cwMaxPayloadSize at hlen
    rw [length_stringField] at hlen
    have hlen' := htexts.length
    refine h.handleSay hc hv ?_
    rw [readOneStringPayload_stringField (by omega) htexts.zero_notMem,
      readOneStringPayload_stringField (by omega) htexts.zero_notMem', ← hlen']
    split_ifs
    · exact .inr ⟨text, text', rfl, rfl, hlen', hhidden⟩
    · exact .inl rfl
  | @dm target text text' htexts hhidden =>
    unfold cwMaxPayloadSize at hlen
    rw [List.length_append, length_stringField, length_stringField] at hlen
    have hlen' := htexts.length
    have hne' : text' ≠ [] := by
      rw [← List.length_pos_iff, ← hlen', List.length_pos_iff]
      exact htexts.nonempty
    refine h.handleDm hv ?_
    rw [readDmPayload_stringField (by omega) (by omega) htexts.nonempty htexts.zero_notMem,
      readDmPayload_stringField (by omega) (by omega) hne' htexts.zero_notMem', ← hlen']
    split_ifs
    · exact .inr ⟨cstr target, text, text', rfl, rfl, hlen', hhidden⟩
    · exact .inl rfl

end Alike

/-! ## Steps -/

/-- What stands in front of the two input buffers is equal but for a text that connection `k` does
not see: the header, and the frame when it is complete. -/
structure FrontAlike (k : ℕ) (s t : Server) (i : Slot) : Prop where
  header : (s.clients i).inbuf.take cwFrameHeaderSize = (t.clients i).inbuf.take cwFrameHeaderSize
  frame : ∀ frame n frame' n', frameHead cwMaxPayloadSize (s.clients i).inbuf = .item frame n →
    frameHead cwMaxPayloadSize (t.clients i).inbuf = .item frame' n' →
    SameButText k s i frame frame'

/-- Buffers of one length with the same header look the same but for the payload. -/
theorem frameHead_congr {limit : ℕ} {l l' : Bytes} (hlen : l.length = l'.length)
    (hheader : l.take cwFrameHeaderSize = l'.take cwFrameHeaderSize) :
    (frameHead limit l = .more ∧ frameHead limit l' = .more) ∨
      (frameHead limit l = .bad ∧ frameHead limit l' = .bad) ∨
      ∃ frame frame' n, frameHead limit l = .item frame n ∧ frameHead limit l' = .item frame' n := by
  by_cases hshort : l.length < cwFrameHeaderSize
  · exact .inl ⟨frameHead_of_short hshort, frameHead_of_short (hlen ▸ hshort)⟩
  · obtain ⟨b, x, y, z, w, r, rfl⟩ := exists_header (not_lt.mp hshort)
    obtain ⟨b', x', y', z', w', r', rfl⟩ := exists_header (hlen ▸ not_lt.mp hshort)
    have hbytes : [b, x, y, z, w] = [b', x', y', z', w'] := hheader
    simp only [List.cons.injEq, and_true] at hbytes
    obtain ⟨rfl, rfl, rfl, rfl, rfl⟩ := hbytes
    have hrest : r.length = r'.length := by
      simpa only [List.length_cons, Nat.add_right_cancel_iff] using hlen
    simp only [frameHead, ← hrest]
    split_ifs
    · exact .inr (.inl ⟨rfl, rfl⟩)
    · exact .inl ⟨rfl, rfl⟩
    · exact .inr (.inr ⟨_, _, _, rfl, rfl⟩)

/-- What `k` sees of a text depends on no input buffer and on no trace. -/
theorem SameButText.congr {k : ℕ} {s t : Server} {i : Slot} {frame frame' : Frame}
    (h : SameButText k s i frame frame')
    (hclients : ∀ j, ∃ inbuf, t.clients j = { s.clients j with inbuf := inbuf })
    (hchannels : t.channels = s.channels) : SameButText k t i frame frame' := by
  cases h with
  | same => exact .same frame
  | say htexts hhidden =>
    refine .say htexts fun idx hfind j hl hconn => ?_
    obtain ⟨inbuf, hi⟩ := hclients i
    obtain ⟨inbuf', hj⟩ := hclients j
    rw [hi, findChannel, hchannels] at hfind
    rw [hj] at hl hconn ⊢
    exact hhidden idx hfind j hl hconn
  | dm htexts hhidden =>
    refine .dm htexts fun j hl hconn hreg => ?_
    obtain ⟨inbuf, hj⟩ := hclients j
    rw [hj] at hl hconn hreg ⊢
    exact hhidden j hl hconn hreg

namespace Alike

variable {k : ℕ} {s t : Server} {i : Slot}

theorem serveFrame (h : Alike k s t) (hc : ChannelsOk s) (hv : NamesOk s) {frame frame' : Frame}
    (hframe : SameButText k s i frame frame') (hlen : frame.payload.length ≤ cwMaxPayloadSize)
    (n : ℕ) : (serveFrame s i frame n).1 = (serveFrame t i frame' n).1 ∧
      Alike k (serveFrame s i frame n).2 (serveFrame t i frame' n).2 := by
  have hemit : Alike k (s.emit (.handled (s.clients i).conn frame))
      (t.emit (.handled (t.clients i).conn frame')) := h.emit rfl
  have hhandled := hemit.handleFrame (hc.emit _) (hv.emit _)
    (hframe.congr (fun j => ⟨(s.clients j).inbuf, rfl⟩) rfl) hlen
  unfold Core.serveFrame
  simp only
  by_cases hl : ((Core.handleFrame (s.emit (.handled (s.clients i).conn frame)) i frame.type
      frame.payload).clients i).Live
  · rw [if_pos hl, if_pos ((hhandled.live_iff i).mp hl)]
    refine ⟨rfl, Alike.setClient hhandled { hhandled.clients i with inbuf := ?_ }⟩
    rw [List.length_drop, List.length_drop, (hhandled.clients i).inbuf]
  · rw [if_neg hl, if_neg (mt (hhandled.live_iff i).mpr hl)]
    exact ⟨rfl, hhandled⟩

theorem rejectHeader (h : Alike k s t) (i : Slot) :
    Alike k (rejectHeader s i) (rejectHeader t i) := by
  have hcount := h.setStats fun st => { st with malformedFrames := st.malformedFrames + 1 }
  have hemit : Alike k
      ((s.setStats { s.stats with malformedFrames := s.stats.malformedFrames + 1 }).emit
        (.malformed (s.clients i).conn))
      ((t.setStats { t.stats with malformedFrames := t.stats.malformedFrames + 1 }).emit
        (.malformed (t.clients i).conn)) := hcount.emit rfl
  exact hemit.reply i _ _

/-- A turn of `drain_input` ends or goes on in both servers, and leaves alike states. -/
theorem drainTurn (h : Alike k s t) (hc : ChannelsOk s) (hv : NamesOk s)
    (hfront : FrontAlike k s t i) : (drainTurn s i).1 = (drainTurn t i).1 ∧
      Alike k (drainTurn s i).2 (drainTurn t i).2 := by
  rw [drainTurn_eq, drainTurn_eq]
  rcases @frameHead_congr cwMaxPayloadSize _ _ (h.clients i).inbuf hfront.header with
    ⟨hs, ht⟩ | ⟨hs, ht⟩ | ⟨frame, frame', n, hs, ht⟩
  · rw [hs, ht]
    exact ⟨rfl, h⟩
  · rw [hs, ht]
    exact ⟨rfl, h.rejectHeader i⟩
  · rw [hs, ht]
    exact h.serveFrame hc hv (hfront.frame frame n frame' n hs ht) (frameHead_item hs).1 n

theorem recvChunk (h : Alike k s t) (i : Slot) {chunk chunk' : Bytes}
    (hlen : chunk.length = chunk'.length) :
    Alike k (recvChunk s i chunk) (recvChunk t i chunk') := by
  refine Alike.emit ?_ rfl
  refine h.setClient { h.clients i with inbuf := ?_ }
  rw [List.length_append, List.length_append, (h.clients i).inbuf, hlen]

theorem takeSent (h : Alike k s t) (i : Slot) (n : ℕ) :
    Alike k (takeSent s i n) (takeSent t i n) := by
  have hout := (h.clients i).out
  unfold Core.takeSent
  simp only
  cases hs : (s.clients i).out.toList with
  | nil =>
    rw [hs, List.map_nil] at hout
    rw [List.map_eq_nil_iff.mp hout.symm]
    exact h
  | cons f l =>
    cases ht : (t.clients i).out.toList with
    | nil =>
      rw [hs, ht] at hout
      cases hout
    | cons f' l' =>
      rw [hs, ht, List.map_cons, List.map_cons, List.cons.injEq] at hout
      obtain ⟨hshape, hrest⟩ := hout
      obtain ⟨hlen, hsent⟩ := Prod.mk.inj hshape
      have hmodified : (f.len, f.sent + n) = (f'.len, f'.sent + n) := by rw [hlen, hsent]
      simp only
      rw [← hlen, ← hsent]
      have hemit : Alike k
          (s.emit (.sent (s.clients i).conn ((f.data.drop f.sent).take n)))
          (t.emit (.sent (t.clients i).conn ((f'.data.drop f.sent).take n))) := h.emit rfl
      split_ifs
      · refine Alike.setClient hemit { h.clients i with out := ?_, queuedBytes := ?_ }
        · simp only [Queue.toList_pop, Queue.toList_modifyFront, hs, ht, List.modifyHead_cons,
            List.tail_cons, hrest]
        · rw [(h.clients i).queuedBytes]
      · refine Alike.setClient hemit { h.clients i with out := ?_ }
        simp only [Queue.toList_modifyFront, hs, ht, List.modifyHead_cons, List.map_cons, hrest]
        exact congrArg (· :: _) hmodified

theorem acceptConnection (h : Alike k s t) (fd : ℕ) (nonblocking : Bool) :
    Alike k (acceptConnection s fd nonblocking) (acceptConnection t fd nonblocking) := by
  have hfree : freeSlot s = freeSlot t := by
    unfold freeSlot
    congr 1
    ext j
    rw [decide_eq_decide, h.live_iff j]
  unfold Core.acceptConnection
  rw [← hfree]
  cases (freeSlot s).filter fun _ => nonblocking with
  | none => exact h
  | some slot =>
    have hslot := h.setClient (i := slot)
      (.refl { Client.blank with fd := fd, conn := t.stats.totalConnections + 1 })
    simp only [occupySlot, h.stats]
    refine Alike.emit ?_ rfl
    exact { hslot with stats := by simp only [Server.setStats_stats, Server.setClient_stats, h.stats] }

end Alike

/-! ## Two runs -/

/-- A step of each of two servers, on the same schedule.  The chunks `recv` returns have the same
length, and what is taken from the input buffers is equal but for texts that connection `k` does
not see. -/
inductive TwoSteps (k : ℕ) : Server × Server → Server × Server → Prop where
  | accept {s t : Server} {fd : ℕ} {nonblocking : Bool} : FreshFd s fd → FreshFd t fd →
      TwoSteps k (s, t) (acceptConnection s fd nonblocking, acceptConnection t fd nonblocking)
  | recv {s t : Server} {i : Slot} {chunk chunk' : Bytes} : (s.clients i).Live →
      (t.clients i).Live → chunk ≠ [] → chunk.length = chunk'.length →
      (s.clients i).inbuf.length + chunk.length ≤ cwInbufCap →
      (t.clients i).inbuf.length + chunk'.length ≤ cwInbufCap →
      TwoSteps k (s, t) (recvChunk s i chunk, recvChunk t i chunk')
  | drain {s t : Server} {i : Slot} : (s.clients i).Live → (t.clients i).Live →
      FrontAlike k s t i → TwoSteps k (s, t) ((drainTurn s i).2, (drainTurn t i).2)
  | send {s t : Server} {i : Slot} {n : ℕ} {frame frame' : OutFrame} {rest rest' : List OutFrame} :
      (s.clients i).Live → (t.clients i).Live → (s.clients i).out.toList = frame :: rest →
      (t.clients i).out.toList = frame' :: rest' → 0 < n → n ≤ frame.len - frame.sent →
      n ≤ frame'.len - frame'.sent → TwoSteps k (s, t) (takeSent s i n, takeSent t i n)
  | disconnect {s t : Server} {i : Slot} {reason : Reason} : (s.clients i).Live →
      (t.clients i).Live →
      TwoSteps k (s, t) (disconnectClient s i reason, disconnectClient t i reason)

/-- Two servers with the same queue limit and the same heap. -/
def twoRuns (k : ℕ) : Transition.System (Server × Server) where
  init p := ∃ maxQueueBytes heap, 0 < maxQueueBytes ∧
    p = (Server.initial maxQueueBytes heap, Server.initial maxQueueBytes heap)
  step := TwoSteps k

/-- Each component of two steps is a step. -/
theorem TwoSteps.steps {k : ℕ} {p q : Server × Server} (h : TwoSteps k p q) :
    Step p.1 q.1 ∧ Step p.2 q.2 := by
  cases h with
  | accept hs ht => exact ⟨.accept hs, .accept ht⟩
  | @recv s t i chunk chunk' hls hlt hne hlen hs ht =>
    have hne' : chunk' ≠ [] := by
      rw [← List.length_pos_iff, ← hlen, List.length_pos_iff]
      exact hne
    exact ⟨.recv hls hne hs, .recv hlt hne' ht⟩
  | drain hls hlt _ => exact ⟨.drain hls, .drain hlt⟩
  | send hls hlt hs ht hn hns hnt => exact ⟨.send hls hs hn hns, .send hlt ht hn hnt⟩
  | disconnect hls hlt => exact ⟨.disconnect hls, .disconnect hlt⟩

/-- Two steps keep alike states alike. -/
theorem TwoSteps.alike {k : ℕ} {p q : Server × Server} (h : TwoSteps k p q)
    (hp : Alike k p.1 p.2) (hs : Reachable p.1) : Alike k q.1 q.2 := by
  cases h with
  | accept _ _ => exact hp.acceptConnection _ _
  | recv _ _ _ hlen _ _ => exact hp.recvChunk _ hlen
  | drain _ _ hfront =>
    exact (hp.drainTurn (channelsOk hs.moveReachable) (namesOk hs.moveReachable) hfront).2
  | send _ _ _ _ _ _ _ => exact hp.takeSent _ _
  | disconnect _ _ => exact hp.disconnectClient _ _

/-- Both runs are runs, and at every point their states are alike. -/
theorem twoRuns_alike {k : ℕ} {p : Server × Server} (h : Transition.Reachable (twoRuns k) p) :
    Reachable p.1 ∧ Reachable p.2 ∧ Alike k p.1 p.2 := by
  refine Transition.Reachable.invariant
    (P := fun p => Reachable p.1 ∧ Reachable p.2 ∧ Alike k p.1 p.2) ?_ ?_ h
  · rintro _ ⟨maxQueueBytes, heap, hpos, rfl⟩
    exact ⟨.init ⟨_, _, hpos, rfl⟩, .init ⟨_, _, hpos, rfl⟩, .refl k _⟩
  · rintro p q - ⟨hs, ht, hp⟩ hstep
    exact ⟨hs.step hstep.steps.1, ht.step hstep.steps.2, hstep.alike hp hs⟩

/-- A run beside itself. -/
theorem twoRuns_self (k : ℕ) {s : Server} (h : Reachable s) :
    Transition.Reachable (twoRuns k) (s, s) := by
  induction h with
  | init h =>
    obtain ⟨maxQueueBytes, heap, hpos, rfl⟩ := h
    exact .init ⟨_, _, hpos, rfl⟩
  | step _ hst ih =>
    refine ih.step ?_
    cases hst with
    | accept hfd => exact .accept hfd hfd
    | recv hl hne hcap => exact .recv hl hl hne rfl hcap hcap
    | drain hl =>
      refine .drain hl hl ⟨rfl, fun frame n frame' n' hs ht => ?_⟩
      obtain ⟨rfl, -⟩ := StreamDecoder.Verdict.item.inj (hs.symm.trans ht)
      exact .same frame
    | send hl hout hn hle => exact .send hl hl hout hout hn hle hle
    | disconnect hl => exact .disconnect hl hl

/-- Two frames that are equal but for such a text arrive in one piece. -/
theorem twoRuns_deliver {k : ℕ} {s : Server} {i : Slot} {frame frame' : Frame} (h : Reachable s)
    (hl : (s.clients i).Live) (hempty : (s.clients i).inbuf = [])
    (hsame : SameButText k s i frame frame') (hhead : frame.type = frame'.type)
    (hlen : frame.payload.length = frame'.payload.length)
    (hmax : frame.payload.length ≤ cwMaxPayloadSize) :
    Transition.Reachable (twoRuns k) (deliver s i frame, deliver s i frame') := by
  have hencode : frame.encode.length = frame'.encode.length := by
    rw [Frame.length_encode, Frame.length_encode, hlen]
  have hcap : (s.clients i).inbuf.length + frame.encode.length ≤ cwInbufCap := by
    rw [hempty, Frame.length_encode, List.length_nil, Nat.zero_add]
    exact Nat.add_le_add_left hmax _
  have hne : frame.encode ≠ [] := by
    rw [← List.length_pos_iff, Frame.length_encode]
    exact Nat.add_pos_left (by decide) _
  have hinbuf : ∀ chunk, ((recvChunk s i chunk).clients i).inbuf = chunk := by
    intro chunk
    rw [recvChunk, Server.emit_clients, Server.setClient_self]
    show (s.clients i).inbuf ++ chunk = chunk
    rw [hempty, List.nil_append]
  have hlive := live_recvChunk hl
  refine ((twoRuns_self k h).step (.recv hl hl hne hencode hcap (hencode ▸ hcap))).step
    (.drain (hlive _) (hlive _) ⟨?_, fun f n f' n' hs ht => ?_⟩)
  · rw [hinbuf, hinbuf, Frame.encode, Frame.encode, hhead, hlen]
    rfl
  · have hhead := frameHead_encode (by decide) hmax []
    have hhead' := frameHead_encode (by decide) (hlen ▸ hmax) []
    rw [List.append_nil] at hhead hhead'
    rw [hinbuf, hhead] at hs
    rw [hinbuf, hhead'] at ht
    obtain ⟨rfl, -⟩ := StreamDecoder.Verdict.item.inj hs
    obtain ⟨rfl, -⟩ := StreamDecoder.Verdict.item.inj ht
    refine hsame.congr (fun j => ?_) rfl
    rw [recvChunk, Server.emit_clients, Server.setClient_clients]
    rcases eq_or_ne j i with rfl | hji
    · exact ⟨_, Function.update_self ..⟩
    · exact ⟨(s.clients j).inbuf, Function.update_of_ne hji ..⟩

/-! ## Whole calls -/

/-- The turns of a `drain_input` that takes at most `n` of them find such fronts, one after the
other and each in the states that the turns before have left. -/
def DrainsAlike (k : ℕ) (i : Slot) : ℕ → Server → Server → Prop
  | 0, _, _ => True
  | n + 1, s, t => FrontAlike k s t i ∧
    ((drainTurn s i).1 = none → DrainsAlike k i n (drainTurn s i).2 (drainTurn t i).2)

/-- The answers of `recv` to a `read_from_client`: chunks of the same lengths whose frames are equal
but for texts that connection `k` does not see, and otherwise the same. -/
def ReadsAlike (k : ℕ) (i : Slot) (s t : Server) : List RecvResult → List RecvResult → Prop
  | [], [] => True
  | .data bytes :: rs, .data bytes' :: rs' =>
    let free := cwInbufCap - (s.clients i).inbuf.length
    let u := recvChunk s i (bytes.take free)
    let v := recvChunk t i (bytes'.take free)
    bytes.length = bytes'.length ∧ DrainsAlike k i ((u.clients i).inbuf.length + 1) u v ∧
      ((drainInput u i).1 = true → ReadsAlike k i (drainInput u i).2 (drainInput v i).2 rs rs')
  | .eof :: _, .eof :: _ | .again :: _, .again :: _ | .failed :: _, .failed :: _ => True
  | .intr :: rs, .intr :: rs' => ReadsAlike k i s t rs rs'
  | _, _ => False

/-- Runs of two servers whose states are alike, step by step. -/
structure Together (k : ℕ) (p q : Server × Server) : Prop where
  steps : Relation.ReflTransGen (TwoSteps k) p q
  reachable : Reachable q.1
  alike : Alike k q.1 q.2

namespace Together

variable {k : ℕ} {s t : Server} {i : Slot} {p q r : Server × Server}

theorem refl (hr : Reachable p.1) (h : Alike k p.1 p.2) : Together k p p := ⟨.refl, hr, h⟩

theorem trans (h : Together k p q) (h' : Together k q r) : Together k p r :=
  ⟨h.steps.trans h'.steps, h'.reachable, h'.alike⟩

theorem single (hr : Reachable p.1) (h : Alike k p.1 p.2) (hst : TwoSteps k p q) :
    Together k p q := ⟨.single hst, hr.step hst.steps.1, hst.alike h hr⟩

theorem disconnect {reason : Reason} (hr : Reachable s) (h : Alike k s t)
    (hl : (s.clients i).Live) :
    Together k (s, t) (disconnectClient s i reason, disconnectClient t i reason) :=
  single hr h (.disconnect hl ((h.live_iff i).mp hl))

theorem drainLoop {n : ℕ} (hr : Reachable s) (h : Alike k s t) (hl : (s.clients i).Live)
    (hdrains : DrainsAlike k i n s t) : (drainLoop n s i).1 = (drainLoop n t i).1 ∧
      Together k (s, t) ((drainLoop n s i).2, (drainLoop n t i).2) := by
  induction n generalizing s t with
  | zero => exact ⟨rfl, refl hr h⟩
  | succ n ih =>
    obtain ⟨hfront, hrest⟩ := hdrains
    have hstep : Together k (s, t) ((drainTurn s i).2, (drainTurn t i).2) :=
      single hr h (.drain hl ((h.live_iff i).mp hl) hfront)
    have hlive := live_of_drainTurn hl
    obtain ⟨hsame, -⟩ := h.drainTurn (channelsOk hr.moveReachable) (namesOk hr.moveReachable) hfront
    rw [Core.drainLoop, Core.drainLoop]
    cases hs : Core.drainTurn s i with
    | mk a s' =>
      cases ht : Core.drainTurn t i with
      | mk b t' =>
        rw [hs, ht] at hsame hstep
        rw [hs, ht] at hrest
        rw [hs] at hlive
        obtain rfl : a = b := hsame
        cases a with
        | none =>
          obtain ⟨hreturn, hrun⟩ := ih hstep.reachable hstep.alike (hlive (by simp)) (hrest rfl)
          exact ⟨hreturn, hstep.trans hrun⟩
        | some a => exact ⟨rfl, hstep⟩

/-- **A `drain_input` in both servers** takes the same turns and returns the same. -/
theorem drainInput (hr : Reachable s) (h : Alike k s t) (hl : (s.clients i).Live)
    (hdrains : DrainsAlike k i ((s.clients i).inbuf.length + 1) s t) :
    (drainInput s i).1 = (drainInput t i).1 ∧
      Together k (s, t) ((drainInput s i).2, (drainInput t i).2) := by
  rw [Core.drainInput, Core.drainInput, ← (h.clients i).inbuf]
  exact drainLoop hr h hl hdrains

/-- **A `read_from_client` in both servers.** -/
theorem readFromClient {rs rs' : List RecvResult} (hr : Reachable s) (h : Alike k s t)
    (hl : (s.clients i).Live) (hrs : .data [] ∉ rs) (hreads : ReadsAlike k i s t rs rs') :
    Together k (s, t) (readFromClient s i rs, readFromClient t i rs') := by
  induction rs generalizing s t rs' with
  | nil =>
    cases rs' with
    | nil => exact refl hr h
    | cons r' rs' => exact hreads.elim
  | cons r rs ih =>
    have hrest : RecvResult.data [] ∉ rs := fun h => hrs (List.mem_cons_of_mem _ h)
    cases rs' with
    | nil => cases r <;> exact hreads.elim
    | cons r' rs' =>
      have hlen := (h.clients i).inbuf
      simp only [Core.readFromClient, ← hlen]
      split_ifs with hfree
      · exact disconnect hr h hl
      · cases r <;> cases r' <;> try exact hreads.elim
        case data.data bytes bytes' =>
          obtain ⟨hbytes, hdrains, hnext⟩ := hreads
          have hroom := List.length_take_le (cwInbufCap - (s.clients i).inbuf.length) bytes
          have hsame : (bytes.take (cwInbufCap - (s.clients i).inbuf.length)).length =
              (bytes'.take (cwInbufCap - (s.clients i).inbuf.length)).length := by
            rw [List.length_take, List.length_take, hbytes]
          have hrecv := single hr h (.recv hl ((h.live_iff i).mp hl) (stored_ne_nil hfree hrs) hsame
            (by omega) (by omega))
          have hlive := live_recvChunk hl (bytes.take (cwInbufCap - (s.clients i).inbuf.length))
          obtain ⟨hreturn, hdrain⟩ := drainInput hrecv.reachable hrecv.alike hlive hdrains
          have hstay := live_of_drainInput hlive
          simp only at hnext ⊢
          cases hs : Core.drainInput (recvChunk s i _) i with
          | mk a s' =>
            cases ht : Core.drainInput (recvChunk t i _) i with
            | mk b t' =>
              rw [hs, ht] at hreturn hdrain hnext
              rw [hs] at hstay
              obtain rfl : a = b := hreturn
              cases a with
              | true =>
                exact (hrecv.trans hdrain).trans
                  (ih hdrain.reachable hdrain.alike (hstay rfl) hrest (hnext rfl))
              | false => exact hrecv.trans hdrain
        case eof.eof => exact disconnect hr h hl
        case again.again => exact refl hr h
        case intr.intr => exact ih hr h hl hrest hreads
        case failed.failed => exact disconnect hr h hl

/-- **A `write_to_client` in both servers**, with the same answers of `send`. -/
theorem writeToClient {rs : List SendResult} (hr : Reachable s) (h : Alike k s t)
    (hl : (s.clients i).Live) :
    Together k (s, t) (writeToClient s i rs, writeToClient t i rs) := by
  induction rs generalizing s t with
  | nil => exact refl hr h
  | cons r rs ih =>
    have hout := (h.clients i).out
    rw [Core.writeToClient, Core.writeToClient]
    cases hs : (s.clients i).out.toList with
    | nil =>
      rw [hs, List.map_nil] at hout
      rw [List.map_eq_nil_iff.mp hout.symm]
      exact refl hr h
    | cons frame rest =>
      cases ht : (t.clients i).out.toList with
      | nil =>
        rw [hs, ht] at hout
        cases hout
      | cons frame' rest' =>
        rw [hs, ht, List.map_cons, List.map_cons, List.cons.injEq] at hout
        obtain ⟨hlen, hsent⟩ := Prod.mk.inj hout.1
        cases r with
        | took n =>
          simp only [← hlen, ← hsent]
          split_ifs with hn
          · exact disconnect hr h hl
          · have hsend := single hr h (.send hl ((h.live_iff i).mp hl) hs ht (Nat.pos_of_ne_zero hn)
              (Nat.min_le_right ..) (by rw [← hlen, ← hsent]; exact Nat.min_le_right ..))
            exact hsend.trans (ih hsend.reachable hsend.alike (live_takeSent hl))
        | again => exact refl hr h
        | intr => exact ih hr h hl
        | failed => exact disconnect hr h hl

end Together

/-- A call of each of two servers, on the same schedule.  What `recv` returns is equal but for texts
that connection `k` does not see. -/
inductive TwoCalls (k : ℕ) : Server × Server → Server × Server → Prop where
  | accept {s t : Server} {fd : ℕ} {nonblocking : Bool} : FreshFd s fd → FreshFd t fd →
      TwoCalls k (s, t) (acceptConnection s fd nonblocking, acceptConnection t fd nonblocking)
  | read {s t : Server} {i : Slot} {rs rs' : List RecvResult} : (s.clients i).Live →
      (t.clients i).Live → .data [] ∉ rs → .data [] ∉ rs' → ReadsAlike k i s t rs rs' →
      TwoCalls k (s, t) (readFromClient s i rs, readFromClient t i rs')
  | write {s t : Server} {i : Slot} {rs : List SendResult} : (s.clients i).Live →
      (t.clients i).Live → TwoCalls k (s, t) (writeToClient s i rs, writeToClient t i rs)
  | pollError {s t : Server} {i : Slot} : (s.clients i).Live → (t.clients i).Live →
      TwoCalls k (s, t) (disconnectClient s i .pollError, disconnectClient t i .pollError)

/-- Two servers with the same queue limit and the same heap, call by call. -/
def twoCallRuns (k : ℕ) : Transition.System (Server × Server) where
  init := (twoRuns k).init
  step := TwoCalls k

/-- Each component of two calls is a call. -/
theorem TwoCalls.calls {k : ℕ} {p q : Server × Server} (h : TwoCalls k p q) :
    Call p.1 q.1 ∧ Call p.2 q.2 := by
  cases h with
  | accept hs ht => exact ⟨.accept hs, .accept ht⟩
  | read hls hlt hrs hrs' _ => exact ⟨.read hls hrs, .read hlt hrs'⟩
  | write hls hlt => exact ⟨.write hls, .write hlt⟩
  | pollError hls hlt => exact ⟨.pollError hls, .pollError hlt⟩

/-- **Two calls are two runs of steps.** -/
theorem TwoCalls.together {k : ℕ} {p q : Server × Server} (h : TwoCalls k p q)
    (hr : Reachable p.1) (hp : Alike k p.1 p.2) : Together k p q := by
  cases h with
  | accept hs ht => exact .single hr hp (.accept hs ht)
  | read hl _ hrs _ hreads => exact .readFromClient hr hp hl hrs hreads
  | write hl _ => exact .writeToClient hr hp hl
  | pollError hls hlt => exact .single hr hp (.disconnect hls hlt)

/-- Two runs call by call are runs of calls, and two runs step by step. -/
theorem twoCallRuns_twoRuns {k : ℕ} {p : Server × Server}
    (h : Transition.Reachable (twoCallRuns k) p) :
    CallReachable p.1 ∧ CallReachable p.2 ∧ Transition.Reachable (twoRuns k) p := by
  induction h with
  | init h =>
    obtain ⟨maxQueueBytes, heap, hpos, rfl⟩ := h
    exact ⟨.init ⟨_, _, hpos, rfl⟩, .init ⟨_, _, hpos, rfl⟩, .init ⟨_, _, hpos, rfl⟩⟩
  | step _ hst ih =>
    obtain ⟨hs, ht, hsteps⟩ := ih
    obtain ⟨hr, -, halike⟩ := twoRuns_alike hsteps
    exact ⟨hs.step hst.calls.1, ht.step hst.calls.2, hsteps.trans (hst.together hr halike).steps⟩

/-- What connection `k` and the tables of the server show of a state is the same in both. -/
structure SameView (k : ℕ) (s t : Server) : Prop where
  output : enqueuedTo k s.trace = enqueuedTo k t.trace
  live : ∀ i, (s.clients i).Live ↔ (t.clients i).Live
  registered : ∀ i, (s.clients i).registered = (t.clients i).registered
  username : ∀ i, (s.clients i).username = (t.clients i).username
  joined : ∀ i, (s.clients i).joined = (t.clients i).joined
  activeChannel : ∀ i, (s.clients i).activeChannel = (t.clients i).activeChannel
  channels : s.channels = t.channels
  stats : s.stats = t.stats

theorem Alike.sameView {k : ℕ} {s t : Server} (h : Alike k s t) : SameView k s t where
  output := h.output
  live := h.live_iff
  registered i := (h.clients i).registered
  username i := (h.clients i).username
  joined i := (h.clients i).joined
  activeChannel i := (h.clients i).activeChannel
  channels := h.channels
  stats := h.stats

/-- **Message bodies do not leak.**  Take two runs of the server on one schedule whose inputs are
equal but for texts, of equal lengths and without zero bytes, of `SAY` frames in channels that
connection `k` has not joined and of `DM` frames to other names than that of `k`.  At every point
both have enqueued the same frames to `k`, and they have the same names, memberships, channels and
counters. -/
theorem bodies_do_not_leak {k : ℕ} {s t : Server}
    (h : Transition.Reachable (twoRuns k) (s, t)) : SameView k s t := by
  obtain ⟨-, -, halike⟩ := twoRuns_alike h
  exact halike.sameView

/-- `alice` alone in a channel. -/
def aliceInRoom : Server := deliver (aliceAndBob 4096) 0 ⟨2, stringField (ascii "room")⟩

/-- What `alice` says in it is nothing to `bob`. -/
theorem bodies_do_not_leak_room :
    SameView 2 (deliver aliceInRoom 0 ⟨5, stringField (ascii "hello")⟩)
      (deliver aliceInRoom 0 ⟨5, stringField (ascii "olleh")⟩) := by
  have hreach : Reachable aliceInRoom := by
    refine .deliver (.deliver (.deliver (reachable_twoClients ?_) ?_ ?_) ?_ ?_) ?_ ?_ <;> decide
  have hout : OutOfEarshot 2 aliceInRoom 0 := by
    intro idx hfind j
    obtain rfl : 0 = idx := Option.some.inj ((by decide +kernel :
      findChannel aliceInRoom (aliceInRoom.clients 0).activeChannel = some 0).symm.trans hfind)
    revert j
    unfold Client.Live
    decide +kernel
  exact bodies_do_not_leak (twoRuns_deliver hreach (by decide +kernel) (by decide +kernel)
    (.say ⟨by decide +kernel, by decide, by decide, by decide⟩ hout) rfl (by decide +kernel)
    (by decide +kernel))

/-- **Nor do whole calls leak them.**  In two runs of the poll loop whose calls of `recv` return
chunks of the same lengths, equal but for such texts, and whose calls of `send` have the same
answers, both `drain_input`s take the same turns, and what connection `k` and the tables show is
the same. -/
theorem calls_do_not_leak {k : ℕ} {s t : Server}
    (h : Transition.Reachable (twoCallRuns k) (s, t)) :
    CallReachable s ∧ CallReachable t ∧ SameView k s t := by
  obtain ⟨hs, ht, hsteps⟩ := twoCallRuns_twoRuns h
  obtain ⟨-, -, halike⟩ := twoRuns_alike hsteps
  exact ⟨hs, ht, halike.sameView⟩

end Core
end ChannelWire
